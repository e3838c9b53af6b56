import OpenDisplay.Xfer.Etag
import OpenDisplay.Xfer.Ledger

/-! No refresh of an incomplete image, whichever handler asks for it. -/

namespace OpenDisplay

open Traces

variable {app : App} {cmd : Cmd}

/-- The transfers whose image must be whole before it is shown. A raw full image
in packed rows may be shown early. -/
def mustBeWhole (x : XferState) : Prop :=
  pipeMode x.mode = true ∨ x.mode = .directPartial ∨ x.compressed = true ∨
    x.geometry.layout = .controllerPlanes

/-- The inflater has verified the whole stream that the transfer was given, and
the panel has taken all it inflates to. -/
def Verified (es : List Event) (x : XferState) : Prop :=
  lastPump es = some .done ∧ Inflates x.expectedBytes (tally es).given (tally es).accepted

/-- What allows a refresh. -/
def Shows (pre : List Event) : Event → Prop
  | .refresh _ x _ _ _ => (mustBeWhole x → x.writtenBytes = x.expectedBytes) ∧
      (x.compressed = true → Verified pre x)
  | _ => True

def Drained (cmd : Cmd) : Event → Prop
  | .refresh _ _ queued _ _ => cmd.endsPipe = true → queued = 0
  | _ => True

/-- The image may be shown. -/
structure Ready (cmd : Cmd) (d : Dev) : Prop where
  whole : mustBeWhole d.xfer → d.xfer.writtenBytes = d.xfer.expectedBytes
  verified : d.xfer.compressed = true → Verified d.events d.xfer
  drained : cmd.endsPipe = true → d.pipe.queuedCount = 0

/-- The refreshes of a run so far, the last command's since it found `d₀`. -/
structure Guarded (cmd : Cmd) (d₀ : Dev) (s : Phase × Dev) : Prop where
  drained : ∃ es, s.2.events = d₀.events ++ es ∧ ∀ e ∈ es, Drained cmd e
  shows : Always Shows s.2.events
  ready : s.1 = .ready → Ready cmd s.2

theorem Shows.other {e : Event} (he : refreshes e = false) (pre : List Event) : Shows pre e := by
  cases e <;> trivial

theorem Drained.other {e : Event} (he : refreshes e = false) (cmd : Cmd) : Drained cmd e := by
  cases e <;> trivial

section Moves

variable {d d' d₀ : Dev} {p q : Phase}

theorem Guarded.append (h : Guarded cmd d₀ (p, d)) (es : List Event)
    (he : d'.events = d.events ++ es) (hes : ∀ e ∈ es, refreshes e = false)
    (hr : q = .ready → Ready cmd d') : Guarded cmd d₀ (q, d') := by
  obtain ⟨⟨es₀, hev, hdr⟩, hsh, -⟩ := h
  refine ⟨⟨es₀ ++ es, ?_, fun e hmem => ?_⟩, ?_, hr⟩
  · rw [← List.append_assoc, ← hev]
    exact he
  · rcases List.mem_append.mp hmem with hmem | hmem
    · exact hdr e hmem
    · exact .other (hes e hmem) cmd
  · change Always Shows d'.events
    rw [he, always_append]
    refine ⟨hsh, fun pre e post hpost => .other (hes e ?_) _⟩
    rw [hpost]
    exact List.mem_append_right _ List.mem_cons_self

theorem Guarded.refresh (h : Guarded cmd d₀ (.ready, d)) (refreshMode : UInt8) (ok completed : Bool)
    (hq : q ≠ .ready) :
    Guarded cmd d₀ (q, d.log (.refresh refreshMode d.xfer d.pipe.queuedCount ok completed)) := by
  obtain ⟨⟨es₀, hev, hdr⟩, hsh, hr⟩ := h
  have hr := hr rfl
  refine ⟨⟨es₀ ++ [.refresh refreshMode d.xfer d.pipe.queuedCount ok completed], ?_,
    fun e hmem => ?_⟩, always_concat.mpr ⟨hsh, hr.whole, hr.verified⟩, fun h => absurd h hq⟩
  · rw [← List.append_assoc, ← hev]
    rfl
  · rcases List.mem_append.mp hmem with hmem | hmem
    · exact hdr e hmem
    · obtain rfl := List.mem_singleton.mp hmem
      exact hr.drained

theorem Guarded.log (h : Guarded cmd d₀ (p, d)) {e : Event} (he : refreshes e = false)
    (hq : q ≠ .ready) : Guarded cmd d₀ (q, d.log e) :=
  h.append [e] rfl (by simpa using he) fun h => absurd h hq

theorem lastPump_log {e : Event} (he : untallied e = true) (hp : ∀ status, e ≠ .pump status)
    (es : List Event) : lastPump (es ++ [e]) = lastPump es := by
  unfold lastPump
  rw [List.foldl_append]
  cases e <;> first | rfl | exact absurd rfl (hp _) | exact absurd he nofun

theorem Ready.log (h : Ready cmd d) {e : Event} (he : untallied e = true)
    (hp : ∀ status, e ≠ .pump status) (hx : d'.xfer = d.xfer) (hq : d'.pipe = d.pipe)
    (hev : d'.events = d.events ++ [e]) : Ready cmd d' := by
  have ht : tally d'.events = tally d.events := by
    rw [hev, tally_concat, Tally.add_untallied _ he]
  refine ⟨?_, ?_, ?_⟩
  · rw [hx]
    exact h.whole
  · rw [hx, Verified, ht, hev, lastPump_log he hp]
    exact h.verified
  · rw [hq]
    exact h.drained

theorem CanShow.ready (h : CanShow cmd d) : Ready cmd d where
  whole hw := by
    rcases hw with hw | hw | hw | hw
    · exact h.whole (.inl hw)
    · exact h.whole (.inr (.inl hw))
    · exact absurd (h.raw.symm.trans hw) nofun
    · exact h.whole (.inr (.inr hw))
  verified hc := absurd (h.raw.symm.trans hc) nofun
  drained := h.drained

/-- The verdict of the inflater on the whole stream makes an image ready. -/
theorem Ledger.ready (h : Ledger (.rest, d)) (ho : odXferOwnsHardware d = true)
    (hc : d.xfer.compressed = true) (hq : cmd.endsPipe = true → d.pipe.queuedCount = 0)
    (hr : odXferStreamPush app [] true d = (.ok, d')) : Ready cmd d' := by
  obtain ⟨-, ha, hdone⟩ := h.final ho hc hr
  obtain ⟨hinf, hlen, hlast⟩ := hdone rfl
  have hst := odXferStreamPush_streams app [] true d
  rw [hr] at hst
  refine ⟨fun _ => ?_, fun _ => ⟨hlast, ?_⟩, ?_⟩
  · rw [← UInt32.toNat_inj, ha.written, hlen, ha.expected]
  · rw [ha.expected]
    exact hinf
  · rw [hst.pipe]
    exact hq

theorem Streams.unshown (hs : Streams d d') :
    ∃ es, d'.events = d.events ++ es ∧ ∀ e ∈ es, refreshes e = false := by
  obtain ⟨es, hes, hall⟩ := hs.events
  refine ⟨es, hes, fun e hmem => ?_⟩
  rcases hall e hmem with ⟨o, b, c, rfl⟩ | ⟨status, rfl⟩ <;> rfl

theorem Guarded.fed {bytes : Bytes} {received : UInt32} {ok : Bool}
    (h : Guarded cmd d₀ (p, d)) (hf : Fed app bytes (d.give bytes received) ok d')
    (hq : q ≠ .ready) : Guarded cmd d₀ (q, d') := by
  obtain ⟨es, hes, hall⟩ := hf.streams.unshown
  refine h.append (.stream bytes :: es) ?_ ?_ fun h => absurd h hq
  · rw [hes]
    simp [Dev.give, Dev.log]
  · simpa [refreshes] using hall

theorem Guarded.abort (h : Guarded cmd d₀ (p, d)) (reason : AbortReason) (clear : Bool)
    (hq : q ≠ .ready) : Guarded cmd d₀ (q, odXferAbortActive reason clear d) :=
  h.append _ (odXferAbortActive_events reason clear d)
    (fun e hmem => (abortEvents_mute reason _ clear e hmem).1) fun h => absurd h hq

theorem Move.guarded {s t : Phase × Dev} (hm : Move app cmd s t) (hl : Ledger s)
    (h : Guarded cmd d₀ s) : Guarded cmd d₀ t := by
  cases hm with
  | enter => exact h.append [] (by simp) (by simp) (by simp)
  | @replace d _ =>
    rw [odXferReplaceActive_eq]
    split_ifs
    · exact h.abort _ _ (by simp)
    · exact h.append [] (by simp) (by simp) (by simp)
  | reset _ => exact h.abort _ _ (by simp)
  | @note p d e hq =>
    refine h.append [e] rfl (by simpa using (quiet_mute hq).1) fun hp => ?_
    refine (h.ready hp).log (quiet_untallied hq) ?_ rfl rfl rfl
    rintro status rfl
    exact absurd hq Bool.false_ne_true
  | @clearEtag p d _ _ =>
    refine h.append [.setDisplayedEtag 0] rfl (by simp [refreshes]) fun hp => ?_
    exact (h.ready hp).log (e := .setDisplayedEtag 0) rfl (by simp) rfl rfl rfl
  | arm _ _ _ => exact h.append [_] rfl (by simp [refreshes]) (by simp)
  | begun he _ => exact h.log (by rcases he with rfl | rfl <;> rfl) (by simp)
  | beginFailed he => exact h.log (by rcases he with rfl | rfl <;> rfl) (by simp)
  | unacked _ _ => exact h.log rfl (by simp)
  | fed _ hf => exact h.fed hf (by simp)
  | spoiled _ hf => exact h.fed hf (by simp)
  | book _ hb _ =>
    rcases hb.events with he | ⟨e, he, rfl | ⟨n, rfl⟩⟩
    · exact h.append [] (by simpa using he) (by simp) (by simp)
    · exact h.append _ he (by simp [refreshes]) (by simp)
    · exact h.append _ he (by simp [refreshes]) (by simp)
  | abandon _ _ => exact h.abort _ _ (by simp)
  | fatal _ hm =>
    rw [odXferPipeEnterFatal_eq hm]
    refine h.append _ rfl ?_ (by simp)
    split_ifs <;> simp [refreshes]
  | complete _ _ hs => exact h.append [] (by simp) (by simp) fun _ => hs.ready
  | @inflated d d' _ ho hc hq hr =>
    have hst := odXferStreamPush_streams app [] true d
    rw [hr] at hst
    obtain ⟨es, hes, hall⟩ := hst.unshown
    exact h.append es hes hall fun _ => hl.ready ho hc hq hr
  | @finalFailed d d' r _ _ hr _ =>
    have hst := odXferStreamPush_streams app [] true d
    rw [hr] at hst
    obtain ⟨es, hes, hall⟩ := hst.unshown
    exact h.append es hes hall (by simp)
  | stamp _ =>
    refine h.append [] (by simp [markFinalized]) (by simp) fun hp => ?_
    have hr := h.ready hp
    exact ⟨hr.whole, hr.verified, hr.drained⟩
  | barrier _ => exact h.append [_] rfl (by simp [refreshes]) (by simp)
  | @refreshed d refreshMode completed =>
    have hg := h.refresh (q := .ended) refreshMode true completed (by simp)
    rcases settleEtag_events cmd completed
      (d.log (.refresh refreshMode d.xfer d.pipe.queuedCount true completed)) with he | ⟨etag, he⟩
    · exact hg.append [] (by rw [List.append_nil]; exact he) (by simp) (by simp)
    · exact hg.append _ he (by simp [refreshes]) (by simp)
  | unshown _ _ => exact h.refresh _ _ _ (by simp)
  | dropped _ _ _ => exact h.abort _ _ (by simp)

end Moves

theorem step_guarded (app : App) (cmd : Cmd) {d : Dev} (hd : Reachable d)
    (h : Always Shows d.events) :
    Always Shows (step app cmd d).events ∧ ∀ e ∈ logged app cmd d, Drained cmd e := by
  obtain ⟨p, -, hm⟩ := step_moves app cmd hd.coupled
  have h0 : Ledger (.fresh, d) ∧ Guarded cmd d (.fresh, d) :=
    ⟨hd.ledger, ⟨[], by simp, by simp⟩, h, nofun⟩
  obtain ⟨-, ⟨es, hes, hdr⟩, hsh, -⟩ := hm.rule (I := fun s => Ledger s ∧ Guarded cmd d s)
    (fun hm h => ⟨hm.ledger h.1, hm.guarded h.1 h.2⟩) h0
  refine ⟨hsh, ?_⟩
  have hlog : logged app cmd d = es := by
    unfold logged
    rw [hes, List.drop_left]
  rw [hlog]
  exact hdr

theorem Reachable.shows {d : Dev} (h : Reachable d) : Always Shows d.events := by
  refine h.rule (I := fun d => Always Shows d.events) (fun _ => Always.nil) ?_
  intro app cmd d hd hs
  exact (step_guarded app cmd hd hs).1

/-- Whatever the commands and the hooks do, a refresh finds its image whole, its
compressed stream verified, and, when END asks for it, no chunk left behind. -/
theorem refresh_complete (d : Dev) (h : Reachable d) :
    (∀ pre refreshMode x queued ok completed post,
      d.events = pre ++ .refresh refreshMode x queued ok completed :: post →
      (pipeMode x.mode = true ∨ x.mode = .directPartial ∨ x.compressed = true ∨
        x.geometry.layout = .controllerPlanes → x.writtenBytes = x.expectedBytes) ∧
      (x.compressed = true → lastPump pre = some .done ∧
        Inflates x.expectedBytes (tally pre).given (tally pre).accepted)) ∧
    ∀ app ctx body refreshMode x queued ok completed,
      .refresh refreshMode x queued ok completed ∈ logged app (.pipeEnd ctx body) d →
      queued = 0 := by
  refine ⟨fun pre refreshMode x queued ok completed post he => ?_, ?_⟩
  · exact h.shows pre _ post he
  · intro app ctx body refreshMode x queued ok completed hmem
    exact (step_guarded app (.pipeEnd ctx body) h h.shows).2 _ hmem rfl

/-- The body of a PIPE START for eight pixels of the image with ETag 7. -/
def pipeStartPixels : Bytes :=
  [pipeVersion, 2, 8, 1, 244, 0, 2, 0, 0, 0, 7, 0, 0, 0, 0, 0, 0, 0, 8, 0, 1, 0]

/-- A partial PIPE transfer that END shows. -/
theorem refresh_complete_pixels :
    let d := run [(.willing, .pipeStart .ble pipeStartPixels),
      (.willing, .pipeData .ble [0, 0xaa, 0x55])] (Dev.boot 7)
    ∃ x queued, .refresh refreshPartial x queued true true ∈ logged .willing (.pipeEnd .ble []) d ∧
      x.mode = .pipePartial ∧ x.writtenBytes = x.expectedBytes ∧ queued = 0 := by
  intro d
  have hmem : Event.refresh refreshPartial { d.xfer with finalized := true } d.pipe.queuedCount true
      true ∈ logged .willing (.pipeEnd .ble []) d := by decide +kernel
  have hd : Reachable d := ⟨7, _, rfl⟩
  have hend : Reachable (step .willing (.pipeEnd .ble []) d) :=
    ⟨7, [(.willing, .pipeStart .ble pipeStartPixels), (.willing, .pipeData .ble [0, 0xaa, 0x55]),
      (.willing, .pipeEnd .ble [])], rfl⟩
  have hmode : d.xfer.mode = .pipePartial := by decide +kernel
  obtain ⟨pre, post, he⟩ := List.append_of_mem (List.mem_of_mem_drop hmem)
  refine ⟨_, _, hmem, hmode, ?_, (refresh_complete d hd).2 _ _ _ _ _ _ _ _ hmem⟩
  exact ((refresh_complete _ hend).1 pre _ _ _ _ _ post he).1 (.inl (by rw [hmode]; rfl))

end OpenDisplay
