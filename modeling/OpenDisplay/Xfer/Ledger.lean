import OpenDisplay.Xfer.Accounting

/-! The books of a transfer through its whole life. -/

namespace OpenDisplay

open Traces

variable {app : App} {cmd : Cmd}

/-- The books that each phase keeps. A transfer that has become FATAL keeps its
counts, one that is over has none. -/
def LedgerPhase (p : Phase) (d : Dev) : Prop :=
  match p with
  | .fresh | .rest => (odXferOwnsHardware d = true → Account d ∧ Sound d) ∧
      (d.xfer.mode = .fatal → Account d)
  | .armed => Account d ∧ (tally d.events).given = [] ∧ (tally d.events).offered = [] ∧
      (tally d.events).accepted = []
  | .broken | .ready | .refused => Account d
  | .ended => d.xfer.mode = .idle

def Ledger (s : Phase × Dev) : Prop := Booked s.2.events ∧ LedgerPhase s.1 s.2

section Moves

variable {p : Phase} {d d' : Dev}

/-- The fields that the books are about. -/
structure SameBytes (d d' : Dev) : Prop where
  mode : d'.xfer.mode = d.xfer.mode
  compressed : d'.xfer.compressed = d.xfer.compressed
  expected : d'.xfer.expectedBytes = d.xfer.expectedBytes
  written : d'.xfer.writtenBytes = d.xfer.writtenBytes
  pump : d'.pump = d.pump

theorem SameBytes.of_xfer (hx : d'.xfer = d.xfer) (hp : d'.pump = d.pump) : SameBytes d d' := by
  refine ⟨?_, ?_, ?_, ?_, hp⟩ <;> rw [hx]

theorem Account.of_same (h : Account d) (hc : d'.xfer.compressed = d.xfer.compressed)
    (he : d'.xfer.expectedBytes = d.xfer.expectedBytes)
    (hw : d'.xfer.writtenBytes = d.xfer.writtenBytes) (ht : tally d'.events = tally d.events) :
    Account d' := by
  refine ⟨?_, ?_, ?_, ?_⟩ <;> rw [ht]
  · rw [hc, h.compressed]
  · rw [he, h.expected]
  · rw [hw, h.written]
  · exact h.bound

theorem Ledger.append (h : Ledger (p, d)) (hs : SameBytes d d') (es : List Event)
    (he : d'.events = d.events ++ es) (hes : ∀ e ∈ es, untallied e = true) : Ledger (p, d') := by
  obtain ⟨hb, hp⟩ := h
  obtain ⟨ht, hbooks⟩ := untallied_append d.events hes
  rw [← he] at ht hbooks
  have hacc : Account d → Account d' := fun h => h.of_same hs.compressed hs.expected hs.written ht
  have hsound : Sound d → Sound d' := fun h => ⟨by rw [ht]; exact h.whole,
    by rw [hs.compressed, ht]; exact h.raw, by rw [hs.compressed, ht, hs.pump]; exact h.packed⟩
  have ho : odXferOwnsHardware d' = odXferOwnsHardware d := by simp only [odXferOwnsHardware, hs.mode]
  refine ⟨hbooks hb, ?_⟩
  cases p with
  | fresh | rest =>
    refine ⟨fun hown => ?_, fun hf => hacc (hp.2 (hs.mode.symm.trans hf))⟩
    obtain ⟨ha, hs⟩ := hp.1 (ho.symm.trans hown)
    exact ⟨hacc ha, hsound hs⟩
  | armed => exact ⟨hacc hp.1, by rw [ht]; exact hp.2⟩
  | broken | ready | refused => exact hacc hp
  | ended => exact hs.mode.trans hp

theorem Ledger.log (h : Ledger (p, d)) {e : Event} (he : untallied e = true) :
    Ledger (p, d.log e) :=
  h.append (.of_xfer rfl rfl) [e] rfl (by simpa using he)

theorem Ledger.cleared (h : Booked d.events) (hm : d.xfer.mode = .idle) {q : Phase}
    (hq : q = .rest ∨ q = .ended) : Ledger (q, d) := by
  have ho : odXferOwnsHardware d = false := by simp [odXferOwnsHardware, hm]
  rcases hq with rfl | rfl
  · exact ⟨h, fun ho' => absurd (ho.symm.trans ho') (by simp), fun hf => absurd (hm.symm.trans hf) (by simp)⟩
  · exact ⟨h, hm⟩

theorem Ledger.abort (h : Ledger (p, d)) (reason : AbortReason) (clear : Bool) {q : Phase}
    (hq : q = .rest ∨ q = .ended) : Ledger (q, odXferAbortActive reason clear d) := by
  refine .cleared ?_ rfl hq
  rw [odXferAbortActive_events]
  refine (untallied_append _ ?_).2 h.1
  cases odXferOwnsHardware d <;> cases clear <;> simp [untallied]

theorem Ledger.rest (h : Ledger (.rest, d)) (ho : odXferOwnsHardware d = true) :
    Booked d.events ∧ Account d ∧ Sound d := ⟨h.1, h.2.1 ho⟩

/-- A transfer that owns the hardware rests with its books in order. -/
theorem Ledger.of_sound (hb : Booked d.events) (ha : Account d) (hs : Sound d) :
    Ledger (.rest, d) := ⟨hb, fun _ => ⟨ha, hs⟩, fun _ => ha⟩

theorem Admits.ledger {x : XferState} {p : PipeState} (ha : Admits d x p) (hb : Booked d.events)
    (pump : Pump) : Ledger (.armed, Dev.log (.admitted x.mode x.compressed x.expectedBytes)
      { d with xfer := x, pipe := p, pump := pump }) := by
  refine ⟨hb.concat trivial ⟨List.nil_prefix, List.nil_prefix⟩, ⟨?_, ?_, ?_, ?_⟩, ?_⟩ <;>
    rw [tally_log]
  · rfl
  · rfl
  · exact congrArg UInt32.toNat ha.written
  · exact Nat.zero_le _
  · exact ⟨rfl, rfl, rfl⟩

theorem Ledger.begin (h : Ledger (.armed, d)) {e : Event}
    (he : (tally d.events).add e = { tally d.events with given := [], offered := [], accepted := [] })
    (hf : (tally d.events).Fits e) :
    Booked (d.log e).events ∧ Account (d.log e) ∧ tally (d.log e).events = tally d.events := by
  obtain ⟨hb, ha, hnone⟩ := h
  obtain ⟨hg, hoff, hacc⟩ : (tally d.events).given = [] ∧ (tally d.events).offered = [] ∧
    (tally d.events).accepted = [] := hnone
  have ht : tally (d.log e).events = tally d.events := by
    rw [tally_log, he]
    change _ = Tally.mk _ _ (tally d.events).given (tally d.events).offered
      (tally d.events).accepted
    rw [hg, hoff, hacc]
    rfl
  refine ⟨hb.concat hf ?_, ha.of_same rfl rfl rfl ht, ht⟩
  rw [he]
  exact ⟨List.nil_prefix, List.nil_prefix⟩

theorem Ledger.begun (h : Ledger (.armed, d)) {e : Event}
    (he : e = .beginFull true ∨ e = .beginPartial true)
    (hp : d.xfer.compressed = true → d.pump = odZlibPumpReset d.xfer.expectedBytes) :
    Ledger (.rest, d.log e) := by
  obtain ⟨-, ha, hnone⟩ := id h
  obtain ⟨hg, hoff, hacc⟩ : (tally d.events).given = [] ∧ (tally d.events).offered = [] ∧
    (tally d.events).accepted = [] := hnone
  obtain ⟨hb', ha', ht⟩ := h.begin (e := e) (by rcases he with rfl | rfl <;> rfl)
    (by rcases he with rfl | rfl <;> trivial)
  refine .of_sound hb' ha' ⟨?_, fun _ => ?_, fun hc => ?_⟩
  · rw [ht, hoff, hacc]
  · rw [ht, hg, hacc, List.take_nil]
  · rw [ht, hg, hacc, ← ha.expected]
    change Decoded d.xfer.expectedBytes [] [] d.pump
    rw [hp hc]
    exact .reset _

theorem Ledger.enterFatal (hb : Booked d.events) (ha : Account d)
    (hm : pipeMode d.xfer.mode = true) : Ledger (.rest, odXferPipeEnterFatal d) := by
  rw [odXferPipeEnterFatal_eq hm]
  have hes : ∀ e ∈ (Event.abort .streamFailed ::
      if d.xfer.mode = .pipePartial then [.setDisplayedEtag 0] else []), untallied e = true := by
    split_ifs <;> simp [untallied]
  obtain ⟨ht, hbooks⟩ := untallied_append d.events hes
  refine ⟨hbooks hb, nofun, fun _ => ?_⟩
  exact ha.of_same rfl rfl rfl ht

theorem Ledger.final (h : Ledger (.rest, d)) (ho : odXferOwnsHardware d = true)
    (hc : d.xfer.compressed = true) {r : StreamResult}
    (hr : odXferStreamPush app [] true d = (r, d')) :
    Booked d'.events ∧ Account d' ∧ (r = .ok →
      Inflates (tally d'.events).expected (tally d'.events).given (tally d'.events).accepted ∧
      (tally d'.events).accepted.length = (tally d'.events).expected.toNat ∧
      lastPump d'.events = some .done) := by
  obtain ⟨hb, ha, hs⟩ := h.rest ho
  obtain ⟨hb', ha', hafter⟩ := ha.push hb hs.whole hc _ (hs.packed hc) (List.append_nil _).symm hr
  exact ⟨hb', ha', fun hok => (hafter hok).2.2 rfl⟩

theorem Move.ledger {s t : Phase × Dev} (hm : Move app cmd s t) (h : Ledger s) : Ledger t := by
  cases hm with
  | enter => exact h
  | @replace d _ =>
    rw [odXferReplaceActive_eq]
    split_ifs with hact
    · exact h.abort _ _ (.inl rfl)
    · simp only [odXferActive, ne_eq, decide_not, Bool.not_eq_true', decide_eq_false_iff_not,
        not_not] at hact
      exact .cleared h.1 hact (.inl rfl)
  | reset _ => exact h.abort _ _ (.inl rfl)
  | note hq => exact h.log (quiet_untallied hq)
  | clearEtag _ _ => exact h.append (.of_xfer rfl rfl) [.setDisplayedEtag 0] rfl (by simp [untallied])
  | arm pump _ ha => exact ha.ledger h.1 pump
  | begun he hp => exact h.begun he hp
  | @beginFailed d e he =>
    obtain ⟨hb, ha, -⟩ := h.begin (e := e) (by rcases he with rfl | rfl <;> rfl)
      (by rcases he with rfl | rfl <;> trivial)
    exact ⟨hb, ha⟩
  | unacked _ _ =>
    obtain ⟨hb, ha, -⟩ := h.log (e := .reply _ _ _) rfl
    exact ⟨hb, ha⟩
  | fed ho hf =>
    obtain ⟨hb, ha, hs⟩ := h.rest ho
    obtain ⟨hb', ha', hs'⟩ := hf.account hb ha hs
    exact .of_sound hb' ha' (hs' rfl)
  | spoiled ho hf =>
    obtain ⟨hb, ha, hs⟩ := h.rest ho
    obtain ⟨hb', ha', -⟩ := hf.account hb ha hs
    exact ⟨hb', ha'⟩
  | book _ hbooks _ =>
    have hsame := SameBytes.of_xfer hbooks.xfer hbooks.pump
    rcases hbooks.events with he | ⟨e, he, he'⟩
    · exact h.append hsame [] (by simpa using he) (by simp)
    · exact h.append hsame [e] he (by rcases he' with rfl | ⟨n, rfl⟩ <;> simp [untallied])
  | abandon _ _ => exact h.abort _ _ (.inl rfl)
  | fatal hp hm =>
    have ho := pipeMode_owns hm
    rcases hp with rfl | rfl
    · obtain ⟨hb, ha, -⟩ := h.rest ho
      exact .enterFatal hb ha hm
    · exact .enterFatal h.1 h.2 hm
  | complete _ ho _ =>
    obtain ⟨hb, ha, -⟩ := h.rest ho
    exact ⟨hb, ha⟩
  | inflated _ ho hc _ hr =>
    obtain ⟨hb, ha, -⟩ := h.final ho hc hr
    exact ⟨hb, ha⟩
  | finalFailed ho hc hr _ =>
    obtain ⟨hb, ha, -⟩ := h.final ho hc hr
    exact ⟨hb, ha⟩
  | stamp _ => exact h.append ⟨rfl, rfl, rfl, rfl, rfl⟩ [] (by simp [markFinalized]) (by simp)
  | barrier _ =>
    exact .cleared (h.1.log (e := .barrierAbort _) rfl) rfl (.inl rfl)
  | @refreshed d refreshMode completed =>
    have hb := (h.log (e := .refresh refreshMode d.xfer d.pipe.queuedCount true completed) rfl).1
    refine .cleared ?_ rfl (.inr rfl)
    rcases settleEtag_events cmd completed
      (d.log (.refresh refreshMode d.xfer d.pipe.queuedCount true completed)) with he | ⟨etag, he⟩
    · exact he ▸ hb
    · have := hb.log (e := .setDisplayedEtag etag) rfl
      exact he ▸ this
  | unshown _ _ => exact h.log rfl
  | dropped _ _ _ => exact h.abort _ _ (.inr rfl)

end Moves

theorem Reachable.ledger {d : Dev} (h : Reachable d) : Ledger (.fresh, d) := by
  refine h.phases (fun etag => ?_) Move.ledger fun hp hl => ?_
  · refine Ledger.cleared (q := .rest) ⟨Always.nil, fun pre hpre => ?_⟩ rfl (.inl rfl)
    rw [List.prefix_nil.mp hpre]
    exact ⟨List.nil_prefix, List.nil_prefix⟩
  · rcases hp with rfl | rfl | rfl
    · exact hl
    · exact hl
    · exact Ledger.cleared (q := .rest) hl.1 hl.2 (.inl rfl)

theorem Reachable.account {d : Dev} (h : Reachable d) (hm : d.xfer.mode ≠ .idle) : Account d := by
  obtain ⟨-, hown, hfatal⟩ := h.ledger
  by_cases hf : d.xfer.mode = .fatal
  · exact hfatal hf
  · exact (hown (by simp [odXferOwnsHardware, hm, hf])).1

/-- In every run each write to the panel starts where the accepted ones of its
transfer end, stays within the image, and continues the stream that the transfer
was given; and the transfer's own count is that of the accepted bytes. -/
theorem writes_accounted (d : Dev) (h : Reachable d) :
    (∀ pre offset data consumed post, d.events = pre ++ .write offset data consumed :: post →
      offset.toNat = (tally pre).accepted.length ∧
      (tally pre).accepted.length + data.length ≤ (tally pre).expected.toNat ∧
      (tally pre).accepted ++ data <+: (tally pre).source) ∧
    (∀ pre, pre <+: d.events →
      (tally pre).offered <+: (tally pre).source ∧ (tally pre).accepted <+: (tally pre).source) ∧
    (d.xfer.mode ≠ .idle → d.xfer.expectedBytes = (tally d.events).expected) ∧
    d.xfer.writtenBytes ≤ d.xfer.expectedBytes ∧
    d.xfer.writtenBytes.toNat =
      if d.xfer.mode = .idle then 0 else (tally d.events).accepted.length := by
  obtain ⟨hfits, hleads⟩ := h.ledger.1
  refine ⟨fun pre offset data consumed post he => ?_, hleads, fun hm => (h.account hm).expected, ?_⟩
  · obtain ⟨hw, hoff, hroom⟩ := hfits pre _ post he
    refine ⟨hoff, hroom, ?_⟩
    -- the moment right after the call
    have hnext := (hleads (pre ++ [.write offset data consumed]) ⟨post, by simp [he]⟩).1
    rw [tally_concat] at hnext
    rw [← hw]
    exact hnext
  · by_cases hm : d.xfer.mode = .idle
    · have hc := h.coupled.idle hm
      rw [if_pos hm, hc.xfer]
      exact ⟨UInt32.le_refl _, rfl⟩
    · have ha := h.account hm
      rw [if_neg hm]
      refine ⟨?_, ha.written⟩
      rw [UInt32.le_iff_toNat_le, ha.written, ha.expected]
      exact ha.bound

/-- A target whose panel takes the first write of an image and no other. -/
def App.stuck : App :=
  { App.willing with
    write := fun _ offset data => if offset = 0 then UInt32.ofNat data.length else 0 }

/-- An image whose second write the panel refuses. -/
theorem writes_accounted_refused :
    let d := run [(.stuck, .pipeStart .ble (pipeStartBody 8 1)), (.stuck, .pipeData .ble [1, 0x33]),
      (.stuck, .pipeData .ble [0, 0x55, 0x66])] (Dev.boot 7)
    d.xfer.mode = .fatal ∧ (tally d.events).accepted = [0x55, 0x66] ∧
      (tally d.events).offered = [0x55, 0x66, 0x33] ∧ d.xfer.writtenBytes.toNat =
        if d.xfer.mode = .idle then 0 else (tally d.events).accepted.length := by
  refine ⟨by decide +kernel, by decide +kernel, by decide +kernel, ?_⟩
  exact (writes_accounted _ ⟨7, _, rfl⟩).2.2.2.2

end OpenDisplay
