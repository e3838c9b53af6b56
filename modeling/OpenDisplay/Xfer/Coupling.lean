import OpenDisplay.Pipe.Paths

/-! The transfer's state and PIPE's state agree in every reachable state, so a
PIPE transfer never finds anything of an earlier one. -/

namespace OpenDisplay

variable {app : App} {cmd : Cmd}

theorem Cleared.coupled {d : Dev} (h : Cleared d) : Coupled d where
  idle _ := h
  isOpen := by rw [h.xfer, h.pipe]; decide
  isPartial _ := by rw [h.xfer, h.pipe]; rfl

theorem Coupled.of_eq {d d' : Dev} (h : Coupled d) (hm : d'.xfer.mode = d.xfer.mode)
    (hx : d.xfer.mode = .idle → d'.xfer = d.xfer) (hp : d'.pipe = d.pipe)
    (hr : d'.reorder = d.reorder) : Coupled d' where
  idle hi := by
    have hc := h.idle (hm.symm.trans hi)
    exact ⟨(hx (hm.symm.trans hi)).trans hc.xfer, hp.trans hc.pipe, hr.trans hc.reorder⟩
  isOpen := by rw [hm, hp]; exact h.isOpen
  isPartial := by rw [hm, hp]; exact h.isPartial

theorem Coupled.log {d : Dev} (h : Coupled d) (e : Event) : Coupled (d.log e) :=
  h.of_eq rfl (fun _ => rfl) rfl rfl

theorem Coupled.setEtag {d : Dev} (h : Coupled d) (etag : UInt32) :
    Coupled (odXferAppSetDisplayedEtag etag d) := h.of_eq rfl (fun _ => rfl) rfl rfl

theorem odXferAbortActive_cleared (reason : AbortReason) (clear : Bool) (d : Dev) :
    Cleared (odXferAbortActive reason clear d) := .clearState _

theorem Coupled.enterFatal {d : Dev} (h : Coupled d) (hm : pipeMode d.xfer.mode = true) :
    Coupled (odXferPipeEnterFatal d) := by
  have hopen := h.isOpen.mpr (.inl hm)
  have hidle : d.xfer.mode ≠ .idle := fun hi => by rw [hi] at hm; exact absurd hm nofun
  have hx : (odXferPipeEnterFatal d).xfer.mode = .fatal := by
    unfold odXferPipeEnterFatal
    dsimp only
    rw [if_pos]
    split_ifs <;> exact hidle
  have hp : (odXferPipeEnterFatal d).pipe = d.pipe := by
    unfold odXferPipeEnterFatal
    dsimp only
    split_ifs <;> rfl
  exact ⟨fun hi => absurd (hx.symm.trans hi) nofun, by simp [hp, hx, hopen], fun hf => absurd hx hf⟩

theorem Admits.coupled {d : Dev} {x : XferState} {p : PipeState} (h : Admits d x p) (pump : Pump)
    (e : Event) : Coupled (Dev.log e { d with xfer := x, pipe := p, pump := pump }) := by
  refine ⟨fun hi => absurd hi h.owns.1, ?_, fun _ => ?_⟩
  · change p.isOpen = true ↔ pipeMode x.mode = true ∨ x.mode = .fatal
    cases hm : pipeMode x.mode with
    | false => simp [h.direct hm, h.owns.2]
    | true =>
      obtain ⟨w, n, f, rfl⟩ := h.pipe hm
      simp [pipeNegotiate]
  · change p.isPartial = decide (x.mode = .pipePartial)
    cases hm : pipeMode x.mode with
    | false =>
      have hne : x.mode ≠ .pipePartial := fun hp => by rw [hp] at hm; exact absurd hm nofun
      simp [h.direct hm, hne]
    | true =>
      obtain ⟨w, n, f, rfl⟩ := h.pipe hm
      rfl

theorem Streams.coupled {d d' : Dev} (hs : Streams d d') (h : Coupled d)
    (ho : odXferOwnsHardware d = true) : Coupled d' := by
  simp only [odXferOwnsHardware, decide_eq_true_eq] at ho
  exact h.of_eq hs.mode (fun hi => absurd hi ho.1) hs.pipe hs.reorder

theorem Fed.coupled {bytes : Bytes} {received : UInt32} {ok : Bool} {d d' : Dev}
    (hf : Fed app bytes (d.give bytes received) ok d') (h : Coupled d)
    (ho : odXferOwnsHardware d = true) : Coupled d' := by
  have hne : d.xfer.mode ≠ .idle := by
    simp only [odXferOwnsHardware, decide_eq_true_eq] at ho
    exact ho.1
  exact hf.streams.coupled (h.of_eq rfl (fun hi => absurd hi hne) rfl rfl) ho

theorem Books.coupled {d d' : Dev} (hb : Books d d') (h : Coupled d)
    (hm : pipeMode d.xfer.mode = true) : Coupled d' where
  idle hi := by rw [hb.xfer] at hi; rw [hi] at hm; exact absurd hm nofun
  isOpen := by rw [hb.isOpen, hb.xfer]; exact h.isOpen
  isPartial := by rw [hb.isPartial, hb.xfer]; exact h.isPartial

theorem Move.coupled {s t : Phase × Dev} (hm : Move app cmd s t) (h : Coupled s.2) :
    Coupled t.2 := by
  cases hm with
  | enter => exact h
  | replace _ => exact h.replace.coupled
  | reset _ => exact (odXferAbortActive_cleared _ _ _).coupled
  | note _ => exact h.log _
  | clearEtag _ _ => exact h.setEtag 0
  | arm pump _ ha => exact ha.coupled pump _
  | begun _ _ => exact h.log _
  | beginFailed _ => exact h.log _
  | unacked _ _ => exact h.log _
  | fed ho hf => exact hf.coupled h ho
  | spoiled ho hf => exact hf.coupled h ho
  | book hm hb _ => exact hb.coupled h hm
  | abandon _ _ => exact (odXferAbortActive_cleared _ _ _).coupled
  | fatal _ hm => exact h.enterFatal hm
  | complete _ _ _ => exact h
  | @inflated d d' _ ho _ _ hr =>
    have hs := odXferStreamPush_streams app [] true d
    rw [hr] at hs
    exact hs.coupled h ho
  | @finalFailed d d' r ho _ hr _ =>
    have hs := odXferStreamPush_streams app [] true d
    rw [hr] at hs
    exact hs.coupled h ho
  | stamp ho =>
    simp only [odXferOwnsHardware, decide_eq_true_eq] at ho
    exact h.of_eq rfl (fun hi => absurd hi ho.1) rfl rfl
  | barrier _ => exact ((Cleared.clearState _).log _).coupled
  | refreshed _ _ => exact (Cleared.clearState _).coupled
  | unshown _ _ => exact h.log _
  | dropped _ _ _ => exact (odXferAbortActive_cleared _ _ _).coupled

theorem step_coupled (app : App) (cmd : Cmd) (d : Dev) (h : Coupled d) :
    Coupled (step app cmd d) := by
  obtain ⟨p, -, hm⟩ := step_moves app cmd h
  exact hm.rule (I := fun s => Coupled s.2) Move.coupled h

theorem Reachable.coupled {d : Dev} (h : Reachable d) : Coupled d :=
  h.rule (fun _ => Cleared.coupled ⟨rfl, rfl, rfl⟩) fun app cmd d _ => step_coupled app cmd d

/-- What holds at power-up, what every move keeps, and what the end of a command
hands to the next one, holds between commands in every run. -/
theorem Reachable.phases {I : Phase × Dev → Prop} (hboot : ∀ etag, I (.fresh, Dev.boot etag))
    (hmove : ∀ {app cmd s t}, Move app cmd s t → I s → I t)
    (hnext : ∀ {p d}, p = .fresh ∨ p = .rest ∨ p = .ended → I (p, d) → I (.fresh, d)) {d : Dev}
    (h : Reachable d) : I (.fresh, d) := by
  refine h.rule (I := fun d => I (.fresh, d)) hboot ?_
  intro app cmd d hd hi
  obtain ⟨p, hp, hm⟩ := step_moves app cmd hd.coupled
  exact hnext hp (hm.rule hmove hi)

section Fresh

variable (app) (ctx : Ctx)

/-- PIPE as a START leaves it: negotiated, with nothing received. -/
def Fresh (d : Dev) : Prop :=
  (∃ isPartial w n f, d.pipe = pipeNegotiate isPartial w n f {}) ∧ d.reorder = fun _ => {}

theorem odXferPipeActivate_frame (d : Dev) :
    (odXferPipeActivate app d).pipe = d.pipe ∧ (odXferPipeActivate app d).reorder = d.reorder := by
  unfold odXferPipeActivate odXferPipeEnterFatal
  dsimp only
  split <;> split_ifs <;> exact ⟨rfl, rfl⟩

theorem pipeOpen_fresh {isPartial : Bool} {body : Bytes} {d : Dev} (hp : d.pipe = {})
    (hr : d.reorder = fun _ => {}) (h : (pipeOpen app ctx isPartial body d).1 = .ok) :
    Fresh (pipeOpen app ctx isPartial body d).2 := by
  unfold pipeOpen at h ⊢
  dsimp only at h ⊢
  split at h
  · next u hu =>
    show Fresh (odXferPipeActivate app u)
    obtain ⟨hpipe, hreorder⟩ := odXferPipeActivate_frame app u
    have hu' := odXferReplyApp_eq ctx hu
    refine ⟨⟨isPartial, byteAt body 2, byteAt body 3, readLe16 (body.drop 4), ?_⟩, ?_⟩
    · rw [hpipe, hu', ← hp]
      rfl
    · rw [hreorder, hu']
      exact hr
  · exact absurd h nofun

theorem pipeAdmit_frame (mode : Mode) (total : UInt32) (compressed : Bool) (geometry : Geometry)
    (region : PartialState) (d : Dev) :
    (pipeAdmit app ctx mode total compressed geometry region d).pipe = d.pipe ∧
      (pipeAdmit app ctx mode total compressed geometry region d).reorder = d.reorder := by
  cases compressed <;> exact ⟨rfl, rfl⟩

/-- A START that succeeds: from a cleared state a transfer is admitted and opened. -/
def Started (body : Bytes) (d' : Dev) : Prop :=
  ∃ isPartial mode total compressed geometry region v, pipeMode mode = true ∧ v.pipe = {} ∧
    v.reorder = (fun _ => {}) ∧
    pipeOpen app ctx isPartial body (pipeAdmit app ctx mode total compressed geometry region v) = (.ok, d')

theorem Arms.started {cmd : Cmd} {s : Phase × Dev} {mode : Mode} {total : UInt32}
    {compressed isPartial : Bool} {u : Dev} {body : Bytes} (hm : pipeMode mode = true)
    (ha : Arms app cmd s ctx mode total compressed .ok u)
    (h : (pipeOpen app ctx isPartial body u).1 = .ok) :
    Started app ctx body (pipeOpen app ctx isPartial body u).2 := by
  obtain ⟨v, geometry, region, -, hv, rfl⟩ := ha.admitted rfl
  exact ⟨isPartial, mode, total, compressed, geometry, region, v, hm, hv.pipe, hv.reorder,
    Prod.ext h rfl⟩

theorem pipeArm_started {isPartial compressed : Bool} {body : Bytes} {d : Dev} (hc : Cleared d)
    (h : (pipeArm app ctx isPartial compressed body d).1 = .ok) :
    Started app ctx body (pipeArm app ctx isPartial compressed body d).2 := by
  have h0 : Moves app (.pipeStart ctx body) (.rest, d) (.rest, d) := .refl
  unfold pipeArm at h ⊢
  cases isPartial with
  | true =>
    simp only [if_true] at h ⊢
    split at h
    · next u hu => exact (h0.armPartial ctx rfl hc hu).started app ctx rfl h
    · exact absurd h nofun
  | false =>
    simp only [Bool.false_eq_true, if_false] at h ⊢
    split at h
    · next u hu => exact (h0.armFull ctx hc hu).started app ctx rfl h
    · exact absurd h nofun

theorem odPipeStart_started {body : Bytes} {d : Dev} (hd : Coupled d)
    (h : (odPipeStart app ctx body d).1 = .ok) :
    Started app ctx body (odPipeStart app ctx body d).2 := by
  have hc := hd.replace
  unfold odPipeStart at h ⊢
  dsimp only at h ⊢
  generalize pipeFrameOverhead + 1 + _ = minimumFrame at h ⊢
  split_ifs at h ⊢
  · exact absurd h nofun
  · exact absurd h nofun
  · exact absurd h nofun
  · exact absurd h nofun
  · exact absurd h nofun
  · exact pipeArm_started app ctx hc h

theorem Started.fresh {body : Bytes} {d : Dev} (h : Started app ctx body d) : Fresh d := by
  obtain ⟨isPartial, mode, total, compressed, geometry, region, v, -, hp, hr, hopen⟩ := h
  obtain ⟨hp', hr'⟩ := pipeAdmit_frame app ctx mode total compressed geometry region v
  have hf := pipeOpen_fresh app ctx (hp'.trans hp) (hr'.trans hr) (congrArg Prod.fst hopen)
  rwa [hopen] at hf

end Fresh

/-- In every reachable state PIPE's fields are zero while no transfer is
active, PIPE is open exactly while a PIPE transfer is, and a START that succeeds
finds nothing of an earlier transfer. -/
theorem reachable_coupling (d : Dev) (h : Reachable d) :
    (d.xfer.mode = .idle → d.pipe = {} ∧ ∀ i, (d.reorder i).occupied = false) ∧
    (d.pipe.isOpen = true ↔
      d.xfer.mode = .pipeFull ∨ d.xfer.mode = .pipePartial ∨ d.xfer.mode = .fatal) ∧
    (d.xfer.mode ≠ .fatal → d.pipe.isPartial = decide (d.xfer.mode = .pipePartial)) ∧
    ∀ app ctx body, (odPipeStart app ctx body d).1 = .ok →
      (odPipeStart app ctx body d).2.pipe.expectedSeq = 0 ∧
      (odPipeStart app ctx body d).2.pipe.receivedCount = 0 ∧
      (odPipeStart app ctx body d).2.pipe.queuedCount = 0 ∧
      (odPipeStart app ctx body d).2.reorder = fun _ => {} := by
  have hc := h.coupled
  refine ⟨fun hi => ⟨(hc.idle hi).pipe, fun i => by rw [(hc.idle hi).reorder]⟩, ?_, hc.isPartial,
    fun app ctx body hok => ?_⟩
  · rw [hc.isOpen]
    simp [pipeMode, or_assoc]
  · obtain ⟨⟨isPartial, w, n, f, hp⟩, hr⟩ := (odPipeStart_started app ctx hc hok).fresh
    rw [hp]
    exact ⟨rfl, rfl, rfl, hr⟩

/-- A PIPE transfer with a frame held out of order, replaced by another. -/
theorem reachable_coupling_replaced :
    let d := run [(.willing, .pipeStart .ble (pipeStartBody 32 1)),
      (.willing, .pipeData .ble [3, 0x55])] (Dev.boot 7)
    d.pipe.queuedCount = 1 ∧ (odPipeStart .willing .ble (pipeStartBody 8 1) d).2.reorder = fun _ => {} := by
  refine ⟨by decide +kernel, ?_⟩
  exact ((reachable_coupling _ ⟨7, _, rfl⟩).2.2.2 _ _ _ (by decide +kernel)).2.2.2

end OpenDisplay
