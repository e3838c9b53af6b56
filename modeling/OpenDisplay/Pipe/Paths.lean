import OpenDisplay.Xfer.Paths

/-! The commands of PIPE as paths of moves, and with them every command. -/

namespace OpenDisplay

open Loops

variable {app : App} {cmd : Cmd} {s : Phase × Dev} {p : Phase} {d : Dev}

/-- What the bookkeeping of PIPE leaves alone. -/
structure Steady (d d' : Dev) : Prop where
  mode : d'.xfer.mode = d.xfer.mode
  compressed : d'.xfer.compressed = d.xfer.compressed
  isPartial : d'.pipe.isPartial = d.pipe.isPartial

theorem Steady.refl (d : Dev) : Steady d d := ⟨rfl, rfl, rfl⟩

theorem Steady.trans {d' d'' : Dev} (h : Steady d d') (h' : Steady d' d'') : Steady d d'' :=
  ⟨h'.mode.trans h.mode, h'.compressed.trans h.compressed, h'.isPartial.trans h.isPartial⟩

theorem Books.steady {d' : Dev} (h : Books d d') : Steady d d' :=
  ⟨by rw [h.xfer], by rw [h.xfer], h.isPartial⟩

theorem Streams.steady {d' : Dev} (h : Streams d d') : Steady d d' := by
  obtain ⟨r, w, hx⟩ := h.xfer
  exact ⟨by rw [hx], by rw [hx], by rw [h.pipe]⟩

theorem pipeMode_owns (hm : pipeMode d.xfer.mode = true) : odXferOwnsHardware d = true := by
  simp only [pipeMode, decide_eq_true_eq] at hm
  rcases hm with hm | hm <;> simp [odXferOwnsHardware, hm]

section Data

variable (ctx : Ctx)

theorem Moves.dataNack (h : Moves app cmd s (p, d)) (hp : p = .rest ∨ p = .broken)
    (hm : pipeMode d.xfer.mode = true) (error : UInt8) (cause : TerminalCause) :
    Moves app cmd s (.rest, (pipeSendDataNack ctx error cause d).2) :=
  ((h.replyError ctx _).terminal cause).move (.fatal hp hm)

theorem Moves.sackOrFatal (h : Moves app cmd s (.rest, d)) (hm : pipeMode d.xfer.mode = true)
    {ok : Bool} {d' : Dev} (hr : pipeSackOrFatal app ctx d = (ok, d')) :
    Moves app cmd s (.rest, d') ∧ (ok = true → d'.xfer = d.xfer ∧
      d'.pipe = { d.pipe with framesSinceAck := 0, oooAcksSinceGap := 0 }) := by
  have hsend : ∀ status u, pipeSendSack app ctx d = (status, u) → Moves app cmd s (.rest, u) ∧
      u.xfer = d.xfer ∧ u.pipe = { d.pipe with framesSinceAck := 0, oooAcksSinceGap := 0 } := by
    intro status u hs
    obtain ⟨-, rfl⟩ := Prod.mk.inj hs
    refine ⟨(h.note ?_).move (.book hm ⟨rfl, rfl, rfl, rfl, rfl, .inl rfl⟩
      (.inr ⟨_, _, _, rfl⟩)), rfl, rfl⟩
    simp [quiet, isStartAck, respAck, respPipeData, respPipeStart]
  unfold pipeSackOrFatal at hr
  split at hr
  · next u hs =>
    obtain ⟨rfl, rfl⟩ := Prod.mk.inj hr
    obtain ⟨hu, hx⟩ := hsend _ _ hs
    exact ⟨hu, fun _ => hx⟩
  · next status u _ hs =>
    obtain ⟨rfl, rfl⟩ := Prod.mk.inj hr
    obtain ⟨hu, hx, -⟩ := hsend _ _ hs
    exact ⟨(hu.terminal _).move (.fatal (.inl rfl) (by rw [← hm, ← hx]; rfl)), by simp⟩

theorem Fed.consume {payload : Bytes} {r : StreamResult} {d' : Dev}
    (h : odXferPipeConsume app payload d = (r, d')) :
    ∃ received, Fed app payload (d.give payload received) (decide (r = .ok)) d' := by
  unfold odXferPipeConsume at h
  dsimp only at h
  split_ifs at h with hbad hover hc
  · obtain ⟨rfl, rfl⟩ := Prod.mk.inj h
    exact ⟨d.xfer.receivedBytes, .inr ⟨rfl, rfl⟩⟩
  · obtain ⟨rfl, rfl⟩ := Prod.mk.inj h
    exact ⟨d.xfer.receivedBytes, .inr ⟨rfl, rfl⟩⟩
  · change odXferStreamPush app payload false
      (d.give payload (d.xfer.receivedBytes + UInt32.ofNat payload.length)) = _ at h
    refine ⟨_, Fed.push ?_ h⟩
    exact hc
  · change OpenDisplay.pipeConsumeRaw app payload
      (d.give payload (d.xfer.receivedBytes + UInt32.ofNat payload.length)) = _ at h
    refine ⟨_, Fed.pipeConsumeRaw ?_ h⟩
    exact Bool.eq_false_of_not_eq_true hc

theorem Moves.hand (h : Moves app cmd s (.rest, d)) (hm : pipeMode d.xfer.mode = true)
    {payload : Bytes} {r : StreamResult} {d' : Dev} (hr : pipeHand app payload d = (r, d')) :
    Moves app cmd s (if r = .ok then .rest else .broken, d') ∧ Steady d d' := by
  have ho := pipeMode_owns hm
  unfold pipeHand at hr
  split_ifs at hr
  · obtain ⟨rfl, rfl⟩ := Prod.mk.inj hr
    exact ⟨h, .refl _⟩
  · obtain ⟨received, hf⟩ := Fed.consume hr
    have hu := h.feed ho hf
    have hst := hf.streams.steady
    exact ⟨by simpa using hu, hst.mode, hst.compressed, hst.isPartial⟩

theorem pipeRelease_books (d : Dev) : Books d (pipeRelease d) :=
  ⟨rfl, rfl, rfl, rfl, rfl, .inr ⟨_, rfl, .inl rfl⟩⟩

theorem pipeDrainPass_next {d' : Dev} (h : pipeDrainPass app d = .next d') :
    ∃ u, pipeHand app (d.reorder (pipeSlot d.pipe.expectedSeq)).data d = (.ok, u) ∧
      d' = pipeRelease u := by
  unfold pipeDrainPass at h
  dsimp only at h
  split_ifs at h
  split at h
  · next u hu => exact ⟨u, hu, (Iter.next.inj h).symm⟩
  · cases h

theorem pipeDrainPass_stop {r : StreamResult × Dev} (h : pipeDrainPass app d = .stop r) :
    pipeHand app (d.reorder (pipeSlot d.pipe.expectedSeq)).data d = r ∧ r.1 ≠ .ok ∨ r = (.ok, d) := by
  unfold pipeDrainPass at h
  dsimp only at h
  split_ifs at h
  · split at h
    · cases h
    · next q u hne hu =>
      obtain rfl := Iter.stop.inj h
      exact .inl ⟨hu, hne⟩
  · exact .inr (Iter.stop.inj h).symm

theorem Moves.drain (h : Moves app cmd s (.rest, d)) (hf : cmd.feedsPipe = true)
    (hm : pipeMode d.xfer.mode = true) :
    Moves app cmd s (if (pipeDrain app d).1 = .ok then .rest else .broken, (pipeDrain app d).2) ∧
      Steady d (pipeDrain app d).2 := by
  refine loop_rule (P := fun d (r : StreamResult × Dev) => Moves app cmd s (.rest, d) →
    pipeMode d.xfer.mode = true →
    Moves app cmd s (if r.1 = .ok then .rest else .broken, r.2) ∧ Steady d r.2) ?_ ?_ d h hm
  · intro d r hs h hm
    rcases pipeDrainPass_stop hs with ⟨hr, -⟩ | rfl
    · exact h.hand hm hr
    · exact ⟨h, .refl d⟩
  · intro d d' r hn ih h hm
    obtain ⟨u, hu, rfl⟩ := pipeDrainPass_next hn
    obtain ⟨hmu, hst⟩ := h.hand hm hu
    have hmode : pipeMode u.xfer.mode = true := by rw [hst.mode, hm]
    have hb := (pipeRelease_books u)
    obtain ⟨hr, hst'⟩ := ih (hmu.move (.book hmode hb (.inl hf))) hmode
    exact ⟨hr, (hst.trans hb.steady).trans hst'⟩

end Data

section Finish

variable (ctx : Ctx)

theorem pipeMode_of_partialMode {mode : Mode} (hm : pipeMode mode = true) :
    partialMode mode = decide (mode = .pipePartial) := by
  cases mode <;> first | rfl | exact absurd hm nofun

theorem Moves.pipeBarrierAbort (h : Moves app cmd s (.ready, d)) :
    pipeMode d.xfer.mode = true → Moves app cmd s (.rest, odXferPipeBarrierAbort d) := by
  intro hm
  have ht := h.terminal .barrierAborted
  unfold odXferPipeBarrierAbort
  dsimp only
  split_ifs with hp
  · have hp' : d.xfer.mode = .pipePartial := hp
    exact (ht.move (.clearEtag nofun (.inl (by
      simp [partialMode, odXferTerminalFailure, Dev.log, hp'])))).move (.barrier fun _ => rfl)
  · refine ht.move (.barrier fun he => ?_)
    rw [pipeMode_of_partialMode (by exact hm)] at he
    exact absurd (of_decide_eq_true he) hp

theorem settleEtag_pipe (cmd : Cmd) (completed : Bool) (hm : pipeMode d.xfer.mode = true) :
    settleEtag cmd completed d =
      pipeEtag (decide (d.xfer.mode = .pipePartial)) completed cmd.hasEtag cmd.newEtag d := by
  simp only [pipeMode, decide_eq_true_eq] at hm
  rcases hm with hm | hm <;> simp [settleEtag, hm]

theorem dropsEtag_pipe (cmd : Cmd) (hm : pipeMode d.xfer.mode = true) :
    dropsEtag cmd d (decide (d.xfer.mode = .pipePartial) || cmd.hasEtag) := by
  simp only [pipeMode, decide_eq_true_eq] at hm
  rcases hm with hm | hm <;> simp [dropsEtag, hm]

theorem Moves.pipeRefresh (h : Moves app cmd s (.ready, d)) (hm : pipeMode d.xfer.mode = true)
    {refreshMode : UInt8} {ok completed : Bool} {d' : Dev}
    (hr : odXferPipeRefresh app refreshMode cmd.hasEtag cmd.newEtag d = (ok, completed, d')) :
    Moves app cmd s (.ended, d') := by
  unfold odXferPipeRefresh at hr
  simp only [hm, Bool.true_eq_false, if_false] at hr
  split at hr
  · next c u hf =>
    have hx : u.xfer = d.xfer := by rw [odXferAppRefresh_eq hf]; rfl
    simp only [Prod.mk.injEq] at hr
    obtain ⟨rfl, rfl, rfl⟩ := hr
    rw [← hx]
    exact ((h.unshown hf).terminal .refreshFailed).move
      (.dropped _ _ (dropsEtag_pipe (d := odXferTerminalFailure _ u) cmd (by rw [← hm, ← hx]; rfl)))
  · next c u hf =>
    have hx : u.xfer = d.xfer := by rw [odXferAppRefresh_eq hf]; rfl
    simp only [Prod.mk.injEq] at hr
    obtain ⟨rfl, rfl, rfl⟩ := hr
    have hu := h.refreshed hf
    rw [settleEtag_pipe cmd c (by rw [hx, hm]), hx] at hu
    exact hu

theorem Moves.pipeFinish (h : Moves app cmd s (.ready, d)) (hm : pipeMode d.xfer.mode = true)
    (hp : d.pipe.isPartial = decide (d.xfer.mode = .pipePartial)) :
    Ends app cmd s (pipeFinish app ctx cmd.endBody d).2 := by
  have hs := h.move (.stamp (pipeMode_owns hm))
  unfold OpenDisplay.pipeFinish
  dsimp only
  split
  · next u hr =>
    have hu := hs.replyApp ctx rfl hr
    have hum : pipeMode u.xfer.mode = true := by rw [odXferReplyApp_eq ctx hr]; exact hm
    split
    · next v hb =>
      simp only [odXferPipeBeforeRefresh, hum, Bool.true_eq_false, if_false] at hb
      exact ((hu.beforeRefresh hb).pipeBarrierAbort
        (by rw [odXferAppBeforeRefresh_eq hb]; exact hum)).ends
    · next v hb =>
      simp only [odXferPipeBeforeRefresh, hum, Bool.true_eq_false, if_false] at hb
      have hv := hu.beforeRefresh hb
      have hvm : pipeMode v.xfer.mode = true := by rw [odXferAppBeforeRefresh_eq hb]; exact hum
      split
      · next w hf => exact ((hv.pipeRefresh hvm hf).replyError ctx _).ended
      · next completed w hf => exact ((hv.pipeRefresh hvm hf).refreshReply ctx completed).ended
  · next hr =>
    have hu := hs.replyApp ctx rfl hr
    obtain rfl := odXferReplyApp_eq ctx hr
    refine (hu.failActive (.inr (.inr rfl)) _ _ fun he => .inl ?_).ends
    rw [pipeMode_of_partialMode (by exact hm)] at he
    exact hp.trans he

theorem Moves.afterDrain (h : Moves app cmd s (.rest, d)) (hs : cmd.starts = false)
    (he : cmd.endsPipe = false) (hbody : cmd.endBody = []) (hm : pipeMode d.xfer.mode = true)
    (hp : d.pipe.isPartial = decide (d.xfer.mode = .pipePartial)) :
    Ends app cmd s (pipeAfterDrain app ctx d).2 := by
  unfold pipeAfterDrain
  generalize hd1 : (if d.pipe.queuedCount = 0 then { d with pipe := { d.pipe with gapOpen := false } }
    else d : Dev) = d1
  dsimp only
  have hb : Books d d1 := by
    subst hd1
    split_ifs <;> exact ⟨rfl, rfl, rfl, rfl, rfl, .inl rfl⟩
  have h1 := h.move (.book hm hb (.inr ⟨if d.pipe.queuedCount = 0 then false else d.pipe.gapOpen,
    d.pipe.framesSinceAck, d.pipe.oooAcksSinceGap, by rw [← hd1]; split_ifs <;> rfl⟩))
  have hm1 : pipeMode d1.xfer.mode = true := by rw [hb.xfer, hm]
  split_ifs with hdone hack
  · split
    · next u hr => exact (h1.sackOrFatal ctx hm1 hr).1.ends
    · next u hr =>
      obtain ⟨hu, hx⟩ := h1.sackOrFatal ctx hm1 hr
      obtain ⟨hx, hpipe⟩ := hx rfl
      obtain ⟨-, hc, hcomp⟩ := hdone
      have hwhole : u.xfer.writtenBytes = u.xfer.expectedBytes := by
        rw [hx]
        simpa [odXferPipeComplete, hm1] using hcomp
      have ho : odXferOwnsHardware u = true := pipeMode_owns (by rw [hx, hm1])
      have hready := hu.move (.complete hs ho ⟨by rw [hx, hc], fun _ => hwhole, by simp [he]⟩)
      rw [← hbody]
      refine hready.pipeFinish ctx (by rw [hx, hm1]) ?_
      rw [hpipe, hx, hb.xfer, ← hp]
      exact hb.isPartial
  · split
    · next u hr => exact (h1.sackOrFatal ctx hm1 hr).1.ends
    · next u hr => exact (h1.sackOrFatal ctx hm1 hr).1.ends
  · exact h1.ends

theorem pipeUpdateHighest_isOpen (seq : UInt8) (p : PipeState) :
    (pipeUpdateHighest seq p).isOpen = p.isOpen ∧
      (pipeUpdateHighest seq p).isPartial = p.isPartial := by
  unfold pipeUpdateHighest
  dsimp only
  split_ifs <;> exact ⟨rfl, rfl⟩

theorem Moves.inOrder (h : Moves app cmd s (.rest, d)) (hf : cmd.feedsPipe = true)
    (hs : cmd.starts = false) (he : cmd.endsPipe = false) (hbody : cmd.endBody = []) (hm : pipeMode d.xfer.mode = true)
    (hp : d.pipe.isPartial = decide (d.xfer.mode = .pipePartial)) (seq : UInt8) (payload : Bytes) :
    Ends app cmd s (pipeInOrder app ctx seq payload d).2 := by
  unfold pipeInOrder
  split
  · next u hr =>
    obtain ⟨hu, hst⟩ := h.hand hm hr
    have hmu : pipeMode u.xfer.mode = true := by rw [hst.mode, hm]
    dsimp only
    generalize hv : ({ pipeTake u with
      pipe := pipeUpdateHighest seq { (pipeTake u).pipe with
        framesSinceAck := (pipeTake u).pipe.framesSinceAck + 1 } } : Dev) = v
    have hb : Books u v := by
      obtain ⟨hopen, hpart⟩ := pipeUpdateHighest_isOpen seq { (pipeTake u).pipe with
        framesSinceAck := (pipeTake u).pipe.framesSinceAck + 1 }
      subst hv
      exact ⟨rfl, rfl, rfl, hopen, hpart, .inr ⟨_, rfl, .inl rfl⟩⟩
    have hmv : pipeMode v.xfer.mode = true := by rw [hb.xfer, hmu]
    obtain ⟨hd, hst'⟩ := (hu.move (.book hmu hb (.inl hf))).drain hf hmv
    have hall := (hst.trans hb.steady).trans hst'
    split
    · next w hw =>
      rw [hw] at hd hall
      refine Moves.afterDrain ctx hd hs he hbody (by rw [hall.mode, hm]) ?_
      rw [hall.isPartial, hall.mode, hp]
    · next r w hne hw =>
      rw [hw, if_neg hne] at hd
      rw [hw] at hall
      exact (hd.dataNack ctx (.inr rfl) (by rw [hall.mode, hm]) _ _).ends
  · next r u hne hr =>
    obtain ⟨hu, hst⟩ := h.hand hm hr
    rw [if_neg hne] at hu
    exact (hu.dataNack ctx (.inr rfl) (by rw [hst.mode, hm]) _ _).ends

theorem Moves.firstAck (h : Moves app cmd s (.rest, d)) (hm : pipeMode d.xfer.mode = true) :
    Moves app cmd s (.rest, (pipeFirstAck app ctx d).2) := by
  unfold pipeFirstAck
  split
  · next u hr => exact (h.sackOrFatal ctx hm hr).1
  · next u hr => exact (h.sackOrFatal ctx hm hr).1

theorem Moves.gapAck (h : Moves app cmd s (.rest, d)) (hm : pipeMode d.xfer.mode = true) :
    Moves app cmd s (.rest, (pipeGapAck app ctx d).2) := by
  have hb : Moves app cmd s (.rest,
      { d with pipe := { d.pipe with oooAcksSinceGap := d.pipe.oooAcksSinceGap + 1 } }) :=
    h.move (.book hm ⟨rfl, rfl, rfl, rfl, rfl, .inl rfl⟩ (.inr ⟨_, _, _, rfl⟩))
  unfold pipeGapAck
  dsimp only
  split_ifs
  · split
    · next u hr => exact (hb.sackOrFatal ctx hm hr).1
    · next u hr => exact (hb.sackOrFatal ctx hm hr).1
  · exact hb

theorem Moves.outOfOrder (h : Moves app cmd s (.rest, d)) (hf : cmd.feedsPipe = true)
    (hm : pipeMode d.xfer.mode = true) (seq : UInt8) (payload : Bytes) :
    Moves app cmd s (.rest, (pipeOutOfOrder app ctx seq payload d).2) := by
  have hb : Moves app cmd s (.rest, pipeStore seq payload d) :=
    h.move (.book hm ⟨rfl, rfl, rfl, rfl, rfl, .inl rfl⟩ (.inl hf))
  obtain ⟨hopen, hpart⟩ := pipeUpdateHighest_isOpen seq (pipeStore seq payload d).pipe
  unfold pipeOutOfOrder
  dsimp only
  split_ifs with hbig hfull hgap
  · exact h.dataNack ctx (.inl rfl) hm _ _
  · exact hb.dataNack ctx (.inl rfl) hm _ _
  · refine Moves.firstAck ctx (hb.move (.book hm ?_ (.inl hf))) hm
    exact ⟨rfl, rfl, rfl, hopen, hpart, .inr ⟨_, rfl, .inr ⟨_, rfl⟩⟩⟩
  · refine Moves.gapAck ctx (hb.move (.book hm ?_ (.inl hf))) hm
    exact ⟨rfl, rfl, rfl, hopen, hpart, .inr ⟨_, rfl, .inr ⟨_, rfl⟩⟩⟩

theorem Moves.pipeData (h : Moves app cmd (.fresh, d) (.fresh, d)) (hf : cmd.feedsPipe = true)
    (hs : cmd.starts = false) (he : cmd.endsPipe = false) (hbody : cmd.endBody = []) (hd : Coupled d) (body : Bytes) :
    Ends app cmd (.fresh, d) (odPipeData app ctx body d).2 := by
  have h1 := h.move .enter
  unfold odPipeData
  split_ifs with horigin hopen howner hfit
  · exact (h1.note (e := .reply _ _ _) (by simp [quiet, isStartAck, respNack, respAck])).ends
  · exact h1.ends
  · exact h1.ends
  · simp only [not_or, Bool.not_eq_false] at hopen
    exact (h1.dataNack ctx (.inl rfl) hopen.2.2.2 _ _).ends
  · simp only [not_or, Bool.not_eq_false] at hopen
    obtain ⟨-, hfatal, -, hm⟩ := hopen
    unfold pipeFrame
    dsimp only
    split_ifs
    · exact h1.inOrder ctx hf hs he hbody hm (hd.isPartial hfatal) _ _
    · exact (h1.outOfOrder ctx hf hm _ _).ends
    · exact (h1.firstAck ctx hm).ends
    · exact (h1.gapAck ctx hm).ends
    · exact (h1.dataNack ctx (.inl rfl) hm _ _).ends

theorem Moves.incomplete (h : Moves app cmd s (p, d)) (hp : p = .rest ∨ p = .broken ∨ p = .ready)
    (hd : partialMode d.xfer.mode = true → d.pipe.isPartial = true) :
    Moves app cmd s (.rest, (pipeIncomplete ctx d).2) :=
  (h.replyError ctx _).move (.abandon hp fun he => .inl (hd he))

theorem Moves.finalize (h : Moves app cmd s (.rest, d)) (hs : cmd.starts = false)
    (hm : pipeMode d.xfer.mode = true) (hq : d.pipe.queuedCount = 0) {r : StreamResult} {u : Dev}
    (hr : odXferPipeFinalize app d = (r, u)) :
    (∃ p, (p = .rest ∨ p = .broken ∨ p = .ready) ∧ Moves app cmd s (p, u)) ∧ Streams d u ∧
      (r = .ok → odXferPipeComplete u = true → Moves app cmd s (.ready, u)) := by
  have ho := pipeMode_owns hm
  unfold odXferPipeFinalize at hr
  simp only [hm, Bool.true_eq_false, if_false] at hr
  split_ifs at hr with hraw hsome
  · obtain ⟨rfl, rfl⟩ := Prod.mk.inj hr
    refine ⟨⟨_, .inl rfl, h⟩, .refl _, fun _ hcomp => ?_⟩
    have hwhole : d.xfer.writtenBytes = d.xfer.expectedBytes := by
      simpa [odXferPipeComplete, hm] using hcomp
    exact h.move (.complete hs ho ⟨hraw, fun _ => hwhole, fun _ => hq⟩)
  · rw [Bool.not_eq_false] at hraw
    have hst := odXferStreamPush_streams app [] true d
    rw [hr] at hst
    by_cases hok : r = .ok
    · subst hok
      have hready := h.move (.inflated hs ho hraw (fun _ => hq) hr)
      exact ⟨⟨_, .inr (.inr rfl), hready⟩, hst, fun _ _ => hready⟩
    · exact ⟨⟨_, .inr (.inl rfl), h.move (.finalFailed ho hraw hr hok)⟩, hst,
        fun h _ => absurd h hok⟩
  · obtain ⟨rfl, rfl⟩ := Prod.mk.inj hr
    exact ⟨⟨_, .inl rfl, h⟩, .refl _, nofun⟩

theorem Moves.pipeEnd (h : Moves app cmd (.fresh, d) (.fresh, d)) (hs : cmd.starts = false)
    (hd : Coupled d) : Ends app cmd (.fresh, d) (odPipeEnd app ctx cmd.endBody d).2 := by
  have h1 := h.move .enter
  unfold odPipeEnd
  split_ifs with horigin hopen howner hfatal
  · exact (h1.note (e := .reply _ _ _) (by simp [quiet, isStartAck, respNack, respAck])).ends
  · exact (h1.replyError ctx _).ends
  · exact h1.ends
  · refine (h1.incomplete ctx (.inl rfl) fun hpart => ?_).ends
    rw [hfatal] at hpart
    exact absurd hpart Bool.false_ne_true
  · rw [Bool.not_eq_false, hd.isOpen, or_iff_left hfatal] at hopen
    have hp := hd.isPartial hfatal
    split
    · next u hr => exact (h1.sackOrFatal ctx hopen hr).1.ends
    · next u hr =>
      obtain ⟨hu, hx⟩ := h1.sackOrFatal ctx hopen hr
      obtain ⟨hx, hpipe⟩ := hx rfl
      have hum : pipeMode u.xfer.mode = true := by rw [hx, hopen]
      have hup : u.pipe.isPartial = decide (u.xfer.mode = .pipePartial) := by rw [hpipe, hx, ← hp]
      by_cases hq : u.pipe.queuedCount = 0
      · rw [if_pos hq]
        cases hf : odXferPipeFinalize app u with
        | mk r v =>
          obtain ⟨⟨p, hpp, hv⟩, hst, hready⟩ := hu.finalize hs hum hq hf
          have hvm : pipeMode v.xfer.mode = true := by rw [hst.mode, hum]
          have hvp : v.pipe.isPartial = decide (v.xfer.mode = .pipePartial) := by
            rw [hst.pipe, hst.mode, hup]
          dsimp only
          by_cases hbad : v.pipe.queuedCount ≠ 0 ∨ r ≠ .ok ∨ odXferPipeComplete v = false
          · rw [if_pos hbad]
            refine ((hv.terminal _).incomplete ctx hpp fun he => ?_).ends
            rw [pipeMode_of_partialMode (by exact hvm)] at he
            exact hvp.trans he
          · rw [if_neg hbad]
            simp only [not_or, not_not, Bool.not_eq_false] at hbad
            exact (hready hbad.2.1 hbad.2.2).pipeFinish ctx hvm hvp
      · rw [if_neg hq]
        simp only [hq, ne_eq, not_false_eq_true, true_or, if_true]
        refine ((hu.terminal _).incomplete ctx (.inl rfl) fun he => ?_).ends
        rw [pipeMode_of_partialMode (by exact hum)] at he
        exact hup.trans he

end Finish

section Start

variable (ctx : Ctx)

theorem pipeAdmit_xfer (app : App) (mode : Mode) (total : UInt32) (compressed : Bool)
    (geometry : Geometry) (region : PartialState) (d : Dev) :
    (pipeAdmit app ctx mode total compressed geometry region d).xfer = { d.xfer with
      mode := mode, owner := ctx.rp, startedMs := app.nowMs d.events, expectedBytes := total
      compressed := compressed, geometry := geometry, region := region } := by
  cases compressed <;> rfl

theorem Moves.pipeArmed (h : Moves app cmd s (.rest, d)) (hs : cmd.starts = true) (hd : Cleared d)
    {mode : Mode} (hmode : pipeMode mode = true) (total : UInt32) (compressed : Bool)
    (geometry : Geometry) (region : PartialState) (w n : UInt8) (f : UInt16) :
    Moves app cmd s (.armed, { pipeAdmit app ctx mode total compressed geometry region d with
      pipe := pipeNegotiate (decide (mode = .pipePartial)) w n f d.pipe }) := by
  have hm : d.xfer.mode = .idle := by rw [hd.xfer]
  have hown : mode ≠ .idle ∧ mode ≠ .fatal := by
    constructor <;> rintro rfl <;> exact absurd hmode nofun
  have harm := h.move (.arm (x := (pipeAdmit app ctx mode total compressed geometry region d).xfer)
    (p := pipeNegotiate (decide (mode = .pipePartial)) w n f d.pipe)
    (pipeAdmit app ctx mode total compressed geometry region d).pump hs ?_)
  · cases compressed <;> exact harm
  · rw [pipeAdmit_xfer]
    refine ⟨hm, hown, by rw [hd.xfer], by rw [hd.xfer], fun hn => ?_, fun _ => ?_⟩
    · exact absurd (hmode.symm.trans hn) nofun
    · exact ⟨w, n, f, by rw [hd.pipe]⟩

theorem Moves.activate (h : Moves app cmd s (.armed, d)) (hm : pipeMode d.xfer.mode = true)
    (hpump : d.xfer.compressed = true → d.pump = odZlibPumpReset d.xfer.expectedBytes) :
    Moves app cmd s (.rest, odXferPipeActivate app d) := by
  have hfail : ∀ e, e = .beginFull false ∨ e = .beginPartial false → Moves app cmd s
      (.rest, odXferPipeEnterFatal (odXferTerminalFailure .panelPreparation (d.log e))) :=
    fun e he => ((h.move (.beginFailed he)).terminal _).move (.fatal (.inr rfl) hm)
  simp only [pipeMode, decide_eq_true_eq] at hm
  unfold odXferPipeActivate
  rcases hm with hm | hm
  · simp only [hm]
    split_ifs with hok
    · rw [hok]
      exact hfail _ (.inl rfl)
    · rw [Bool.not_eq_false] at hok
      rw [hok]
      exact h.move (.begun (.inl rfl) hpump)
  · simp only [hm]
    split_ifs with hok
    · rw [hok]
      exact hfail _ (.inr rfl)
    · rw [Bool.not_eq_false] at hok
      rw [hok]
      exact h.move (.begun (.inr rfl) hpump)

theorem Moves.pipeOpen (h : Moves app cmd s (.rest, d)) (hs : cmd.starts = true) (hd : Cleared d)
    {mode : Mode} (hmode : pipeMode mode = true) (total : UInt32) (compressed : Bool)
    (geometry : Geometry) (region : PartialState) (body : Bytes) :
    Moves app cmd s (.rest, (pipeOpen app ctx (decide (mode = .pipePartial)) body
      (pipeAdmit app ctx mode total compressed geometry region d)).2) := by
  have hpipe : (pipeAdmit app ctx mode total compressed geometry region d).pipe = d.pipe := by
    cases compressed <;> rfl
  have harm := h.pipeArmed ctx hs hd hmode total compressed geometry region (byteAt body 2)
    (byteAt body 3) (readLe16 (body.drop 4))
  have hack : isStartAck (pipeStartAck (decide (mode = .pipePartial))) = true := rfl
  have hm : (pipeAdmit app ctx mode total compressed geometry region d).xfer.mode = mode := by
    rw [pipeAdmit_xfer]
  unfold OpenDisplay.pipeOpen
  rw [hpipe]
  dsimp only
  split
  · next u hr =>
    obtain rfl := odXferReplyApp_eq ctx hr
    refine Moves.activate (harm.note (by simp [quiet])) ((congrArg pipeMode hm).trans hmode) ?_
    cases compressed
    · exact fun hpacked => absurd hpacked Bool.false_ne_true
    · exact fun _ => rfl
  · next status u hne hr =>
    obtain rfl := odXferReplyApp_eq ctx hr
    refine (harm.move (.unacked hack hne)).failActive (.inr (.inl rfl)) _ _ fun he => .inl ?_
    rw [← pipeMode_of_partialMode hmode]
    exact (congrArg partialMode hm).symm.trans he

theorem Moves.startNack (h : Moves app cmd s (.rest, d)) (error : UInt8) :
    Moves app cmd s (.rest, (pipeSendStartNack ctx error d).2) := h.replyError ctx _

/-- Where an arm leaves the device: refused, or admitted from a clear state. -/
structure Arms (app : App) (cmd : Cmd) (s : Phase × Dev) (ctx : Ctx) (mode : Mode) (total : UInt32)
    (compressed : Bool) (cause : StartCause) (u : Dev) : Prop where
  refused : cause ≠ .ok → Moves app cmd s (.rest, u)
  admitted : cause = .ok → ∃ v geometry region, Moves app cmd s (.rest, v) ∧ Cleared v ∧
    u = pipeAdmit app ctx mode total compressed geometry region v

theorem Moves.armFull (h : Moves app cmd s (.rest, d)) (hd : Cleared d) {total : UInt32}
    {compressed : Bool} {cause : StartCause} {u : Dev}
    (hr : odXferPipeArmFull app ctx total compressed d = (cause, u)) :
    Arms app cmd s ctx .pipeFull total compressed cause u := by
  have hp : Moves app cmd s (.rest, d.log .prepareStart) := h.note rfl
  unfold odXferPipeArmFull at hr
  split at hr
  · obtain ⟨rfl, rfl⟩ := Prod.mk.inj hr
    exact ⟨fun _ => h, nofun⟩
  split at hr
  · obtain ⟨rfl, rfl⟩ := Prod.mk.inj hr
    exact ⟨fun _ => h, nofun⟩
  dsimp only at hr
  split at hr
  · obtain ⟨rfl, rfl⟩ := Prod.mk.inj hr
    exact ⟨fun _ => hp, nofun⟩
  split at hr
  · obtain ⟨rfl, rfl⟩ := Prod.mk.inj hr
    exact ⟨fun _ => hp, nofun⟩
  split at hr
  · obtain ⟨rfl, rfl⟩ := Prod.mk.inj hr
    exact ⟨fun _ => hp, nofun⟩
  split at hr
  · obtain ⟨rfl, rfl⟩ := Prod.mk.inj hr
    exact ⟨fun _ => hp, nofun⟩
  · obtain ⟨rfl, rfl⟩ := Prod.mk.inj hr
    exact ⟨fun hne => absurd rfl hne, fun _ => ⟨_, _, _, hp, hd.log _, rfl⟩⟩

theorem Moves.armPartial (h : Moves app cmd s (.rest, d)) (hs : cmd.starts = true) (hd : Cleared d)
    {total oldEtag : UInt32} {compressed : Bool} {x y width height : UInt16} {cause : StartCause}
    {error : UInt8} {u : Dev}
    (hr : odXferPipeArmPartial app ctx total compressed oldEtag x y width height d = (cause, error, u)) :
    Arms app cmd s ctx .pipePartial total compressed cause u := by
  have hp : Moves app cmd s (.rest, d.log .prepareStart) := h.note rfl
  have hrefuse : ∀ {e c}, armRefuse e c (d.log .prepareStart) = (cause, error, u) → c ≠ .ok →
      Arms app cmd s ctx .pipePartial total compressed cause u := by
    intro e c he hc
    simp only [armRefuse, Prod.mk.injEq] at he
    obtain ⟨rfl, rfl, rfl⟩ := he
    exact ⟨fun _ => hp.move (.clearEtag nofun (.inr hs)), fun h => absurd h hc⟩
  unfold odXferPipeArmPartial at hr
  split at hr
  · simp only [Prod.mk.injEq] at hr
    obtain ⟨rfl, rfl, rfl⟩ := hr
    exact ⟨fun _ => h, nofun⟩
  split at hr
  · simp only [Prod.mk.injEq] at hr
    obtain ⟨rfl, rfl, rfl⟩ := hr
    exact ⟨fun _ => h, nofun⟩
  dsimp only at hr
  split at hr
  · exact hrefuse hr nofun
  split at hr
  · exact hrefuse hr nofun
  split at hr
  · exact hrefuse hr nofun
  split at hr
  · exact hrefuse hr nofun
  split at hr
  · exact hrefuse hr nofun
  split at hr
  · exact hrefuse hr nofun
  split at hr
  · exact hrefuse hr nofun
  · simp only [Prod.mk.injEq] at hr
    obtain ⟨rfl, rfl, rfl⟩ := hr
    exact ⟨fun hne => absurd rfl hne, fun _ => ⟨_, _, _, hp, hd.log _, rfl⟩⟩

theorem Arms.opens {mode : Mode} {total : UInt32} {compressed : Bool} {u : Dev}
    (h : Arms app cmd s ctx mode total compressed .ok u) (hs : cmd.starts = true)
    (hm : pipeMode mode = true) (body : Bytes) :
    Moves app cmd s (.rest, (pipeOpen app ctx (decide (mode = .pipePartial)) body u).2) := by
  obtain ⟨v, geometry, region, hv, hd, rfl⟩ := h.admitted rfl
  exact hv.pipeOpen ctx hs hd hm total compressed geometry region body

theorem Moves.pipeArm (h : Moves app cmd s (.rest, d)) (hs : cmd.starts = true) (hd : Cleared d)
    (isPartial compressed : Bool) (body : Bytes) :
    Moves app cmd s (.rest, (pipeArm app ctx isPartial compressed body d).2) := by
  unfold OpenDisplay.pipeArm
  cases isPartial with
  | true =>
    simp only [if_true]
    split
    · next hr => exact (h.armPartial ctx hs hd hr).opens ctx hs rfl body
    · next cause error u hne hr => exact ((h.armPartial ctx hs hd hr).refused hne).startNack ctx _
  | false =>
    simp only [Bool.false_eq_true, if_false]
    split
    · next hr => exact (h.armFull ctx hd hr).opens ctx hs rfl body
    · next cause u hne hr => exact ((h.armFull ctx hd hr).refused hne).startNack ctx _

theorem Moves.pipeStart (h : Moves app cmd (.fresh, d) (.fresh, d)) (hs : cmd.starts = true)
    (hd : Coupled d) (body : Bytes) :
    Moves app cmd (.fresh, d) (.rest, (odPipeStart app ctx body d).2) := by
  have hr := h.move (.replace hs)
  unfold odPipeStart
  dsimp only
  split
  · exact (h.move .enter).note (e := .reply _ _ _) (by simp [quiet, isStartAck, respNack, respAck])
  split
  · exact hr.startNack ctx _
  split
  · exact hr.startNack ctx _
  generalize pipeFrameOverhead + 1 + _ = minimumFrame
  split
  · exact hr.startNack ctx _
  split
  · exact hr.startNack ctx _
  · exact hr.pipeArm ctx hs hd.replace _ _ body

end Start

/-- Every command is a path of moves from a coupled state. -/
theorem step_moves (app : App) (cmd : Cmd) {d : Dev} (hd : Coupled d) :
    Ends app cmd (.fresh, d) (step app cmd d) := by
  have h : Moves app cmd (.fresh, d) (.fresh, d) := .refl
  have h1 := h.move .enter
  cases cmd with
  | directStart ctx body => exact (h.directStart ctx rfl hd body).ends
  | partialStart ctx body => exact (h.partialStart ctx rfl hd body).ends
  | data ctx body =>
    unfold step odXferData
    dsimp only
    split
    · next hm => exact h1.directData ctx rfl rfl rfl hm body
    · next hm => exact (h1.partialData ctx hm body).ends
    · exact h1.ends
  | finish ctx body =>
    unfold step odXferEnd
    dsimp only
    split
    · next hm => exact h1.directEnd ctx rfl rfl hm
    · next hm => exact h1.partialEnd ctx rfl rfl hm body
    · exact h1.ends
  | pipeStart ctx body => exact (h.pipeStart ctx rfl hd body).ends
  | pipeData ctx body => exact h.pipeData ctx rfl rfl rfl rfl hd body
  | pipeEnd ctx body => exact h.pipeEnd ctx rfl hd
  | reset => exact (h.move (.reset rfl)).ends
  | timeout nowMs limitMs =>
    unfold step odXferReportTimeout
    dsimp only
    split_ifs
    · exact h1.ends
    · exact (h1.terminal _).ends

end OpenDisplay
