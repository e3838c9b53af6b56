import OpenDisplay.Xfer.Lifecycle

/-! Every command is a path of moves. -/

namespace OpenDisplay

variable {app : App} {cmd : Cmd} {s : Phase × Dev} {p : Phase} {d : Dev}

theorem Moves.move {t u : Phase × Dev} (h : Moves app cmd s t) (hm : Move app cmd t u) :
    Moves app cmd s u := h.tail hm

theorem Moves.note {e : Event} (h : Moves app cmd s (p, d)) (he : quiet e = true) :
    Moves app cmd s (p, d.log e) := h.move (.note he)

section Common

variable (ctx : Ctx)

theorem Moves.replyError (h : Moves app cmd s (p, d)) (frame : Bytes) :
    Moves app cmd s (p, odXferReplyError ctx frame d) := h.note rfl

theorem Moves.terminal (h : Moves app cmd s (p, d)) (cause : TerminalCause) :
    Moves app cmd s (p, odXferTerminalFailure cause d) := h.note rfl

theorem Moves.replyApp (h : Moves app cmd s (p, d)) {frame : Bytes} (hf : isStartAck frame = false)
    {status : TxqStatus} {d' : Dev} (hr : odXferReplyApp app ctx frame d = (status, d')) :
    Moves app cmd s (p, d') := by
  obtain ⟨-, rfl⟩ := Prod.mk.inj hr
  exact h.note (by simp [quiet, hf])

theorem Moves.failActive (h : Moves app cmd s (p, d))
    (hp : p = .rest ∨ p = .broken ∨ p = .ready) (cause : TerminalCause) (reason : AbortReason)
    {clear : Bool} (hc : partialMode d.xfer.mode = true → clear = true ∨ d.displayedEtag = 0) :
    Moves app cmd s (.rest, odXferFailActive cause reason clear d) :=
  (h.terminal cause).move (.abandon hp hc)

theorem Moves.directFail (h : Moves app cmd s (p, d))
    (hp : p = .rest ∨ p = .broken ∨ p = .ready) (hm : partialMode d.xfer.mode = false)
    (cause : TerminalCause) (reason : AbortReason) (opcode : UInt8) :
    Moves app cmd s (.rest, (directFail ctx cause reason opcode d).2) :=
  (h.failActive hp cause reason (by simp [hm])).replyError ctx _

theorem Moves.partialTerminalFail (h : Moves app cmd s (p, d))
    (hp : p = .rest ∨ p = .broken ∨ p = .ready) (hm : partialMode d.xfer.mode = true)
    (opcode : UInt8) (cause : TerminalCause) (reason : AbortReason) :
    Moves app cmd s (.rest, (partialTerminalFail ctx opcode cause reason d).2) := by
  have hover : p ≠ .ended := by rcases hp with rfl | rfl | rfl <;> nofun
  have he : Moves app cmd s (p, odXferAppSetDisplayedEtag 0 d) := h.move (.clearEtag hover (.inl hm))
  exact (he.failActive hp cause reason fun _ => .inr rfl).replyError ctx _

theorem Moves.ackOrFail (h : Moves app cmd s (.rest, d)) {ack : Bytes}
    (hack : isStartAck ack = false) {clear : Bool}
    (hc : partialMode d.xfer.mode = true → clear = true) :
    Moves app cmd s (.rest, (ackOrFail app ctx ack clear d).2) := by
  unfold OpenDisplay.ackOrFail
  split
  · next d' hr => exact h.replyApp ctx hack hr
  · next status d' _ hr =>
    have hm : d'.xfer.mode = d.xfer.mode := by
      obtain ⟨-, rfl⟩ := Prod.mk.inj hr
      rfl
    refine (h.replyApp ctx hack hr).failActive (.inl rfl) _ _ fun hpart => .inl (hc ?_)
    rwa [← hm]

end Common

section Feeding

theorem directRaw_streams (app : App) (body : Bytes) (d : Dev) :
    Streams d (directRaw app body d).2 := by
  unfold directRaw
  dsimp only
  generalize min body.length _ = offered
  split_ifs
  · exact writeAll_streams app _ d
  · exact .refl d

theorem feed_streams (app : App) (bytes : Bytes) (d : Dev) : Streams d (feed app bytes d).2 := by
  unfold feed
  split_ifs
  · exact odXferStreamPush_streams app bytes false d
  · exact directRaw_streams app bytes d

theorem Fed.streams {bytes : Bytes} {ok : Bool} {d' : Dev} (h : Fed app bytes d ok d') :
    Streams d d' := by
  rcases h with h | ⟨-, rfl⟩
  · have := feed_streams app bytes d
    rwa [h] at this
  · exact .refl _

theorem Streams.mode {d' : Dev} (h : Streams d d') : d'.xfer.mode = d.xfer.mode := by
  obtain ⟨r, w, hx⟩ := h.xfer
  rw [hx]

theorem Fed.push {bytes : Bytes} (hc : d.xfer.compressed = true) {r : StreamResult} {d' : Dev}
    (h : odXferStreamPush app bytes false d = (r, d')) : Fed app bytes d (decide (r = .ok)) d' := by
  left
  simp [feed, hc, h]

theorem Fed.raw {bytes : Bytes} (hc : d.xfer.compressed = false) {ok : Bool} {d' : Dev}
    (h : directRaw app bytes d = (ok, d')) : Fed app bytes d ok d' := by
  left
  simp [feed, hc, h]

theorem directRaw_fits (app : App) {bytes : Bytes} (hne : bytes ≠ [])
    (hfit : ¬ (d.xfer.expectedBytes < d.xfer.writtenBytes ∨
      (d.xfer.expectedBytes - d.xfer.writtenBytes).toNat < bytes.length)) :
    directRaw app bytes d = writeAll app bytes d := by
  have hpos : 0 < bytes.length := List.length_pos_iff.mpr hne
  rw [not_or, UInt32.not_lt, Nat.not_lt] at hfit
  obtain ⟨hle, hlen⟩ := hfit
  have hlt : d.xfer.writtenBytes < d.xfer.expectedBytes := by
    rw [UInt32.toNat_sub_of_le _ _ hle] at hlen
    rw [UInt32.lt_iff_toNat_lt]
    omega
  simp [directRaw, hlt, Nat.min_eq_left hlen, hpos]

theorem directRaw_clips (app : App) (payload : Bytes)
    (hle : ¬ d.xfer.expectedBytes < d.xfer.writtenBytes) :
    directRaw app payload d =
      if payload.take (min payload.length (d.xfer.expectedBytes - d.xfer.writtenBytes).toNat) = []
      then (true, d)
      else writeAll app (payload.take
        (min payload.length (d.xfer.expectedBytes - d.xfer.writtenBytes).toNat)) d := by
  have hrem : (if d.xfer.writtenBytes < d.xfer.expectedBytes
      then d.xfer.expectedBytes - d.xfer.writtenBytes else 0) =
      d.xfer.expectedBytes - d.xfer.writtenBytes := by
    split_ifs with hlt
    · rfl
    · rw [UInt32.le_antisymm (UInt32.not_lt.mp hlt) (UInt32.not_lt.mp hle), UInt32.sub_self]
  have hnil : payload.take (min payload.length
        (d.xfer.expectedBytes - d.xfer.writtenBytes).toNat) = [] ↔
      ¬ 0 < min payload.length (d.xfer.expectedBytes - d.xfer.writtenBytes).toNat := by
    rw [← List.length_eq_zero_iff, List.length_take]
    omega
  simp only [directRaw, hrem, hnil, ite_not]

theorem Fed.partialRaw {body : Bytes} (hc : d.xfer.compressed = false) (hne : body ≠ [])
    {cause : Option TerminalCause} {d' : Dev} (h : partialRaw app body d = (cause, d')) :
    Fed app body d (decide (cause = none)) d' := by
  unfold OpenDisplay.partialRaw at h
  split_ifs at h with hfit
  · obtain ⟨rfl, rfl⟩ := Prod.mk.inj h
    exact .inr ⟨by simp, rfl⟩
  · have hraw := directRaw_fits app hne hfit
    split at h
    · next u hw =>
      obtain ⟨rfl, rfl⟩ := Prod.mk.inj h
      exact .inl (by simp [feed, hc, hraw, hw])
    · next u hw =>
      obtain ⟨rfl, rfl⟩ := Prod.mk.inj h
      exact .inl (by simp [feed, hc, hraw, hw])

theorem Fed.partialInlineRaw {input : Bytes} (hc : d.xfer.compressed = false) (hne : input ≠ [])
    (hw : d.xfer.writtenBytes = 0) {cause : Option TerminalCause} {d' : Dev}
    (h : partialInlineRaw app input d = (cause, d')) :
    Fed app input d (decide (cause = none)) d' := by
  unfold OpenDisplay.partialInlineRaw at h
  split_ifs at h with hfit
  · obtain ⟨rfl, rfl⟩ := Prod.mk.inj h
    exact .inr ⟨by simp, rfl⟩
  · have hlen : input.length ≤ d.xfer.expectedBytes.toNat := Nat.not_lt.mp hfit
    have hraw : directRaw app input d = writeAll app input d := by
      refine directRaw_fits app hne ?_
      rw [hw]
      simpa using hlen
    have heq : ∀ c : UInt32, c.toNat ≠ input.length ↔ c ≠ UInt32.ofNat input.length := by
      intro c
      have hlt : input.length < UInt32.size := hlen.trans_lt d.xfer.expectedBytes.toNat_lt
      rw [ne_eq, ne_eq, ← UInt32.toNat_inj, UInt32.toNat_ofNat_of_lt' hlt]
    left
    simp only [odXferAppWrite, heq] at h
    simp only [feed, hc, hraw, writeAll, odXferAppWrite, hw]
    split_ifs at h with hcons
    · obtain ⟨rfl, rfl⟩ := Prod.mk.inj h
      simp [hcons]
    · obtain ⟨rfl, rfl⟩ := Prod.mk.inj h
      simp only [if_neg hcons, Dev.log, hw, UInt32.zero_add]
      rfl

theorem Fed.pipeConsumeRaw {payload : Bytes} (hc : d.xfer.compressed = false)
    {r : StreamResult} {d' : Dev} (h : pipeConsumeRaw app payload d = (r, d')) :
    Fed app payload d (decide (r = .ok)) d' := by
  unfold OpenDisplay.pipeConsumeRaw at h
  dsimp only at h
  split_ifs at h with hover hpart hnil
  · obtain ⟨rfl, rfl⟩ := Prod.mk.inj h
    exact .inr ⟨rfl, rfl⟩
  · obtain ⟨rfl, rfl⟩ := Prod.mk.inj h
    exact .inr ⟨rfl, rfl⟩
  · obtain ⟨rfl, rfl⟩ := Prod.mk.inj h
    left
    have hraw := directRaw_clips app payload hover
    simp only [hnil, if_true] at hraw
    simp [feed, hc, hraw]
  · left
    have hraw := directRaw_clips app payload hover
    simp only [hnil, if_false] at hraw
    split at h
    · next u hw =>
      obtain ⟨rfl, rfl⟩ := Prod.mk.inj h
      simp [feed, hc, hraw, hw]
    · next u hw =>
      obtain ⟨rfl, rfl⟩ := Prod.mk.inj h
      simp [feed, hc, hraw, hw]

end Feeding

section Start

variable (ctx : Ctx)

theorem Cleared.clearState (d : Dev) : Cleared (odXferClearState d) := ⟨rfl, rfl, rfl⟩

theorem Cleared.eq (h : Cleared d) : odXferClearState d = d := by
  obtain ⟨hx, hp, hr⟩ := h
  unfold odXferClearState odPipeResetState
  rw [← hx, ← hp, ← hr]

theorem Cleared.log (h : Cleared d) (e : Event) : Cleared (d.log e) := ⟨h.xfer, h.pipe, h.reorder⟩

theorem Coupled.replace (h : Coupled d) : Cleared (odXferReplaceActive d) := by
  unfold odXferReplaceActive
  split_ifs with ha ho
  · exact .clearState _
  · exact .clearState _
  · exact h.idle (by simpa [odXferActive] using ha)

theorem Moves.feed (h : Moves app cmd s (.rest, d)) (ho : odXferOwnsHardware d = true)
    {bytes : Bytes} {received : UInt32} {ok : Bool} {d' : Dev}
    (hf : Fed app bytes (d.give bytes received) ok d') :
    Moves app cmd s (if ok then .rest else .broken, d') := by
  cases ok with
  | true => exact h.move (.fed ho hf)
  | false => exact h.move (.spoiled ho hf)

theorem Fed.mode {bytes : Bytes} {received : UInt32} {ok : Bool} {d' : Dev}
    (hf : Fed app bytes (d.give bytes received) ok d') : d'.xfer.mode = d.xfer.mode :=
  hf.streams.mode

theorem Moves.directAdmit (h : Moves app cmd s (.rest, d)) (hs : cmd.starts = true)
    (hd : Cleared d) (geometry : Geometry) (compressed : Bool) (pump : Pump) :
    Moves app cmd s (.armed, { directAdmit app ctx geometry compressed d with pump := pump }) := by
  have hm : d.xfer.mode = .idle := by rw [hd.xfer]
  have harm := h.move (.arm (x := (OpenDisplay.directAdmit app ctx geometry compressed d).xfer)
    (p := {}) pump hs ⟨hm, ⟨nofun, nofun⟩, rfl, rfl, fun _ => rfl, nofun⟩)
  unfold OpenDisplay.directAdmit at harm ⊢
  rw [hd.eq] at harm ⊢
  rwa [← hd.pipe] at harm

theorem Moves.directBegin (h : Moves app cmd s (.rest, d)) (hs : cmd.starts = true)
    (hd : Cleared d) (geometry : Geometry) (compressed : Bool) (body : Bytes) :
    Moves app cmd s (.rest, (directBegin app ctx geometry compressed body d).2) := by
  have harm := h.directAdmit ctx hs hd geometry compressed
  have hack : isStartAck [respAck, respDirectWriteStartAck] = false := rfl
  unfold OpenDisplay.directBegin
  dsimp only
  split_ifs with hok hc
  · have hb := (harm d.pump).move (.beginFailed (.inl rfl))
    rw [hok]
    exact hb.directFail ctx (.inr (.inl rfl)) rfl _ _ _
  · have hb := (harm (odZlibPumpReset geometry.totalBytes)).move
      (.begun (e := .beginFull true) (.inl rfl) fun _ => rfl)
    rw [Bool.not_eq_false] at hok
    rw [hok]
    unfold directInline
    split_ifs with hin
    · exact hb.ackOrFail ctx hack nofun
    · split
      · next u hr =>
        have hf := Fed.push hc hr
        exact (hb.feed rfl hf).ackOrFail ctx hack (by rw [hf.mode]; nofun)
      · next r u hne hr =>
        have hf := Fed.push hc hr
        have hm := hb.feed rfl hf
        rw [decide_eq_false hne] at hm
        exact hm.directFail ctx (.inr (.inl rfl)) (by rw [hf.mode]; rfl) _ _ _
  · have hb := (harm d.pump).move (.begun (e := .beginFull true) (.inl rfl) fun hcc => absurd hcc hc)
    rw [Bool.not_eq_false] at hok
    rw [hok]
    exact hb.ackOrFail ctx hack nofun

theorem Moves.directStart (h : Moves app cmd (.fresh, d) (.fresh, d)) (hs : cmd.starts = true)
    (hd : Coupled d) (body : Bytes) :
    Moves app cmd (.fresh, d) (.rest, (odXferDirectStart app ctx body d).2) := by
  unfold odXferDirectStart
  split_ifs with hlong
  · exact (h.move .enter).replyError ctx _
  · have hr : Moves app cmd (.fresh, d) (.rest, Dev.log .prepareStart (odXferReplaceActive d)) :=
      (h.move (.replace hs)).note rfl
    dsimp only
    split
    · exact hr.replyError ctx _
    · split_ifs
      · exact hr.replyError ctx _
      · exact hr.replyError ctx _
      · exact hr.replyError ctx _
      · exact hr.directBegin ctx hs (hd.replace.log _) _ _ _

theorem Moves.partialAdmit (h : Moves app cmd s (.rest, d)) (hs : cmd.starts = true)
    (hd : Cleared d) (geometry : Geometry) (compressed : Bool) (region : PartialState)
    (pump : Pump) :
    Moves app cmd s
      (.armed, { partialAdmit app ctx geometry compressed region d with pump := pump }) := by
  have hm : d.xfer.mode = .idle := by rw [hd.xfer]
  have harm := h.move (.arm
    (x := (OpenDisplay.partialAdmit app ctx geometry compressed region d).xfer)
    (p := {}) pump hs ⟨hm, ⟨nofun, nofun⟩, rfl, rfl, fun _ => rfl, nofun⟩)
  unfold OpenDisplay.partialAdmit at harm ⊢
  rw [hd.eq] at harm ⊢
  rwa [← hd.pipe] at harm

theorem Moves.partialInline (h : Moves app cmd s (.rest, d)) (ho : odXferOwnsHardware d = true)
    (hw : d.xfer.writtenBytes = 0) {input : Bytes} {cause : Option TerminalCause} {d' : Dev}
    (hr : partialInline app input d = (cause, d')) :
    Moves app cmd s (if cause = none then .rest else .broken, d') ∧
      d'.xfer.mode = d.xfer.mode := by
  unfold OpenDisplay.partialInline at hr
  dsimp only at hr
  split_ifs at hr with hin hc
  · obtain ⟨rfl, rfl⟩ := Prod.mk.inj hr
    exact ⟨h, rfl⟩
  · split at hr
    · next u hp =>
      obtain ⟨rfl, rfl⟩ := Prod.mk.inj hr
      have hf := Fed.push hc hp
      exact ⟨h.feed ho hf, hf.mode⟩
    · next r u hne hp =>
      obtain ⟨rfl, rfl⟩ := Prod.mk.inj hr
      have hf := Fed.push hc hp
      have hm := h.feed ho hf
      rw [decide_eq_false hne] at hm
      exact ⟨hm, hf.mode⟩
  · have hf := Fed.partialInlineRaw (Bool.eq_false_of_not_eq_true hc) hin hw hr
    have hm := h.feed ho hf
    exact ⟨by simpa using hm, hf.mode⟩

theorem Moves.partialBegin (h : Moves app cmd s (.rest, d)) (hs : cmd.starts = true)
    (hd : Cleared d) (geometry : Geometry) (compressed : Bool) (region : PartialState)
    (body : Bytes) :
    Moves app cmd s (.rest, (partialBegin app ctx geometry compressed region body d).2) := by
  have harm := h.partialAdmit ctx hs hd geometry compressed region
  have howns : ∀ d1, d1.xfer = (OpenDisplay.partialAdmit app ctx geometry compressed region d).xfer →
      odXferOwnsHardware d1 = true := by
    intro d1 hx
    unfold odXferOwnsHardware
    rw [hx]
    rfl
  have hfail : ∀ d1, Moves app cmd s (.rest, d1) →
      d1.xfer = (OpenDisplay.partialAdmit app ctx geometry compressed region d).xfer → ∀ cause u,
      OpenDisplay.partialInline app (body.drop 17) d1 = (some cause, u) → Moves app cmd s
        (.rest, (OpenDisplay.partialTerminalFail ctx respPartialWriteStart cause .startFailed u).2) := by
    intro d1 hb hx cause u hi
    obtain ⟨hm, hmode⟩ := hb.partialInline (howns d1 hx) (by rw [hx]; rfl) hi
    exact hm.partialTerminalFail ctx (.inr (.inl rfl)) (by rw [hmode, hx]; rfl) _ _ _
  have hack : ∀ d1, Moves app cmd s (.rest, d1) →
      d1.xfer = (OpenDisplay.partialAdmit app ctx geometry compressed region d).xfer → ∀ u,
      OpenDisplay.partialInline app (body.drop 17) d1 = (none, u) → Moves app cmd s
        (.rest, (OpenDisplay.ackOrFail app ctx [respAck, respPartialWriteStart] true u).2) := by
    intro d1 hb hx u hi
    obtain ⟨hm, -⟩ := hb.partialInline (howns d1 hx) (by rw [hx]; rfl) hi
    exact hm.ackOrFail ctx rfl fun _ => rfl
  unfold OpenDisplay.partialBegin
  dsimp only
  split_ifs with hok hc
  · have hb := (harm d.pump).move (.beginFailed (.inr rfl))
    rw [hok]
    exact hb.partialTerminalFail ctx (.inr (.inl rfl)) rfl _ _ _
  · rw [Bool.not_eq_false] at hok
    rw [hok]
    have hb := (harm (odZlibPumpReset (region.planeBytes * 2))).move
      (.begun (e := .beginPartial true) (.inr rfl) fun _ => rfl)
    split
    · next cause u hi => exact hfail _ hb rfl cause u hi
    · next u hi => exact hack _ hb rfl u hi
  · rw [Bool.not_eq_false] at hok
    rw [hok]
    have hb := (harm d.pump).move
      (.begun (e := .beginPartial true) (.inr rfl) fun hcc => absurd hcc hc)
    split
    · next cause u hi => exact hfail _ hb rfl cause u hi
    · next u hi => exact hack _ hb rfl u hi

theorem Moves.partialFail (h : Moves app cmd s (.rest, d)) (hs : cmd.starts = true)
    (opcode error : UInt8) : Moves app cmd s (.rest, (partialFail ctx opcode error d).2) :=
  (h.move (.clearEtag nofun (.inr hs))).replyError ctx _

theorem Moves.partialStart (h : Moves app cmd (.fresh, d) (.fresh, d)) (hs : cmd.starts = true)
    (hd : Coupled d) (body : Bytes) :
    Moves app cmd (.fresh, d) (.rest, (odXferPartialStart app ctx body d).2) := by
  unfold odXferPartialStart
  split
  · exact (h.move .enter).partialFail ctx hs _ _
  · have hr : Moves app cmd (.fresh, d) (.rest, Dev.log .prepareStart (odXferReplaceActive d)) :=
      (h.move (.replace hs)).note rfl
    dsimp only
    split
    · exact hr.partialFail ctx hs _ _
    split
    · exact hr.partialFail ctx hs _ _
    split
    · exact hr.partialFail ctx hs _ _
    split
    · exact hr.partialFail ctx hs _ _
    split
    · exact hr.partialFail ctx hs _ _
    split
    · exact hr.partialFail ctx hs _ _
    split
    · exact hr.partialFail ctx hs _ _
    split
    · exact hr.partialFail ctx hs _ _
    · exact hr.partialBegin ctx hs (hd.replace.log _) _ _ _ _

end Start

section Finish

variable (ctx : Ctx)

/-- A command has ended with the device in state `d`. -/
def Ends (app : App) (cmd : Cmd) (s : Phase × Dev) (d : Dev) : Prop :=
  ∃ p, (p = .fresh ∨ p = .rest ∨ p = .ended) ∧ Moves app cmd s (p, d)

theorem Moves.ends (h : Moves app cmd s (.rest, d)) : Ends app cmd s d := ⟨_, .inr (.inl rfl), h⟩

theorem Moves.ended (h : Moves app cmd s (.ended, d)) : Ends app cmd s d := ⟨_, .inr (.inr rfl), h⟩

theorem Moves.barrierRelease (h : Moves app cmd s (.ready, d)) (cause : TerminalCause)
    (he : partialMode d.xfer.mode = true → d.displayedEtag = 0) :
    Moves app cmd s (.rest, (barrierRelease cause d).2) :=
  (h.terminal cause).move (.barrier he)

theorem Moves.refreshReply (h : Moves app cmd s (.ended, d)) (completed : Bool) :
    Moves app cmd s (.ended, (refreshReply app ctx completed d).2) := by
  unfold OpenDisplay.refreshReply
  have hf : isStartAck [respAck, if completed then respDirectWriteRefreshSuccess
      else respDirectWriteRefreshTimeout] = false := by cases completed <;> rfl
  dsimp only
  split
  · next u hr =>
    have hm := h.replyApp ctx hf hr
    cases completed with
    | true => exact hm
    | false => exact hm.terminal _
  · next hr => exact (h.replyApp ctx hf hr).terminal _

theorem odXferReplyApp_eq {frame : Bytes} {status : TxqStatus} {d' : Dev}
    (h : odXferReplyApp app ctx frame d = (status, d')) : d' = d.log (.reply ctx.rp frame status) := by
  obtain ⟨rfl, rfl⟩ := Prod.mk.inj h
  rfl

theorem odXferAppBeforeRefresh_eq {owner : Reply} {proceed : Bool} {d' : Dev}
    (h : odXferAppBeforeRefresh app owner d = (proceed, d')) :
    d' = d.log (.beforeRefresh owner proceed) := by
  obtain ⟨rfl, rfl⟩ := Prod.mk.inj h
  rfl

theorem Moves.beforeRefresh (h : Moves app cmd s (p, d)) {owner : Reply} {proceed : Bool}
    {d' : Dev} (hb : odXferAppBeforeRefresh app owner d = (proceed, d')) :
    Moves app cmd s (p, d') := by
  rw [odXferAppBeforeRefresh_eq hb]
  exact h.note rfl

theorem odXferAppRefresh_eq {refreshMode : UInt8} {ok completed : Bool} {d' : Dev}
    (h : odXferAppRefresh app refreshMode d = (ok, completed, d')) :
    d' = d.log (.refresh refreshMode d.xfer d.pipe.queuedCount ok completed) := by
  simp only [odXferAppRefresh, Prod.mk.injEq] at h
  obtain ⟨rfl, rfl, rfl⟩ := h
  rfl

theorem Moves.refreshed (h : Moves app cmd s (.ready, d)) {refreshMode : UInt8} {completed : Bool}
    {d' : Dev} (hr : odXferAppRefresh app refreshMode d = (true, completed, d')) :
    Moves app cmd s (.ended, odXferClearState (settleEtag cmd completed d')) := by
  rw [odXferAppRefresh_eq hr]
  exact h.move (.refreshed refreshMode completed)

theorem Moves.unshown (h : Moves app cmd s (.ready, d)) {refreshMode : UInt8} {completed : Bool}
    {d' : Dev} (hr : odXferAppRefresh app refreshMode d = (false, completed, d')) :
    Moves app cmd s (.refused, d') := by
  rw [odXferAppRefresh_eq hr]
  exact h.move (.unshown refreshMode completed)

theorem settleEtag_full (cmd : Cmd) (completed : Bool) (h : partialMode d.xfer.mode = false) :
    settleEtag cmd completed d = finishEtag completed cmd.hasEtag cmd.newEtag d := by
  simp only [partialMode, decide_eq_false_iff_not, not_or] at h
  simp [settleEtag, pipeEtag, h]

theorem Moves.finishRefresh (h : Moves app cmd s (.ready, d)) (hm : d.xfer.mode = .directFull) :
    Ends app cmd s (finishRefresh app ctx cmd.endBody d).2 := by
  have hs := h.move (.stamp (by simp [odXferOwnsHardware, hm]))
  unfold OpenDisplay.finishRefresh
  dsimp only
  split
  · next u hr =>
    have hu := hs.replyApp ctx rfl hr
    have hum : u.xfer.mode = .directFull := by rw [odXferReplyApp_eq ctx hr]; exact hm
    split
    · next v hb =>
      have hvm : v.xfer.mode = .directFull := by rw [odXferAppBeforeRefresh_eq hb]; exact hum
      exact ((hu.beforeRefresh hb).barrierRelease _ (by simp [partialMode, hvm])).ends
    · next v hb =>
      have hv := hu.beforeRefresh hb
      have hvm : v.xfer.mode = .directFull := by rw [odXferAppBeforeRefresh_eq hb]; exact hum
      split
      · next w hf =>
        have hwm : w.xfer.mode = .directFull := by rw [odXferAppRefresh_eq hf]; exact hvm
        have hd := ((hv.unshown hf).terminal .refreshFailed).move
          (.dropped .refreshFailed false (by simp [dropsEtag, odXferTerminalFailure, Dev.log, hwm]))
        exact (hd.replyError ctx _).ended
      · next completed w hf =>
        have hwm : w.xfer.mode = .directFull := by rw [odXferAppRefresh_eq hf]; exact hvm
        have hd := hv.refreshed hf
        rw [settleEtag_full cmd completed (by simp [partialMode, hwm])] at hd
        exact (hd.refreshReply ctx completed).ended
  · next hr =>
    have hu := hs.replyApp ctx rfl hr
    refine (hu.barrierRelease _ ?_).ends
    rw [odXferReplyApp_eq ctx hr]
    simp [partialMode, markFinalized, Dev.log, hm]

theorem Moves.directEnd (h : Moves app cmd s (.rest, d)) (hs : cmd.starts = false)
    (hp : cmd.endsPipe = false) (hm : d.xfer.mode = .directFull) :
    Ends app cmd s (odXferDirectEndImpl app ctx cmd.endBody d).2 := by
  have ho : odXferOwnsHardware d = true := by simp [odXferOwnsHardware, hm]
  have hpart : partialMode d.xfer.mode = false := by rw [hm]; rfl
  unfold odXferDirectEndImpl
  split_ifs with howner hc hplanes
  · exact h.ends
  · split
    · next u hr =>
      have hu := h.move (.inflated hs ho hc (by simp [hp]) hr)
      have hum := (odXferStreamPush_streams app [] true d).mode
      rw [hr] at hum
      exact hu.finishRefresh ctx (hum.trans hm)
    · next r u hne hr =>
      have hu := h.move (.finalFailed ho hc hr hne)
      have hum := (odXferStreamPush_streams app [] true d).mode
      rw [hr] at hum
      exact (hu.directFail ctx (.inr (.inl rfl)) (by rw [hum]; exact hpart) _ _ _).ends
  · exact (h.directFail ctx (.inl rfl) hpart _ _ _).ends
  · have hwhole : pipeMode d.xfer.mode = true ∨ d.xfer.mode = .directPartial ∨
        d.xfer.geometry.layout = .controllerPlanes → d.xfer.writtenBytes = d.xfer.expectedBytes := by
      rw [hm]
      rintro (h | h | h)
      · exact absurd h Bool.false_ne_true
      · exact absurd h (by simp)
      · by_contra hne
        exact hplanes ⟨h, hne⟩
    exact (h.move (.complete hs ho ⟨by simpa using hc, hwhole, by simp [hp]⟩)).finishRefresh ctx hm

theorem Moves.directData (h : Moves app cmd s (.rest, d)) (hs : cmd.starts = false)
    (hp : cmd.endsPipe = false) (hbody : cmd.endBody = []) (hm : d.xfer.mode = .directFull)
    (body : Bytes) : Ends app cmd s (odXferDirectDataImpl app ctx body d).2 := by
  have ho : odXferOwnsHardware d = true := by simp [odXferOwnsHardware, hm]
  have hpart : partialMode d.xfer.mode = false := by rw [hm]; rfl
  have hack : isStartAck [respAck, respDirectWriteDataAck] = false := rfl
  unfold odXferDirectDataImpl
  dsimp only
  split_ifs with howner hnil hlong hover hc
  · exact h.ends
  · exact h.ends
  · exact (h.directFail ctx (.inl rfl) hpart _ _ _).ends
  · exact (h.directFail ctx (.inl rfl) hpart _ _ _).ends
  · split
    · next u hr =>
      have hf := Fed.push hc hr
      have hu := h.feed ho hf
      exact (hu.ackOrFail ctx hack (by rw [hf.mode, hpart]; simp)).ends
    · next r u hne hr =>
      have hf := Fed.push hc hr
      have hu := h.feed ho hf
      rw [decide_eq_false hne] at hu
      exact (hu.directFail ctx (.inr (.inl rfl)) (by rw [hf.mode, hpart]) _ _ _).ends
  · split
    · next u hr =>
      have hf := Fed.raw (Bool.eq_false_of_not_eq_true hc) hr
      exact ((h.feed ho hf).directFail ctx (.inr (.inl rfl)) (by rw [hf.mode, hpart]) _ _ _).ends
    · next u hr =>
      have hf := Fed.raw (Bool.eq_false_of_not_eq_true hc) hr
      have hu := h.feed ho hf
      split_ifs
      · rw [← hbody]
        exact hu.directEnd ctx hs hp (hf.mode.trans hm)
      · exact (hu.ackOrFail ctx hack (by rw [hf.mode, hpart]; simp)).ends

theorem Moves.partialData (h : Moves app cmd s (.rest, d)) (hm : d.xfer.mode = .directPartial)
    (body : Bytes) : Moves app cmd s (.rest, (odXferPartialDataImpl app ctx body d).2) := by
  have ho : odXferOwnsHardware d = true := by simp [odXferOwnsHardware, hm]
  have hpart : partialMode d.xfer.mode = true := by rw [hm]; rfl
  have hack : isStartAck [respAck, respDirectWriteDataAck] = false := rfl
  unfold odXferPartialDataImpl
  dsimp only
  split_ifs with howner hnil hlong hover hc
  · exact h
  · exact h
  · exact h.partialTerminalFail ctx (.inl rfl) hpart _ _ _
  · exact h.partialTerminalFail ctx (.inl rfl) hpart _ _ _
  · split
    · next u hr => exact (h.feed ho (Fed.push hc hr)).ackOrFail ctx hack fun _ => rfl
    · next r u hne hr =>
      have hf := Fed.push hc hr
      have hu := h.feed ho hf
      rw [decide_eq_false hne] at hu
      exact hu.partialTerminalFail ctx (.inr (.inl rfl)) (by rw [hf.mode, hpart]) _ _ _
  · have hne : body ≠ [] := fun he => hnil (by simp [he])
    split
    · next cause u hr =>
      have hf := Fed.partialRaw (Bool.eq_false_of_not_eq_true hc) hne hr
      exact (h.feed ho hf).partialTerminalFail ctx (.inr (.inl rfl)) (by rw [hf.mode, hpart]) _ _ _
    · next u hr =>
      have hf := Fed.partialRaw (Bool.eq_false_of_not_eq_true hc) hne hr
      exact (h.feed ho hf).ackOrFail ctx hack fun _ => rfl

theorem Moves.partialFinish (h : Moves app cmd s (.ready, d)) (hm : d.xfer.mode = .directPartial)
    (body : Bytes) : Ends app cmd s (partialFinish app ctx body d).2 := by
  have hs := h.move (.stamp (by simp [odXferOwnsHardware, hm]))
  have hclear : ∀ {p d}, Moves app cmd s (p, d) → p ≠ .ended → d.xfer.mode = .directPartial →
      Moves app cmd s (p, odXferAppSetDisplayedEtag 0 d) :=
    fun h hp hm => h.move (.clearEtag hp (.inl (by rw [hm]; rfl)))
  unfold OpenDisplay.partialFinish
  dsimp only
  split
  · next u hr =>
    have hu := hs.replyApp ctx rfl hr
    have hum : u.xfer.mode = .directPartial := by rw [odXferReplyApp_eq ctx hr]; exact hm
    split
    · next v hb =>
      have hvm : v.xfer.mode = .directPartial := by rw [odXferAppBeforeRefresh_eq hb]; exact hum
      exact ((hclear (hu.beforeRefresh hb) (by simp) hvm).barrierRelease _ fun _ => rfl).ends
    · next v hb =>
      have hv := hu.beforeRefresh hb
      have hvm : v.xfer.mode = .directPartial := by rw [odXferAppBeforeRefresh_eq hb]; exact hum
      split
      · next w hf =>
        have hwm : w.xfer.mode = .directPartial := by rw [odXferAppRefresh_eq hf]; exact hvm
        have hd := ((hclear (hv.unshown hf) (by simp) hwm).terminal .refreshFailed).move
          (.dropped .refreshFailed false (by
            simp [dropsEtag, odXferAppSetDisplayedEtag, odXferTerminalFailure, Dev.log, hwm]))
        exact (hd.replyError ctx _).ended
      · next completed w hf =>
        have hwm : w.xfer.mode = .directPartial := by rw [odXferAppRefresh_eq hf]; exact hvm
        have hd := hv.refreshed hf
        rw [settleEtag, if_pos hwm] at hd
        exact (hd.refreshReply ctx completed).ended
  · next hr =>
    have hu := hs.replyApp ctx rfl hr
    have hum := congrArg (fun d => d.xfer.mode) (odXferReplyApp_eq ctx hr)
    exact ((hclear hu (by simp) (hum.trans hm)).barrierRelease _ fun _ => rfl).ends

theorem Moves.partialEnd (h : Moves app cmd s (.rest, d)) (hs : cmd.starts = false)
    (hp : cmd.endsPipe = false) (hm : d.xfer.mode = .directPartial) (body : Bytes) :
    Ends app cmd s (odXferPartialEndImpl app ctx body d).2 := by
  have ho : odXferOwnsHardware d = true := by simp [odXferOwnsHardware, hm]
  have hpart : partialMode d.xfer.mode = true := by rw [hm]; rfl
  unfold odXferPartialEndImpl
  split_ifs with howner hlong hc hnone hwhole
  · exact h.ends
  · exact (h.partialTerminalFail ctx (.inl rfl) hpart _ _ _).ends
  · exact (h.partialTerminalFail ctx (.inl rfl) hpart _ _ _).ends
  · have hum := (odXferStreamPush_streams app [] true d).mode
    split
    · next u hr =>
      rw [hr] at hum
      exact (h.move (.inflated hs ho hc (by simp [hp]) hr)).partialFinish ctx (hum.trans hm) _
    · next r u hne hr =>
      rw [hr] at hum
      exact ((h.move (.finalFailed ho hc hr hne)).partialTerminalFail ctx (.inr (.inl rfl))
        (by rw [hum]; exact hpart) _ _ _).ends
  · exact (h.partialTerminalFail ctx (.inl rfl) hpart _ _ _).ends
  · exact (h.move (.complete hs ho ⟨by simpa using hc, fun _ => by simpa using hwhole,
      by simp [hp]⟩)).partialFinish ctx hm _

end Finish

end OpenDisplay
