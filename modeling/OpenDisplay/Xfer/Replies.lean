import OpenDisplay.Xfer.Step

/-! How many replies a command asks for. Each piece of the transfer and PIPE code adds
its own number, and the number of a command is put together from those of its pieces. A
barrier that is given up stands in the place of a reply that is then not sent. -/

namespace OpenDisplay

open Loops

def Event.isReply : Event → Bool
  | .reply _ _ _ | .replyPlain _ _ => true
  | _ => false

def Event.isBarrierAbort : Event → Bool
  | .barrierAbort _ => true
  | _ => false

def Event.spends (e : Event) : Bool := e.isReply || e.isBarrierAbort

/-- From the first state to the second at most `n` replies are asked for and barriers
given up. -/
def Spends (n : Nat) (d d' : Dev) : Prop :=
  ∃ es, d'.events = d.events ++ es ∧ es.countP Event.spends ≤ n

section Pieces

variable {m n : Nat} {d₀ d d' : Dev} (app : App) (ctx : Ctx)

theorem Spends.refl (d : Dev) : Spends n d d := ⟨[], by simp, by simp⟩

theorem Spends.mono (h : Spends m d₀ d) (hle : m ≤ n) : Spends n d₀ d := by
  obtain ⟨es, hes, hm⟩ := h
  exact ⟨es, hes, hm.trans hle⟩

theorem Spends.same (h : Spends n d₀ d) (he : d'.events = d.events) : Spends n d₀ d' := by
  obtain ⟨es, hes, hn⟩ := h
  exact ⟨es, he.trans hes, hn⟩

theorem Spends.log (h : Spends n d₀ d) {e : Event} (he : e.spends = false) : Spends n d₀ (d.log e) := by
  obtain ⟨es, hes, hn⟩ := h
  refine ⟨es ++ [e], ?_, ?_⟩
  · rw [Dev.log, hes, List.append_assoc]
  · simpa [he] using hn

theorem Spends.replied (h : Spends n d₀ d) (e : Event) : Spends (n + 1) d₀ (d.log e) := by
  obtain ⟨es, hes, hn⟩ := h
  refine ⟨es ++ [e], ?_, ?_⟩
  · rw [Dev.log, hes, List.append_assoc]
  · have hle : [e].countP Event.spends ≤ 1 := List.countP_le_length
    rw [List.countP_append]
    omega

theorem Spends.streams (h : Spends n d₀ d) (hs : Streams d d') : Spends n d₀ d' := by
  obtain ⟨es, hes, hn⟩ := h
  obtain ⟨es', hes', hall⟩ := hs.events
  refine ⟨es ++ es', by rw [hes', hes, List.append_assoc], ?_⟩
  have hzero : es'.countP Event.spends = 0 := by
    rw [List.countP_eq_zero]
    intro e he
    rcases hall e he with ⟨o, b, c, rfl⟩ | ⟨status, rfl⟩ <;> simp [Event.spends, Event.isReply, Event.isBarrierAbort]
  rw [List.countP_append]
  omega

theorem Spends.ite {p : Prop} [Decidable p] (ht : Spends n d₀ d) (hf : Spends n d₀ d') :
    Spends n d₀ (if p then d else d') := by
  split_ifs
  · exact ht
  · exact hf

theorem Spends.give (h : Spends n d₀ d) (bytes : Bytes) (received : UInt32) :
    Spends n d₀ (Dev.log (.stream bytes) { d with xfer := { d.xfer with receivedBytes := received } }) := by
  have hset : Spends n d₀ { d with xfer := { d.xfer with receivedBytes := received } } := h.same rfl
  exact hset.log rfl

theorem Spends.entry (h : Spends n d₀ d) (x : XferState) (mode : Mode) (compressed : Bool) (total : UInt32) :
    Spends n d₀ (Dev.log (.admitted mode compressed total) { d with xfer := x }) := by
  have hset : Spends n d₀ { d with xfer := x } := h.same rfl
  exact hset.log rfl

theorem Spends.setEtag (h : Spends n d₀ d) (etag : UInt32) : Spends n d₀ (odXferAppSetDisplayedEtag etag d) := by
  have hset : Spends n d₀ { d with displayedEtag := etag } := h.same rfl
  exact hset.log rfl

theorem Spends.terminal (h : Spends n d₀ d) (cause : TerminalCause) :
    Spends n d₀ (odXferTerminalFailure cause d) := h.log rfl

theorem Spends.clear (h : Spends n d₀ d) : Spends n d₀ (odXferClearState d) := h.same rfl

theorem Spends.appAbort (h : Spends n d₀ d) (reason : AbortReason) : Spends n d₀ (odXferAppAbort reason d) := h.log rfl

theorem Spends.abort (h : Spends n d₀ d) (reason : AbortReason) (clear : Bool) :
    Spends n d₀ (odXferAbortActive reason clear d) := by
  have habort : Spends n d₀ (if odXferOwnsHardware d then odXferAppAbort reason d else d) := .ite (h.appAbort reason) h
  exact (Spends.ite (habort.setEtag 0) habort).clear

theorem Spends.fail (h : Spends n d₀ d) (cause : TerminalCause) (reason : AbortReason) (clear : Bool) :
    Spends n d₀ (odXferFailActive cause reason clear d) := (h.terminal cause).abort reason clear

theorem Spends.replace (h : Spends n d₀ d) : Spends n d₀ (odXferReplaceActive d) := by
  unfold odXferReplaceActive
  dsimp only
  split_ifs
  · exact (h.appAbort _).clear
  · exact h.clear
  · exact h

theorem Spends.finishEtag (h : Spends n d₀ d) (completed hasEtag : Bool) (newEtag : UInt32) :
    Spends n d₀ (OpenDisplay.finishEtag completed hasEtag newEtag d) := by
  unfold OpenDisplay.finishEtag
  split_ifs <;> first | exact h.setEtag _ | exact h

theorem Spends.barrierRelease (h : Spends n d₀ d) (cause : TerminalCause) :
    Spends (n + 1) d₀ (OpenDisplay.barrierRelease cause d).2 := ((h.terminal cause).clear).replied _

theorem Spends.fatal (h : Spends n d₀ d) : Spends n d₀ (odXferPipeEnterFatal d) := by
  have habort : Spends n d₀ (if odXferOwnsHardware d then odXferAppAbort .streamFailed d else d) :=
    .ite (h.appAbort _) h
  unfold odXferPipeEnterFatal
  dsimp only
  generalize (if odXferOwnsHardware d then odXferAppAbort .streamFailed d else d) = u at habort
  have hetag : Spends n d₀ (if decide (d.xfer.mode = .pipePartial) then odXferAppSetDisplayedEtag 0 u else u) :=
    .ite (habort.setEtag 0) habort
  exact .ite (hetag.same rfl) hetag

theorem Spends.directRaw (h : Spends n d₀ d) (body : Bytes) : Spends n d₀ (OpenDisplay.directRaw app body d).2 := by
  unfold OpenDisplay.directRaw
  dsimp only
  split_ifs <;> first | exact h.streams (writeAll_streams app _ d) | exact h

theorem Spends.push (h : Spends n d₀ d) (input : Bytes) (final : Bool) :
    Spends n d₀ (odXferStreamPush app input final d).2 := h.streams (odXferStreamPush_streams app input final d)

theorem Spends.replyApp (h : Spends n d₀ d) (frame : Bytes) :
    Spends (n + 1) d₀ (odXferReplyApp app ctx frame d).2 := h.replied _

theorem Spends.replyError (h : Spends n d₀ d) (frame : Bytes) :
    Spends (n + 1) d₀ (odXferReplyError ctx frame d) := h.replied _

end Pieces

section Direct

variable {n : Nat} {d₀ d : Dev} (app : App) (ctx : Ctx)

theorem Spends.directFail (h : Spends n d₀ d) (cause : TerminalCause) (reason : AbortReason) (opcode : UInt8) :
    Spends (n + 1) d₀ (OpenDisplay.directFail ctx cause reason opcode d).2 := (h.fail _ _ _).replyError ctx _

theorem Spends.ackOrFail (h : Spends n d₀ d) (ack : Bytes) (clear : Bool) :
    Spends (n + 1) d₀ (OpenDisplay.ackOrFail app ctx ack clear d).2 := by
  have hreply := h.replyApp app ctx ack
  unfold OpenDisplay.ackOrFail
  split
  · next u hu => rw [hu] at hreply; exact hreply
  · next u _ hu => rw [hu] at hreply; exact hreply.fail _ _ _

theorem Spends.directInline (h : Spends n d₀ d) (input : Bytes) :
    Spends n d₀ (OpenDisplay.directInline app input d).2 := by
  unfold OpenDisplay.directInline
  split_ifs
  · exact h
  · exact (h.give input _).push app _ _

theorem Spends.directBegin (h : Spends n d₀ d) (geometry : Geometry) (compressed : Bool) (body : Bytes) :
    Spends (n + 1) d₀ (OpenDisplay.directBegin app ctx geometry compressed body d).2 := by
  have hentry : Spends n d₀ (directAdmit app ctx geometry compressed d) := h.clear.entry _ _ _ _
  unfold OpenDisplay.directBegin
  dsimp only
  have hbegin :=
    hentry.log (e := .beginFull (app.beginFull (directAdmit app ctx geometry compressed d).events geometry)) rfl
  generalize Dev.log _ (directAdmit app ctx geometry compressed d) = u at hbegin
  split_ifs
  · exact hbegin.directFail ctx _ _ _
  · have hreset : Spends n d₀ (odXferStreamReset geometry.totalBytes u) := hbegin.same rfl
    have hinline := hreset.directInline app (body.drop 4)
    split
    · next v hv => rw [hv] at hinline; exact hinline.ackOrFail app ctx _ _
    · next v _ hv => rw [hv] at hinline; exact hinline.directFail ctx _ _ _
  · exact hbegin.ackOrFail app ctx _ _

theorem odXferDirectStart_spends (body : Bytes) (d : Dev) : Spends 1 d (odXferDirectStart app ctx body d).2 := by
  have h : Spends 0 d d := .refl d
  unfold odXferDirectStart
  split_ifs
  · exact h.replyError ctx _
  · dsimp only
    have hprep := h.replace.log (e := .prepareStart) rfl
    generalize Dev.log .prepareStart (odXferReplaceActive d) = u at hprep
    split
    · exact hprep.replyError ctx _
    · split_ifs
      · exact hprep.replyError ctx _
      · exact hprep.replyError ctx _
      · exact hprep.replyError ctx _
      · exact hprep.directBegin app ctx _ _ _

theorem Spends.refreshReply (h : Spends n d₀ d) (completed : Bool) :
    Spends (n + 1) d₀ (OpenDisplay.refreshReply app ctx completed d).2 := by
  have hreply := h.replyApp app ctx
    [respAck, if completed then respDirectWriteRefreshSuccess else respDirectWriteRefreshTimeout]
  unfold OpenDisplay.refreshReply
  dsimp only
  split
  · next u hu =>
    rw [hu] at hreply
    dsimp only
    split_ifs
    · exact hreply
    · exact hreply.terminal _
  · next u _ hu => rw [hu] at hreply; exact hreply.terminal _

theorem Spends.finishRefresh (h : Spends n d₀ d) (body : Bytes) :
    Spends (n + 2) d₀ (OpenDisplay.finishRefresh app ctx body d).2 := by
  have hmark : Spends n d₀ (markFinalized app d) := h.same rfl
  have hack := hmark.replyApp app ctx [respAck, respDirectWriteEndAck]
  unfold OpenDisplay.finishRefresh
  dsimp only
  split
  · next u hu =>
    rw [hu] at hack
    have hbarrier : Spends (n + 1) d₀ (odXferAppBeforeRefresh app u.xfer.owner u).2 := hack.log rfl
    split
    · next v hv =>
      rw [hv] at hbarrier
      exact hbarrier.barrierRelease _
    · next v hv =>
      rw [hv] at hbarrier
      generalize (if 0 < body.length ∧ byteAt body 0 = refreshFast then refreshFast else refreshFull) = mode
      have hrefresh : Spends (n + 1) d₀ (odXferAppRefresh app mode v).2.2 := hbarrier.log rfl
      split
      · next w hw => rw [hw] at hrefresh; exact hrefresh.directFail ctx _ _ _
      · next w hw =>
        rw [hw] at hrefresh
        exact ((hrefresh.finishEtag _ _ _).clear).refreshReply app ctx _
  · next u _ hu =>
    rw [hu] at hack
    exact hack.barrierRelease _

theorem Spends.directEnd (h : Spends n d₀ d) (body : Bytes) :
    Spends (n + 2) d₀ (odXferDirectEndImpl app ctx body d).2 := by
  unfold odXferDirectEndImpl
  split_ifs
  · exact h.mono (by omega)
  · have hpush := h.push app [] true
    split
    · next u hu => rw [hu] at hpush; exact hpush.finishRefresh app ctx body
    · next u _ hu => rw [hu] at hpush; exact (hpush.directFail ctx _ _ _).mono (by omega)
  · exact (h.directFail ctx _ _ _).mono (by omega)
  · exact h.finishRefresh app ctx body

theorem odXferDirectDataImpl_spends (body : Bytes) (d : Dev) :
    Spends 2 d (odXferDirectDataImpl app ctx body d).2 := by
  have h : Spends 0 d d := .refl d
  have hone : ∀ {u : Dev}, Spends 1 d u → Spends 2 d u := fun h => h.mono (by omega)
  unfold odXferDirectDataImpl
  dsimp only
  have hgiven := h.give body (d.xfer.receivedBytes + UInt32.ofNat body.length)
  generalize Dev.log (.stream body) _ = u at hgiven
  split_ifs
  · exact .refl d
  · exact .refl d
  · exact hone (h.directFail ctx _ _ _)
  · exact hone (h.directFail ctx _ _ _)
  · have hpush := hgiven.push app body false
    split
    · next v hv => rw [hv] at hpush; exact hone (hpush.ackOrFail app ctx _ _)
    · next v _ hv => rw [hv] at hpush; exact hone (hpush.directFail ctx _ _ _)
  · have hraw := hgiven.directRaw app body
    split
    · next v hv => rw [hv] at hraw; exact hone (hraw.directFail ctx _ _ _)
    · next v hv =>
      rw [hv] at hraw
      split_ifs
      · exact hraw.directEnd app ctx []
      · exact hone (hraw.ackOrFail app ctx _ _)

end Direct

section Partial

variable {n : Nat} {d₀ d : Dev} (app : App) (ctx : Ctx)

theorem Spends.partialFail (h : Spends n d₀ d) (opcode error : UInt8) :
    Spends (n + 1) d₀ (OpenDisplay.partialFail ctx opcode error d).2 := (h.setEtag 0).replyError ctx _

theorem Spends.partialTerminal (h : Spends n d₀ d) (opcode : UInt8) (cause : TerminalCause) (reason : AbortReason) :
    Spends (n + 1) d₀ (partialTerminalFail ctx opcode cause reason d).2 :=
  ((h.setEtag 0).fail _ _ _).replyError ctx _

theorem Spends.partialInline (h : Spends n d₀ d) (input : Bytes) :
    Spends n d₀ (OpenDisplay.partialInline app input d).2 := by
  have hgiven := h.give input (UInt32.ofNat input.length)
  unfold OpenDisplay.partialInline
  dsimp only
  generalize Dev.log (.stream input) _ = u at hgiven
  split_ifs
  · exact h
  · have hpush := hgiven.push app input false
    split
    · next v hv => rw [hv] at hpush; exact hpush
    · next v _ hv => rw [hv] at hpush; exact hpush
  · unfold partialInlineRaw
    split_ifs
    · exact hgiven
    · have hwrite : Spends n d₀ (odXferAppWrite app 0 input u).2 := hgiven.log rfl
      dsimp only
      split_ifs
      · exact hwrite
      · exact hwrite.same rfl

/-- The state in which the panel has answered whether it begins a partial update. -/
def partialBegun (geometry : Geometry) (compressed : Bool) (region : PartialState) (d : Dev) : Dev :=
  let d := partialAdmit app ctx geometry compressed region d
  d.log (.beginPartial (app.beginPartial d.events region))

theorem Spends.partialBegun (geometry : Geometry) (compressed : Bool) (region : PartialState)
    (h : Spends n d₀ (OpenDisplay.partialBegun app ctx geometry compressed region d)) (body : Bytes) :
    Spends (n + 1) d₀ (OpenDisplay.partialBegin app ctx geometry compressed region body d).2 := by
  unfold OpenDisplay.partialBegun at h
  unfold OpenDisplay.partialBegin
  dsimp only at h ⊢
  generalize partialAdmit app ctx geometry compressed region d = u at h
  generalize Dev.log _ u = v at h
  have hreset : Spends n d₀ (if compressed then odXferStreamReset (region.planeBytes * 2) v else v) :=
    .ite (h.same rfl) h
  generalize (if compressed then odXferStreamReset (region.planeBytes * 2) v else v) = w at hreset
  have hinline := hreset.partialInline app (body.drop 17)
  split_ifs
  · exact h.partialTerminal ctx _ _ _
  · split
    · next t ht => rw [ht] at hinline; exact hinline.partialTerminal ctx _ _ _
    · next t ht => rw [ht] at hinline; exact hinline.ackOrFail app ctx _ _

theorem Spends.partialBegin (h : Spends n d₀ d) (geometry : Geometry) (compressed : Bool) (region : PartialState)
    (body : Bytes) : Spends (n + 1) d₀ (OpenDisplay.partialBegin app ctx geometry compressed region body d).2 := by
  have hentry : Spends n d₀ (partialAdmit app ctx geometry compressed region d) := h.clear.entry _ _ _ _
  exact Spends.partialBegun app ctx geometry compressed region (hentry.log rfl) body

theorem odXferPartialStart_spends (body : Bytes) (d : Dev) : Spends 1 d (odXferPartialStart app ctx body d).2 := by
  have h : Spends 0 d d := .refl d
  unfold odXferPartialStart
  dsimp only
  have hprep := h.replace.log (e := .prepareStart) rfl
  generalize Dev.log .prepareStart (odXferReplaceActive d) = u at hprep
  split
  · exact h.partialFail ctx _ _
  split
  · exact hprep.partialFail ctx _ _
  split
  · exact hprep.partialFail ctx _ _
  split
  · exact hprep.partialFail ctx _ _
  split
  · exact hprep.partialFail ctx _ _
  split_ifs
  · exact hprep.partialFail ctx _ _
  · exact hprep.partialFail ctx _ _
  · exact hprep.partialFail ctx _ _
  · split
    · exact hprep.partialFail ctx _ _
    · exact hprep.partialBegin app ctx _ _ _ _

theorem odXferPartialDataImpl_spends (body : Bytes) (d : Dev) :
    Spends 2 d (odXferPartialDataImpl app ctx body d).2 := by
  have h : Spends 0 d d := .refl d
  have hone : ∀ {u : Dev}, Spends 1 d u → Spends 2 d u := fun h => h.mono (by omega)
  have hgiven := h.give body (d.xfer.receivedBytes + UInt32.ofNat body.length)
  unfold odXferPartialDataImpl
  dsimp only
  generalize Dev.log (.stream body) _ = u at hgiven
  split_ifs
  · exact .refl d
  · exact .refl d
  · exact hone (h.partialTerminal ctx _ _ _)
  · exact hone (h.partialTerminal ctx _ _ _)
  · have hpush := hgiven.push app body false
    split
    · next v hv => rw [hv] at hpush; exact hone (hpush.ackOrFail app ctx _ _)
    · next v _ hv => rw [hv] at hpush; exact hone (hpush.partialTerminal ctx _ _ _)
  · have hraw : Spends 0 d (partialRaw app body u).2 := by
      unfold partialRaw
      split_ifs
      · exact hgiven
      · have hwrite := hgiven.streams (writeAll_streams app body u)
        split
        · next v hv => rw [hv] at hwrite; exact hwrite
        · next v hv => rw [hv] at hwrite; exact hwrite
    split
    · next v hv => rw [hv] at hraw; exact hone (hraw.partialTerminal ctx _ _ _)
    · next v hv => rw [hv] at hraw; exact hone (hraw.ackOrFail app ctx _ _)

theorem Spends.partialFinish (h : Spends n d₀ d) (body : Bytes) :
    Spends (n + 2) d₀ (OpenDisplay.partialFinish app ctx body d).2 := by
  have hmark : Spends n d₀ (markFinalized app d) := h.same rfl
  have hack := hmark.replyApp app ctx [respAck, respDirectWriteEndAck]
  unfold OpenDisplay.partialFinish
  dsimp only
  split
  · next u hu =>
    rw [hu] at hack
    have hbarrier : Spends (n + 1) d₀ (odXferAppBeforeRefresh app u.xfer.owner u).2 := hack.log rfl
    split
    · next v hv =>
      rw [hv] at hbarrier
      exact (hbarrier.setEtag 0).barrierRelease _
    · next v hv =>
      rw [hv] at hbarrier
      have hrefresh : Spends (n + 1) d₀ (odXferAppRefresh app (partialRefreshMode body) v).2.2 := hbarrier.log rfl
      split
      · next w hw => rw [hw] at hrefresh; exact hrefresh.partialTerminal ctx _ _ _
      · next w hw => rw [hw] at hrefresh; exact ((hrefresh.setEtag _).clear).refreshReply app ctx _
  · next u _ hu =>
    rw [hu] at hack
    exact (hack.setEtag 0).barrierRelease _

theorem odXferPartialEndImpl_spends (body : Bytes) (d : Dev) :
    Spends 2 d (odXferPartialEndImpl app ctx body d).2 := by
  have h : Spends 0 d d := .refl d
  have hone : ∀ {u : Dev}, Spends 1 d u → Spends 2 d u := fun h => h.mono (by omega)
  unfold odXferPartialEndImpl
  split_ifs
  · exact .refl d
  · exact hone (h.partialTerminal ctx _ _ _)
  · exact hone (h.partialTerminal ctx _ _ _)
  · have hpush := h.push app [] true
    split
    · next u hu => rw [hu] at hpush; exact hpush.partialFinish app ctx body
    · next u _ hu => rw [hu] at hpush; exact hone (hpush.partialTerminal ctx _ _ _)
  · exact hone (h.partialTerminal ctx _ _ _)
  · exact h.partialFinish app ctx body

theorem odXferData_spends (body : Bytes) (d : Dev) : Spends 2 d (odXferData app ctx body d).2 := by
  unfold odXferData
  split
  · exact odXferDirectDataImpl_spends app ctx body d
  · exact odXferPartialDataImpl_spends app ctx body d
  · exact .refl d

theorem odXferEnd_spends (body : Bytes) (d : Dev) : Spends 2 d (odXferEnd app ctx body d).2 := by
  unfold odXferEnd
  split
  · exact (Spends.refl d).directEnd app ctx body
  · exact odXferPartialEndImpl_spends app ctx body d
  · exact .refl d

end Partial

section Pipe

variable {n : Nat} {d₀ d : Dev} (app : App) (ctx : Ctx)

theorem Spends.pipeAdmit (h : Spends n d₀ d) (mode : Mode) (total : UInt32) (compressed : Bool) (geometry : Geometry)
    (region : PartialState) : Spends n d₀ (OpenDisplay.pipeAdmit app ctx mode total compressed geometry region d) := by
  unfold OpenDisplay.pipeAdmit
  dsimp only
  split_ifs
  · exact (h.entry _ _ _ _).same rfl
  · exact h.entry _ _ _ _

theorem Spends.armFull (h : Spends n d₀ d) (total : UInt32) (compressed : Bool) :
    Spends n d₀ (odXferPipeArmFull app ctx total compressed d).2 := by
  have hprep := h.log (e := .prepareStart) rfl
  unfold odXferPipeArmFull
  dsimp only
  split_ifs
  · exact h
  · exact h
  · split
    · exact hprep
    · split_ifs
      · exact hprep
      · exact hprep
      · exact hprep
      · exact hprep.pipeAdmit app ctx _ _ _ _ _

theorem Spends.armPartial (h : Spends n d₀ d) (total : UInt32) (compressed : Bool) (oldEtag : UInt32)
    (x y width height : UInt16) :
    Spends n d₀ (odXferPipeArmPartial app ctx total compressed oldEtag x y width height d).2.2 := by
  have hprep := h.log (e := .prepareStart) rfl
  have hrefuse : ∀ error cause, Spends n d₀ (armRefuse error cause (d.log .prepareStart)).2.2 :=
    fun _ _ => hprep.setEtag 0
  unfold odXferPipeArmPartial
  dsimp only
  split
  · exact h
  split
  · exact h
  split
  · exact hrefuse _ _
  split
  · exact hrefuse _ _
  split
  · exact hrefuse _ _
  split
  · exact hrefuse _ _
  split
  · exact hrefuse _ _
  split
  · exact hrefuse _ _
  split
  · exact hrefuse _ _
  · exact hprep.pipeAdmit app ctx _ _ _ _ _

theorem Spends.activate (h : Spends n d₀ d) : Spends n d₀ (odXferPipeActivate app d) := by
  unfold odXferPipeActivate
  split
  next ok u hbegin =>
    have hu : Spends n d₀ u := by
      split at hbegin <;> obtain ⟨-, rfl⟩ := Prod.mk.inj hbegin
      · exact h.log rfl
      · exact h.log rfl
      · exact h
    exact .ite ((hu.terminal _).fatal) hu

theorem Spends.pipeOpen (h : Spends n d₀ d) (isPartial : Bool) (body : Bytes) :
    Spends (n + 1) d₀ (OpenDisplay.pipeOpen app ctx isPartial body d).2 := by
  unfold OpenDisplay.pipeOpen
  dsimp only
  generalize hu : ({ d with pipe := _ } : Dev) = u
  have hset : Spends n d₀ u := h.same (by rw [← hu])
  have hreply := hset.replyApp app ctx (pipeStartAck isPartial)
  split
  · next v hv => rw [hv] at hreply; exact hreply.activate app
  · next v _ hv => rw [hv] at hreply; exact hreply.fail _ _ _

theorem Spends.startNack (h : Spends n d₀ d) (error : UInt8) :
    Spends (n + 1) d₀ (pipeSendStartNack ctx error d).2 := h.replyError ctx _

theorem Spends.arm (h : Spends n d₀ d) (isPartial compressed : Bool) (body : Bytes) :
    Spends (n + 1) d₀ (pipeArm app ctx isPartial compressed body d).2 := by
  unfold pipeArm
  dsimp only
  split
  · have harm := h.armPartial app ctx (readLe32 (body.drop 6)) compressed (readLe32 (body.drop 10))
      (readLe16 ((body.drop 10).drop 4)) (readLe16 ((body.drop 10).drop 6)) (readLe16 ((body.drop 10).drop 8))
      (readLe16 ((body.drop 10).drop 10))
    split
    · next u hu => rw [hu] at harm; exact harm.pipeOpen app ctx _ _
    · next u _ hu => rw [hu] at harm; exact harm.startNack ctx _
  · have harm := h.armFull app ctx (readLe32 (body.drop 6)) compressed
    split
    · next u hu => rw [hu] at harm; exact harm.pipeOpen app ctx _ _
    · next u _ hu => rw [hu] at harm; exact harm.startNack ctx _

theorem odPipeStart_spends (body : Bytes) (d : Dev) : Spends 1 d (odPipeStart app ctx body d).2 := by
  have h : Spends 0 d d := .refl d
  have hreplace := h.replace
  unfold odPipeStart
  dsimp only
  generalize pipeFrameOverhead + 1 + (if ctx.wasProtected then odSessionEnvelopeMin else 0) = minimumFrame
  split_ifs
  · exact h.replyApp app ctx _
  · exact hreplace.startNack ctx _
  · exact hreplace.startNack ctx _
  · exact hreplace.startNack ctx _
  · exact hreplace.startNack ctx _
  · exact hreplace.arm app ctx _ _ _

theorem Spends.hand (h : Spends n d₀ d) (payload : Bytes) : Spends n d₀ (pipeHand app payload d).2 := by
  unfold pipeHand
  split_ifs
  · exact h
  · exact (h.log rfl).streams (odXferPipeConsume_streams app payload d)

theorem Spends.drain (h : Spends n d₀ d) : Spends n d₀ (pipeDrain app d).2 := by
  have hpass : ∀ d, Spends n d₀ d → match pipeDrainPass app d with
      | .next d' => Spends n d₀ d'
      | .stop r => Spends n d₀ r.2 := by
    intro d h
    have hhand := h.hand app (d.reorder (pipeSlot d.pipe.expectedSeq)).data
    unfold pipeDrainPass
    dsimp only
    split_ifs
    · cases hr : pipeHand app (d.reorder (pipeSlot d.pipe.expectedSeq)).data d with
      | mk r u =>
        rw [hr] at hhand
        cases r
        case ok =>
          exact (hhand.log (e := .taken) rfl).same rfl
        all_goals exact hhand
    · exact h
  refine loop_rule (P := fun (d : Dev) (r : StreamResult × Dev) => Spends n d₀ d → Spends n d₀ r.2) ?_ ?_ _ h
  · intro d r hs hd
    have := hpass d hd
    rw [hs] at this
    exact this
  · intro d d' r hn ih hd
    have := hpass d hd
    rw [hn] at this
    exact ih this

theorem Spends.dataNack (h : Spends n d₀ d) (error : UInt8) (cause : TerminalCause) :
    Spends (n + 1) d₀ (pipeSendDataNack ctx error cause d).2 := ((h.replyError ctx _).terminal _).fatal

theorem Spends.sack (h : Spends n d₀ d) : Spends (n + 1) d₀ (pipeSackOrFatal app ctx d).2 := by
  have hsend : Spends (n + 1) d₀ (pipeSendSack app ctx d).2 := (h.replyApp app ctx _).same rfl
  unfold pipeSackOrFatal
  split
  · next u hu => rw [hu] at hsend; exact hsend
  · next u _ hu => rw [hu] at hsend; exact (hsend.terminal _).fatal

theorem Spends.pipeFinish (h : Spends n d₀ d) (body : Bytes) :
    Spends (n + 2) d₀ (OpenDisplay.pipeFinish app ctx body d).2 := by
  have hmark : Spends n d₀ (markFinalized app d) := h.same rfl
  have hack := hmark.replyApp app ctx [respAck, respPipeEnd]
  unfold OpenDisplay.pipeFinish
  dsimp only
  split
  · next u hu =>
    rw [hu] at hack
    have hbarrier : Spends (n + 1) d₀ (odXferPipeBeforeRefresh app u).2 := by
      unfold odXferPipeBeforeRefresh
      split_ifs
      · exact hack
      · exact hack.log rfl
    split
    · next v hv =>
      rw [hv] at hbarrier
      have hterm := hbarrier.terminal .barrierAborted
      unfold odXferPipeBarrierAbort
      exact ((Spends.ite (hterm.setEtag 0) hterm).clear).replied _
    · next v hv =>
      rw [hv] at hbarrier
      have hrefresh : ∀ mode hasEtag newEtag,
          Spends (n + 1) d₀ (odXferPipeRefresh app mode hasEtag newEtag v).2.2 := by
        intro mode hasEtag newEtag
        have hshow : Spends (n + 1) d₀ (odXferAppRefresh app mode v).2.2 := hbarrier.log rfl
        unfold odXferPipeRefresh
        dsimp only
        split_ifs
        · exact hbarrier
        · split
          · next w hw => rw [hw] at hshow; exact hshow.fail _ _ _
          · next w hw =>
            rw [hw] at hshow
            unfold pipeEtag
            exact (Spends.ite (hshow.setEtag _) (hshow.finishEtag _ _ _)).clear
      split
      · next w hw =>
        obtain rfl := congrArg (·.2.2) hw
        exact (hrefresh _ _ _).replyError ctx _
      · next w hw =>
        obtain rfl := congrArg (·.2.2) hw
        exact (hrefresh _ _ _).refreshReply app ctx _
  · next u _ hu => rw [hu] at hack; exact (hack.fail _ _ _).mono (Nat.le_succ _)

theorem Spends.afterDrain (h : Spends n d₀ d) : Spends (n + 3) d₀ (pipeAfterDrain app ctx d).2 := by
  have hclosed : Spends n d₀
      (if d.pipe.queuedCount = 0 then { d with pipe := { d.pipe with gapOpen := false } } else d) :=
    .ite (h.same rfl) h
  unfold pipeAfterDrain
  dsimp only
  generalize (if d.pipe.queuedCount = 0 then { d with pipe := { d.pipe with gapOpen := false } } else d) = u
    at hclosed
  have hsack := hclosed.sack app ctx
  split_ifs
  · split
    · next v hv => rw [hv] at hsack; exact hsack.mono (by omega)
    · next v hv => rw [hv] at hsack; exact hsack.pipeFinish app ctx []
  · split
    · next v hv => rw [hv] at hsack; exact hsack.mono (by omega)
    · next v hv => rw [hv] at hsack; exact hsack.mono (by omega)
  · exact hclosed.mono (by omega)

theorem Spends.firstAck (h : Spends n d₀ d) : Spends (n + 1) d₀ (pipeFirstAck app ctx d).2 := by
  have hsack := h.sack app ctx
  unfold pipeFirstAck
  split
  · next v hv => rw [hv] at hsack; exact hsack
  · next v hv => rw [hv] at hsack; exact hsack

theorem Spends.gapAck (h : Spends n d₀ d) : Spends (n + 1) d₀ (pipeGapAck app ctx d).2 := by
  have hcount : Spends n d₀
      { d with pipe := { d.pipe with oooAcksSinceGap := d.pipe.oooAcksSinceGap + 1 } } := h.same rfl
  unfold pipeGapAck
  dsimp only
  have hsack := hcount.sack app ctx
  split_ifs
  · split
    · next v hv => rw [hv] at hsack; exact hsack
    · next v hv => rw [hv] at hsack; exact hsack
  · exact hcount.mono (Nat.le_succ _)

theorem Spends.inOrder (h : Spends n d₀ d) (seq : UInt8) (payload : Bytes) :
    Spends (n + 3) d₀ (pipeInOrder app ctx seq payload d).2 := by
  have hhand := h.hand app payload
  unfold pipeInOrder
  split
  · next u hu =>
    rw [hu] at hhand
    dsimp only
    generalize ht : ({ pipeTake u with pipe := _ } : Dev) = t
    have htake : Spends n d₀ t := by
      have hev : t.events = u.events ++ [.taken] := by rw [← ht]; rfl
      exact (hhand.log (e := .taken) rfl).same hev
    have hdrain := htake.drain app
    split
    · next v hv => rw [hv] at hdrain; exact hdrain.afterDrain app ctx
    · next v _ hv => rw [hv] at hdrain; exact (hdrain.dataNack ctx _ _).mono (by omega)
  · next u _ hu => rw [hu] at hhand; exact (hhand.dataNack ctx _ _).mono (by omega)

theorem Spends.outOfOrder (h : Spends n d₀ d) (seq : UInt8) (payload : Bytes) :
    Spends (n + 1) d₀ (pipeOutOfOrder app ctx seq payload d).2 := by
  have hstore : Spends n d₀ (pipeStore seq payload d) := h.same rfl
  unfold pipeOutOfOrder
  dsimp only
  split_ifs
  · exact h.dataNack ctx _ _
  · exact hstore.dataNack ctx _ _
  · refine Spends.firstAck app ctx ?_
    exact ((hstore.log (e := .held _) rfl).same rfl)
  · refine Spends.gapAck app ctx ?_
    exact ((hstore.log (e := .held _) rfl).same rfl)

theorem odPipeData_spends (body : Bytes) (d : Dev) : Spends 3 d (odPipeData app ctx body d).2 := by
  have h : Spends 0 d d := .refl d
  have hone : ∀ {u : Dev}, Spends 1 d u → Spends 3 d u := fun h => h.mono (by omega)
  unfold odPipeData
  split_ifs
  · exact hone (h.replyApp app ctx _)
  · exact .refl d
  · exact .refl d
  · exact hone (h.dataNack ctx _ _)
  · unfold pipeFrame
    dsimp only
    split_ifs
    · exact h.inOrder app ctx _ _
    · exact hone (h.outOfOrder app ctx _ _)
    · exact hone (h.firstAck app ctx)
    · exact hone (h.gapAck app ctx)
    · exact hone (h.dataNack ctx _ _)

theorem Spends.incomplete (h : Spends n d₀ d) : Spends (n + 1) d₀ (pipeIncomplete ctx d).2 :=
  (h.replyError ctx _).abort _ _

theorem odPipeEnd_spends (body : Bytes) (d : Dev) : Spends 3 d (odPipeEnd app ctx body d).2 := by
  have h : Spends 0 d d := .refl d
  have hone : ∀ {u : Dev}, Spends 1 d u → Spends 3 d u := fun h => h.mono (by omega)
  have hsack := h.sack app ctx
  unfold odPipeEnd
  split_ifs
  · exact hone (h.replyApp app ctx _)
  · exact hone (h.replyError ctx _)
  · exact .refl d
  · exact hone (h.incomplete ctx)
  · split
    · next u hu => rw [hu] at hsack; exact hone hsack
    · next u hu =>
      rw [hu] at hsack
      have hfinal : Spends 1 d (if u.pipe.queuedCount = 0 then odXferPipeFinalize app u else (.ok, u)).2 := by
        unfold odXferPipeFinalize
        split_ifs <;> first | exact hsack.push app [] true | exact hsack
      generalize (if u.pipe.queuedCount = 0 then odXferPipeFinalize app u else (.ok, u)) = r at hfinal
      obtain ⟨r, v⟩ := r
      dsimp only at hfinal ⊢
      split_ifs
      all_goals first
        | exact ((hfinal.terminal _).incomplete ctx).mono (by omega)
        | exact hfinal.pipeFinish app ctx body

end Pipe

end OpenDisplay
