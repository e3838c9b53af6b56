import OpenDisplay.Lib.Serial
import OpenDisplay.Pipe.Deeds

/-! The receive window. The log counts the chunks of a transfer without wrapping,
and every reachable state of PIPE is measured against that count. -/

namespace OpenDisplay

open Serial

/-- How far the current transfer has come, read off the log: the chunks taken in
order, one more than the largest index accepted, and the payloads handed over. -/
structure Progress where
  taken : Nat := 0
  seen : Nat := 0
  handed : List Bytes := []

def Progress.add (p : Progress) : Event → Progress
  | .admitted _ _ _ => {}
  | .stream data => { p with handed := p.handed ++ [data] }
  | .taken => { p with taken := p.taken + 1, seen := max p.seen (p.taken + 1) }
  | .held fwd => { p with seen := max p.seen (p.taken + fwd + 1) }
  | _ => p

def progress (es : List Event) : Progress := es.foldl Progress.add {}

theorem progress_log (e : Event) (d : Dev) :
    progress (d.log e).events = (progress d.events).add e := by
  simp [progress, Dev.log]

/-- Events that are no progress. -/
def still : Event → Bool
  | .admitted _ _ _ | .stream _ | .taken | .held _ => false
  | _ => true

theorem progress_append (es : List Event) {es' : List Event} (h : ∀ e ∈ es', still e = true) :
    progress (es ++ es') = progress es := by
  unfold progress
  rw [List.foldl_append]
  induction es' using List.reverseRecOn with
  | nil => rfl
  | append_singleton es' e ih =>
    rw [List.foldl_append, ih fun e he => h e (by simp [he])]
    have he := h e (by simp)
    cases e <;> first | rfl | exact absurd he nofun

section Stays

variable {app : App} {ctx : Ctx} {cmd : Cmd} {hs hs' : List Bytes} {d d' d'' : Dev}

/-- The transfer is PIPE's, alive or dead. -/
def OnPipe (d : Dev) : Prop := pipeMode d.xfer.mode = true ∨ d.xfer.mode = .fatal

/-- The window stays where it is, while `handed` payloads are handed over. -/
structure Stays (handed : List Bytes) (d d' : Dev) : Prop where
  mode : d'.xfer.mode = d.xfer.mode ∨ pipeMode d.xfer.mode = true ∧ d'.xfer.mode = .fatal
  reorder : d'.reorder = d.reorder
  pipe : ∃ gap frames acks, d'.pipe = { d.pipe with
    gapOpen := gap, framesSinceAck := frames, oooAcksSinceGap := acks }
  grown : progress d'.events =
    { progress d.events with handed := (progress d.events).handed ++ handed }

theorem Stays.refl (d : Dev) : Stays [] d d :=
  ⟨.inl rfl, rfl, ⟨_, _, _, rfl⟩, by rw [List.append_nil]⟩

theorem Stays.taken (h : Stays hs d d') :
    (progress d'.events).taken = (progress d.events).taken := by
  rw [h.grown]

theorem Stays.seen (h : Stays hs d d') :
    (progress d'.events).seen = (progress d.events).seen := by
  rw [h.grown]

theorem Stays.trans (h : Stays hs d d') (h' : Stays hs' d' d'') : Stays (hs ++ hs') d d'' where
  mode := by
    rcases h.mode with hm | ⟨hp, hf⟩
    · rcases h'.mode with hm' | ⟨hp', hf'⟩
      · exact .inl (hm'.trans hm)
      · exact .inr ⟨by rw [← hm]; exact hp', hf'⟩
    · rcases h'.mode with hm' | ⟨hp', -⟩
      · exact .inr ⟨hp, hm'.trans hf⟩
      · rw [hf] at hp'
        exact absurd hp' nofun
  reorder := h'.reorder.trans h.reorder
  pipe := by
    obtain ⟨_, _, _, hp⟩ := h.pipe
    obtain ⟨_, _, _, hp'⟩ := h'.pipe
    exact ⟨_, _, _, by rw [hp', hp]⟩
  grown := by rw [h'.grown, h.grown, List.append_assoc]

theorem Stays.append (hm : d'.xfer.mode = d.xfer.mode) (hr : d'.reorder = d.reorder)
    (hp : d'.pipe = d.pipe) (es : List Event) (he : d'.events = d.events ++ es)
    (hes : ∀ e ∈ es, still e = true) : Stays [] d d' :=
  ⟨.inl hm, hr, ⟨_, _, _, hp⟩, by rw [he, progress_append _ hes, List.append_nil]⟩

theorem Stays.log (d : Dev) {e : Event} (he : still e = true) : Stays [] d (d.log e) :=
  .append rfl rfl rfl [e] rfl (by simpa using he)

theorem Stays.give (d : Dev) (data : Bytes) (received : UInt32) :
    Stays [data] d (d.give data received) :=
  ⟨.inl rfl, rfl, ⟨_, _, _, rfl⟩, progress_log _ _⟩

theorem Marks.stays (h : Marks d d') : Stays [] d d' := by
  obtain ⟨gap, frames, acks, rfl⟩ := h
  exact ⟨.inl rfl, rfl, ⟨_, _, _, rfl⟩, by rw [List.append_nil]⟩

theorem Streams.stays (h : Streams d d') : Stays [] d d' := by
  obtain ⟨es, hes, hall⟩ := h.events
  refine .append h.mode h.reorder h.pipe es hes fun e he => ?_
  rcases hall e he with ⟨o, b, c, rfl⟩ | ⟨status, rfl⟩ <;> rfl

theorem Stays.enterFatal (hm : pipeMode d.xfer.mode = true) : Stays [] d (odXferPipeEnterFatal d) := by
  rw [odXferPipeEnterFatal_eq hm]
  have hes : ∀ e ∈ (Event.abort .streamFailed ::
      if d.xfer.mode = .pipePartial then [.setDisplayedEtag 0] else []), still e = true := by
    split_ifs <;> simp [OpenDisplay.still]
  refine ⟨.inr ⟨hm, rfl⟩, rfl, ⟨_, _, _, rfl⟩, ?_⟩
  rw [List.append_nil]
  exact progress_append d.events hes

/-- What is handed over of a chunk: its payload, unless it has none. -/
def handed (data : Bytes) : List Bytes := if data = [] then [] else [data]

theorem Stays.hand {data : Bytes} {r : StreamResult} {u : Dev} (h : pipeHand app data d = (r, u)) :
    Stays (handed data) d u := by
  unfold pipeHand at h
  unfold handed
  split_ifs at h ⊢
  · obtain ⟨-, rfl⟩ := Prod.mk.inj h
    exact .refl _
  · have hs := odXferPipeConsume_streams app data d
    rw [h] at hs
    exact (Stays.give d data d.xfer.receivedBytes).trans hs.stays

theorem Stays.dataNack (hm : pipeMode d.xfer.mode = true) (error : UInt8) (cause : TerminalCause) :
    Stays [] d (pipeSendDataNack ctx error cause d).2 :=
  ((Stays.log d (e := .replyPlain _ _) rfl).trans (Stays.log _ (e := .terminal cause) rfl)).trans
    (.enterFatal hm)

theorem Stays.sackOrFatal (hm : pipeMode d.xfer.mode = true) :
    Stays [] d (pipeSackOrFatal app ctx d).2 := by
  have hsend : ∀ {status u}, pipeSendSack app ctx d = (status, u) →
      Stays [] d u ∧ pipeMode u.xfer.mode = true := by
    intro status u hs
    obtain ⟨-, rfl⟩ := Prod.mk.inj hs
    exact ⟨(Stays.log d rfl).trans (Marks.stays ⟨_, _, _, rfl⟩), hm⟩
  unfold pipeSackOrFatal
  split
  · next u hs => exact (hsend hs).1
  · next status u _ hs =>
    obtain ⟨hk, hmu⟩ := hsend hs
    exact (hk.trans (Stays.log _ (e := .terminal _) rfl)).trans (.enterFatal hmu)

theorem Stays.firstAck (hm : pipeMode d.xfer.mode = true) :
    Stays [] d (pipeFirstAck app ctx d).2 := by
  have hk : Stays [] d (pipeSackOrFatal app ctx d).2 := .sackOrFatal hm
  unfold pipeFirstAck
  split
  · next u hr => rwa [hr] at hk
  · next u hr => rwa [hr] at hk

theorem Stays.gapAck (hm : pipeMode d.xfer.mode = true) : Stays [] d (pipeGapAck app ctx d).2 := by
  have hmark : Stays [] d
      { d with pipe := { d.pipe with oooAcksSinceGap := d.pipe.oooAcksSinceGap + 1 } } :=
    Marks.stays ⟨_, _, _, rfl⟩
  have hk : Stays [] d (pipeSackOrFatal app ctx
      { d with pipe := { d.pipe with oooAcksSinceGap := d.pipe.oooAcksSinceGap + 1 } }).2 :=
    hmark.trans (.sackOrFatal hm)
  unfold pipeGapAck
  dsimp only
  split_ifs
  · split
    · next u hr => rwa [hr] at hk
    · next u hr => rwa [hr] at hk
  · exact hmark

end Stays

section Inversion

variable {app : App} {ctx : Ctx} {cmd : Cmd} {hs : List Bytes} {d d' : Dev}

/-- A PIPE transfer that has just been admitted. -/
def Opens (d : Dev) : Prop := Fresh d ∧ progress d.events = {}

theorem not_onPipe_idle (h : d.xfer.mode = .idle) : ¬ OnPipe d := by
  rintro (hp | hf)
  · rw [h] at hp
    exact absurd hp nofun
  · exact absurd (h.symm.trans hf) nofun

theorem Stays.onPipe (h : Stays hs d d') (ho : OnPipe d') : OnPipe d := by
  rcases h.mode with hm | ⟨hp, -⟩
  · rw [OnPipe, hm] at ho
    exact ho
  · exact .inl hp

theorem Admits.opens {x : XferState} {p : PipeState} (ha : Admits d x p) (hc : Coupled d)
    (pump : Pump) (hd' : d' = Dev.log (.admitted x.mode x.compressed x.expectedBytes)
      { d with xfer := x, pipe := p, pump := pump }) : ¬ OnPipe d' ∨ Opens d' := by
  subst hd'
  cases hm : pipeMode x.mode with
  | false =>
    refine .inl ?_
    rintro (hp | hf)
    · exact absurd (hm.symm.trans hp) nofun
    · exact ha.owns.2 hf
  | true =>
    obtain ⟨w, n, f, hp⟩ := ha.pipe hm
    refine .inr ⟨⟨⟨_, w, n, f, hp⟩, (hc.idle ha.idle).reorder⟩, ?_⟩
    rw [progress_log]
    rfl

theorem Stays.activate (hm : pipeMode d.xfer.mode = true) : Stays [] d (odXferPipeActivate app d) := by
  have hlog : ∀ {e : Event} (ok : Bool), still e = true → Stays [] d
      (if ok = false then odXferPipeEnterFatal (odXferTerminalFailure .panelPreparation (d.log e))
      else d.log e) := by
    intro e ok he
    have hk : Stays [] d (d.log e) := .log d he
    split_ifs
    · have ht : Stays [] (d.log e) (odXferTerminalFailure .panelPreparation (d.log e)) :=
        .log _ (e := .terminal _) rfl
      exact (hk.trans ht).trans (.enterFatal hm)
    · exact hk
  simp only [pipeMode, decide_eq_true_eq] at hm
  unfold odXferPipeActivate
  rcases hm with hm | hm
  · rw [hm]
    exact hlog _ rfl
  · rw [hm]
    exact hlog _ rfl

theorem Started.opens {body : Bytes} (h : Started app ctx body d) : Opens d := by
  refine ⟨h.fresh, ?_⟩
  obtain ⟨isPartial, mode, total, compressed, geometry, region, v, hm, -, -, hopen⟩ := h
  have hentry : progress (pipeAdmit app ctx mode total compressed geometry region v).events = {} := by
    cases compressed <;> exact progress_log _ _
  have hmode : (pipeAdmit app ctx mode total compressed geometry region v).xfer.mode = mode := by
    cases compressed <;> rfl
  unfold pipeOpen at hopen
  dsimp only at hopen
  split at hopen
  · next u hu =>
    obtain ⟨-, rfl⟩ := Prod.mk.inj hopen
    have hu' := odXferReplyApp_eq ctx hu
    have hmu : pipeMode u.xfer.mode = true := by
      rw [hu', ← hm]
      exact congrArg pipeMode hmode
    have hk : Stays [] u (odXferPipeActivate app u) := .activate hmu
    have hp : progress u.events = {} := by
      rw [hu', progress_log]
      exact hentry
    rw [hk.grown, hp]
    rfl
  · exact absurd hopen nofun

/-- What a move of any other command than DATA can do to the window. -/
theorem Move.window {s t : Phase × Dev} (hm : Move app cmd s t) (hf : cmd.feedsPipe = false)
    (hc : Coupled s.2) : ¬ OnPipe t.2 ∨ (∃ hs, Stays hs s.2 t.2) ∨ Opens t.2 := by
  cases hm with
  | enter => exact .inr (.inl ⟨_, .refl _⟩)
  | replace _ => exact .inl (not_onPipe_idle (by rw [hc.replace.xfer]))
  | reset _ => exact .inl (not_onPipe_idle rfl)
  | @note p d e hq =>
    refine .inr (.inl ⟨_, .log _ ?_⟩)
    cases e <;> first | rfl | simp [quiet] at hq
  | clearEtag _ _ =>
    exact .inr (.inl ⟨_, .append rfl rfl rfl [.setDisplayedEtag 0] rfl (by simp [still])⟩)
  | arm pump _ ha => exact (ha.opens hc pump rfl).imp_right .inr
  | begun he _ => exact .inr (.inl ⟨_, .log _ (by rcases he with rfl | rfl <;> rfl)⟩)
  | beginFailed he => exact .inr (.inl ⟨_, .log _ (by rcases he with rfl | rfl <;> rfl)⟩)
  | unacked _ _ => exact .inr (.inl ⟨_, .log _ rfl⟩)
  | fed _ hf => exact .inr (.inl ⟨_, (Stays.give _ _ _).trans hf.streams.stays⟩)
  | spoiled _ hf => exact .inr (.inl ⟨_, (Stays.give _ _ _).trans hf.streams.stays⟩)
  | book _ _ hk =>
    rcases hk with hk | hk
    · exact absurd (hf.symm.trans hk) (by simp)
    · exact .inr (.inl ⟨_, hk.stays⟩)
  | abandon _ _ => exact .inl (not_onPipe_idle rfl)
  | fatal _ hm => exact .inr (.inl ⟨_, .enterFatal hm⟩)
  | complete _ _ _ => exact .inr (.inl ⟨_, .refl _⟩)
  | @inflated d d' _ _ _ _ hr =>
    have hst := odXferStreamPush_streams app [] true d
    rw [hr] at hst
    exact .inr (.inl ⟨_, hst.stays⟩)
  | @finalFailed d d' r _ _ hr _ =>
    have hst := odXferStreamPush_streams app [] true d
    rw [hr] at hst
    exact .inr (.inl ⟨_, hst.stays⟩)
  | stamp _ => exact .inr (.inl ⟨_, .append rfl rfl rfl [] (by simp [markFinalized]) (by simp)⟩)
  | barrier _ => exact .inl (not_onPipe_idle rfl)
  | refreshed _ _ => exact .inl (not_onPipe_idle rfl)
  | unshown _ _ => exact .inr (.inl ⟨_, .log _ rfl⟩)
  | dropped _ _ _ => exact .inl (not_onPipe_idle rfl)

/-- The payload of the chunk that is due. -/
def dueData (d : Dev) : Bytes := (d.reorder (pipeSlot d.pipe.expectedSeq)).data

/-- What a deed can do to the window. -/
inductive Shift (seq : UInt8) (payload : Bytes) : Turn × Dev → Turn × Dev → Prop where
  | ended {turn : Turn} {d d' : Dev} : pipeMode d.xfer.mode = true → d'.xfer.mode = .idle →
      progress d'.events = progress d.events → Shift seq payload (turn, d) (.answering, d')
  | stays {turn : Turn} {d d' : Dev} : turn ≠ .draining → Stays [] d d' →
      Shift seq payload (turn, d) (.answering, d')
  | drained {d : Dev} : ¬ Due d → Shift seq payload (.draining, d) (.answering, d)
  | dead {turn : Turn} {hs : List Bytes} {d d' : Dev} : pipeMode d.xfer.mode = true →
      Stays hs d d' → d'.xfer.mode = .fatal →
      (hs = [] ∨ turn = .fresh ∧ seq = d.pipe.expectedSeq ∧ hs = handed payload ∨
        turn = .draining ∧ Due d ∧ hs = handed (dueData d)) →
      Shift seq payload (turn, d) (.answering, d')
  | accept {d u : Dev} : Stays (handed payload) d u → pipeMode u.xfer.mode = true →
      seq = u.pipe.expectedSeq → Shift seq payload (.fresh, d) (.draining, pipeAccept seq u)
  | release {d u : Dev} : Stays (handed (dueData u)) d u → pipeMode u.xfer.mode = true → Due u →
      Shift seq payload (.draining, d) (.draining, pipeRelease u)
  | hold {d : Dev} : pipeMode d.xfer.mode = true → Early seq d →
      (pipeStore seq payload d).pipe.queuedCount.toNat < odPipeReorderSlots →
      Shift seq payload (.fresh, d) (.answering, pipeHold seq payload d)
  | overfull {d d' : Dev} : pipeMode d.xfer.mode = true → Early seq d →
      odPipeReorderSlots ≤ (pipeStore seq payload d).pipe.queuedCount.toNat →
      Stays [] (pipeStore seq payload d) d' → d'.xfer.mode = .fatal →
      Shift seq payload (.fresh, d) (.answering, d')

theorem Stays.due {u : Dev} (h : Stays hs d u) : (Due u ↔ Due d) ∧ dueData u = dueData d := by
  obtain ⟨_, _, _, hp⟩ := h.pipe
  unfold Due dueData
  rw [h.reorder, hp]
  exact ⟨.rfl, rfl⟩

/-- The answers that a frame outside the window gets, and one for which the
buffer has no room. -/
def kills : Event → Bool
  | .terminal .sequenceWindow | .terminal .reorderFull => true
  | .replyPlain _ (status :: opcode :: error :: _) =>
      status == respNack && opcode == respPipeData && error == 0x04
  | _ => false

/-- The log grows by events of a kind. -/
def Adds (P : Event → Prop) (d d' : Dev) : Prop :=
  ∃ es, d'.events = d.events ++ es ∧ ∀ e ∈ es, P e

section Adds

variable {P Q : Event → Prop} {d'' : Dev}

theorem Adds.refl (P : Event → Prop) (d : Dev) : Adds P d d := ⟨[], by simp, by simp⟩

theorem Adds.log (d : Dev) {e : Event} (he : P e) : Adds P d (d.log e) :=
  ⟨[e], rfl, by simpa using he⟩

theorem Adds.trans (h : Adds P d d') (h' : Adds P d' d'') : Adds P d d'' := by
  obtain ⟨es, heq, hes⟩ := h
  obtain ⟨es', heq', hes'⟩ := h'
  refine ⟨es ++ es', by rw [heq', heq, List.append_assoc], fun e he => ?_⟩
  exact (List.mem_append.mp he).elim (hes e) (hes' e)

theorem Adds.mono (h : Adds P d d') (hpq : ∀ e, P e → Q e) : Adds Q d d' := by
  obtain ⟨es, heq, hes⟩ := h
  exact ⟨es, heq, fun e he => hpq e (hes e he)⟩

theorem Adds.setEtag (d : Dev) (etag : UInt32) (he : P (.setDisplayedEtag etag)) :
    Adds P d (odXferAppSetDisplayedEtag etag d) := ⟨[.setDisplayedEtag etag], rfl, by simpa using he⟩

end Adds

/-- Neither progress nor the death of a transfer. -/
def Calm (e : Event) : Prop := still e = true ∧ kills e = false

theorem Adds.progress (h : Adds Calm d d') : progress d'.events = OpenDisplay.progress d.events := by
  obtain ⟨es, heq, hes⟩ := h
  rw [heq]
  exact progress_append _ fun e he => (hes e he).1

/-- A transfer that is over, with nothing new in the log of its chunks. -/
structure Finished (d d' : Dev) : Prop where
  mode : d'.xfer.mode = .idle
  added : Adds Calm d d'

theorem Finished.after (hk : Adds Calm d d') {d'' : Dev} (h : Finished d' d'') : Finished d d'' :=
  ⟨h.mode, hk.trans h.added⟩

theorem Finished.log (h : Finished d d') {e : Event} (he : Calm e) : Finished d (d'.log e) :=
  ⟨h.mode, h.added.trans (.log d' he)⟩

theorem Finished.abort (reason : AbortReason) (clear : Bool) (d : Dev) :
    Finished d (odXferAbortActive reason clear d) := by
  refine ⟨rfl, _, odXferAbortActive_events reason clear d, ?_⟩
  cases odXferOwnsHardware d <;> cases clear <;> simp [Calm, still, kills]

theorem Finished.refreshReply (h : Finished d d') (completed : Bool) :
    Finished d (refreshReply app ctx completed d').2 := by
  unfold OpenDisplay.refreshReply
  dsimp only
  split
  · next u hr =>
    obtain ⟨-, rfl⟩ := Prod.mk.inj hr
    dsimp only
    split_ifs
    · exact h.log ⟨rfl, rfl⟩
    · exact (h.log ⟨rfl, rfl⟩).log (e := .terminal _) ⟨rfl, rfl⟩
  · next hr =>
    obtain ⟨-, rfl⟩ := Prod.mk.inj hr
    exact (h.log ⟨rfl, rfl⟩).log (e := .terminal _) ⟨rfl, rfl⟩

theorem Adds.pipeEtag (isPartial completed hasEtag : Bool) (newEtag : UInt32) (d : Dev) :
    Adds Calm d (pipeEtag isPartial completed hasEtag newEtag d) := by
  unfold OpenDisplay.pipeEtag finishEtag
  split_ifs
  all_goals first | exact .setEtag d _ ⟨rfl, rfl⟩ | exact .refl _ d

theorem Finished.pipeRefresh {refreshMode : UInt8} {hasEtag ok completed : Bool} {newEtag : UInt32}
    (hm : pipeMode d.xfer.mode = true)
    (hr : odXferPipeRefresh app refreshMode hasEtag newEtag d = (ok, completed, d')) :
    Finished d d' := by
  unfold odXferPipeRefresh at hr
  simp only [hm, Bool.true_eq_false, if_false] at hr
  split at hr
  · next c u hf =>
    simp only [Prod.mk.injEq] at hr
    obtain ⟨-, -, rfl⟩ := hr
    rw [odXferAppRefresh_eq hf]
    exact Finished.after (.log d ⟨rfl, rfl⟩)
      (Finished.after (.log _ (e := .terminal _) ⟨rfl, rfl⟩) (Finished.abort _ _ _))
  · next c u hf =>
    simp only [Prod.mk.injEq] at hr
    obtain ⟨-, -, rfl⟩ := hr
    rw [odXferAppRefresh_eq hf]
    exact ⟨rfl, Adds.trans (.log d ⟨rfl, rfl⟩) (.pipeEtag _ c hasEtag newEtag _)⟩

theorem Finished.barrierAbort (d : Dev) : Finished d (odXferPipeBarrierAbort d) := by
  have ht : Adds Calm d (odXferTerminalFailure .barrierAborted d) := .log d (e := .terminal _) ⟨rfl, rfl⟩
  refine Finished.after ht ?_
  unfold odXferPipeBarrierAbort
  dsimp only
  split_ifs
  · have hc : Finished (odXferTerminalFailure .barrierAborted d) (odXferClearState
        (odXferAppSetDisplayedEtag 0 (odXferTerminalFailure .barrierAborted d))) :=
      ⟨rfl, .setEtag _ 0 ⟨rfl, rfl⟩⟩
    exact hc.log (e := .barrierAbort _) ⟨rfl, rfl⟩
  · have hc : Finished (odXferTerminalFailure .barrierAborted d)
        (odXferClearState (odXferTerminalFailure .barrierAborted d)) := ⟨rfl, .refl _ _⟩
    exact hc.log (e := .barrierAbort _) ⟨rfl, rfl⟩

theorem Adds.beforeRefresh {proceed : Bool} (hm : pipeMode d.xfer.mode = true)
    (h : odXferPipeBeforeRefresh app d = (proceed, d')) :
    Adds Calm d d' ∧ pipeMode d'.xfer.mode = true := by
  unfold odXferPipeBeforeRefresh at h
  rw [if_neg (by simp [hm])] at h
  rw [odXferAppBeforeRefresh_eq h]
  exact ⟨.log d ⟨rfl, rfl⟩, hm⟩

theorem Finished.pipeFinish (body : Bytes) (hm : pipeMode d.xfer.mode = true) :
    Finished d (pipeFinish app ctx body d).2 := by
  have hreply : ∀ status,
      Adds Calm d ((markFinalized app d).log (.reply ctx.rp [respAck, respPipeEnd] status)) :=
    fun status => ⟨[.reply ctx.rp [respAck, respPipeEnd] status], rfl, by simp [Calm, still, kills]⟩
  unfold OpenDisplay.pipeFinish
  dsimp only
  split
  · next u hr =>
    obtain rfl := odXferReplyApp_eq ctx hr
    refine Finished.after (hreply .ok) ?_
    have hmu : pipeMode ((markFinalized app d).log (.reply ctx.rp [respAck, respPipeEnd] .ok)).xfer.mode =
      true := hm
    split
    · next v hb => exact Finished.after (Adds.beforeRefresh hmu hb).1 (Finished.barrierAbort v)
    · next v hb =>
      obtain ⟨hadds, hv⟩ := Adds.beforeRefresh hmu hb
      refine Finished.after hadds ?_
      split
      · next w hf => exact (Finished.pipeRefresh hv hf).log ⟨rfl, rfl⟩
      · next completed w hf => exact (Finished.pipeRefresh hv hf).refreshReply completed
  · next status u _ hr =>
    obtain rfl := odXferReplyApp_eq ctx hr
    exact Finished.after (hreply status)
      (Finished.after (.log _ (e := .terminal _) ⟨rfl, rfl⟩) (Finished.abort _ _ _))

theorem dataNack_fatal (hm : pipeMode d.xfer.mode = true) (error : UInt8) (cause : TerminalCause) :
    (pipeSendDataNack ctx error cause d).2.xfer.mode = .fatal := by
  have h := odXferPipeEnterFatal_eq (d := odXferTerminalFailure cause (odXferReplyError ctx
    ([respNack, respPipeData, error] ++ pipeBuildSack d) d)) hm
  exact congrArg (fun d => d.xfer.mode) h

theorem Deed.shift {seq : UInt8} {payload : Bytes} {s t : Turn × Dev}
    (h : Deed app ctx seq payload s t) : Shift seq payload s t := by
  cases h with
  | accept hm hseq hr =>
    have hs := Stays.hand hr
    obtain ⟨_, _, _, hp⟩ := hs.pipe
    exact .accept hs (pipeHand_mode hr hm) (by rw [hp]; exact hseq)
  | release hm hdue hr =>
    have hs := Stays.hand hr
    have hd := hs.due.2
    exact .release (by rw [hd]; exact hs) (pipeHand_mode hr hm) (hs.due.1.mpr hdue)
  | drained hd => exact .drained hd
  | @spill _ d u data r error _ hm hwhat hr _ =>
    have hmu := pipeHand_mode hr hm
    have hnack : Stays [] u (pipeSendDataNack ctx error (odXferStreamCause r) u).2 :=
      .dataNack hmu error (odXferStreamCause r)
    have hs := (Stays.hand hr).trans hnack
    rw [List.append_nil] at hs
    refine .dead hm hs (dataNack_fatal hmu _ _) (.inr ?_)
    rcases hwhat with ⟨ht, hseq, rfl⟩ | ⟨ht, hdue, rfl⟩
    · exact .inl ⟨ht, hseq, rfl⟩
    · exact .inr ⟨ht, hdue, rfl⟩
  | hold hm he hq => exact .hold hm he hq
  | @overfull d hm he hq =>
    have hms : pipeMode (pipeStore seq payload d).xfer.mode = true := hm
    exact .overfull hm he hq (.dataNack hms _ _) (dataNack_fatal hms _ _)
  | outside hm _ _ _ => exact .dead hm (.dataNack hm _ _) (dataNack_fatal hm _ _) (.inl rfl)
  | oversize hm => exact .dead hm (.dataNack hm _ _) (dataNack_fatal hm _ _) (.inl rfl)
  | mark ht _ hk => exact .stays ht hk.stays
  | sack ht hm => exact .stays ht (.sackOrFatal hm)
  | finish hm =>
    have hf : Finished _ (pipeFinish app ctx [] _).2 := .pipeFinish [] hm
    exact .ended hm hf.mode hf.added.progress

end Inversion

section Rules

variable {app : App} {cmd : Cmd} {d : Dev} {I : Dev → Prop}

/-- A command other than DATA keeps what an admission establishes and what does
not depend on the counters of the acknowledgements. -/
theorem step_window (hc : Coupled d) (hf : cmd.feedsPipe = false) (hopens : ∀ {d}, Opens d → I d)
    (hstays : ∀ {hs d d'}, Stays hs d d' → I d → I d') (h : OnPipe d → I d)
    (ho : OnPipe (step app cmd d)) : I (step app cmd d) := by
  obtain ⟨p, -, hm⟩ := step_moves app cmd hc
  refine (hm.rule (I := fun s => Coupled s.2 ∧ (OnPipe s.2 → I s.2)) ?_ ⟨hc, h⟩).2 ho
  rintro s t hm ⟨hcs, hs⟩
  refine ⟨hm.coupled hcs, fun ho => ?_⟩
  rcases hm.window hf hcs with hno | ⟨_, hk⟩ | hop
  · exact absurd ho hno
  · exact hstays hk (hs (hk.onPipe ho))
  · exact hopens hop

theorem Stays.ignored {ctx : Ctx} {body : Bytes} (hi : pipeIgnores ctx body d = true) :
    Stays [] d (step app (.pipeData ctx body) d) := by
  change Stays [] d (odPipeData app ctx body d).2
  rcases odPipeData_ignored app hi with heq | ⟨frame, status, heq, -⟩
  · rw [heq]
    exact .refl d
  · rw [heq]
    exact .log d rfl

/-- So does a DATA frame, when its deeds do. -/
theorem step_frame {J : Turn × Dev → Prop} {ctx : Ctx} {body : Bytes}
    (hdeed : pipeIgnores ctx body d = false → ∀ {s t},
      Deed app ctx (byteAt body 0) (body.drop 1) s t → (OnPipe s.2 → J s) → OnPipe t.2 → J t)
    (hstays : ∀ {d'}, Stays [] d d' → J (.fresh, d) → J (.answering, d'))
    (h : OnPipe d → J (.fresh, d)) (ho : OnPipe (step app (.pipeData ctx body) d)) :
    J (.answering, step app (.pipeData ctx body) d) := by
  cases hi : pipeIgnores ctx body d with
  | true =>
    have hk : Stays [] d (step app (.pipeData ctx body) d) := .ignored hi
    exact hstays hk (h (hk.onPipe ho))
  | false =>
    exact (odPipeData_deeds app hi).rule (I := fun s => OnPipe s.2 → J s) (fun hd h => hdeed hi hd h) h ho

end Rules

section Windowed

variable {turn : Turn} {alive : Bool} {k seen : Nat} {p : PipeState} {r : Fin odPipeReorderSlots → Slot}
  {hs : List Bytes} {d d' : Dev} {seq : UInt8} {payload : Bytes}

/-- PIPE's state against the count `k` of its chunks and the largest index that
it has `seen`. While the slots are drained the next chunk may still wait in one. -/
structure InWindow (turn : Turn) (alive : Bool) (k seen : Nat) (p : PipeState)
    (r : Fin odPipeReorderSlots → Slot) : Prop where
  bounds : 1 ≤ p.window.toNat ∧ p.window.toNat ≤ 32
  next : p.expectedSeq = UInt8.ofNat k
  count : p.receivedCount = UInt32.ofNat k
  received : p.hasReceived = decide (0 < seen)
  highest : 0 < seen → p.highestSeen = UInt8.ofNat (seen - 1)
  near : k ≤ seen ∧ seen ≤ k + p.window.toNat
  slots : ∀ i, (r i).occupied = true →
    pipeSlot (r i).seq = i ∧ lift k (r i).seq < k + p.window.toNat
  below : alive = true → ∀ i, (r i).occupied = true → lift k (r i).seq < seen
  ahead : alive = true → turn ≠ .draining → ∀ i, (r i).occupied = true → k < lift k (r i).seq

def Windowed (turn : Turn) (d : Dev) : Prop :=
  InWindow turn (pipeMode d.xfer.mode) (progress d.events).taken (progress d.events).seen
    d.pipe d.reorder

theorem pipeNegotiate_window (isPartial : Bool) (w n : UInt8) (f : UInt16) :
    1 ≤ (pipeNegotiate isPartial w n f {}).window.toNat ∧
      (pipeNegotiate isPartial w n f {}).window.toNat ≤ 32 := by
  have hmax : odPipeMaxW.toNat = 32 := rfl
  simp only [pipeNegotiate]
  split_ifs with h1 h2 h3
  · exact absurd h2 (by decide)
  · decide
  · decide
  · rw [UInt8.not_lt, UInt8.le_iff_toNat_le, hmax] at h1
    refine ⟨?_, h1⟩
    rw [Nat.one_le_iff_ne_zero]
    intro hz
    exact h3 (UInt8.toNat_inj.mp hz)

theorem Opens.windowed (h : Opens d) : Windowed turn d := by
  obtain ⟨⟨⟨isPartial, w, n, f, hp⟩, hr⟩, hprog⟩ := h
  unfold Windowed
  rw [hprog, hp, hr]
  exact ⟨pipeNegotiate_window isPartial w n f, rfl, rfl, rfl, nofun, ⟨le_rfl, Nat.zero_le _⟩,
    nofun, nofun, nofun⟩

theorem Stays.windowed (h : Stays hs d d') (hw : Windowed turn d) : Windowed turn d' := by
  obtain ⟨gap, frames, acks, hp⟩ := h.pipe
  have hmode : pipeMode d'.xfer.mode = true → pipeMode d.xfer.mode = true := by
    intro hm
    rcases h.mode with hm' | ⟨-, hf⟩
    · exact hm' ▸ hm
    · rw [hf] at hm
      exact absurd hm nofun
  unfold Windowed
  rw [h.taken, h.seen, h.reorder, hp]
  exact ⟨hw.bounds, hw.next, hw.count, hw.received, hw.highest, hw.near, hw.slots,
    fun hm => hw.below (hmode hm), fun hm => hw.ahead (hmode hm)⟩

theorem early_iff (h : d.pipe.expectedSeq = UInt8.ofNat k) :
    Early seq d ↔ k < lift k seq ∧ lift k seq < k + d.pipe.window.toNat := by
  have hz : seq - UInt8.ofNat k ≠ 0 ↔ 0 < (seq - UInt8.ofNat k).toNat := by
    rw [Nat.pos_iff_ne_zero, ne_eq, ne_eq, ← UInt8.toNat_inj]
    rfl
  unfold Early lift
  rw [h, hz, UInt8.lt_iff_toNat_lt]
  omega

theorem pipeUpdateHighest_eq (k seen i : Nat) (hrec : p.hasReceived = decide (0 < seen))
    (hhigh : 0 < seen → p.highestSeen = UInt8.ofNat (seen - 1)) (hlo : k ≤ i) (hhi : i < k + 32)
    (hns : k ≤ seen) (hsn : seen ≤ k + 32) :
    pipeUpdateHighest (UInt8.ofNat i) p =
      { p with hasReceived := true, highestSeen := UInt8.ofNat (max seen (i + 1) - 1) } := by
  unfold pipeUpdateHighest
  rcases Nat.eq_zero_or_pos seen with hz | hpos
  · have hfalse : p.hasReceived = false := by rw [hrec, hz]; rfl
    rw [if_pos hfalse, hz]
    simp
  · have htrue : p.hasReceived = true := by rw [hrec, decide_eq_true hpos]
    have hbits : pipeAckMaskBits = 32 := rfl
    have hh := hhigh hpos
    rw [if_neg (by simp [htrue]), hh]
    dsimp only
    by_cases hle : seen ≤ i
    · have hd : (UInt8.ofNat i - UInt8.ofNat (seen - 1)).toNat = i - (seen - 1) :=
        sub_toNat_of_lt (by omega) (by omega)
      rw [if_pos]
      · rw [Nat.max_eq_right (by omega), ← htrue]
        rfl
      · refine ⟨fun hz => ?_, by omega⟩
        rw [hz] at hd
        have : (0 : UInt8).toNat = 0 := rfl
        omega
    · have hmax : max seen (i + 1) - 1 = seen - 1 := by omega
      rw [hmax, ← hh, ← htrue]
      refine if_neg ?_
      rintro ⟨hne, hbits'⟩
      -- the difference wraps around, or is zero
      have hd : (UInt8.ofNat (seen - 1) - UInt8.ofNat i).toNat = seen - 1 - i :=
        sub_toNat_of_lt (by omega) (by omega)
      rw [hh] at hne hbits'
      rw [UInt8.toNat_sub] at hd hbits'
      have hne' : (UInt8.ofNat i).toNat ≠ (UInt8.ofNat (seen - 1)).toNat := by
        intro he
        apply hne
        rw [UInt8.toNat_inj.mp he, UInt8.sub_self]
      rw [UInt8.toNat_ofNat', UInt8.toNat_ofNat'] at hd hbits' hne'
      omega

/-- The window moves on by one chunk, past every slot that is not that chunk's. -/
theorem InWindow.advance (h : InWindow turn true k seen p r) {p' : PipeState}
    {r' : Fin odPipeReorderSlots → Slot} (hw : p'.window = p.window)
    (he : p'.expectedSeq = p.expectedSeq + 1) (hc : p'.receivedCount = p.receivedCount + 1)
    (hrec : p'.hasReceived = true) (hhigh : p'.highestSeen = UInt8.ofNat (max seen (k + 1) - 1))
    (hr : ∀ i, (r' i).occupied = true → r' i = r i ∧ (r i).seq ≠ UInt8.ofNat k) :
    InWindow .draining true (k + 1) (max seen (k + 1)) p' r' := by
  have hnear := h.near
  have hlift : ∀ i, (r' i).occupied = true →
      (r i).occupied = true ∧ lift (k + 1) (r' i).seq = lift k (r i).seq := by
    intro i ho
    obtain ⟨heq, hne⟩ := hr i ho
    rw [heq] at ho ⊢
    exact ⟨ho, lift_succ hne⟩
  refine ⟨by rw [hw]; exact h.bounds, ?_, ?_, ?_, fun _ => hhigh, ?_, ?_, ?_, nofun⟩
  · rw [he, h.next, UInt8.ofNat_add]
    rfl
  · rw [hc, h.count, UInt32.ofNat_add]
    rfl
  · rw [hrec, decide_eq_true]
    omega
  · rw [hw]
    omega
  · intro i ho
    obtain ⟨ho', hl⟩ := hlift i ho
    obtain ⟨hi, hlt⟩ := h.slots i ho'
    rw [hw, hl, (hr i ho).1]
    exact ⟨hi, by omega⟩
  · intro _ i ho
    obtain ⟨ho', hl⟩ := hlift i ho
    have := h.below rfl i ho'
    omega

theorem pipeAccept_progress (seq : UInt8) (d : Dev) :
    progress (pipeAccept seq d).events = (progress d.events).add .taken := progress_log _ _

theorem pipeRelease_progress (d : Dev) :
    progress (pipeRelease d).events = (progress d.events).add .taken := progress_log _ _

theorem pipeHold_progress (seq : UInt8) (payload : Bytes) (d : Dev) :
    progress (pipeHold seq payload d).events =
      (progress d.events).add (.held (seq - d.pipe.expectedSeq).toNat) := progress_log _ _

theorem Windowed.accept (h : Windowed .fresh d) (hm : pipeMode d.xfer.mode = true)
    (hseq : seq = d.pipe.expectedSeq) : Windowed .draining (pipeAccept seq d) := by
  unfold Windowed at h
  rw [hm] at h
  have hbounds := h.bounds
  have hnear := h.near
  have hpipe : (pipeAccept seq d).pipe = { (pipeTake d).pipe with
      framesSinceAck := (pipeTake d).pipe.framesSinceAck + 1, hasReceived := true
      highestSeen := UInt8.ofNat (max (progress d.events).seen ((progress d.events).taken + 1) - 1) } := by
    rw [hseq, h.next]
    exact pipeUpdateHighest_eq (progress d.events).taken _ _ h.received h.highest le_rfl (by omega)
      hnear.1 (by omega)
  unfold Windowed
  rw [pipeAccept_progress, show (pipeAccept seq d).xfer.mode = d.xfer.mode from rfl, hm, hpipe]
  refine h.advance rfl rfl rfl rfl rfl fun i ho => ⟨rfl, fun he => ?_⟩
  exact absurd (h.ahead rfl nofun i ho) (by rw [lift_eq_iff.mpr he]; exact lt_irrefl _)

theorem Windowed.release (h : Windowed .draining d) (hm : pipeMode d.xfer.mode = true) (hdue : Due d) :
    Windowed .draining (pipeRelease d) := by
  unfold Windowed at h
  rw [hm] at h
  obtain ⟨hocc, hdue⟩ := hdue
  rw [h.next] at hocc hdue
  -- the chunk that was due had been seen when it was held
  have hseen := h.below rfl _ hocc
  rw [hdue, lift_self] at hseen
  have hmax : max (progress d.events).seen ((progress d.events).taken + 1) =
    (progress d.events).seen := by omega
  unfold Windowed
  rw [pipeRelease_progress, show (pipeRelease d).xfer.mode = d.xfer.mode from rfl, hm]
  refine h.advance rfl rfl rfl ?_ ?_ fun i ho => ?_
  · exact h.received.trans (decide_eq_true (by omega))
  · rw [hmax]
    exact h.highest (by omega)
  · by_cases hi : i = pipeSlot d.pipe.expectedSeq
    · subst hi
      simp [pipeRelease, pipeTake, Dev.log] at ho
    · have heq : (pipeRelease d).reorder i = d.reorder i := Function.update_of_ne hi _ _
      rw [heq] at ho
      refine ⟨heq, fun hk => hi ?_⟩
      rw [← (h.slots i ho).1, hk, h.next]

theorem Windowed.drained (h : Windowed .draining d) (hdue : ¬ Due d) : Windowed .answering d := by
  refine ⟨h.bounds, h.next, h.count, h.received, h.highest, h.near, h.slots, h.below, ?_⟩
  intro _ _ i ho
  refine lt_of_le_of_ne (le_lift _ _) fun he => hdue ?_
  have hs : (d.reorder i).seq = d.pipe.expectedSeq := by rw [h.next, lift_eq_iff.mp he.symm]
  have hi : pipeSlot d.pipe.expectedSeq = i := by rw [← hs]; exact (h.slots i ho).1
  unfold Due
  rw [hi]
  exact ⟨ho, hs⟩

theorem pipeStore_slot (seq : UInt8) (payload : Bytes) (d : Dev) :
    (pipeStore seq payload d).reorder (pipeSlot seq) = ⟨true, seq, payload⟩ :=
  Function.update_self _ _ _

theorem pipeStore_other {i : Fin odPipeReorderSlots} (hi : i ≠ pipeSlot seq) (payload : Bytes)
    (d : Dev) : (pipeStore seq payload d).reorder i = d.reorder i := Function.update_of_ne hi _ _

theorem InWindow.store
    (h : InWindow .fresh true (progress d.events).taken (progress d.events).seen d.pipe d.reorder)
    (hearly : Early seq d) {alive : Bool} {seen : Nat} {p : PipeState} (hw : p.window = d.pipe.window)
    (he : p.expectedSeq = d.pipe.expectedSeq) (hc : p.receivedCount = d.pipe.receivedCount)
    (hrec : p.hasReceived = decide (0 < seen)) (hhigh : 0 < seen → p.highestSeen = UInt8.ofNat (seen - 1))
    (hseen : (progress d.events).seen ≤ seen ∧ seen ≤ (progress d.events).taken + d.pipe.window.toNat)
    (hup : alive = true → lift (progress d.events).taken seq < seen) :
    InWindow .answering alive (progress d.events).taken seen p (pipeStore seq payload d).reorder := by
  obtain ⟨hlo, hhi⟩ := (early_iff h.next).mp hearly
  have hnear := h.near
  have hcases : ∀ i, (pipeStore seq payload d).reorder i = ⟨true, seq, payload⟩ ∧ i = pipeSlot seq ∨
      (pipeStore seq payload d).reorder i = d.reorder i := by
    intro i
    by_cases hi : i = pipeSlot seq
    · exact .inl ⟨hi ▸ pipeStore_slot seq payload d, hi⟩
    · exact .inr (pipeStore_other hi payload d)
  refine ⟨hw ▸ h.bounds, he.trans h.next, hc.trans h.count, hrec, hhigh, ?_, ?_, ?_, ?_⟩
  · rw [hw]
    omega
  · intro i ho
    rw [hw]
    rcases hcases i with ⟨heq, hi⟩ | heq
    · rw [heq]
      exact ⟨hi.symm, hhi⟩
    · rw [heq] at ho ⊢
      exact h.slots i ho
  · intro ha i ho
    rcases hcases i with ⟨heq, -⟩ | heq
    · rw [heq]
      exact hup ha
    · rw [heq] at ho ⊢
      exact lt_of_lt_of_le (h.below rfl i ho) hseen.1
  · intro _ _ i ho
    rcases hcases i with ⟨heq, -⟩ | heq
    · rw [heq]
      exact hlo
    · rw [heq] at ho ⊢
      exact h.ahead rfl nofun i ho

theorem Windowed.hold (h : Windowed .fresh d) (hm : pipeMode d.xfer.mode = true)
    (hearly : Early seq d) : Windowed .answering (pipeHold seq payload d) := by
  unfold Windowed at h
  rw [hm] at h
  obtain ⟨hlo, hhi⟩ := (early_iff h.next).mp hearly
  have hnear := h.near
  have hbounds := h.bounds
  have hidx : (progress d.events).taken + (seq - d.pipe.expectedSeq).toNat =
      lift (progress d.events).taken seq := by rw [h.next]; rfl
  have hpipe : (pipeHold seq payload d).pipe = { (pipeStore seq payload d).pipe with
      hasReceived := true
      highestSeen := UInt8.ofNat (max (progress d.events).seen
        (lift (progress d.events).taken seq + 1) - 1) } := by
    have := pipeUpdateHighest_eq (p := (pipeStore seq payload d).pipe) (progress d.events).taken
      (progress d.events).seen (lift (progress d.events).taken seq) h.received h.highest
      (le_lift _ _) (by omega) hnear.1 (by omega)
    rw [ofNat_lift] at this
    exact this
  unfold Windowed
  rw [pipeHold_progress, show (pipeHold seq payload d).xfer.mode = d.xfer.mode from rfl, hm, hpipe]
  simp only [Progress.add]
  rw [hidx]
  refine h.store hearly rfl rfl rfl ?_ (fun _ => rfl) ?_ fun _ => ?_
  · rw [decide_eq_true]
    omega
  · omega
  · omega

theorem Windowed.overfull (h : Windowed .fresh d) (hm : pipeMode d.xfer.mode = true)
    (hearly : Early seq d) (hk : Stays hs (pipeStore seq payload d) d') (hf : d'.xfer.mode = .fatal) :
    Windowed .answering d' := by
  unfold Windowed at h
  rw [hm] at h
  obtain ⟨gap, frames, acks, hp⟩ := hk.pipe
  unfold Windowed
  rw [hk.taken, hk.seen, hk.reorder, hp, hf]
  exact h.store hearly rfl rfl rfl h.received h.highest ⟨le_rfl, h.near.2⟩ nofun

/-- Outside the drain no chunk that is due waits. -/
theorem Windowed.turns {turn' : Turn} (h : Windowed turn d) (ht : turn ≠ .draining) :
    Windowed turn' d :=
  ⟨h.bounds, h.next, h.count, h.received, h.highest, h.near, h.slots, h.below,
    fun hm _ => h.ahead hm ht⟩

theorem Deed.windowed {app : App} {ctx : Ctx} {s t : Turn × Dev}
    (hd : Deed app ctx seq payload s t) (h : OnPipe s.2 → Windowed s.1 s.2) (ho : OnPipe t.2) :
    Windowed t.1 t.2 := by
  cases hd.shift with
  | ended _ hi _ => exact absurd ho (not_onPipe_idle hi)
  | stays ht hk => exact hk.windowed ((h (hk.onPipe ho)).turns ht)
  | drained hdue => exact (h ho).drained hdue
  | dead _ hk hf _ =>
    have hw := hk.windowed (h (hk.onPipe ho))
    refine ⟨hw.bounds, hw.next, hw.count, hw.received, hw.highest, hw.near, hw.slots, hw.below, ?_⟩
    rw [hf]
    nofun
  | accept hk hm hseq => exact (hk.windowed (h (hk.onPipe (.inl hm)))).accept hm hseq
  | release hk hm hdue => exact (hk.windowed (h (hk.onPipe (.inl hm)))).release hm hdue
  | hold hm hearly _ => exact (h (.inl hm)).hold hm hearly
  | overfull hm hearly _ hk hf => exact (h (.inl hm)).overfull hm hearly hk hf

/-- In every reachable state of a PIPE transfer its window is where the log says. -/
theorem Reachable.windowed (h : Reachable d) (ho : OnPipe d) : Windowed .fresh d := by
  refine h.rule (I := fun d => OnPipe d → Windowed .fresh d)
    (fun _ ho => absurd ho (not_onPipe_idle rfl)) ?_ ho
  intro app cmd d hd hw ho
  by_cases hf : cmd.feedsPipe = true
  · cases cmd with
    | pipeData ctx body =>
      have hframe := step_frame (J := fun s => Windowed s.1 s.2)
        (fun _ {s t} hd h ho => hd.windowed h ho) (fun hk hw => hk.windowed (hw.turns nofun)) hw ho
      exact hframe.turns nofun
    | _ => exact absurd hf nofun
  · exact step_window hd.coupled (Bool.eq_false_of_not_eq_true hf) Opens.windowed Stays.windowed
      hw ho

end Windowed

end OpenDisplay
