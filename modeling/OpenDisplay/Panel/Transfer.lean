import OpenDisplay.Panel.Image
import OpenDisplay.Xfer.Refresh

/-! What the transfer machine asks of the panel: every write and every refresh belongs to an image
that the hardware has begun for, and whose size the transfer was admitted with. -/

namespace OpenDisplay

open Traces

def XferState.image (x : XferState) : PanelImage :=
  if partialMode x.mode then .rect x.region else .whole x.geometry

def App.begins (app : App) (es : List Event) : PanelImage → Bool
  | .whole g => app.beginFull es g
  | .rect r => app.beginPartial es r

/-- The event of hardware that has begun for an image. -/
def PanelImage.event : PanelImage → Event
  | .whole _ => .beginFull true
  | .rect _ => .beginPartial true

/-- The events of another image. -/
def opens : Event → Bool
  | .admitted _ _ _ | .beginFull _ | .beginPartial _ => true
  | _ => false

/-- The last image that the hardware was asked to begin for, with the target's consent, and whose
size the transfer is measured by. -/
def AskedFor (cmds : List (App × Cmd)) (es : List Event) (img : PanelImage) : Prop :=
  img.total = (tally es).expected ∧ ∃ before after, es = before ++ img.event :: after ∧
    (∀ e ∈ after, opens e = false) ∧ ∃ c ∈ cmds, c.1.begins before img = true

/-- What the panel is asked for belongs to the image. A refresh follows accepted writes only. -/
def Belongs (cmds : List (App × Cmd)) (pre : List Event) : Event → Prop
  | .write _ _ _ => ∃ img, AskedFor cmds pre img
  | .refresh _ x _ _ _ => AskedFor cmds pre x.image ∧ (tally pre).offered = (tally pre).accepted ∧
      x.writtenBytes.toNat = (tally pre).accepted.length ∧ x.expectedBytes = (tally pre).expected
  | _ => True

/-- Every event so far belongs to its image, and a transfer in progress has one. -/
structure Bound (cmds : List (App × Cmd)) (d : Dev) : Prop where
  belongs : Always (Belongs cmds) d.events
  asked : odXferOwnsHardware d = true → AskedFor cmds d.events d.xfer.image

/-- A transfer has been admitted with the size of the image. -/
structure Engaged (cmds : List (App × Cmd)) (img : PanelImage) (d : Dev) : Prop where
  belongs : Always (Belongs cmds) d.events
  image : d.xfer.image = img
  total : img.total = (tally d.events).expected

section Events

variable {cmds : List (App × Cmd)} {img : PanelImage} {es es' : List Event} {e : Event} {d d' : Dev}

/-- Events that ask nothing of the panel. -/
def idleEvent (e : Event) : Bool := !opens e && !refreshes e && (match e with | .write _ _ _ => false | _ => true)

theorem Belongs.idle (he : idleEvent e = true) (pre : List Event) : Belongs cmds pre e := by
  cases e <;> trivial

theorem tally_expected (he : opens e = false) (t : Tally) : (t.add e).expected = t.expected := by
  cases e <;> first | rfl | exact absurd he (by simp [opens])

theorem tally_append_expected (hes : ∀ e ∈ es', opens e = false) :
    (tally (es ++ es')).expected = (tally es).expected := by
  induction es' using List.reverseRecOn with
  | nil => rw [List.append_nil]
  | append_singleton es' e ih =>
    rw [← List.append_assoc, tally_concat, tally_expected (hes e (by simp))]
    exact ih fun e he => hes e (by simp [he])

theorem AskedFor.append (h : AskedFor cmds es img) (es' : List Event) (hes : ∀ e ∈ es', opens e = false) :
    AskedFor cmds (es ++ es') img := by
  obtain ⟨htotal, before, after, rfl, hafter, hcall⟩ := h
  refine ⟨htotal.trans (tally_append_expected hes).symm, before, after ++ es', by simp, fun e he => ?_, hcall⟩
  rcases List.mem_append.mp he with he | he
  · exact hafter e he
  · exact hes e he

theorem idleEvent_opens (he : idleEvent e = true) : opens e = false := by
  cases e <;> first | rfl | exact absurd he (by simp [idleEvent, opens])

theorem always_idle (h : Always (Belongs cmds) es) (es' : List Event) (hes : ∀ e ∈ es', idleEvent e = true) :
    Always (Belongs cmds) (es ++ es') := by
  rw [always_append]
  refine ⟨h, fun pre e post hpost => .idle (hes e ?_) _⟩
  rw [hpost]
  exact List.mem_append_right _ List.mem_cons_self

theorem always_log (h : Always (Belongs cmds) es) (he : idleEvent e = true) : Always (Belongs cmds) (es ++ [e]) :=
  always_concat.mpr ⟨h, .idle he es⟩

theorem Bound.append (h : Bound cmds d) (es : List Event) (he : d'.events = d.events ++ es)
    (hes : ∀ e ∈ es, idleEvent e = true)
    (hx : odXferOwnsHardware d' = true → odXferOwnsHardware d = true ∧ d'.xfer.image = d.xfer.image) :
    Bound cmds d' where
  belongs := by
    rw [he]
    exact always_idle h.belongs es hes
  asked ho := by
    obtain ⟨ho, himg⟩ := hx ho
    rw [he, himg]
    exact (h.asked ho).append es fun e hmem => idleEvent_opens (hes e hmem)

theorem Bound.same (h : Bound cmds d) (hx : d'.xfer = d.xfer) (es : List Event) (he : d'.events = d.events ++ es)
    (hes : ∀ e ∈ es, idleEvent e = true) : Bound cmds d' :=
  h.append es he hes fun ho => ⟨by rw [← ho, odXferOwnsHardware, odXferOwnsHardware, hx], by rw [hx]⟩

theorem Bound.log (h : Bound cmds d) (he : idleEvent e = true) : Bound cmds (d.log e) :=
  h.same rfl [e] rfl (by simpa using he)

theorem Bound.cleared (h : Always (Belongs cmds) d.events) (hm : d.xfer.mode = .idle) : Bound cmds d :=
  ⟨h, fun ho => absurd ho (by simp [odXferOwnsHardware, hm])⟩

/-- A push into the stream writes to the panel while a transfer has its image. -/
theorem Bound.streams (h : Bound cmds d) (ho : odXferOwnsHardware d = true) (hs : Streams d d') : Bound cmds d' := by
  obtain ⟨r, w, hx⟩ := hs.xfer
  obtain ⟨es, hes, hall⟩ := hs.events
  have hopens : ∀ e ∈ es, opens e = false := by
    intro e he
    rcases hall e he with ⟨o, b, c, rfl⟩ | ⟨status, rfl⟩ <;> rfl
  have hasked := h.asked ho
  constructor
  · rw [hes, always_append]
    refine ⟨h.belongs, fun pre e post hpost => ?_⟩
    have hmem : e ∈ es := by simp [hpost]
    rcases hall e hmem with ⟨o, b, c, rfl⟩ | ⟨status, rfl⟩
    · exact ⟨_, hasked.append _ fun e he => hopens e (by simp [hpost, he])⟩
    · trivial
  · intro _
    rw [hes, show d'.xfer.image = d.xfer.image by rw [hx]; rfl]
    exact hasked.append es hopens

theorem abortEvents_idle (reason : AbortReason) (owns clear : Bool) :
    ∀ e ∈ (if owns then [Event.abort reason] else []) ++ (if clear then [Event.setDisplayedEtag 0] else []),
      idleEvent e = true := by
  cases owns <;> cases clear <;> simp [idleEvent, opens, refreshes]

theorem bound_abort (h : Always (Belongs cmds) d.events) (reason : AbortReason) (clear : Bool) :
    Bound cmds (odXferAbortActive reason clear d) := by
  refine .cleared ?_ rfl
  rw [odXferAbortActive_events]
  exact always_idle h _ (abortEvents_idle reason _ clear)

theorem Engaged.append (h : Engaged cmds img d) (hx : d'.xfer = d.xfer) (es : List Event)
    (he : d'.events = d.events ++ es)
    (hes : ∀ e ∈ es, idleEvent e = true) : Engaged cmds img d' where
  belongs := by
    rw [he]
    exact always_idle h.belongs es hes
  image := by rw [hx, h.image]
  total := by rw [he, tally_append_expected fun e hmem => idleEvent_opens (hes e hmem), h.total]

/-- The target consents to begin. -/
theorem Engaged.begun (h : Engaged cmds img d) {c : App × Cmd} (hc : c ∈ cmds) (hok : c.1.begins d.events img = true) :
    Bound cmds (d.log img.event) := by
  have hev : (d.log img.event).events = d.events ++ [img.event] := rfl
  constructor
  · rw [hev]
    exact always_concat.mpr ⟨h.belongs, by cases img <;> trivial⟩
  · intro _
    show AskedFor cmds _ d.xfer.image
    rw [h.image]
    refine ⟨?_, d.events, [], rfl, by simp, c, hc, hok⟩
    rw [tally_log, h.total]
    cases img <;> rfl

/-- The target refuses to begin. -/
theorem Engaged.refused (h : Engaged cmds img d) (he : e = .beginFull false ∨ e = .beginPartial false) :
    Always (Belongs cmds) (d.log e).events :=
  always_concat.mpr ⟨h.belongs, by rcases he with rfl | rfl <;> trivial⟩

end Events

section Start

variable {cmds : List (App × Cmd)} {app : App} {ctx : Ctx} {img : PanelImage} {d d' : Dev} {c : App × Cmd}

theorem Bound.replace (h : Bound cmds d) : Bound cmds (odXferReplaceActive d) := by
  rw [odXferReplaceActive_eq]
  split_ifs
  · exact bound_abort h.belongs _ _
  · exact h

theorem bound_failActive (h : Always (Belongs cmds) d.events) (cause : TerminalCause) (reason : AbortReason)
    (clear : Bool) : Bound cmds (odXferFailActive cause reason clear d) :=
  bound_abort (d := odXferTerminalFailure cause d) (always_log h rfl) reason clear

theorem Bound.replyError (h : Bound cmds d) (frame : Bytes) : Bound cmds (odXferReplyError ctx frame d) := h.log rfl

theorem Bound.setEtag (h : Bound cmds d) (etag : UInt32) : Bound cmds (odXferAppSetDisplayedEtag etag d) :=
  h.same rfl [.setDisplayedEtag etag] rfl (by simp [idleEvent, opens, refreshes])

theorem bound_directFail (h : Always (Belongs cmds) d.events) (cause : TerminalCause) (reason : AbortReason)
    (opcode : UInt8) : Bound cmds (directFail ctx cause reason opcode d).2 :=
  (bound_failActive h cause reason false).replyError _

theorem bound_partialTerminalFail (h : Always (Belongs cmds) d.events) (opcode : UInt8) (cause : TerminalCause)
    (reason : AbortReason) : Bound cmds (partialTerminalFail ctx opcode cause reason d).2 := by
  refine (bound_failActive (d := odXferAppSetDisplayedEtag 0 d) ?_ cause reason false).replyError _
  exact always_log h rfl

theorem Bound.ackOrFail (h : Bound cmds d) (ack : Bytes) (clear : Bool) :
    Bound cmds (ackOrFail app ctx ack clear d).2 := by
  unfold OpenDisplay.ackOrFail
  split
  · next u hr =>
    rw [odXferReplyApp_eq ctx hr]
    exact h.log rfl
  · next status u _ hr =>
    rw [odXferReplyApp_eq ctx hr]
    exact bound_failActive (h.log rfl).belongs _ _ _

/-- The bytes that ride on a START go to the image that the hardware has begun for. -/
theorem Bound.given (h : Bound cmds d) (bytes : Bytes) (received : UInt32) : Bound cmds (d.give bytes received) :=
  h.append [.stream bytes] rfl (by simp [idleEvent, opens, refreshes]) fun ho => ⟨ho, rfl⟩

theorem Bound.push (h : Bound cmds d) (ho : odXferOwnsHardware d = true) (input : Bytes) (final : Bool)
    {r : StreamResult} (hr : odXferStreamPush app input final d = (r, d')) : Bound cmds d' := by
  have hs := odXferStreamPush_streams app input final d
  rw [hr] at hs
  exact h.streams ho hs

theorem engaged_directAdmit (app : App) (ctx : Ctx) (h : Always (Belongs cmds) d.events) (geometry : Geometry)
    (compressed : Bool) :
    Engaged cmds (.whole geometry) (directAdmit app ctx geometry compressed d) where
  belongs := always_concat.mpr ⟨h, trivial⟩
  image := rfl
  total := by
    unfold directAdmit
    rw [tally_log]
    rfl

theorem bound_directBegin (h : Always (Belongs cmds) d.events) (hc : c ∈ cmds) (geometry : Geometry)
    (compressed : Bool) (body : Bytes) : Bound cmds (directBegin c.1 ctx geometry compressed body d).2 := by
  have heng := engaged_directAdmit c.1 ctx h geometry compressed
  unfold directBegin
  dsimp only
  split_ifs with hok hcomp
  · rw [hok]
    exact bound_directFail (heng.refused (.inl rfl)) _ _ _
  · rw [Bool.not_eq_false] at hok
    have hb : Bound cmds (odXferStreamReset geometry.totalBytes
        ((directAdmit c.1 ctx geometry compressed d).log (.beginFull true))) :=
      (heng.begun hc hok).same rfl [] (List.append_nil _).symm (by simp)
    rw [hok]
    unfold directInline
    split_ifs with hin
    · exact hb.ackOrFail _ _
    · split
      · next u hr => exact ((hb.given _ _).push rfl _ _ hr).ackOrFail _ _
      · next r u _ hr => exact bound_directFail ((hb.given _ _).push rfl _ _ hr).belongs _ _ _
  · rw [Bool.not_eq_false] at hok
    rw [hok]
    exact (heng.begun hc hok).ackOrFail _ _

theorem Bound.directStart (h : Bound cmds d) (hc : c ∈ cmds) (body : Bytes) :
    Bound cmds (odXferDirectStart c.1 ctx body d).2 := by
  unfold odXferDirectStart
  split_ifs with hlong
  · exact h.replyError _
  · have hr : Bound cmds (Dev.log .prepareStart (odXferReplaceActive d)) := h.replace.log rfl
    dsimp only
    split
    · exact hr.replyError _
    · split_ifs
      · exact hr.replyError _
      · exact hr.replyError _
      · exact hr.replyError _
      · exact bound_directBegin hr.belongs hc _ _ _

theorem engaged_partialAdmit (app : App) (ctx : Ctx) (h : Always (Belongs cmds) d.events) (geometry : Geometry)
    (compressed : Bool) (region : PartialState) :
    Engaged cmds (.rect region) (partialAdmit app ctx geometry compressed region d) where
  belongs := always_concat.mpr ⟨h, trivial⟩
  image := rfl
  total := by
    unfold partialAdmit
    rw [tally_log]
    rfl

theorem Bound.partialInline (h : Bound cmds d) (ho : odXferOwnsHardware d = true) {input : Bytes}
    {cause : Option TerminalCause} (hr : partialInline app input d = (cause, d')) : Bound cmds d' := by
  unfold OpenDisplay.partialInline at hr
  dsimp only at hr
  split_ifs at hr with hin hc
  · obtain ⟨-, rfl⟩ := Prod.mk.inj hr
    exact h
  · split at hr
    · next u hp =>
      obtain ⟨-, rfl⟩ := Prod.mk.inj hr
      exact (h.given input (UInt32.ofNat input.length)).push ho _ _ hp
    · next r u _ hp =>
      obtain ⟨-, rfl⟩ := Prod.mk.inj hr
      exact (h.given input (UInt32.ofNat input.length)).push ho _ _ hp
  · refine (h.given input (UInt32.ofNat input.length)).streams ho ?_
    unfold partialInlineRaw odXferAppWrite at hr
    dsimp only at hr
    split_ifs at hr
    · obtain ⟨-, rfl⟩ := Prod.mk.inj hr
      exact .refl _
    · obtain ⟨-, rfl⟩ := Prod.mk.inj hr
      exact ⟨⟨_, _, rfl⟩, rfl, rfl, rfl, _, rfl, by simp⟩
    · obtain ⟨-, rfl⟩ := Prod.mk.inj hr
      exact ⟨⟨_, _, rfl⟩, rfl, rfl, rfl, _, rfl, by simp⟩

theorem bound_partialBegin (h : Always (Belongs cmds) d.events) (hc : c ∈ cmds) (geometry : Geometry)
    (compressed : Bool) (region : PartialState) (body : Bytes) :
    Bound cmds (partialBegin c.1 ctx geometry compressed region body d).2 := by
  have heng := engaged_partialAdmit c.1 ctx h geometry compressed region
  have hfail : ∀ u, Bound cmds u → odXferOwnsHardware u = true → ∀ cause v,
      OpenDisplay.partialInline c.1 (body.drop 17) u = (some cause, v) →
      Bound cmds (partialTerminalFail ctx respPartialWriteStart cause .startFailed v).2 := fun u hu ho cause v hr =>
    bound_partialTerminalFail (hu.partialInline ho hr).belongs _ _ _
  have hack : ∀ u, Bound cmds u → odXferOwnsHardware u = true → ∀ v,
      OpenDisplay.partialInline c.1 (body.drop 17) u = (none, v) →
      Bound cmds (OpenDisplay.ackOrFail c.1 ctx [respAck, respPartialWriteStart] true v).2 := fun u hu ho v hr =>
    (hu.partialInline ho hr).ackOrFail _ _
  unfold partialBegin
  dsimp only
  split_ifs with hok hcomp
  · rw [hok]
    exact bound_partialTerminalFail (heng.refused (.inr rfl)) _ _ _
  · rw [Bool.not_eq_false] at hok
    rw [hok]
    have hb : Bound cmds (odXferStreamReset (region.planeBytes * 2)
        ((partialAdmit c.1 ctx geometry compressed region d).log (.beginPartial true))) :=
      (heng.begun hc hok).same rfl [] (List.append_nil _).symm (by simp)
    split
    · next cause v hr => exact hfail _ hb rfl cause v hr
    · next v hr => exact hack _ hb rfl v hr
  · rw [Bool.not_eq_false] at hok
    rw [hok]
    have hb := heng.begun hc hok
    split
    · next cause v hr => exact hfail _ hb rfl cause v hr
    · next v hr => exact hack _ hb rfl v hr

theorem Bound.partialFail (h : Bound cmds d) (opcode error : UInt8) :
    Bound cmds (partialFail ctx opcode error d).2 := (h.setEtag 0).replyError _

theorem Bound.partialStart (h : Bound cmds d) (hc : c ∈ cmds) (body : Bytes) :
    Bound cmds (odXferPartialStart c.1 ctx body d).2 := by
  unfold odXferPartialStart
  split
  · exact h.partialFail _ _
  · have hr : Bound cmds (Dev.log .prepareStart (odXferReplaceActive d)) := h.replace.log rfl
    dsimp only
    split
    · exact hr.partialFail _ _
    split
    · exact hr.partialFail _ _
    split
    · exact hr.partialFail _ _
    split
    · exact hr.partialFail _ _
    split
    · exact hr.partialFail _ _
    split
    · exact hr.partialFail _ _
    split
    · exact hr.partialFail _ _
    split
    · exact hr.partialFail _ _
    · exact bound_partialBegin hr.belongs hc _ _ _ _

end Start

section Pipe

variable {cmds : List (App × Cmd)} {app : App} {ctx : Ctx} {img : PanelImage} {d d' : Dev} {c : App × Cmd}

theorem engaged_pipeAdmit (h : Always (Belongs cmds) d.events) (mode : Mode) {total : UInt32} {geometry : Geometry}
    {region : PartialState} (himg : (if partialMode mode then .rect region else .whole geometry) = img)
    (htotal : img.total = total) (compressed : Bool) :
    Engaged cmds img (pipeAdmit app ctx mode total compressed geometry region d) := by
  have heng : Engaged cmds img (Dev.log (.admitted mode compressed total) { d with
      xfer := { d.xfer with
        mode := mode, owner := ctx.rp, startedMs := app.nowMs d.events, expectedBytes := total
        compressed := compressed, geometry := geometry, region := region } }) :=
    ⟨always_concat.mpr ⟨h, trivial⟩, himg, by rw [tally_log]; exact htotal⟩
  unfold pipeAdmit
  dsimp only
  split_ifs
  · exact heng.append rfl [] (List.append_nil _).symm (by simp)
  · exact heng

theorem bound_enterFatal (h : Always (Belongs cmds) d.events) (hm : pipeMode d.xfer.mode = true) :
    Bound cmds (odXferPipeEnterFatal d) := by
  rw [odXferPipeEnterFatal_eq hm]
  refine ⟨always_idle h _ ?_, fun ho => absurd ho (by simp [odXferOwnsHardware])⟩
  split_ifs <;> simp [idleEvent, opens, refreshes]

/-- What follows the answer of the target. A refusal is fatal. -/
theorem Engaged.answered (h : Engaged cmds img d) (hc : c ∈ cmds) (hm : pipeMode d.xfer.mode = true) (f : Bool → Event)
    (htrue : f true = img.event) (hfalse : f false = .beginFull false ∨ f false = .beginPartial false) :
    Bound cmds (if c.1.begins d.events img = false then
      odXferPipeEnterFatal (odXferTerminalFailure .panelPreparation (d.log (f (c.1.begins d.events img))))
      else d.log (f (c.1.begins d.events img))) := by
  split_ifs with hok
  · rw [hok]
    exact bound_enterFatal (always_log (h.refused hfalse) rfl) hm
  · rw [Bool.not_eq_false] at hok
    rw [hok, htrue]
    exact h.begun hc hok

theorem Engaged.activate (h : Engaged cmds img d) (hc : c ∈ cmds) (hm : pipeMode d.xfer.mode = true) :
    Bound cmds (odXferPipeActivate c.1 d) := by
  have himg := h.image
  unfold XferState.image at himg
  unfold odXferPipeActivate
  dsimp only
  split
  · next hfull =>
    rw [hfull] at himg
    obtain rfl : PanelImage.whole d.xfer.geometry = img := himg
    exact h.answered hc hm .beginFull rfl (.inl rfl)
  · next hpart =>
    rw [hpart] at himg
    obtain rfl : PanelImage.rect d.xfer.region = img := himg
    exact h.answered hc hm .beginPartial rfl (.inr rfl)
  · next hnf hnp =>
    simp only [pipeMode, decide_eq_true_eq] at hm
    exact (hm.elim hnf hnp).elim

theorem Engaged.log (h : Engaged cmds img d) {e : Event} (he : idleEvent e = true) : Engaged cmds img (d.log e) :=
  h.append rfl [e] rfl (by simpa using he)

theorem Engaged.pipeOpen (h : Engaged cmds img d) (hc : c ∈ cmds) (hm : pipeMode d.xfer.mode = true)
    (isPartial : Bool) (body : Bytes) : Bound cmds (pipeOpen c.1 ctx isPartial body d).2 := by
  have hn : Engaged cmds img { d with
      pipe := pipeNegotiate isPartial (byteAt body 2) (byteAt body 3) (readLe16 (body.drop 4)) d.pipe } :=
    h.append rfl [] (List.append_nil _).symm (by simp)
  unfold OpenDisplay.pipeOpen
  dsimp only
  split
  · next u hr =>
    rw [odXferReplyApp_eq ctx hr]
    exact Engaged.activate (hn.log rfl) hc hm
  · next status u _ hr =>
    rw [odXferReplyApp_eq ctx hr]
    exact bound_failActive (always_log hn.belongs rfl) _ _ _

/-- Where an arm leaves the device: refused, or with a transfer for an image. -/
structure Equipped (cmds : List (App × Cmd)) (cause : StartCause) (d : Dev) : Prop where
  refused : cause ≠ .ok → Bound cmds d
  admitted : cause = .ok → pipeMode d.xfer.mode = true ∧ ∃ img, Engaged cmds img d

theorem Bound.refuse (h : Bound cmds d) {cause : StartCause} (hc : cause ≠ .ok) : Equipped cmds cause d :=
  ⟨fun _ => h, fun hok => absurd hok hc⟩

theorem Bound.armFull (h : Bound cmds d) {total : UInt32} {compressed : Bool} {cause : StartCause}
    (hr : odXferPipeArmFull app ctx total compressed d = (cause, d')) : Equipped cmds cause d' := by
  have hp : Bound cmds (d.log .prepareStart) := h.log rfl
  unfold odXferPipeArmFull at hr
  split at hr
  · obtain ⟨rfl, rfl⟩ := Prod.mk.inj hr
    exact h.refuse (by decide)
  split at hr
  · obtain ⟨rfl, rfl⟩ := Prod.mk.inj hr
    exact h.refuse (by decide)
  dsimp only at hr
  split at hr
  · obtain ⟨rfl, rfl⟩ := Prod.mk.inj hr
    exact hp.refuse (by decide)
  next panel _ =>
  split at hr
  · obtain ⟨rfl, rfl⟩ := Prod.mk.inj hr
    exact hp.refuse (by decide)
  split at hr
  · obtain ⟨rfl, rfl⟩ := Prod.mk.inj hr
    exact hp.refuse (by decide)
  split at hr
  · obtain ⟨rfl, rfl⟩ := Prod.mk.inj hr
    exact hp.refuse (by decide)
  · next htotal =>
    obtain ⟨rfl, rfl⟩ := Prod.mk.inj hr
    rw [ne_eq, not_not] at htotal
    have heng : Engaged cmds (.whole panel.geometry) (pipeAdmit app ctx .pipeFull total compressed panel.geometry
        (d.log .prepareStart).xfer.region (d.log .prepareStart)) :=
      engaged_pipeAdmit hp.belongs .pipeFull rfl htotal.symm compressed
    refine ⟨fun hne => absurd rfl hne, fun _ => ⟨?_, _, heng⟩⟩
    cases compressed <;> rfl

theorem Bound.armPartial (h : Bound cmds d) {total oldEtag : UInt32} {compressed : Bool}
    {x y width height : UInt16} {cause : StartCause} {error : UInt8}
    (hr : odXferPipeArmPartial app ctx total compressed oldEtag x y width height d = (cause, error, d')) :
    Equipped cmds cause d' := by
  have hp : Bound cmds (d.log .prepareStart) := h.log rfl
  have hrefuse : ∀ {e c}, armRefuse e c (d.log .prepareStart) = (cause, error, d') → c ≠ .ok →
      Equipped cmds cause d' := by
    intro e c he hc
    simp only [armRefuse, Prod.mk.injEq] at he
    obtain ⟨rfl, rfl, rfl⟩ := he
    exact (hp.setEtag 0).refuse hc
  unfold odXferPipeArmPartial at hr
  split at hr
  · simp only [Prod.mk.injEq] at hr
    obtain ⟨rfl, rfl, rfl⟩ := hr
    exact h.refuse (by decide)
  split at hr
  · simp only [Prod.mk.injEq] at hr
    obtain ⟨rfl, rfl, rfl⟩ := hr
    exact h.refuse (by decide)
  dsimp only at hr
  split at hr
  · exact hrefuse hr (by decide)
  split at hr
  · exact hrefuse hr (by decide)
  split at hr
  · exact hrefuse hr (by decide)
  split at hr
  · exact hrefuse hr (by decide)
  split at hr
  · exact hrefuse hr (by decide)
  split at hr
  · exact hrefuse hr (by decide)
  next planeBytes _ =>
  split at hr
  · exact hrefuse hr (by decide)
  · next htotal =>
    simp only [Prod.mk.injEq] at hr
    obtain ⟨rfl, rfl, rfl⟩ := hr
    rw [ne_eq, not_not] at htotal
    have heng : ∀ geometry region, region.planeBytes = planeBytes →
        Engaged cmds (.rect region) (pipeAdmit app ctx .pipePartial total compressed geometry region
          (d.log .prepareStart)) := fun geometry region hplane =>
      engaged_pipeAdmit hp.belongs .pipePartial rfl (by rw [htotal, ← hplane]; rfl) compressed
    refine ⟨fun hne => absurd rfl hne, fun _ => ⟨?_, _, heng _ _ rfl⟩⟩
    cases compressed <;> rfl

theorem Bound.pipeArm (h : Bound cmds d) (hc : c ∈ cmds) (isPartial compressed : Bool) (body : Bytes) :
    Bound cmds (pipeArm c.1 ctx isPartial compressed body d).2 := by
  unfold OpenDisplay.pipeArm
  cases isPartial with
  | true =>
    simp only [if_true]
    split
    · next hr =>
      obtain ⟨hm, img, heng⟩ := (h.armPartial hr).admitted rfl
      exact heng.pipeOpen hc hm _ _
    · next hne hr => exact ((h.armPartial hr).refused hne).replyError _
  | false =>
    simp only [Bool.false_eq_true, if_false]
    split
    · next hr =>
      obtain ⟨hm, img, heng⟩ := (h.armFull hr).admitted rfl
      exact heng.pipeOpen hc hm _ _
    · next hne hr => exact ((h.armFull hr).refused hne).replyError _

theorem Bound.pipeStart (h : Bound cmds d) (hc : c ∈ cmds) (body : Bytes) :
    Bound cmds (odPipeStart c.1 ctx body d).2 := by
  have hr := h.replace
  unfold odPipeStart
  dsimp only
  split
  · exact h.log rfl
  split
  · exact hr.replyError _
  split
  · exact hr.replyError _
  generalize pipeFrameOverhead + 1 + _ = minimumFrame
  split
  · exact hr.replyError _
  split
  · exact hr.replyError _
  · exact hr.pipeArm hc _ _ body

end Pipe

section Moves

variable {cmds : List (App × Cmd)} {app : App} {cmd : Cmd} {p q : Phase} {d d' : Dev}

/-- What a command that is no START keeps. A transfer that may be shown has written accepted bytes only. -/
structure Primed (cmds : List (App × Cmd)) (s : Phase × Dev) : Prop where
  bound : Bound cmds s.2
  armed : s.1 ≠ .armed
  ready : s.1 = .ready → odXferOwnsHardware s.2 = true ∧ (tally s.2.events).offered = (tally s.2.events).accepted

theorem Primed.leave (h : Bound cmds d) (hq : q ≠ .armed ∧ q ≠ .ready) : Primed cmds (q, d) :=
  ⟨h, hq.1, fun hr => absurd hr hq.2⟩

theorem Primed.same (h : Primed cmds (p, d)) {e : Event} (hb : Bound cmds d') (he : untallied e = true)
    (hev : d'.events = d.events ++ [e]) (hm : d'.xfer.mode = d.xfer.mode) : Primed cmds (p, d') := by
  refine ⟨hb, h.armed, fun hr => ?_⟩
  obtain ⟨ho, hw⟩ := h.ready hr
  show odXferOwnsHardware d' = true ∧ (tally d'.events).offered = (tally d'.events).accepted
  rw [odXferOwnsHardware, hm, hev, tally_concat, Tally.add_untallied _ he]
  exact ⟨ho, hw⟩

theorem quiet_idle {e : Event} (h : quiet e = true) : idleEvent e = true := by
  cases e <;> first | rfl | simp [quiet] at h

theorem Fed.bound {bytes : Bytes} {received : UInt32} {ok : Bool} (hf : Fed app bytes (d.give bytes received) ok d')
    (h : Bound cmds d) (ho : odXferOwnsHardware d = true) : Bound cmds d' :=
  (h.given bytes received).streams ho hf.streams

theorem Bound.refresh (h : Bound cmds d)
    (hr : odXferOwnsHardware d = true ∧ (tally d.events).offered = (tally d.events).accepted) (ha : Account d)
    (refreshMode : UInt8) (ok completed : Bool) :
    Bound cmds (d.log (.refresh refreshMode d.xfer d.pipe.queuedCount ok completed)) where
  belongs := always_concat.mpr ⟨h.belongs, h.asked hr.1, hr.2, ha.written, ha.expected⟩
  asked ho := (h.asked ho).append [.refresh refreshMode d.xfer d.pipe.queuedCount ok completed]
    (by simp [opens])

theorem Move.primed {s t : Phase × Dev} (hm : Move app cmd s t) (hs : cmd.starts = false) (hl : Ledger s)
    (h : Primed cmds s) : Primed cmds t := by
  cases hm with
  | enter => exact .leave h.bound (by simp)
  | replace hs' => exact absurd (hs.symm.trans hs') Bool.false_ne_true
  | reset _ => exact .leave (bound_abort h.bound.belongs _ _) (by simp)
  | note hq => exact h.same (h.bound.log (quiet_idle hq)) (quiet_untallied hq) rfl rfl
  | clearEtag _ _ => exact h.same (e := .setDisplayedEtag 0) (h.bound.setEtag 0) rfl rfl rfl
  | arm _ hs' _ => exact absurd (hs.symm.trans hs') Bool.false_ne_true
  | begun _ _ => exact absurd rfl h.armed
  | beginFailed _ => exact absurd rfl h.armed
  | unacked _ _ => exact absurd rfl h.armed
  | fed ho hf => exact .leave (hf.bound h.bound ho) (by simp)
  | spoiled ho hf => exact .leave (hf.bound h.bound ho) (by simp)
  | book _ hb _ =>
    refine .leave ?_ (by simp)
    rcases hb.events with he | ⟨e, he, he'⟩
    · exact h.bound.same hb.xfer [] (by simpa using he) (by simp)
    · exact h.bound.same hb.xfer [e] he (by rcases he' with rfl | ⟨n, rfl⟩ <;> simp [idleEvent, opens, refreshes])
  | abandon _ _ => exact .leave (bound_abort h.bound.belongs _ _) (by simp)
  | fatal _ hm => exact .leave (bound_enterFatal h.bound.belongs hm) (by simp)
  | complete _ ho _ =>
    obtain ⟨-, -, hsound⟩ := hl.rest ho
    exact ⟨h.bound, by simp, fun _ => ⟨ho, hsound.whole⟩⟩
  | @inflated d d' _ ho hc _ hr =>
    obtain ⟨hb, ha, hsound⟩ := hl.rest ho
    obtain ⟨-, -, hafter⟩ := ha.push hb hsound.whole hc _ (hsound.packed hc) (List.append_nil _).symm hr
    have hst := odXferStreamPush_streams app [] true d
    rw [hr] at hst
    refine ⟨h.bound.push ho [] true hr, by simp, fun _ => ⟨?_, (hafter rfl).1⟩⟩
    show odXferOwnsHardware d' = true
    rw [odXferOwnsHardware, hst.mode]
    exact ho
  | finalFailed ho _ hr _ => exact .leave (h.bound.push ho [] true hr) (by simp)
  | stamp _ =>
    refine ⟨h.bound.append [] (List.append_nil _).symm (by simp) fun ho => ⟨ho, rfl⟩, by simp, fun hr => ?_⟩
    exact h.ready hr
  | barrier _ =>
    exact .leave (Bound.log (.cleared h.bound.belongs rfl) rfl) (by simp)
  | @refreshed d refreshMode completed =>
    have hb := (h.bound.refresh (h.ready rfl) hl.2 refreshMode true completed).belongs
    refine .leave (.cleared ?_ rfl) (by simp)
    rcases settleEtag_events cmd completed
      (d.log (.refresh refreshMode d.xfer d.pipe.queuedCount true completed)) with he | ⟨etag, he⟩
    · exact he ▸ hb
    · exact he ▸ always_log hb (e := .setDisplayedEtag etag) rfl
  | unshown _ _ => exact .leave (h.bound.refresh (h.ready rfl) hl.2 _ _ _) (by simp)
  | dropped _ _ _ => exact .leave (bound_abort h.bound.belongs _ _) (by simp)

/-- A step of a run whose commands include it. -/
theorem step_bound {c : App × Cmd} (hc : c ∈ cmds) (hd : Reachable d) (h : Bound cmds d) :
    Bound cmds (step c.1 c.2 d) := by
  have hmoves : c.2.starts = false → Bound cmds (step c.1 c.2 d) := by
    intro hs
    obtain ⟨p, -, hm⟩ := step_moves c.1 c.2 hd.coupled
    have h0 : Ledger (.fresh, d) ∧ Primed cmds (.fresh, d) := ⟨hd.ledger, .leave h (by simp)⟩
    exact (hm.rule (I := fun s => Ledger s ∧ Primed cmds s)
      (fun hm h => ⟨hm.ledger h.1, hm.primed hs h.1 h.2⟩) h0).2.bound
  obtain ⟨app, cmd⟩ := c
  cases cmd with
  | directStart ctx body => exact h.directStart hc body
  | partialStart ctx body => exact h.partialStart hc body
  | pipeStart ctx body => exact h.pipeStart hc body
  | data | finish | pipeData | pipeEnd | reset | timeout => exact hmoves rfl

theorem run_bound (etag : UInt32) (cmds all : List (App × Cmd)) (hall : ∀ c ∈ cmds, c ∈ all) :
    Bound all (run cmds (Dev.boot etag)) := by
  induction cmds using List.reverseRecOn with
  | nil => exact .cleared Always.nil rfl
  | append_singleton cmds c ih =>
    rw [run_append]
    exact step_bound (hall c (by simp)) ⟨etag, cmds, rfl⟩ (ih fun c hc => hall c (by simp [hc]))

end Moves

end OpenDisplay
