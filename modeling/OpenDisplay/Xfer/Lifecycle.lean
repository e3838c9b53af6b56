import Mathlib.Logic.Relation
import OpenDisplay.Xfer.Step

/-! The life of a transfer as a machine of phases. Every command is a path of
the moves below, so what each move keeps is kept by every run. -/

namespace OpenDisplay

/-- Where a command stands. A transfer is `armed` from its admission until its
hardware begins, `broken` when it can only be given up, `ready` when its image
may be shown, `refused` when the panel would not show it, and `ended` once a
refresh has been asked for and settled. -/
inductive Phase where
  | fresh | rest | armed | broken | ready | refused | ended
deriving DecidableEq

def isStartAck (frame : Bytes) : Bool := frame.take 2 = [respAck, respPipeStart]

/-- Events that touch neither the panel, the transfer's bytes nor the ETag. -/
def quiet : Event → Bool
  | .prepareStart | .beforeRefresh _ _ | .replyPlain _ _ | .terminal _ => true
  | .reply _ frame status => !isStartAck frame || status = .ok
  | _ => false

def partialMode (mode : Mode) : Bool := mode = .directPartial ∨ mode = .pipePartial

def Cmd.starts : Cmd → Bool
  | .directStart _ _ | .partialStart _ _ | .pipeStart _ _ => true
  | _ => false

def Cmd.feedsPipe : Cmd → Bool
  | .pipeData _ _ => true
  | _ => false

def Cmd.endsPipe : Cmd → Bool
  | .pipeEnd _ _ => true
  | _ => false

/-- The body of an END. A transfer that a DATA frame completes ends without one. -/
def Cmd.endBody : Cmd → Bytes
  | .finish _ body | .pipeEnd _ body => body
  | _ => []

def Cmd.hasEtag (cmd : Cmd) : Bool := decide (5 ≤ cmd.endBody.length)

def Cmd.newEtag (cmd : Cmd) : UInt32 := if cmd.hasEtag then readBe32 (cmd.endBody.drop 1) else 0

def Dev.give (bytes : Bytes) (received : UInt32) (d : Dev) : Dev :=
  Dev.log (.stream bytes) { d with xfer := { d.xfer with receivedBytes := received } }

/-- What every kind of transfer does with the bytes it is given. -/
def feed (app : App) (bytes : Bytes) (d : Dev) : Bool × Dev :=
  if d.xfer.compressed then
    (decide ((odXferStreamPush app bytes false d).1 = .ok), (odXferStreamPush app bytes false d).2)
  else directRaw app bytes d

/-- The bytes are taken, or refused before or while they are written. -/
def Fed (app : App) (bytes : Bytes) (d : Dev) (ok : Bool) (d' : Dev) : Prop :=
  feed app bytes d = (ok, d') ∨ ok = false ∧ d' = d

/-- Nothing is left of any transfer. -/
structure Cleared (d : Dev) : Prop where
  xfer : d.xfer = {}
  pipe : d.pipe = {}
  reorder : d.reorder = fun _ => {}

/-- The two static structures of the transfer and of PIPE agree. -/
structure Coupled (d : Dev) : Prop where
  idle : d.xfer.mode = .idle → Cleared d
  isOpen : d.pipe.isOpen = true ↔ pipeMode d.xfer.mode = true ∨ d.xfer.mode = .fatal
  isPartial : d.xfer.mode ≠ .fatal → d.pipe.isPartial = decide (d.xfer.mode = .pipePartial)

/-- The state in which a transfer is admitted. -/
structure Admits (d : Dev) (x : XferState) (p : PipeState) : Prop where
  idle : d.xfer.mode = .idle
  owns : x.mode ≠ .idle ∧ x.mode ≠ .fatal
  received : x.receivedBytes = 0
  written : x.writtenBytes = 0
  direct : pipeMode x.mode = false → p = {}
  pipe : pipeMode x.mode = true →
    ∃ w n f, p = pipeNegotiate (decide (x.mode = .pipePartial)) w n f {}

/-- The checks that let an image without a compressed stream be shown. -/
structure CanShow (cmd : Cmd) (d : Dev) : Prop where
  raw : d.xfer.compressed = false
  whole : pipeMode d.xfer.mode = true ∨ d.xfer.mode = .directPartial ∨
    d.xfer.geometry.layout = .controllerPlanes → d.xfer.writtenBytes = d.xfer.expectedBytes
  drained : cmd.endsPipe = true → d.pipe.queuedCount = 0

/-- The ETag that a refresh leaves. -/
def settleEtag (cmd : Cmd) (completed : Bool) (d : Dev) : Dev :=
  if d.xfer.mode = .directPartial then
    odXferAppSetDisplayedEtag (if completed then d.xfer.region.newEtag else 0) d
  else pipeEtag (decide (d.xfer.mode = .pipePartial)) completed cmd.hasEtag cmd.newEtag d

/-- Whether giving up a refused refresh also clears the ETag. -/
def dropsEtag (cmd : Cmd) (d : Dev) (clear : Bool) : Prop :=
  match d.xfer.mode with
  | .directFull => clear = false
  | .pipeFull => clear = cmd.hasEtag
  | _ => clear = true ∨ d.displayedEtag = 0

/-- PIPE's own accounts move; the transfer does not. -/
structure Books (d d' : Dev) : Prop where
  xfer : d'.xfer = d.xfer
  pump : d'.pump = d.pump
  etag : d'.displayedEtag = d.displayedEtag
  isOpen : d'.pipe.isOpen = d.pipe.isOpen
  isPartial : d'.pipe.isPartial = d.pipe.isPartial
  events : d'.events = d.events ∨ ∃ e, d'.events = d.events ++ [e] ∧ (e = .taken ∨ ∃ n, e = .held n)

/-- Only the counters of the acknowledgements move. -/
def Marks (d d' : Dev) : Prop :=
  ∃ gap frames acks, d' = { d with
    pipe := { d.pipe with gapOpen := gap, framesSinceAck := frames, oooAcksSinceGap := acks } }

inductive Move (app : App) (cmd : Cmd) : Phase × Dev → Phase × Dev → Prop where
  | enter {d : Dev} : Move app cmd (.fresh, d) (.rest, d)
  | replace {d : Dev} : cmd.starts = true →
      Move app cmd (.fresh, d) (.rest, odXferReplaceActive d)
  | reset {d : Dev} : cmd = .reset → Move app cmd (.fresh, d) (.rest, odXferReset d)
  | note {p : Phase} {d : Dev} {e : Event} : quiet e = true → Move app cmd (p, d) (p, d.log e)
  | clearEtag {p : Phase} {d : Dev} : p ≠ .ended →
      partialMode d.xfer.mode = true ∨ cmd.starts = true →
      Move app cmd (p, d) (p, odXferAppSetDisplayedEtag 0 d)
  | arm {d : Dev} {x : XferState} {p : PipeState} (pump : Pump) : cmd.starts = true →
      Admits d x p →
      Move app cmd (.rest, d) (.armed, Dev.log (.admitted x.mode x.compressed x.expectedBytes)
        { d with xfer := x, pipe := p, pump := pump })
  | begun {d : Dev} {e : Event} : e = .beginFull true ∨ e = .beginPartial true →
      (d.xfer.compressed = true → d.pump = odZlibPumpReset d.xfer.expectedBytes) →
      Move app cmd (.armed, d) (.rest, d.log e)
  | beginFailed {d : Dev} {e : Event} : e = .beginFull false ∨ e = .beginPartial false →
      Move app cmd (.armed, d) (.broken, d.log e)
  | unacked {d : Dev} {rp : Reply} {frame : Bytes} {status : TxqStatus} :
      isStartAck frame = true → status ≠ .ok →
      Move app cmd (.armed, d) (.broken, d.log (.reply rp frame status))
  | fed {d d' : Dev} {bytes : Bytes} {received : UInt32} : odXferOwnsHardware d = true →
      Fed app bytes (d.give bytes received) true d' → Move app cmd (.rest, d) (.rest, d')
  | spoiled {d d' : Dev} {bytes : Bytes} {received : UInt32} : odXferOwnsHardware d = true →
      Fed app bytes (d.give bytes received) false d' → Move app cmd (.rest, d) (.broken, d')
  | book {d d' : Dev} : pipeMode d.xfer.mode = true → Books d d' →
      cmd.feedsPipe = true ∨ Marks d d' → Move app cmd (.rest, d) (.rest, d')
  | abandon {p : Phase} {d : Dev} {reason : AbortReason} {clear : Bool} :
      p = .rest ∨ p = .broken ∨ p = .ready →
      (partialMode d.xfer.mode = true → clear = true ∨ d.displayedEtag = 0) →
      Move app cmd (p, d) (.rest, odXferAbortActive reason clear d)
  | fatal {p : Phase} {d : Dev} : p = .rest ∨ p = .broken → pipeMode d.xfer.mode = true →
      Move app cmd (p, d) (.rest, odXferPipeEnterFatal d)
  | complete {d : Dev} : cmd.starts = false → odXferOwnsHardware d = true → CanShow cmd d →
      Move app cmd (.rest, d) (.ready, d)
  | inflated {d d' : Dev} : cmd.starts = false → odXferOwnsHardware d = true →
      d.xfer.compressed = true → (cmd.endsPipe = true → d.pipe.queuedCount = 0) →
      odXferStreamPush app [] true d = (.ok, d') → Move app cmd (.rest, d) (.ready, d')
  | finalFailed {d d' : Dev} {r : StreamResult} : odXferOwnsHardware d = true →
      d.xfer.compressed = true → odXferStreamPush app [] true d = (r, d') → r ≠ .ok →
      Move app cmd (.rest, d) (.broken, d')
  | stamp {d : Dev} : odXferOwnsHardware d = true →
      Move app cmd (.ready, d) (.ready, markFinalized app d)
  | barrier {d : Dev} : (partialMode d.xfer.mode = true → d.displayedEtag = 0) →
      Move app cmd (.ready, d) (.rest, Dev.log (.barrierAbort d.xfer.owner) (odXferClearState d))
  | refreshed {d : Dev} (refreshMode : UInt8) (completed : Bool) :
      Move app cmd (.ready, d) (.ended, odXferClearState (settleEtag cmd completed
        (d.log (.refresh refreshMode d.xfer d.pipe.queuedCount true completed))))
  | unshown {d : Dev} (refreshMode : UInt8) (completed : Bool) :
      Move app cmd (.ready, d)
        (.refused, d.log (.refresh refreshMode d.xfer d.pipe.queuedCount false completed))
  | dropped {d : Dev} (reason : AbortReason) (clear : Bool) : dropsEtag cmd d clear →
      Move app cmd (.refused, d) (.ended, odXferAbortActive reason clear d)

abbrev Moves (app : App) (cmd : Cmd) := Relation.ReflTransGen (Move app cmd)

theorem Moves.rule {app : App} {cmd : Cmd} {I : Phase × Dev → Prop}
    (hstep : ∀ {s t}, Move app cmd s t → I s → I t) {s t : Phase × Dev} (hm : Moves app cmd s t)
    (h : I s) : I t := by
  induction hm with
  | refl => exact h
  | tail _ hm ih => exact hstep hm ih

section Effects

theorem odXferAbortActive_events (reason : AbortReason) (clear : Bool) (d : Dev) :
    (odXferAbortActive reason clear d).events =
      d.events ++ ((if odXferOwnsHardware d then [.abort reason] else []) ++
        if clear then [.setDisplayedEtag 0] else []) := by
  unfold odXferAbortActive
  dsimp only
  split_ifs <;> simp [odXferClearState, odPipeResetState, odXferAppAbort,
    odXferAppSetDisplayedEtag, Dev.log]

theorem odXferAbortActive_etag (reason : AbortReason) (clear : Bool) (d : Dev) :
    (odXferAbortActive reason clear d).displayedEtag = if clear then 0 else d.displayedEtag := by
  unfold odXferAbortActive
  dsimp only
  split_ifs <;> rfl

theorem odXferReplaceActive_eq (d : Dev) :
    odXferReplaceActive d = if odXferActive d then odXferAbortActive .replaced false d else d := rfl

theorem odXferPipeEnterFatal_eq {d : Dev} (hm : pipeMode d.xfer.mode = true) :
    odXferPipeEnterFatal d =
      { d with
        xfer := { d.xfer with mode := .fatal }
        displayedEtag := if d.xfer.mode = .pipePartial then 0 else d.displayedEtag
        events := d.events ++ (.abort .streamFailed ::
          if d.xfer.mode = .pipePartial then [.setDisplayedEtag 0] else []) } := by
  simp only [pipeMode, decide_eq_true_eq] at hm
  rcases hm with hm | hm <;>
    simp [odXferPipeEnterFatal, odXferOwnsHardware, odXferAppAbort, odXferAppSetDisplayedEtag,
      Dev.log, hm]

theorem settleEtag_events (cmd : Cmd) (completed : Bool) (d : Dev) :
    (settleEtag cmd completed d).events = d.events ∨
      ∃ etag, (settleEtag cmd completed d).events = d.events ++ [.setDisplayedEtag etag] := by
  unfold settleEtag pipeEtag finishEtag
  split_ifs <;> first | exact .inl rfl | exact .inr ⟨_, rfl⟩

end Effects

end OpenDisplay
