import OpenDisplay.Inflate.Pump
import OpenDisplay.Wire

/-! The state that the transfer and PIPE code share, the hooks through which it
drives the target, and the log of what it has asked of them. A hook may answer
anything: its answer is a function of everything that has happened. -/

namespace OpenDisplay

inductive Mode where
  | idle | directFull | directPartial | pipeFull | pipePartial | fatal
deriving DecidableEq

structure PartialState where
  newEtag : UInt32 := 0
  planeBytes : UInt32 := 0
  x : UInt16 := 0
  y : UInt16 := 0
  width : UInt16 := 0
  height : UInt16 := 0
deriving DecidableEq

structure XferState where
  mode : Mode := .idle
  owner : Reply := {}
  startedMs : UInt32 := 0
  finalizedMs : UInt32 := 0
  expectedBytes : UInt32 := 0
  receivedBytes : UInt32 := 0
  writtenBytes : UInt32 := 0
  compressed : Bool := false
  finalized : Bool := false
  geometry : Geometry := {}
  region : PartialState := {}
deriving DecidableEq

structure PipeState where
  isOpen : Bool := false
  isPartial : Bool := false
  gapOpen : Bool := false
  window : UInt8 := 0
  ackEvery : UInt8 := 0
  frameEff : UInt16 := 0
  expectedSeq : UInt8 := 0
  hasReceived : Bool := false
  highestSeen : UInt8 := 0
  receivedCount : UInt32 := 0
  framesSinceAck : UInt8 := 0
  oooAcksSinceGap : UInt8 := 0
  queuedCount : UInt16 := 0
deriving DecidableEq

/-- A reorder slot. Its `len` is the length of `data`. -/
structure Slot where
  occupied : Bool := false
  seq : UInt8 := 0
  data : Bytes := []
deriving DecidableEq

inductive AbortReason where
  | replaced | startFailed | streamFailed | incomplete | pipeIncomplete | replyFailed
  | refreshFailed | reset
deriving DecidableEq

inductive StartCause where
  | ok | malformed | unsupportedFlags | etagMismatch | partialUnsupported | rectBounds
  | rectAlignment | panelGeometry | splitLayout | zeroSize | sizeMismatch
deriving DecidableEq

inductive StreamResult where
  | ok | invalid | inflateFailed | writeFailed | sizeExceeded
deriving DecidableEq

inductive TerminalCause where
  | panelPreparation | malformedStream | sizeExceeded | invalidBuffer | panelWrite | incomplete
  | replyDelivery | barrierAborted | refreshFailed | refreshIncomplete | timeout | frameSize
  | reorderFull | sequenceWindow
deriving DecidableEq

/-- What the code asks of the target, in order, with the answers it got. The
events `admitted`, `stream`, `pump`, `taken` and `held` are not calls: they mark
a transfer's admission, the bytes it is given, the pump's verdicts, and the
chunks that PIPE takes in order or holds `fwd` places ahead. -/
inductive Event where
  | prepareStart
  | admitted (mode : Mode) (compressed : Bool) (expected : UInt32)
  | beginFull (ok : Bool)
  | beginPartial (ok : Bool)
  | stream (data : Bytes)
  | pump (status : PumpStatus)
  | write (offset : UInt32) (data : Bytes) (consumed : UInt32)
  | taken
  | held (fwd : Nat)
  | abort (reason : AbortReason)
  | beforeRefresh (owner : Reply) (proceed : Bool)
  | barrierAbort (owner : Reply)
  | refresh (refreshMode : UInt8) (xfer : XferState) (queued : UInt16) (ok completed : Bool)
  | setDisplayedEtag (etag : UInt32)
  | reply (rp : Reply) (frame : Bytes) (status : TxqStatus)
  | replyPlain (rp : Reply) (frame : Bytes)
  | terminal (cause : TerminalCause)
deriving DecidableEq

structure App where
  panelInfo : List Event → Option PanelInfo
  beginFull : List Event → Geometry → Bool
  beginPartial : List Event → PartialState → Bool
  write : List Event → UInt32 → Bytes → UInt32
  inflateScratch : List Event → Nat
  beforeRefresh : List Event → Reply → Bool
  refresh : List Event → UInt8 → Bool × Bool
  nowMs : List Event → UInt32
  reply : List Event → Reply → Bytes → TxqStatus
  /-- The build option `OD_XFER_DIRECT_AUTO_END`. -/
  directAutoEnd : Bool

structure Dev where
  xfer : XferState := {}
  pipe : PipeState := {}
  reorder : Fin odPipeReorderSlots → Slot := fun _ => {}
  pump : Pump := { engine := {} }
  sinkFailed : Bool := false
  displayedEtag : UInt32 := 0
  events : List Event := []

def Dev.log (e : Event) (d : Dev) : Dev := { d with events := d.events ++ [e] }

end OpenDisplay
