import OpenDisplay.Xfer.State

/-! The transfer machine's common part: ownership, replacement and abort, the
streaming sink between the pump and the panel, and replies. -/

namespace OpenDisplay

def odXferActive (d : Dev) : Bool := d.xfer.mode ≠ .idle

def odXferOwnsHardware (d : Dev) : Bool := d.xfer.mode ≠ .idle ∧ d.xfer.mode ≠ .fatal

def odXferOwnerMatches (ctx : Ctx) (d : Dev) : Bool := odReplySame ctx.rp d.xfer.owner

def odPipeResetState (d : Dev) : Dev := { d with pipe := {}, reorder := fun _ => {} }

def odXferClearState (d : Dev) : Dev := odPipeResetState { d with xfer := {} }

def odXferAppAbort (reason : AbortReason) (d : Dev) : Dev := d.log (.abort reason)

def odXferAppSetDisplayedEtag (etag : UInt32) (d : Dev) : Dev :=
  Dev.log (.setDisplayedEtag etag) { d with displayedEtag := etag }

def odXferTerminalFailure (cause : TerminalCause) (d : Dev) : Dev := d.log (.terminal cause)

def odXferAbortActive (reason : AbortReason) (clearEtag : Bool) (d : Dev) : Dev :=
  let d := if odXferOwnsHardware d then odXferAppAbort reason d else d
  let d := if clearEtag then odXferAppSetDisplayedEtag 0 d else d
  odXferClearState d

def odXferFailActive (cause : TerminalCause) (reason : AbortReason) (clearEtag : Bool) (d : Dev) :
    Dev :=
  odXferAbortActive reason clearEtag (odXferTerminalFailure cause d)

def odXferReplaceActive (d : Dev) : Dev :=
  if odXferActive d then
    let d := if odXferOwnsHardware d then odXferAppAbort .replaced d else d
    odXferClearState d
  else d

def odXferReset (d : Dev) : Dev := odXferAbortActive .reset false d

def odXferReportTimeout (nowMs limitMs : UInt32) (d : Dev) : Bool × Dev :=
  if ¬ odXferActive d ∨ limitMs = 0 ∨ nowMs - d.xfer.startedMs ≤ limitMs then (false, d)
  else (true, odXferTerminalFailure .timeout d)

def odXferStreamCause : StreamResult → TerminalCause
  | .inflateFailed => .malformedStream
  | .writeFailed => .panelWrite
  | .sizeExceeded => .sizeExceeded
  | .invalid => .invalidBuffer
  | .ok => .invalidBuffer

section Replies

variable (app : App)

def odXferReplyApp (ctx : Ctx) (frame : Bytes) (d : Dev) : TxqStatus × Dev :=
  let status := app.reply d.events ctx.rp frame
  (status, d.log (.reply ctx.rp frame status))

def odXferReplyError (ctx : Ctx) (frame : Bytes) (d : Dev) : Dev :=
  d.log (.replyPlain ctx.rp frame)

def odXferReplySimpleError (ctx : Ctx) (opcode : UInt8) (d : Dev) : Dev :=
  odXferReplyError ctx [respNack, opcode] d

def odXferReplyPartialError (ctx : Ctx) (opcode error : UInt8) (d : Dev) : Dev :=
  odXferReplyError ctx [respNack, opcode, error, 0] d

end Replies

section Stream

variable (app : App)

def odXferAppWrite (offset : UInt32) (data : Bytes) (d : Dev) : UInt32 × Dev :=
  let consumed := app.write d.events offset data
  (consumed, d.log (.write offset data consumed))

/-- A write that counts only when the panel takes all of it. -/
def writeAll (data : Bytes) (d : Dev) : Bool × Dev :=
  let (consumed, d) := odXferAppWrite app d.xfer.writtenBytes data d
  if consumed ≠ UInt32.ofNat data.length then (false, d)
  else (true, { d with xfer := { d.xfer with writtenBytes := d.xfer.writtenBytes + consumed } })

def streamSink (bytes : Bytes) (d : Dev) : Bool × Dev :=
  if bytes = [] ∨ uint32Max < bytes.length then (false, d)
  else if d.xfer.expectedBytes < d.xfer.writtenBytes ∨
      (d.xfer.expectedBytes - d.xfer.writtenBytes).toNat < bytes.length then (false, d)
  else
    match writeAll app bytes d with
    | (false, d) => (false, { d with sinkFailed := true })
    | (true, d) => (true, d)

def odXferStreamReset (expected : UInt32) (d : Dev) : Dev :=
  { d with pump := odZlibPumpReset expected }

def odXferStreamPush (input : Bytes) (final : Bool) (d : Dev) : StreamResult × Dev :=
  let scratch := app.inflateScratch d.events
  if scratch = 0 then (.invalid, d)
  else
    let d := { d with sinkFailed := false }
    let (status, pump, d) := odZlibPumpPush (streamSink app) input final scratch (d.pump, d)
    let d := Dev.log (.pump status) { d with pump := pump }
    if status = .error then (if d.sinkFailed then .writeFailed else .inflateFailed, d)
    else if final = false ∨ status = .done then (.ok, d)
    else (.inflateFailed, d)

end Stream

end OpenDisplay
