import OpenDisplay.Xfer.Core

/-! Direct full-image transfers: START, DATA and END. -/

namespace OpenDisplay

variable (app : App) (ctx : Ctx)

def directRefuse (opcode : UInt8) (d : Dev) : CmdResult × Dev :=
  (.nack, odXferReplySimpleError ctx opcode d)

def directFail (cause : TerminalCause) (reason : AbortReason) (opcode : UInt8) (d : Dev) :
    CmdResult × Dev :=
  directRefuse ctx opcode (odXferFailActive cause reason false d)

/-- The last step of a START or a DATA: acknowledge, or give the transfer up. -/
def ackOrFail (ack : Bytes) (clearEtag : Bool) (d : Dev) : CmdResult × Dev :=
  match odXferReplyApp app ctx ack d with
  | (.ok, d) => (.ok, d)
  | (_, d) => (.nack, odXferFailActive .replyDelivery .replyFailed clearEtag d)

def directAdmit (geometry : Geometry) (compressed : Bool) (d : Dev) : Dev :=
  let d := odXferClearState d
  Dev.log (.admitted .directFull compressed geometry.totalBytes) { d with
    xfer := { d.xfer with
      mode := .directFull, owner := ctx.rp, startedMs := app.nowMs d.events
      expectedBytes := geometry.totalBytes, compressed := compressed, geometry := geometry } }

/-- The compressed bytes that ride on a START. -/
def directInline (input : Bytes) (d : Dev) : StreamResult × Dev :=
  if input = [] then (.ok, d)
  else
    odXferStreamPush app input false (Dev.log (.stream input)
      { d with xfer := { d.xfer with receivedBytes := UInt32.ofNat input.length } })

def directBegin (geometry : Geometry) (compressed : Bool) (body : Bytes) (d : Dev) :
    CmdResult × Dev :=
  let d := directAdmit app ctx geometry compressed d
  let ok := app.beginFull d.events geometry
  let d := d.log (.beginFull ok)
  if ok = false then directFail ctx .panelPreparation .startFailed respDirectWriteStartAck d
  else if compressed then
    match directInline app (body.drop 4) (odXferStreamReset geometry.totalBytes d) with
    | (.ok, d) => ackOrFail app ctx [respAck, respDirectWriteStartAck] false d
    | (r, d) => directFail ctx (odXferStreamCause r) .startFailed respDirectWriteStartAck d
  else ackOrFail app ctx [respAck, respDirectWriteStartAck] false d

def odXferDirectStart (body : Bytes) (d : Dev) : CmdResult × Dev :=
  if uint32Max < body.length then directRefuse ctx respDirectWriteStartAck d
  else
    let d := Dev.log .prepareStart (odXferReplaceActive d)
    match app.panelInfo d.events with
    | none => directRefuse ctx respDirectWriteStartAck d
    | some panel =>
      let compressed := decide (4 ≤ body.length)
      if panel.geometry.totalBytes = 0 then directRefuse ctx respDirectWriteStartAck d
      else if panel.geometry.layout = .splitHalves then
        directRefuse ctx respDirectWriteStartAck d
      else if compressed ∧ readLe32 body ≠ panel.geometry.totalBytes then
        directRefuse ctx respDirectWriteStartAck d
      else directBegin app ctx panel.geometry compressed body d

def finishEtag (completed hasEtag : Bool) (newEtag : UInt32) (d : Dev) : Dev :=
  if completed then odXferAppSetDisplayedEtag (if hasEtag ∧ newEtag ≠ 0 then newEtag else 0) d
  else if hasEtag then odXferAppSetDisplayedEtag 0 d
  else d

def barrierRelease (cause : TerminalCause) (d : Dev) : CmdResult × Dev :=
  let owner := d.xfer.owner
  (.nack, Dev.log (.barrierAbort owner) (odXferClearState (odXferTerminalFailure cause d)))

def odXferAppBeforeRefresh (owner : Reply) (d : Dev) : Bool × Dev :=
  let proceed := app.beforeRefresh d.events owner
  (proceed, d.log (.beforeRefresh owner proceed))

def odXferAppRefresh (refreshMode : UInt8) (d : Dev) : Bool × Bool × Dev :=
  let (ok, completed) := app.refresh d.events refreshMode
  (ok, completed, d.log (.refresh refreshMode d.xfer d.pipe.queuedCount ok completed))

def markFinalized (d : Dev) : Dev :=
  { d with xfer := { d.xfer with finalizedMs := app.nowMs d.events, finalized := true } }

/-- The reply that follows a refresh, when the transfer is already over. -/
def refreshReply (completed : Bool) (d : Dev) : CmdResult × Dev :=
  let frame := [respAck, if completed then respDirectWriteRefreshSuccess
    else respDirectWriteRefreshTimeout]
  match odXferReplyApp app ctx frame d with
  | (.ok, d) => (.ok, if completed then d else odXferTerminalFailure .refreshIncomplete d)
  | (_, d) => (.nack, odXferTerminalFailure .replyDelivery d)

def finishRefresh (body : Bytes) (d : Dev) : CmdResult × Dev :=
  let d := markFinalized app d
  let hasEtag := decide (5 ≤ body.length)
  let newEtag := if hasEtag then readBe32 (body.drop 1) else 0
  let refreshMode := if 0 < body.length ∧ byteAt body 0 = refreshFast then refreshFast
    else refreshFull
  match odXferReplyApp app ctx [respAck, respDirectWriteEndAck] d with
  | (.ok, d) =>
    match odXferAppBeforeRefresh app d.xfer.owner d with
    | (false, d) => barrierRelease .barrierAborted d
    | (true, d) =>
      match odXferAppRefresh app refreshMode d with
      | (false, _, d) =>
        directFail ctx .refreshFailed .refreshFailed respDirectWriteEndAck d
      | (true, completed, d) =>
        refreshReply app ctx completed (odXferClearState (finishEtag completed hasEtag newEtag d))
  | (_, d) => barrierRelease .replyDelivery d

def odXferDirectEndImpl (body : Bytes) (d : Dev) : CmdResult × Dev :=
  if odXferOwnerMatches ctx d = false then (.ok, d)
  else if d.xfer.compressed then
    match odXferStreamPush app [] true d with
    | (.ok, d) => finishRefresh app ctx body d
    | (r, d) => directFail ctx (odXferStreamCause r) .streamFailed respDirectWriteEndAck d
  else if d.xfer.geometry.layout = .controllerPlanes ∧
      d.xfer.writtenBytes ≠ d.xfer.expectedBytes then
    directFail ctx .incomplete .incomplete respDirectWriteEndAck d
  else finishRefresh app ctx body d

/-- The raw bytes of a DATA frame, clipped to what the image still lacks. -/
def directRaw (body : Bytes) (d : Dev) : Bool × Dev :=
  let remaining := if d.xfer.writtenBytes < d.xfer.expectedBytes
    then d.xfer.expectedBytes - d.xfer.writtenBytes else 0
  let offered := min body.length remaining.toNat
  if 0 < offered then writeAll app (body.take offered) d else (true, d)

def odXferDirectDataImpl (body : Bytes) (d : Dev) : CmdResult × Dev :=
  if odXferOwnerMatches ctx d = false then (.ok, d)
  else if body.length = 0 then (.ok, d)
  else if uint32Max < body.length then
    directFail ctx .sizeExceeded .streamFailed respDirectWriteDataAck d
  else if uint32Max - d.xfer.receivedBytes.toNat < body.length then
    directFail ctx .sizeExceeded .streamFailed respDirectWriteDataAck d
  else
    let d := Dev.log (.stream body) { d with
      xfer := { d.xfer with receivedBytes := d.xfer.receivedBytes + UInt32.ofNat body.length } }
    if d.xfer.compressed then
      match odXferStreamPush app body false d with
      | (.ok, d) => ackOrFail app ctx [respAck, respDirectWriteDataAck] false d
      | (r, d) => directFail ctx (odXferStreamCause r) .streamFailed respDirectWriteDataAck d
    else
      match directRaw app body d with
      | (false, d) => directFail ctx .panelWrite .streamFailed respDirectWriteDataAck d
      | (true, d) =>
        if app.directAutoEnd ∧ d.xfer.expectedBytes ≤ d.xfer.writtenBytes then
          odXferDirectEndImpl app ctx [] d
        else ackOrFail app ctx [respAck, respDirectWriteDataAck] false d

end OpenDisplay
