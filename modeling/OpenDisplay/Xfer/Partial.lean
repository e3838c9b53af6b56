import OpenDisplay.Xfer.Direct

/-! Direct partial-image transfers: START, DATA and END. -/

namespace OpenDisplay

variable (app : App) (ctx : Ctx)

def partialFail (opcode error : UInt8) (d : Dev) : CmdResult × Dev :=
  (.nack, odXferReplyPartialError ctx opcode error (odXferAppSetDisplayedEtag 0 d))

def partialTerminalFail (opcode : UInt8) (cause : TerminalCause) (reason : AbortReason) (d : Dev) :
    CmdResult × Dev :=
  (.nack, odXferReplyPartialError ctx opcode errPartialStream
    (odXferFailActive cause reason false (odXferAppSetDisplayedEtag 0 d)))

/-- The one-bit plane of a rectangle, when its size fits. -/
def rectPlaneBytes (width height : UInt16) : Option UInt32 :=
  match odColorDirectGeometry colorSchemeMono width.toUInt32 height.toUInt32 with
  | .error _ => none
  | .ok rect =>
    if rect.partBytes.1 = 0 ∨ uint32Max / 2 < rect.partBytes.1.toNat then none
    else some rect.partBytes.1

def rectOutOfBounds (x y width height : UInt16) (panel : PanelInfo) : Bool :=
  width = 0 ∨ height = 0 ∨ panel.width.toNat < x.toNat + width.toNat ∨
    panel.height.toNat < y.toNat + height.toNat

def rectMisaligned (x width : UInt16) : Bool := x &&& 7 ≠ 0 ∨ width &&& 7 ≠ 0

/-- The raw bytes that ride on a START. -/
def partialInlineRaw (input : Bytes) (d : Dev) : Option TerminalCause × Dev :=
  if d.xfer.expectedBytes.toNat < input.length then (some .sizeExceeded, d)
  else
    let (consumed, d) := odXferAppWrite app 0 input d
    if consumed.toNat ≠ input.length then (some .panelWrite, d)
    else (none, { d with xfer := { d.xfer with writtenBytes := consumed } })

def partialInline (input : Bytes) (d : Dev) : Option TerminalCause × Dev :=
  if input = [] then (none, d)
  else
    let d := Dev.log (.stream input)
      { d with xfer := { d.xfer with receivedBytes := UInt32.ofNat input.length } }
    if d.xfer.compressed then
      match odXferStreamPush app input false d with
      | (.ok, d) => (none, d)
      | (r, d) => (some (odXferStreamCause r), d)
    else partialInlineRaw app input d

def partialAdmit (geometry : Geometry) (compressed : Bool) (region : PartialState) (d : Dev) :
    Dev :=
  let d := odXferClearState d
  Dev.log (.admitted .directPartial compressed (region.planeBytes * 2)) { d with
    xfer := { d.xfer with
      mode := .directPartial, owner := ctx.rp, startedMs := app.nowMs d.events
      expectedBytes := region.planeBytes * 2, compressed := compressed, geometry := geometry
      region := region } }

def partialBegin (geometry : Geometry) (compressed : Bool) (region : PartialState)
    (body : Bytes) (d : Dev) : CmdResult × Dev :=
  let d := partialAdmit app ctx geometry compressed region d
  let ok := app.beginPartial d.events region
  let d := d.log (.beginPartial ok)
  if ok = false then
    partialTerminalFail ctx respPartialWriteStart .panelPreparation .startFailed d
  else
    let d := if compressed then odXferStreamReset (region.planeBytes * 2) d else d
    match partialInline app (body.drop 17) d with
    | (some cause, d) => partialTerminalFail ctx respPartialWriteStart cause .startFailed d
    | (none, d) => ackOrFail app ctx [respAck, respPartialWriteStart] true d

def odXferPartialStart (body : Bytes) (d : Dev) : CmdResult × Dev :=
  if uint32Max < body.length then partialFail ctx respPartialWriteStart errPartialStream d
  else
    let d := Dev.log .prepareStart (odXferReplaceActive d)
    if body.length < 17 then partialFail ctx respPartialWriteStart errPartialStream d
    else
      let flags := byteAt body 0
      let oldEtag := readBe32 (body.drop 1)
      let newEtag := readBe32 (body.drop 5)
      let x := readBe16 (body.drop 9)
      let y := readBe16 (body.drop 11)
      let width := readBe16 (body.drop 13)
      let height := readBe16 (body.drop 15)
      if flags &&& ~~~1 ≠ 0 then partialFail ctx respPartialWriteStart errPartialFlags d
      else if oldEtag = 0 ∨ oldEtag ≠ d.displayedEtag ∨ newEtag = 0 then
        partialFail ctx respPartialWriteStart errPartialEtagMismatch d
      else
        match app.panelInfo d.events with
        | none => partialFail ctx respPartialWriteStart errPartialUnsupported d
        | some panel =>
          if panel.partialEnabled = false ∨ panel.geometry.partialSupported = false then
            partialFail ctx respPartialWriteStart errPartialUnsupported d
          else if rectOutOfBounds x y width height panel then
            partialFail ctx respPartialWriteStart errPartialRectOob d
          else if rectMisaligned x width then
            partialFail ctx respPartialWriteStart errPartialRectAlign d
          else
            match rectPlaneBytes width height with
            | none => partialFail ctx respPartialWriteStart errPartialStream d
            | some planeBytes =>
              partialBegin app ctx panel.geometry (decide (flags &&& 1 ≠ 0))
                { newEtag := newEtag, planeBytes := planeBytes, x := x, y := y, width := width
                  height := height } body d

/-- The raw bytes of a DATA frame, which must fit what the image still lacks. -/
def partialRaw (body : Bytes) (d : Dev) : Option TerminalCause × Dev :=
  if d.xfer.expectedBytes < d.xfer.writtenBytes ∨
      (d.xfer.expectedBytes - d.xfer.writtenBytes).toNat < body.length then
    (some .sizeExceeded, d)
  else
    match writeAll app body d with
    | (false, d) => (some .panelWrite, d)
    | (true, d) => (none, d)

def odXferPartialDataImpl (body : Bytes) (d : Dev) : CmdResult × Dev :=
  if odXferOwnerMatches ctx d = false then (.ok, d)
  else if body.length = 0 then (.ok, d)
  else if uint32Max < body.length then
    partialTerminalFail ctx respDirectWriteDataAck .sizeExceeded .streamFailed d
  else if uint32Max - d.xfer.receivedBytes.toNat < body.length then
    partialTerminalFail ctx respDirectWriteDataAck .sizeExceeded .streamFailed d
  else
    let d := Dev.log (.stream body) { d with
      xfer := { d.xfer with receivedBytes := d.xfer.receivedBytes + UInt32.ofNat body.length } }
    if d.xfer.compressed then
      match odXferStreamPush app body false d with
      | (.ok, d) => ackOrFail app ctx [respAck, respDirectWriteDataAck] true d
      | (r, d) => partialTerminalFail ctx respDirectWriteDataAck (odXferStreamCause r) .streamFailed d
    else
      match partialRaw app body d with
      | (some cause, d) => partialTerminalFail ctx respDirectWriteDataAck cause .streamFailed d
      | (none, d) => ackOrFail app ctx [respAck, respDirectWriteDataAck] true d

def partialRefreshMode (body : Bytes) : UInt8 :=
  if body.length = 1 ∧ byteAt body 0 = refreshFull then refreshFull
  else if body.length = 1 ∧ byteAt body 0 = refreshFast then refreshFast
  else refreshPartial

def partialFinish (body : Bytes) (d : Dev) : CmdResult × Dev :=
  let d := markFinalized app d
  match odXferReplyApp app ctx [respAck, respDirectWriteEndAck] d with
  | (.ok, d) =>
    match odXferAppBeforeRefresh app d.xfer.owner d with
    | (false, d) => barrierRelease .barrierAborted (odXferAppSetDisplayedEtag 0 d)
    | (true, d) =>
      match odXferAppRefresh app (partialRefreshMode body) d with
      | (false, _, d) =>
        partialTerminalFail ctx respDirectWriteEndAck .refreshFailed .refreshFailed d
      | (true, completed, d) =>
        let d := odXferAppSetDisplayedEtag (if completed then d.xfer.region.newEtag else 0) d
        refreshReply app ctx completed (odXferClearState d)
  | (_, d) => barrierRelease .replyDelivery (odXferAppSetDisplayedEtag 0 d)

def odXferPartialEndImpl (body : Bytes) (d : Dev) : CmdResult × Dev :=
  if odXferOwnerMatches ctx d = false then (.ok, d)
  else if 1 < body.length then
    partialTerminalFail ctx respDirectWriteEndAck .sizeExceeded .streamFailed d
  else if d.xfer.compressed then
    if d.xfer.receivedBytes = 0 then
      partialTerminalFail ctx respDirectWriteEndAck (odXferStreamCause .inflateFailed)
        .streamFailed d
    else
      match odXferStreamPush app [] true d with
      | (.ok, d) => partialFinish app ctx body d
      | (r, d) => partialTerminalFail ctx respDirectWriteEndAck (odXferStreamCause r) .streamFailed d
  else if d.xfer.writtenBytes ≠ d.xfer.expectedBytes then
    partialTerminalFail ctx respDirectWriteEndAck .incomplete .incomplete d
  else partialFinish app ctx body d

end OpenDisplay
