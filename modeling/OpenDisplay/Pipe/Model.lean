import Mathlib.Data.Fintype.Card
import Mathlib.Logic.Function.Basic
import OpenDisplay.Xfer.Frame
import OpenDisplay.Xfer.Partial

/-! PIPE transfers: a sliding window of sequence-numbered frames with a reorder
buffer and selective acknowledgements, over the common transfer machine. -/

namespace OpenDisplay

open Loops

def pipeSlot (seq : UInt8) : Fin odPipeReorderSlots :=
  ⟨seq.toNat % odPipeReorderSlots, Nat.mod_lt _ (by decide)⟩

def pipeMode (mode : Mode) : Bool := mode = .pipeFull ∨ mode = .pipePartial

section Sack

def pipeChunkReceived (seq : UInt8) (d : Dev) : Bool :=
  let below := d.pipe.expectedSeq - 1 - seq
  let accepted := min d.pipe.receivedCount.toNat pipeAckMaskBits
  let slot := d.reorder (pipeSlot seq)
  decide (below.toNat < accepted) || (slot.occupied && slot.seq == seq)

def pipeHighest (d : Dev) : UInt8 :=
  if d.pipe.hasReceived then d.pipe.highestSeen else d.pipe.expectedSeq - 1

def pipeMask (d : Dev) : UInt32 :=
  (List.range pipeAckMaskBits).foldl (fun mask i =>
    if pipeChunkReceived (pipeHighest d - 1 - UInt8.ofNat i) d then mask ||| (1 <<< UInt32.ofNat i)
    else mask) 0

def pipeBuildSack (d : Dev) : Bytes :=
  let mask := pipeMask d
  [pipeHighest d, (mask &&& 0xff).toUInt8, ((mask >>> 8) &&& 0xff).toUInt8,
    ((mask >>> 16) &&& 0xff).toUInt8, ((mask >>> 24) &&& 0xff).toUInt8]

def pipeUpdateHighest (seq : UInt8) (p : PipeState) : PipeState :=
  if p.hasReceived = false then { p with hasReceived := true, highestSeen := seq }
  else
    let fwd := seq - p.highestSeen
    if fwd ≠ 0 ∧ fwd.toNat ≤ pipeAckMaskBits then { p with highestSeen := seq } else p

end Sack

section Common

variable (app : App) (ctx : Ctx)

def odXferPipeEnterFatal (d : Dev) : Dev :=
  let wasPartial := decide (d.xfer.mode = .pipePartial)
  let d := if odXferOwnsHardware d then odXferAppAbort .streamFailed d else d
  let d := if wasPartial then odXferAppSetDisplayedEtag 0 d else d
  if d.xfer.mode ≠ .idle then { d with xfer := { d.xfer with mode := .fatal } } else d

def pipeSendSack (d : Dev) : TxqStatus × Dev :=
  let (status, d) := odXferReplyApp app ctx ([respAck, respPipeData] ++ pipeBuildSack d) d
  (status, { d with pipe := { d.pipe with framesSinceAck := 0, oooAcksSinceGap := 0 } })

def pipeSackOrFatal (d : Dev) : Bool × Dev :=
  match pipeSendSack app ctx d with
  | (.ok, d) => (true, d)
  | (_, d) => (false, odXferPipeEnterFatal (odXferTerminalFailure .replyDelivery d))

def pipeSendStartNack (error : UInt8) (d : Dev) : CmdResult × Dev :=
  (.nack, odXferReplyError ctx [respNack, respPipeStart, error, 0] d)

def pipeSendDataNack (error : UInt8) (cause : TerminalCause) (d : Dev) : CmdResult × Dev :=
  let d := odXferReplyError ctx ([respNack, respPipeData, error] ++ pipeBuildSack d) d
  (.nack, odXferPipeEnterFatal (odXferTerminalFailure cause d))

def pipeSendEndNack (d : Dev) : Dev := odXferReplyError ctx [respNack, respPipeEnd] d

def pipeRefuseOrigin (opcode error : UInt8) (d : Dev) : CmdResult × Dev :=
  (.nack, (odXferReplyApp app ctx [respNack, opcode, error, 0] d).2)

end Common

section Transfer

variable (app : App) (ctx : Ctx)

def pipeAdmit (mode : Mode) (total : UInt32) (compressed : Bool) (geometry : Geometry)
    (region : PartialState) (d : Dev) : Dev :=
  let d := Dev.log (.admitted mode compressed total) { d with
    xfer := { d.xfer with
      mode := mode, owner := ctx.rp, startedMs := app.nowMs d.events, expectedBytes := total
      compressed := compressed, geometry := geometry, region := region } }
  if compressed then odXferStreamReset total d else d

def odXferPipeArmFull (total : UInt32) (compressed : Bool) (d : Dev) : StartCause × Dev :=
  if d.xfer.mode ≠ .idle then (.malformed, d)
  else if total = 0 then (.zeroSize, d)
  else
    let d := d.log .prepareStart
    match app.panelInfo d.events with
    | none => (.panelGeometry, d)
    | some panel =>
      if panel.geometry.totalBytes = 0 then (.panelGeometry, d)
      else if panel.geometry.layout = .splitHalves then (.splitLayout, d)
      else if total ≠ panel.geometry.totalBytes then (.sizeMismatch, d)
      else (.ok, pipeAdmit app ctx .pipeFull total compressed panel.geometry d.xfer.region d)

def armRefuse (error : UInt8) (cause : StartCause) (d : Dev) : StartCause × UInt8 × Dev :=
  (cause, error, odXferAppSetDisplayedEtag 0 d)

def odXferPipeArmPartial (total : UInt32) (compressed : Bool) (oldEtag : UInt32)
    (x y width height : UInt16) (d : Dev) : StartCause × UInt8 × Dev :=
  if d.xfer.mode ≠ .idle then (.malformed, errPipeStartBadHeader, d)
  else if total = 0 then (.zeroSize, errPipeStartBadHeader, d)
  else
    let d := d.log .prepareStart
    match app.panelInfo d.events with
    | none => armRefuse errPipeStartBadHeader .panelGeometry d
    | some panel =>
      if panel.partialEnabled = false ∨ panel.geometry.partialSupported = false then
        armRefuse errPipeStartPartialUnsupported .partialUnsupported d
      else if oldEtag = 0 ∨ oldEtag ≠ d.displayedEtag then
        armRefuse errPipeStartEtagMismatch .etagMismatch d
      else if rectOutOfBounds x y width height panel then
        armRefuse errPipeStartRectInvalid .rectBounds d
      else if rectMisaligned x width then armRefuse errPipeStartRectInvalid .rectAlignment d
      else
        match rectPlaneBytes width height with
        | none => armRefuse errPipeStartRectInvalid .rectBounds d
        | some planeBytes =>
          if total ≠ planeBytes * 2 then armRefuse errPipeStartSizeMismatch .sizeMismatch d
          else
            (.ok, errPipeStartBadHeader,
              pipeAdmit app ctx .pipePartial total compressed panel.geometry
                { d.xfer.region with
                  planeBytes := planeBytes, x := x, y := y, width := width, height := height } d)

def odXferPipeActivate (d : Dev) : Dev :=
  let (ok, d) :=
    match d.xfer.mode with
    | .pipeFull =>
      let ok := app.beginFull d.events d.xfer.geometry
      (ok, d.log (.beginFull ok))
    | .pipePartial =>
      let ok := app.beginPartial d.events d.xfer.region
      (ok, d.log (.beginPartial ok))
    | _ => (false, d)
  if ok = false then odXferPipeEnterFatal (odXferTerminalFailure .panelPreparation d) else d

/-- The raw bytes of a chunk. A full image clips what follows its end; a partial
one refuses it. -/
def pipeConsumeRaw (payload : Bytes) (d : Dev) : StreamResult × Dev :=
  if d.xfer.expectedBytes < d.xfer.writtenBytes then (.sizeExceeded, d)
  else
    let remaining := (d.xfer.expectedBytes - d.xfer.writtenBytes).toNat
    if d.xfer.mode = .pipePartial ∧ remaining < payload.length then (.sizeExceeded, d)
    else
      let payload := payload.take (min payload.length remaining)
      if payload = [] then (.ok, d)
      else
        match writeAll app payload d with
        | (false, d) => (.writeFailed, d)
        | (true, d) => (.ok, d)

def odXferPipeConsume (payload : Bytes) (d : Dev) : StreamResult × Dev :=
  let d := d.log (.stream payload)
  if payload = [] ∨ uint32Max < payload.length ∨ pipeMode d.xfer.mode = false then (.invalid, d)
  else if uint32Max - d.xfer.receivedBytes.toNat < payload.length then (.sizeExceeded, d)
  else
    let d := { d with
      xfer := { d.xfer with receivedBytes := d.xfer.receivedBytes + UInt32.ofNat payload.length } }
    if d.xfer.compressed then odXferStreamPush app payload false d
    else pipeConsumeRaw app payload d

def odXferPipeFinalize (d : Dev) : StreamResult × Dev :=
  if pipeMode d.xfer.mode = false then (.invalid, d)
  else if d.xfer.compressed = false then (.ok, d)
  else if d.xfer.receivedBytes ≠ 0 then odXferStreamPush app [] true d
  else (.inflateFailed, d)

def odXferPipeComplete (d : Dev) : Bool :=
  pipeMode d.xfer.mode && d.xfer.writtenBytes = d.xfer.expectedBytes

def odXferPipeBeforeRefresh (d : Dev) : Bool × Dev :=
  if pipeMode d.xfer.mode = false then (false, d) else odXferAppBeforeRefresh app d.xfer.owner d

def odXferPipeBarrierAbort (d : Dev) : Dev :=
  let owner := d.xfer.owner
  let d := odXferTerminalFailure .barrierAborted d
  let d := if d.xfer.mode = .pipePartial then odXferAppSetDisplayedEtag 0 d else d
  Dev.log (.barrierAbort owner) (odXferClearState d)

def pipeEtag (isPartial completed hasNewEtag : Bool) (newEtag : UInt32) (d : Dev) : Dev :=
  if isPartial then
    odXferAppSetDisplayedEtag (if completed ∧ hasNewEtag ∧ newEtag ≠ 0 then newEtag else 0) d
  else finishEtag completed hasNewEtag newEtag d

def odXferPipeRefresh (refreshMode : UInt8) (hasNewEtag : Bool) (newEtag : UInt32) (d : Dev) :
    Bool × Bool × Dev :=
  let isPartial := decide (d.xfer.mode = .pipePartial)
  if pipeMode d.xfer.mode = false then (false, false, d)
  else
    match odXferAppRefresh app refreshMode d with
    | (false, completed, d) =>
      (false, completed,
        odXferFailActive .refreshFailed .refreshFailed (isPartial || hasNewEtag) d)
    | (true, completed, d) =>
      (true, completed, odXferClearState (pipeEtag isPartial completed hasNewEtag newEtag d))

end Transfer

section Start

variable (app : App) (ctx : Ctx)

def pipeNegotiate (isPartial : Bool) (requestedW requestedN : UInt8) (clientMaxFrame : UInt16)
    (p : PipeState) : PipeState :=
  let window := if odPipeMaxW < requestedW then odPipeMaxW else requestedW
  let window := if window = 0 then 1 else window
  let ackEvery := if odPipeMaxN < requestedN then odPipeMaxN else requestedN
  let ackEvery := if ackEvery = 0 then 1 else ackEvery
  let ackEvery := if window < ackEvery then window else ackEvery
  { p with
    isOpen := true, isPartial := isPartial, window := window, ackEvery := ackEvery
    frameEff := if clientMaxFrame < pipeMaxFrame then clientMaxFrame else pipeMaxFrame }

def pipeStartAck (isPartial : Bool) : Bytes :=
  [respAck, respPipeStart, pipeVersion, odPipeMaxW, odPipeMaxN, pipeMaxFrame.toUInt8,
    (pipeMaxFrame >>> 8).toUInt8, if isPartial then 0x01 ||| 0x02 else 0x01]

def pipeOpen (isPartial : Bool) (body : Bytes) (d : Dev) : CmdResult × Dev :=
  let d := { d with
    pipe := pipeNegotiate isPartial (byteAt body 2) (byteAt body 3) (readLe16 (body.drop 4)) d.pipe }
  match odXferReplyApp app ctx (pipeStartAck isPartial) d with
  | (.ok, d) => (.ok, odXferPipeActivate app d)
  | (_, d) => (.nack, odXferFailActive .replyDelivery .replyFailed isPartial d)

def pipeArm (isPartial compressed : Bool) (body : Bytes) (d : Dev) : CmdResult × Dev :=
  let total := readLe32 (body.drop 6)
  if isPartial then
    let ext := body.drop 10
    match odXferPipeArmPartial app ctx total compressed (readLe32 ext) (readLe16 (ext.drop 4))
        (readLe16 (ext.drop 6)) (readLe16 (ext.drop 8)) (readLe16 (ext.drop 10)) d with
    | (.ok, _, d) => pipeOpen app ctx isPartial body d
    | (_, error, d) => pipeSendStartNack ctx error d
  else
    match odXferPipeArmFull app ctx total compressed d with
    | (.ok, d) => pipeOpen app ctx isPartial body d
    | (_, d) => pipeSendStartNack ctx errPipeStartSizeMismatch d

def odPipeStart (body : Bytes) (d : Dev) : CmdResult × Dev :=
  if ctx.rp.origin ≠ .ble then pipeRefuseOrigin app ctx respPipeStart errPipeStartBadHeader d
  else
    let d := odXferReplaceActive d
    if body.length < 10 ∨ byteAt body 0 ≠ pipeVersion then
      pipeSendStartNack ctx errPipeStartBadHeader d
    else
      let flags := byteAt body 1
      if flags &&& ~~~(0x01 ||| 0x02) ≠ 0 then pipeSendStartNack ctx errPipeStartUnknownFlag d
      else
        let compressed := decide (flags &&& 0x01 ≠ 0)
        let isPartial := decide (flags &&& 0x02 ≠ 0)
        let minimumFrame := pipeFrameOverhead + 1 + if ctx.wasProtected then odSessionEnvelopeMin else 0
        if isPartial ∧ body.length < 10 + 12 then pipeSendStartNack ctx errPipeStartBadHeader d
        else if readLe16 (body.drop 4) < minimumFrame then
          pipeSendStartNack ctx errPipeStartBadHeader d
        else pipeArm app ctx isPartial compressed body d

end Start

section Data

variable (app : App) (ctx : Ctx)

/-- A chunk's payload goes to the transfer unless it is empty. -/
def pipeHand (payload : Bytes) (d : Dev) : StreamResult × Dev :=
  if payload = [] then (.ok, d) else odXferPipeConsume app payload d

theorem pipeConsumeRaw_streams (payload : Bytes) (d : Dev) :
    Streams d (pipeConsumeRaw app payload d).2 := by
  unfold pipeConsumeRaw
  dsimp only
  split_ifs
  · exact .refl d
  · exact .refl d
  · exact .refl d
  · have h := writeAll_streams app (payload.take (min payload.length
      (d.xfer.expectedBytes - d.xfer.writtenBytes).toNat)) d
    split
    · next u hu => rw [hu] at h; exact h
    · next u hu => rw [hu] at h; exact h

theorem odXferPipeConsume_streams (payload : Bytes) (d : Dev) :
    Streams (d.log (.stream payload)) (odXferPipeConsume app payload d).2 := by
  unfold odXferPipeConsume
  dsimp only
  split_ifs
  · exact .refl _
  · exact .refl _
  · exact (Streams.received _ _).trans (odXferStreamPush_streams app payload false _)
  · exact (Streams.received _ _).trans (pipeConsumeRaw_streams app payload _)

theorem pipeHand_frame (payload : Bytes) (d : Dev) :
    (pipeHand app payload d).2.pipe = d.pipe ∧ (pipeHand app payload d).2.reorder = d.reorder := by
  unfold pipeHand
  split_ifs
  · exact ⟨rfl, rfl⟩
  · have h := odXferPipeConsume_streams app payload d
    exact ⟨h.pipe, h.reorder⟩

def pipeTake (d : Dev) : Dev :=
  Dev.log .taken { d with
    pipe := { d.pipe with
      expectedSeq := d.pipe.expectedSeq + 1, receivedCount := d.pipe.receivedCount + 1 } }

/-- What the drain loop does with a slot whose payload has been handed over. -/
def pipeRelease (d : Dev) : Dev :=
  let i := pipeSlot d.pipe.expectedSeq
  let d := pipeTake { d with
    reorder := Function.update d.reorder i { d.reorder i with occupied := false } }
  { d with
    pipe := { d.pipe with
      queuedCount := if 0 < d.pipe.queuedCount then d.pipe.queuedCount - 1 else d.pipe.queuedCount
      framesSinceAck := if d.pipe.framesSinceAck < 255 then d.pipe.framesSinceAck + 1
        else d.pipe.framesSinceAck } }

def pipeDrainPass (d : Dev) : Iter Dev (StreamResult × Dev) :=
  let slot := d.reorder (pipeSlot d.pipe.expectedSeq)
  if slot.occupied ∧ slot.seq = d.pipe.expectedSeq then
    match pipeHand app slot.data d with
    | (.ok, d) => .next (pipeRelease d)
    | (r, d) => .stop (r, d)
  else .stop (.ok, d)

def occupiedCount (r : Fin odPipeReorderSlots → Slot) : Nat :=
  (Finset.univ.filter fun i => (r i).occupied = true).card

theorem occupiedCount_le (r : Fin odPipeReorderSlots → Slot) : occupiedCount r ≤ 33 :=
  (Finset.card_filter_le _ _).trans (Finset.card_fin _).le

theorem occupiedCount_clear {r : Fin odPipeReorderSlots → Slot} {i : Fin odPipeReorderSlots}
    (h : (r i).occupied = true) (s : Slot) (hs : s.occupied = false) :
    occupiedCount (Function.update r i s) + 1 = occupiedCount r := by
  have hf : (Finset.univ.filter fun j => (Function.update r i s j).occupied = true) =
      (Finset.univ.filter fun j => (r j).occupied = true).erase i := by
    ext j
    by_cases hj : j = i
    · subst hj; simp [hs]
    · simp [hj]
  unfold occupiedCount
  rw [hf, Finset.card_erase_add_one]
  simpa using h

theorem pipeDrainPass_dec (d d' : Dev) (h : pipeDrainPass app d = .next d') :
    occupiedCount d'.reorder < occupiedCount d.reorder := by
  unfold pipeDrainPass at h
  dsimp only at h
  split at h
  · next hc =>
    obtain ⟨hp, hr⟩ := pipeHand_frame app (d.reorder (pipeSlot d.pipe.expectedSeq)).data d
    split at h
    · next u hu =>
      obtain rfl := Iter.next.inj h
      simp only [hu] at hp hr
      rw [← hp, ← hr] at hc
      have hlt := occupiedCount_clear hc.1
        { u.reorder (pipeSlot u.pipe.expectedSeq) with occupied := false } rfl
      rw [← hr]
      exact Nat.lt_of_lt_of_eq (Nat.lt_succ_self _) hlt
    · cases h
  · cases h

def pipeDrain (d : Dev) : StreamResult × Dev :=
  loop (pipeDrainPass app) (fun d => occupiedCount d.reorder) (pipeDrainPass_dec app) d

def pipeCauseError (d : Dev) : UInt8 := if d.xfer.compressed then 0x02 else 0x03

end Data

section Finish

variable (app : App) (ctx : Ctx)

def pipeFinish (body : Bytes) (d : Dev) : CmdResult × Dev :=
  let d := markFinalized app d
  let hasEtag := decide (5 ≤ body.length)
  let newEtag := if hasEtag then readBe32 (body.drop 1) else 0
  let refreshMode :=
    if 0 < body.length ∧ byteAt body 0 = refreshFull then refreshFull
    else if 0 < body.length ∧ byteAt body 0 = refreshFast then refreshFast
    else if d.pipe.isPartial then refreshPartial else refreshFull
  match odXferReplyApp app ctx [respAck, respPipeEnd] d with
  | (.ok, d) =>
    match odXferPipeBeforeRefresh app d with
    | (false, d) => (.nack, odXferPipeBarrierAbort d)
    | (true, d) =>
      match odXferPipeRefresh app refreshMode hasEtag newEtag d with
      | (false, _, d) => (.nack, pipeSendEndNack ctx d)
      | (true, completed, d) => refreshReply app ctx completed d
  | (_, d) => (.nack, odXferFailActive .replyDelivery .replyFailed d.pipe.isPartial d)

/-- After the drain: close the gap, finish a complete raw image, keep the cadence. -/
def pipeAfterDrain (d : Dev) : CmdResult × Dev :=
  let d := if d.pipe.queuedCount = 0 then { d with pipe := { d.pipe with gapOpen := false } } else d
  if d.pipe.isPartial = false ∧ d.xfer.compressed = false ∧ odXferPipeComplete d then
    match pipeSackOrFatal app ctx d with
    | (false, d) => (.nack, d)
    | (true, d) => pipeFinish app ctx [] d
  else if d.pipe.ackEvery ≤ d.pipe.framesSinceAck then
    match pipeSackOrFatal app ctx d with
    | (false, d) => (.nack, d)
    | (true, d) => (.ok, d)
  else (.ok, d)

def pipeInOrder (seq : UInt8) (payload : Bytes) (d : Dev) : CmdResult × Dev :=
  match pipeHand app payload d with
  | (.ok, d) =>
    let d := pipeTake d
    let d := { d with
      pipe := pipeUpdateHighest seq { d.pipe with framesSinceAck := d.pipe.framesSinceAck + 1 } }
    match pipeDrain app d with
    | (.ok, d) => pipeAfterDrain app ctx d
    | (r, d) => pipeSendDataNack ctx (pipeCauseError d) (odXferStreamCause r) d
  | (r, d) => pipeSendDataNack ctx (pipeCauseError d) (odXferStreamCause r) d

/-- The acknowledgement that an out-of-order or repeated frame may call for. -/
def pipeGapAck (d : Dev) : CmdResult × Dev :=
  let d := { d with pipe := { d.pipe with oooAcksSinceGap := d.pipe.oooAcksSinceGap + 1 } }
  if d.pipe.ackEvery ≤ d.pipe.oooAcksSinceGap then
    match pipeSackOrFatal app ctx d with
    | (false, d) => (.nack, d)
    | (true, d) => (.ok, d)
  else (.ok, d)

def pipeFirstAck (d : Dev) : CmdResult × Dev :=
  match pipeSackOrFatal app ctx d with
  | (false, d) => (.nack, d)
  | (true, d) => (.ok, d)

def pipeStore (seq : UInt8) (payload : Bytes) (d : Dev) : Dev :=
  let i := pipeSlot seq
  let duplicate := (d.reorder i).occupied && (d.reorder i).seq == seq
  { d with
    reorder := Function.update d.reorder i { occupied := true, seq := seq, data := payload }
    pipe := { d.pipe with
      queuedCount := if duplicate then d.pipe.queuedCount else d.pipe.queuedCount + 1 } }

def pipeOutOfOrder (seq : UInt8) (payload : Bytes) (d : Dev) : CmdResult × Dev :=
  if odPipeReorderPayload < payload.length then pipeSendDataNack ctx 0x03 .frameSize d
  else
    let fwd := seq - d.pipe.expectedSeq
    let d := pipeStore seq payload d
    if odPipeReorderSlots ≤ d.pipe.queuedCount.toNat then
      pipeSendDataNack ctx 0x03 .reorderFull d
    else
      let d := Dev.log (.held fwd.toNat) { d with pipe := pipeUpdateHighest seq d.pipe }
      if d.pipe.gapOpen = false then
        pipeFirstAck app ctx { d with pipe := { d.pipe with gapOpen := true } }
      else pipeGapAck app ctx d

def pipeFrameFits (payload : Bytes) (d : Dev) : Bool :=
  let protection : UInt16 := if ctx.wasProtected then odSessionEnvelopeMin else 0
  let limit := d.pipe.frameEff - pipeFrameOverhead - protection
  ¬ (ctx.wireLen < pipeFrameOverhead ∨ d.pipe.frameEff < ctx.wireLen ∨
    d.pipe.frameEff < pipeFrameOverhead + protection ∨
    limit.toNat < payload.length ∨ odPipeReorderPayload < payload.length)

def pipeFrame (seq : UInt8) (payload : Bytes) (d : Dev) : CmdResult × Dev :=
  let fwd := seq - d.pipe.expectedSeq
  let back := d.pipe.expectedSeq - seq
  if fwd = 0 then pipeInOrder app ctx seq payload d
  else if fwd < d.pipe.window then pipeOutOfOrder app ctx seq payload d
  else if back ≤ d.pipe.window then
    if d.pipe.gapOpen = false then pipeFirstAck app ctx d else pipeGapAck app ctx d
  else pipeSendDataNack ctx 0x04 .sequenceWindow d

def odPipeData (body : Bytes) (d : Dev) : CmdResult × Dev :=
  if ctx.rp.origin ≠ .ble then pipeRefuseOrigin app ctx respPipeData 0 d
  else if d.pipe.isOpen = false ∨ d.xfer.mode = .fatal ∨ body.length < 1 ∨
      pipeMode d.xfer.mode = false then (.nack, d)
  else if odXferOwnerMatches ctx d = false then (.nack, d)
  else if pipeFrameFits ctx (body.drop 1) d = false then pipeSendDataNack ctx 0x03 .frameSize d
  else pipeFrame app ctx (byteAt body 0) (body.drop 1) d

def pipeIncomplete (d : Dev) : CmdResult × Dev :=
  let d := pipeSendEndNack ctx d
  (.nack, odXferAbortActive .pipeIncomplete d.pipe.isPartial d)

def odPipeEnd (body : Bytes) (d : Dev) : CmdResult × Dev :=
  if ctx.rp.origin ≠ .ble then pipeRefuseOrigin app ctx respPipeEnd 0 d
  else if d.pipe.isOpen = false then (.nack, pipeSendEndNack ctx d)
  else if odXferOwnerMatches ctx d = false then (.nack, d)
  else if d.xfer.mode = .fatal then pipeIncomplete ctx d
  else
    match pipeSackOrFatal app ctx d with
    | (false, d) => (.nack, d)
    | (true, d) =>
      let (r, d) := if d.pipe.queuedCount = 0 then odXferPipeFinalize app d else (.ok, d)
      if d.pipe.queuedCount ≠ 0 ∨ r ≠ .ok ∨ odXferPipeComplete d = false then
        let cause := if r ≠ .ok then odXferStreamCause r else .incomplete
        pipeIncomplete ctx (odXferTerminalFailure cause d)
      else pipeFinish app ctx body d

end Finish

end OpenDisplay
