import OpenDisplay.Dispatch.Desk

/-! The NFC endpoint: reading the tag, writing it in one frame, and assembling a record
from several. -/

namespace OpenDisplay

def respNfcEndpoint : UInt8 := 0x83
def odNfcReadMax : Nat := odSessionPayloadMax - 4
def odNfcAssemblyMax : Nat := 512

def nfcSubRead : UInt8 := 0x00
def nfcSubWrite : UInt8 := 0x01
def nfcSubWriteStart : UInt8 := 0x10
def nfcSubWriteData : UInt8 := 0x11
def nfcSubWriteEnd : UInt8 := 0x12

def nfcStatusReadData : UInt8 := 0x80
def nfcStatusWriteCommitted : UInt8 := 0x81
def nfcStatusChunkAccepted : UInt8 := 0x82

def nfcErrMalformed : UInt8 := 0x01
def nfcErrReadFailed : UInt8 := 0x02
def nfcErrTagWriteFailed : UInt8 := 0x03
def nfcErrUnknownSubcmd : UInt8 := 0x04
def nfcErrInvalidRecType : UInt8 := 0x05
def nfcErrBadTotalLen : UInt8 := 0x06
def nfcErrChunkNoStart : UInt8 := 0x07
def nfcErrChunkOverflow : UInt8 := 0x08
def nfcErrEndLenMismatch : UInt8 := 0x09

example : odNfcReadMax = 218 := rfl

/-- The record that is being assembled; `data` has the bytes received so far. -/
structure Nfc where
  owner : Reply := {}
  totalLen : UInt16 := 0
  receivedLen : UInt16 := 0
  recType : UInt8 := 0
  active : Bool := false
  data : Bytes := []
deriving DecidableEq

/-- The tag during one call, what the target does meanwhile, and the surroundings of
the reply. -/
structure NfcApp where
  read : Option (UInt8 × Bytes)
  write : UInt8 → Bytes → Bool
  hooks : List HookAct
  env : ReplyEnv

def odNfcReset (_ : Nfc) : Nfc := {}

/-- The record types are numbered from 0 to 4. -/
def recTypeValid (t : UInt8) : Bool := t = 0 ∨ t = 1 ∨ t = 2 ∨ t = 3 ∨ t = 4

section Handlers

variable {slots : Nat} [NeZero slots] (app : NfcApp) (ctx : Ctx)

def nfcNack (err : UInt8) (n : Nfc) (k : Desk slots) : CmdResult × Nfc × Desk slots :=
  (.nack, n, (k.replyPlain ctx.rp [respNack, respNfcEndpoint, 0xff, err] app.env).2)

/-- A reply to what is done: it cannot be undone if the reply is not queued. -/
def nfcAckCommitted (frame : Bytes) (n : Nfc) (k : Desk slots) : CmdResult × Nfc × Desk slots :=
  let (status, k) := k.reply ctx.rp frame app.env
  (if status = .ok then .ok else .nack, n, k)

/-- A reply to what is staged, which is dropped if the reply is not queued. -/
def nfcAckArmed (n : Nfc) (k : Desk slots) : CmdResult × Nfc × Desk slots :=
  let (status, k) := k.reply ctx.rp [respAck, respNfcEndpoint, nfcStatusChunkAccepted] app.env
  if status ≠ .ok then (.nack, odNfcReset n, k) else (.ok, n, k)

def nfcOwnedBy (n : Nfc) : Bool := n.active && odReplySame ctx.rp n.owner

def nfcHandleRead (n : Nfc) (k : Desk slots) : CmdResult × Nfc × Desk slots :=
  let k := k.hooks app.hooks
  match app.read with
  | none => nfcNack app ctx nfcErrReadFailed n k
  | some (type, data) =>
    if odNfcReadMax < data.length then nfcNack app ctx nfcErrReadFailed n k
    else
      nfcAckCommitted app ctx ([respAck, respNfcEndpoint, nfcStatusReadData, type,
        (UInt16.ofNat data.length >>> 8).toUInt8, (UInt16.ofNat data.length).toUInt8] ++ data) n k

def nfcHandleInlineWrite (body : Bytes) (n : Nfc) (k : Desk slots) : CmdResult × Nfc × Desk slots :=
  if body.length < 4 then nfcNack app ctx nfcErrMalformed n k
  else
    let type := byteAt body 1
    let declared := readBe16 (body.drop 2)
    if body.length < declared.toNat + 4 then nfcNack app ctx nfcErrMalformed n k
    else if ¬ recTypeValid type then nfcNack app ctx nfcErrInvalidRecType n k
    else if (body.drop 4).length < declared.toNat then nfcNack app ctx nfcErrMalformed n k
    else
      let k := k.hooks app.hooks
      if ¬ app.write type ((body.drop 4).take declared.toNat) then nfcNack app ctx nfcErrTagWriteFailed n k
      else nfcAckCommitted app ctx [respAck, respNfcEndpoint, nfcStatusWriteCommitted] n k

def nfcHandleStart (body : Bytes) (n : Nfc) (k : Desk slots) : CmdResult × Nfc × Desk slots :=
  if body.length < 4 then nfcNack app ctx nfcErrMalformed n k
  else
    let type := byteAt body 1
    let total := readBe16 (body.drop 2)
    if ¬ recTypeValid type then nfcNack app ctx nfcErrInvalidRecType n k
    else if total = 0 ∨ odNfcAssemblyMax < total.toNat then nfcNack app ctx nfcErrBadTotalLen n k
    else
      nfcAckArmed app ctx
        { odNfcReset n with owner := ctx.rp, recType := type, totalLen := total, active := true } k

def nfcHandleData (body : Bytes) (n : Nfc) (k : Desk slots) : CmdResult × Nfc × Desk slots :=
  if ¬ nfcOwnedBy ctx n then nfcNack app ctx nfcErrChunkNoStart n k
  else if body.length < 1 ∨ body.drop 1 = [] then nfcNack app ctx nfcErrMalformed n k
  else
    let chunk := body.drop 1
    if n.totalLen.toNat < n.receivedLen.toNat + chunk.length then
      nfcNack app ctx nfcErrChunkOverflow (odNfcReset n) k
    else
      nfcAckArmed app ctx
        { n with
          data := n.data.take n.receivedLen.toNat ++ chunk
          receivedLen := UInt16.ofNat (n.receivedLen.toNat + chunk.length) } k

def nfcHandleEnd (n : Nfc) (k : Desk slots) : CmdResult × Nfc × Desk slots :=
  if ¬ nfcOwnedBy ctx n then nfcNack app ctx nfcErrChunkNoStart n k
  else if n.receivedLen ≠ n.totalLen then nfcNack app ctx nfcErrEndLenMismatch n k
  else
    let k := k.hooks app.hooks
    if ¬ app.write n.recType (n.data.take n.totalLen.toNat) then
      nfcNack app ctx nfcErrTagWriteFailed (odNfcReset n) k
    else nfcAckCommitted app ctx [respAck, respNfcEndpoint, nfcStatusWriteCommitted] (odNfcReset n) k

/-- `cap` is the build option `OD_CAP_NFC`; without it the command is unknown. -/
def odNfcFrame (cap : Bool) (body : Bytes) (n : Nfc) (k : Desk slots) : CmdResult × Nfc × Desk slots :=
  if ¬ cap then (.unknown, n, k)
  else if body.length < 1 then nfcNack app ctx nfcErrMalformed n k
  else if byteAt body 0 = nfcSubRead then nfcHandleRead app ctx n k
  else if byteAt body 0 = nfcSubWrite then nfcHandleInlineWrite app ctx body n k
  else if byteAt body 0 = nfcSubWriteStart then nfcHandleStart app ctx body n k
  else if byteAt body 0 = nfcSubWriteData then nfcHandleData app ctx body n k
  else if byteAt body 0 = nfcSubWriteEnd then nfcHandleEnd app ctx n k
  else nfcNack app ctx nfcErrUnknownSubcmd n k

end Handlers

section Reply

variable {slots : Nat} [NeZero slots] {app : NfcApp} {ctx : Ctx}

/-- After the target's hooks the endpoint replies once. -/
inductive RepliesOnce (app : NfcApp) (ctx : Ctx) (k : Desk slots) : Desk slots → Prop where
  | reply (acts : List HookAct) (frame : Bytes) :
      RepliesOnce app ctx k ((k.hooks acts).reply ctx.rp frame app.env).2
  | replyPlain (acts : List HookAct) (frame : Bytes) :
      RepliesOnce app ctx k ((k.hooks acts).replyPlain ctx.rp frame app.env).2

theorem nfcNack_once (acts : List HookAct) (err : UInt8) (n : Nfc) (k : Desk slots) :
    RepliesOnce app ctx k (nfcNack app ctx err n (k.hooks acts)).2.2 := .replyPlain acts _

theorem nfcAckCommitted_once (acts : List HookAct) (frame : Bytes) (n : Nfc) (k : Desk slots) :
    RepliesOnce app ctx k (nfcAckCommitted app ctx frame n (k.hooks acts)).2.2 := .reply acts frame

theorem nfcAckArmed_once (n : Nfc) (k : Desk slots) : RepliesOnce app ctx k (nfcAckArmed app ctx n k).2.2 := by
  unfold nfcAckArmed
  dsimp only
  split_ifs
  · exact .reply [] _
  · exact .reply [] _

/-- Every frame is answered exactly once, unless the build has no endpoint. -/
theorem odNfcFrame_once (app : NfcApp) (ctx : Ctx) (body : Bytes) (n : Nfc) (k : Desk slots) :
    RepliesOnce app ctx k (odNfcFrame app ctx true body n k).2.2 := by
  have hnack : ∀ err n, RepliesOnce app ctx k (nfcNack app ctx err n k).2.2 := fun err n => nfcNack_once [] err n k
  unfold odNfcFrame
  rw [if_neg (by simp)]
  split_ifs
  · exact hnack _ _
  · unfold nfcHandleRead
    dsimp only
    split
    · exact nfcNack_once _ _ _ _
    · split_ifs
      · exact nfcNack_once _ _ _ _
      · exact nfcAckCommitted_once _ _ _ _
  · unfold nfcHandleInlineWrite
    dsimp only
    split_ifs
    · exact hnack _ _
    · exact hnack _ _
    · exact hnack _ _
    · exact nfcAckCommitted_once _ _ _ _
    · exact nfcNack_once _ _ _ _
    · exact hnack _ _
  · unfold nfcHandleStart
    dsimp only
    split_ifs
    · exact hnack _ _
    · exact hnack _ _
    · exact nfcAckArmed_once _ _
    · exact hnack _ _
  · unfold nfcHandleData
    dsimp only
    split_ifs
    · exact hnack _ _
    · exact hnack _ _
    · exact nfcAckArmed_once _ _
    · exact hnack _ _
  · unfold nfcHandleEnd
    dsimp only
    split_ifs
    · exact hnack _ _
    · exact nfcAckCommitted_once _ _ _ _
    · exact nfcNack_once _ _ _ _
    · exact hnack _ _
  · exact hnack _ _

end Reply

end OpenDisplay
