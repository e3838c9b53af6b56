import OpenDisplay.Lib.Buffer
import OpenDisplay.Lib.Memory
import OpenDisplay.Wire

/-! The tag that a Nordic target emulates: one stored record, which is encoded in place, read
back for the host and shown to the field. What the tag library answers comes from outside. -/

namespace OpenDisplay

open Buffers Memories

def odNfcNdefMax : Nat := 512

def odNfcRecText : UInt8 := 0
def odNfcRecUri : UInt8 := 1
def odNfcRecWellKnownRaw : UInt8 := 2
def odNfcRecMime : UInt8 := 3
def odNfcRecRawNdef : UInt8 := 4

section Store

/-- The record as it is on the tag: `s_ndef` and `s_ndef_len`. -/
structure NdefStore where
  ndef : Vector UInt8 odNfcNdefMax := Vector.replicate odNfcNdefMax 0
  ndefLen : UInt16 := 0
deriving DecidableEq

/-- The length of a payload is a 16-bit word. -/
structure NfcPayload where
  bytes : Bytes
  short : bytes.length < 2 ^ 16

def NfcPayload.len (data : NfcPayload) : UInt16 := UInt16.ofNat data.bytes.length

theorem NfcPayload.len_toNat (data : NfcPayload) : data.len.toNat = data.bytes.length :=
  UInt16.toNat_ofNat_of_lt' data.short

theorem NfcPayload.len_eq_zero (data : NfcPayload) : data.len = 0 ↔ data.bytes = [] := by
  rw [← UInt16.toNat_inj, data.len_toNat]
  exact List.length_eq_zero_iff

end Store

section Encode

/-- A record of the type `letter`; `lead` are the bytes of its payload before those of the host. -/
def nfcEncodeLetter (letter : UInt8) (lead : Bytes) (data : NfcPayload) (ndef : Vector UInt8 odNfcNdefMax) :
    Option NdefStore :=
  let payloadLen := UInt16.ofNat lead.length + data.len
  if payloadLen > 255 ∨ payloadLen > UInt16.ofNat (odNfcNdefMax - 4) then none
  else
    let header := [0xD1, 0x01, payloadLen.toUInt8, letter] ++ lead
    some { ndef := copyInto (copyInto ndef 0 header) header.length data.bytes, ndefLen := 4 + payloadLen }

/-- A record whose type comes from the host, behind a byte with its length. -/
def nfcEncodeTyped (head : UInt8) (minLen : UInt16) (data : NfcPayload) (ndef : Vector UInt8 odNfcNdefMax) :
    Option NdefStore :=
  if data.len < minLen then none
  else
    let typeLen := byteAt data.bytes 0
    if typeLen = 0 ∨ 1 + typeLen.toUInt16 > data.len then none
    else
      let bodyLen := data.len - 1 - typeLen.toUInt16
      if bodyLen > 255 then none
      else
        let recordLen := 3 + typeLen.toUInt16 + bodyLen
        if recordLen.toNat > odNfcNdefMax then none
        else
          let ndef := copyInto ndef 0 [head, typeLen, bodyLen.toUInt8]
          let ndef := copyInto ndef 3 ((data.bytes.drop 1).take typeLen.toNat)
          let ndef :=
            if bodyLen > 0 then
              copyInto ndef (3 + typeLen.toNat) ((data.bytes.drop (1 + typeLen.toNat)).take bodyLen.toNat)
            else ndef
          some { ndef := ndef, ndefLen := recordLen }

def nfcEncodeRaw (data : NfcPayload) (ndef : Vector UInt8 odNfcNdefMax) : Option NdefStore :=
  if data.len = 0 ∨ data.len.toNat > odNfcNdefMax then none
  else some { ndef := copyInto ndef 0 data.bytes, ndefLen := data.len }

/-- The record of the type `recType`, in a buffer that is clear; none if it is refused. -/
def nfcEncodeRecord (recType : UInt8) (data : NfcPayload) (ndef : Vector UInt8 odNfcNdefMax) : Option NdefStore :=
  if recType = odNfcRecText then nfcEncodeLetter 0x54 [0x02, 0x65, 0x6E] data ndef
  else if recType = odNfcRecUri then nfcEncodeLetter 0x55 [0x00] data ndef
  else if recType = odNfcRecWellKnownRaw then nfcEncodeTyped 0xD1 2 data ndef
  else if recType = odNfcRecMime then nfcEncodeTyped 0xD2 3 data ndef
  else if recType = odNfcRecRawNdef then nfcEncodeRaw data ndef
  else none

def nfcEncodeNdef (recType : UInt8) (data : Option NfcPayload) (s : NdefStore) : Bool × NdefStore :=
  match data with
  | none => (false, s)
  | some data =>
    if data.len = 0 then (false, s)
    else if data.len.toNat > odNfcNdefMax then (false, s)
    else
      -- the buffer is cleared before the type and the lengths are looked at
      let s := { s with ndef := Vector.replicate odNfcNdefMax 0 }
      match nfcEncodeRecord recType data s.ndef with
      | none => (false, s)
      | some record => (true, record)

end Encode

section Parse

/-- What the caller of a read gets, and the places that are touched on the way: of the stored record, and of
the buffer `out`. -/
structure NfcRead where
  type : UInt8 := 0
  out : Memory UInt8 := fun _ => 0
  len : UInt16 := 0
  reads : List Nat := []
  writes : List Nat := []

def NdefStore.byte (s : NdefStore) (i : Nat) : UInt8 := byteAt s.ndef.toList i

variable (s : NdefStore)

def ndefByte (i : Nat) : StateM NfcRead UInt8 :=
  modifyGet fun r => (s.byte i, { r with reads := r.reads ++ [i] })

def setType (type : UInt8) : StateM NfcRead Unit := modify fun r => { r with type := type }

def setLen (len : UInt16) : StateM NfcRead Unit := modify fun r => { r with len := len }

def putOut (i : Nat) (b : UInt8) : StateM NfcRead Unit :=
  modify fun r => { r with out := store r.out i [b], writes := r.writes ++ [i] }

def copyOut (dst src n : Nat) : StateM NfcRead Unit :=
  modify fun r => { r with
    out := store r.out dst (load s.byte src n)
    reads := r.reads ++ (List.range n).map (src + ·)
    writes := r.writes ++ (List.range n).map (dst + ·) }

/-- The record as it is stored, as much of it as fits. -/
def nfcParseRaw (outMax : UInt16) : StateM NfcRead Bool := do
  let len := if s.ndefLen > outMax then outMax else s.ndefLen
  setLen len
  setType odNfcRecRawNdef
  copyOut s 0 0 len.toNat
  return true

def nfcParseMime (tlen plen : UInt8) (outMax : UInt16) : StateM NfcRead Bool := do
  setType odNfcRecMime
  if plen.toNat > 255 ∨ tlen = 0 then return false
  let outPack := 1 + tlen.toUInt16 + plen.toUInt16
  if outPack > outMax then return false
  putOut 0 tlen
  copyOut s 1 3 tlen.toNat
  copyOut s (1 + tlen.toNat) (3 + tlen.toNat) plen.toNat
  setLen outPack
  return true

/-- The text or the link, as much of it as fits. -/
def nfcParseCopy (off copyLen outMax : UInt16) : StateM NfcRead Bool := do
  let copyLen := if copyLen > outMax then outMax else copyLen
  copyOut s 0 off.toNat copyLen.toNat
  setLen copyLen
  return true

def nfcParseText (plen : UInt8) (outMax : UInt16) : StateM NfcRead Bool := do
  setType odNfcRecText
  if plen < 1 then return false
  let status ← ndefByte s 4
  let langLen := status &&& 0x3F
  if 1 + langLen.toUInt16 > plen.toUInt16 then return false
  nfcParseCopy s (4 + 1 + langLen.toUInt16) (plen.toUInt16 - 1 - langLen.toUInt16) outMax

def nfcParseUri (plen : UInt8) (outMax : UInt16) : StateM NfcRead Bool := do
  setType odNfcRecUri
  if plen < 1 then return false
  let uriPrefix ← ndefByte s 4
  if uriPrefix ≠ 0x00 then return false
  nfcParseCopy s (4 + 1) (plen.toUInt16 - 1) outMax

def nfcParseWellKnownRaw (tlen plen : UInt8) (outMax : UInt16) : StateM NfcRead Bool := do
  setType odNfcRecWellKnownRaw
  let rawLen := 1 + tlen.toUInt16 + plen.toUInt16
  let rawLen := if rawLen > outMax then outMax else rawLen
  if rawLen = 0 then
    setLen 0
    return true
  putOut 0 tlen
  copyOut s 1 3 (rawLen - 1).toNat
  setLen rawLen
  return true

/-- A record of a well-known type: its first letter is only looked at if it is the whole type. -/
def nfcParseWellKnown (tlen plen : UInt8) (outMax : UInt16) : StateM NfcRead Bool := do
  if tlen = 1 then
    let letter ← ndefByte s 3
    if letter = 0x54 then nfcParseText s plen outMax
    else if letter = 0x55 then nfcParseUri s plen outMax
    else nfcParseWellKnownRaw s tlen plen outMax
  else nfcParseWellKnownRaw s tlen plen outMax

/-- `given` is whether the caller has passed all three pointers. -/
def nfcParseNdef (given : Bool) (outMax : UInt16) : StateM NfcRead Bool := do
  if ¬ given ∨ s.ndefLen < 3 then return false
  let head ← ndefByte s 0
  if head &&& 0x10 = 0 then return false
  if head &&& 0x08 ≠ 0 then nfcParseRaw s outMax
  else
    let tlen ← ndefByte s 1
    let plen ← ndefByte s 2
    if 3 + tlen.toNat + plen.toNat > s.ndefLen.toNat then return false
    if head &&& 7 = 2 then nfcParseMime s tlen plen outMax
    else if head &&& 7 = 1 then nfcParseWellKnown s tlen plen outMax
    else nfcParseRaw s outMax

end Parse

section Driver

structure NfcConfig where
  nfcIcType : UInt8
  flags : UInt8
  advButtonByteIndex : UInt8
deriving DecidableEq

/-- The configuration, as far as the tag is concerned. -/
structure NfcGlobalConfig where
  loaded : Bool
  nfcConfigs : List NfcConfig
deriving DecidableEq

def odNfcIcAuto : UInt8 := 0
def odNfcIcSocNfct : UInt8 := 2

inductive NfcLogEvent where
  | payloadSetFailed | emulationStartFailed | configAbsent | configDisabled | icUnsupported | t2tSetupFailed | t2tActive
deriving DecidableEq

/-- What the library of the tag answers during a call. -/
structure NfcT2t where
  setup : Int := 0
  payloadSet : Int := 0
  emulationStart : Int := 0

/-- What a call does outside: to the tag, the advertised data and the log; and what a read returns. -/
inductive NfctAct where
  | emulationStop | emulationStart
  | payloadSet (bytes : Bytes)
  | setDynamicByte (index value : UInt8)
  | logEvent (event : NfcLogEvent) (detail : Int)
  | read (found : Option (UInt8 × Bytes))
deriving DecidableEq

structure Nfct where
  enabled : Bool := false
  emulating : Bool := false
  store : NdefStore := {}
  advByteIndex : UInt8 := 0xFF
  fieldState : UInt8 := 0
  fieldScanCounter : UInt8 := 0
  t2tSetupDone : Bool := false
  acts : List NfctAct := []

def Nfct.act (t : Nfct) (a : NfctAct) : Nfct := { t with acts := t.acts ++ [a] }

def nfcPublishFieldMsd (t : Nfct) : Nfct :=
  if t.advByteIndex > 10 then t
  else
    t.act (.setDynamicByte t.advByteIndex
      ((t.fieldState &&& 0x01) ||| (((t.fieldScanCounter &&& 0x7F) <<< (1 : UInt8)) &&& 0xFE)))

/-- An empty record makes the tag readable before the first write. -/
def nfcDefaultRecord (s : NdefStore) : NdefStore :=
  if s.ndefLen = 0 then { ndef := copyInto s.ndef 0 [0xD0, 0x00, 0x00], ndefLen := 3 } else s

def nfcStopEmulation (t : Nfct) : Nfct := if t.emulating then { t.act .emulationStop with emulating := false } else t

def nfcApplyPayload (lib : NfcT2t) (t : Nfct) : Bool × Nfct :=
  let t := nfcStopEmulation { t with store := nfcDefaultRecord t.store }
  let t := t.act (.payloadSet (t.store.ndef.toList.take t.store.ndefLen.toNat))
  if lib.payloadSet ≠ 0 then (false, t.act (.logEvent .payloadSetFailed lib.payloadSet))
  else
    let t := t.act .emulationStart
    if lib.emulationStart ≠ 0 then (false, t.act (.logEvent .emulationStartFailed lib.emulationStart))
    else (true, { t with emulating := true })

def nfcStop (t : Nfct) : Nfct := { nfcStopEmulation t with enabled := false, fieldState := 0, advByteIndex := 0xFF }

/-- `lm20` is whether the board has no other tag, so that the choice is left to the target. -/
def nfcIcIsSoc (lm20 : Bool) (icType : UInt8) : Bool :=
  if icType = odNfcIcSocNfct then true
  else if icType = odNfcIcAuto then lm20
  else false

def opendisplayNfcApplyConfig (lm20 : Bool) (lib : NfcT2t) (cfg : Option NfcGlobalConfig) (t : Nfct) : Nfct :=
  match cfg with
  | none => (nfcStop t).act (.logEvent .configAbsent 0)
  | some cfg =>
    if ¬ cfg.loaded ∨ cfg.nfcConfigs.length = 0 then (nfcStop t).act (.logEvent .configAbsent 0)
    else
      match cfg.nfcConfigs.find? fun c => c.flags &&& 0x01 ≠ 0 with
      | none => (nfcStop t).act (.logEvent .configDisabled 0)
      | some c =>
        if ¬ nfcIcIsSoc lm20 c.nfcIcType then (nfcStop t).act (.logEvent .icUnsupported c.nfcIcType.toNat)
        else
          let t := nfcPublishFieldMsd
            { t with advByteIndex := c.advButtonByteIndex, fieldState := 0, fieldScanCounter := 0 }
          if ¬ t.t2tSetupDone ∧ lib.setup ≠ 0 then nfcStop (t.act (.logEvent .t2tSetupFailed lib.setup))
          else
            let (ok, t) := nfcApplyPayload lib { t with t2tSetupDone := true, enabled := true }
            if ¬ ok then { t with enabled := false } else t.act (.logEvent .t2tActive t.advByteIndex.toNat)

def odNfcAppRead (given : Bool) (maxLen : UInt16) (t : Nfct) (r : NfcRead) : Bool × NfcRead :=
  if ¬ t.enabled then (false, r) else (nfcParseNdef t.store given maxLen).run r

def odNfcAppWrite (lib : NfcT2t) (type : UInt8) (data : Option NfcPayload) (t : Nfct) : Bool × Nfct :=
  if ¬ t.enabled then (false, t)
  else
    let (ok, s) := nfcEncodeNdef type data t.store
    if ¬ ok then (false, { t with store := s }) else nfcApplyPayload lib { t with store := s }

inductive NfctCall where
  | applyConfig (cfg : Option NfcGlobalConfig) (lib : NfcT2t)
  | read (given : Bool) (maxLen : UInt16)
  | write (type : UInt8) (data : Option NfcPayload) (lib : NfcT2t)

/-- The bytes that a read has put out. -/
def NfcRead.found (r : Bool × NfcRead) : Option (UInt8 × Bytes) :=
  if r.1 then some (r.2.type, load r.2.out 0 r.2.len.toNat) else none

def nfctStep (lm20 : Bool) (t : Nfct) : NfctCall → Nfct
  | .applyConfig cfg lib => opendisplayNfcApplyConfig lm20 lib cfg t
  | .read given maxLen => t.act (.read (NfcRead.found (odNfcAppRead given maxLen t {})))
  | .write type data lib => (odNfcAppWrite lib type data t).2

def nfctRun (lm20 : Bool) (t : Nfct) (calls : List NfctCall) : Nfct := calls.foldl (nfctStep lm20) t

end Driver

end OpenDisplay
