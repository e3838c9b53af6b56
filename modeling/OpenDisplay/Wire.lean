import OpenDisplay.Inflate.Bits

/-! Frames, reply addresses and command contexts, and the panel geometry that a
transfer is measured against. -/

namespace OpenDisplay

def uint32Max : Nat := 2 ^ 32 - 1

def byteAt (b : Bytes) (i : Nat) : UInt8 := b.getD i 0

def readLe16 (b : Bytes) : UInt16 := (byteAt b 0).toUInt16 ||| ((byteAt b 1).toUInt16 <<< 8)

theorem readLe16_le (n : UInt16) (rest : Bytes) : readLe16 (n.toUInt8 :: (n >>> 8).toUInt8 :: rest) = n := by
  apply UInt16.toNat_inj.mp
  have hn := n.toNat_lt
  show (n.toUInt8.toUInt16 ||| ((n >>> 8).toUInt8.toUInt16 <<< 8)).toNat = n.toNat
  have hlow : n.toUInt8.toUInt16.toNat = n.toNat % 2 ^ 8 := by simp
  have hhigh : (n >>> 8).toUInt8.toUInt16.toNat = n.toNat / 2 ^ 8 := by
    rw [UInt8.toNat_toUInt16, UInt16.toNat_toUInt8, UInt16.toNat_shiftRight]
    show n.toNat >>> 8 % 2 ^ 8 = _
    rw [Nat.shiftRight_eq_div_pow]
    omega
  have hshift : (n.toNat / 2 ^ 8) <<< 8 < 2 ^ 16 := by
    rw [Nat.shiftLeft_eq]
    omega
  rw [UInt16.toNat_or, UInt16.toNat_shiftLeft, hlow, hhigh]
  show n.toNat % 2 ^ 8 ||| (n.toNat / 2 ^ 8) <<< 8 % 2 ^ 16 = n.toNat
  rw [Nat.mod_eq_of_lt hshift, Nat.or_comm, ← Nat.shiftLeft_add_eq_or_of_lt (by omega), Nat.shiftLeft_eq]
  omega

def readBe16 (b : Bytes) : UInt16 := ((byteAt b 0).toUInt16 <<< 8) ||| (byteAt b 1).toUInt16

def readLe32 (b : Bytes) : UInt32 :=
  (byteAt b 0).toUInt32 ||| ((byteAt b 1).toUInt32 <<< 8) ||| ((byteAt b 2).toUInt32 <<< 16) |||
    ((byteAt b 3).toUInt32 <<< 24)

def writeLe32 (v : UInt32) : Bytes := [v.toUInt8, (v >>> 8).toUInt8, (v >>> 16).toUInt8, (v >>> 24).toUInt8]

theorem readLe32_writeLe32 (v : UInt32) (rest : Bytes) : readLe32 (writeLe32 v ++ rest) = v := by
  apply UInt32.toBitVec_inj.mp
  show (v.toBitVec.setWidth 8).setWidth 32 ||| (((v.toBitVec >>> 8).setWidth 8).setWidth 32 <<< 8) |||
    (((v.toBitVec >>> 16).setWidth 8).setWidth 32 <<< 16) |||
    (((v.toBitVec >>> 24).setWidth 8).setWidth 32 <<< 24) = v.toBitVec
  apply BitVec.eq_of_getLsbD_eq
  intro i hi
  simp only [BitVec.getLsbD_or, BitVec.getLsbD_shiftLeft, BitVec.getLsbD_setWidth, BitVec.getLsbD_ushiftRight]
  -- the byte that the bit is in
  rcases Nat.lt_or_ge i 8 with h8 | h8
  · simp [h8, hi, show i < 16 by omega, show i < 24 by omega]
  rcases Nat.lt_or_ge i 16 with h16 | h16
  · simp [h16, hi, show ¬ i < 8 by omega, show i < 24 by omega, show i - 8 < 8 by omega, show i - 8 < 32 by omega,
      show 8 + (i - 8) = i by omega]
  rcases Nat.lt_or_ge i 24 with h24 | h24
  · simp [h24, hi, show ¬ i < 8 by omega, show ¬ i < 16 by omega, show ¬ i - 8 < 8 by omega,
      show i - 16 < 8 by omega, show i - 16 < 32 by omega, show 16 + (i - 16) = i by omega]
  · simp [hi, show ¬ i < 8 by omega, show ¬ i < 16 by omega, show ¬ i < 24 by omega, show ¬ i - 8 < 8 by omega,
      show ¬ i - 16 < 8 by omega, show i - 24 < 8 by omega, show i - 24 < 32 by omega, show 24 + (i - 24) = i by omega]

def readBe32 (b : Bytes) : UInt32 :=
  ((byteAt b 0).toUInt32 <<< 24) ||| ((byteAt b 1).toUInt32 <<< 16) |||
    ((byteAt b 2).toUInt32 <<< 8) ||| (byteAt b 3).toUInt32

/-- The first `n` bytes and the rest, if there are as many. -/
def odSpanSplit (s : Bytes) (n : Nat) : Option (Bytes × Bytes) :=
  if n ≤ s.length then some (s.take n, s.drop n) else none

inductive Origin where
  | ble | lanPlain | lanTls
deriving DecidableEq

structure Reply where
  origin : Origin := .ble
  tag : UInt32 := 0
deriving DecidableEq

def odReplySame (a b : Reply) : Bool := a.origin = b.origin && a.tag = b.tag

structure Ctx where
  rp : Reply
  wireLen : UInt16
  wasProtected : Bool
deriving DecidableEq

inductive CmdResult where
  | ok | nack | authRejected | unknown
deriving DecidableEq

inductive TxqStatus where
  | ok | full | gone | busy | timeout | tooLarge | sealFailed | invariant
deriving DecidableEq

inductive ColorStatus where
  | ok | unsupported | badGeometry | overflow
deriving DecidableEq

inductive ColorLayout where
  | packedRows | controllerPlanes | splitHalves
deriving DecidableEq

inductive ColorPlane where
  | plane0 | plane1 | none
deriving DecidableEq

structure Geometry where
  layout : ColorLayout := .packedRows
  bitsPerPixel : UInt8 := 0
  partCount : UInt8 := 0
  initialPlane : ColorPlane := .plane0
  partialSupported : Bool := false
  partWidth : UInt32 × UInt32 := (0, 0)
  rowBytes : UInt32 × UInt32 := (0, 0)
  partBytes : UInt32 × UInt32 := (0, 0)
  totalBytes : UInt32 := 0
deriving DecidableEq

def partGeometry (width height : UInt32) (bitsPerPixel : UInt8) : Option (UInt32 × UInt32) :=
  let rowBits : UInt64 := width.toUInt64 * bitsPerPixel.toUInt64
  let row := (rowBits + 7) / 8
  let part := row * height.toUInt64
  if uint32Max < row.toNat ∨ uint32Max < part.toNat then none
  else some (row.toUInt32, part.toUInt32)

/-- The fields that a color scheme fixes before the sizes are computed. -/
def schemeGeometry (colorScheme : UInt8) (width : UInt32) : Option Geometry :=
  match colorScheme.toNat with
  | 0 => some
      { layout := .packedRows, bitsPerPixel := 1, partCount := 1, initialPlane := .plane0
        partialSupported := true, partWidth := (width, 0) }
  | 1 | 2 | 5 => some
      { layout := .controllerPlanes, bitsPerPixel := 1, partCount := 2, initialPlane := .plane0
        partWidth := (width, width) }
  | 3 => some
      { layout := .packedRows, bitsPerPixel := 2, partCount := 1, initialPlane := .plane1
        partWidth := (width, 0) }
  | 4 | 7 => some
      { layout := .packedRows, bitsPerPixel := 4, partCount := 1, initialPlane := .plane1
        partWidth := (width, 0) }
  | 6 => some
      { layout := .packedRows, bitsPerPixel := 4, partCount := 1, initialPlane := .plane0
        partWidth := (width, 0) }
  | 8 => some
      { layout := .splitHalves, bitsPerPixel := 4, partCount := 2, initialPlane := .none
        partWidth := (width / 2, width - width / 2) }
  | _ => none

def odColorDirectGeometry (colorScheme : UInt8) (width height : UInt32) :
    Except ColorStatus Geometry :=
  if width = 0 ∨ height = 0 then .error .badGeometry
  else
    match schemeGeometry colorScheme width with
    | none => .error .unsupported
    | some out =>
      match partGeometry out.partWidth.1 height out.bitsPerPixel with
      | none => .error .overflow
      | some (row0, part0) =>
        let second :=
          if out.partCount = 2 then partGeometry out.partWidth.2 height out.bitsPerPixel
          else some (0, 0)
        match second with
        | none => .error .overflow
        | some (row1, part1) =>
          if uint32Max < part0.toNat + part1.toNat then .error .overflow
          else
            .ok { out with
              rowBytes := (row0, row1), partBytes := (part0, part1), totalBytes := part0 + part1 }

def colorSchemeMono : UInt8 := 0

structure PanelInfo where
  geometry : Geometry
  width : UInt16
  height : UInt16
  partialEnabled : Bool
deriving DecidableEq

def respAck : UInt8 := 0x00
def respNack : UInt8 := 0xff
def respDirectWriteStartAck : UInt8 := 0x70
def respDirectWriteDataAck : UInt8 := 0x71
def respDirectWriteEndAck : UInt8 := 0x72
def respDirectWriteRefreshSuccess : UInt8 := 0x73
def respDirectWriteRefreshTimeout : UInt8 := 0x74
def respPartialWriteStart : UInt8 := 0x76
def respPipeStart : UInt8 := 0x80
def respPipeData : UInt8 := 0x81
def respPipeEnd : UInt8 := 0x82

def errPartialEtagMismatch : UInt8 := 0x01
def errPartialRectOob : UInt8 := 0x03
def errPartialRectAlign : UInt8 := 0x04
def errPartialFlags : UInt8 := 0x05
def errPartialStream : UInt8 := 0x06
def errPartialUnsupported : UInt8 := 0x07

def errPipeStartBadHeader : UInt8 := 0x01
def errPipeStartUnknownFlag : UInt8 := 0x02
def errPipeStartSizeMismatch : UInt8 := 0x03
def errPipeStartEtagMismatch : UInt8 := 0x05
def errPipeStartPartialUnsupported : UInt8 := 0x06
def errPipeStartRectInvalid : UInt8 := 0x07

def pipeVersion : UInt8 := 0x01
def pipeMaxFrame : UInt16 := 244
def pipeFrameOverhead : UInt16 := 3
def pipeAckMaskBits : Nat := 32
def odSessionEnvelopeMin : UInt16 := 29
def odPipeMaxW : UInt8 := 32
def odPipeMaxN : UInt8 := 32
def odPipeReorderSlots : Nat := 33
def odPipeReorderPayload : Nat := 241

def refreshFull : UInt8 := 0
def refreshFast : UInt8 := 1
def refreshPartial : UInt8 := 2

end OpenDisplay
