import OpenDisplay.Config.Crc
import OpenDisplay.Lib.Crc

/-! Bursts of errors in the bytes of a configuration: strings that differ in a few bits in a row
have different checksums. -/

namespace OpenDisplay

open Checksums

section Sent

/-- The bits in the order of the advisory checksum. -/
def msbFirst (data : Bytes) : List Bool := data.flatMap fun b => (List.range 8).map b.toBitVec.getMsbD

/-- The bits in the order of the stored checksum. -/
def lsbFirst (data : Bytes) : List Bool := data.flatMap fun b => (List.range 8).map b.toBitVec.getLsbD

end Sent

section Registers

theorem and_twoPow_ne_zero {w i : Nat} (hi : i < w) (x : BitVec w) :
    x &&& BitVec.twoPow w i ≠ 0#w ↔ x.getLsbD i = true := by
  rw [BitVec.and_twoPow]
  split_ifs with h
  · refine iff_of_true (fun hzero => ?_) h
    have hbit := congrArg (BitVec.getLsbD · i) hzero
    simp [hi] at hbit
  · exact iff_of_false (fun hne => hne rfl) h

theorem odCrc16Bit_getMsbD (crc : UInt16) (i : Nat) : (odCrc16Bit crc).toBitVec.getMsbD i =
    (crc.toBitVec.getMsbD (i + 1) ^^ (crc.toBitVec.getMsbD 0 && (0x1021#16).getMsbD i)) := by
  have htop : crc &&& 0x8000 ≠ 0 ↔ crc.toBitVec.getMsbD 0 = true := by
    rw [ne_eq, ← UInt16.toBitVec_inj]
    exact and_twoPow_ne_zero (i := 15) (by decide) crc.toBitVec
  rw [odCrc16Bit]
  split_ifs with h
  · rw [htop.mp h]
    simp
  · rw [htop, Bool.not_eq_true] at h
    rw [h]
    simp

theorem odConfigStoreCrc32Bit_getLsbD (crc : UInt32) (i : Nat) : (odConfigStoreCrc32Bit crc).toBitVec.getLsbD i =
    (crc.toBitVec.getLsbD (i + 1) ^^ (crc.toBitVec.getLsbD 0 && (0xEDB88320#32).getLsbD i)) := by
  have hlow : crc &&& 1 ≠ 0 ↔ crc.toBitVec.getLsbD 0 = true := by
    rw [ne_eq, ← UInt32.toBitVec_inj]
    exact and_twoPow_ne_zero (i := 0) (by decide) crc.toBitVec
  rw [odConfigStoreCrc32Bit]
  split_ifs with h
  · rw [hlow.mp h]
    simp [Nat.add_comm]
  · rw [hlow, Bool.not_eq_true] at h
    rw [h]
    simp [Nat.add_comm]

/-- The advisory checksum divides by x^16 + x^12 + x^5 + 1. -/
def odCrc16Register : Register 16 8 (0x1021#16).getMsbD UInt16 UInt8 where
  coeff crc := crc.toBitVec.getMsbD
  bit b := b.toBitVec.getMsbD
  step := odCrc16Bit
  add crc b := crc ^^^ (b.toUInt16 <<< 8)
  fits := by decide
  coeff_outside crc i hi := BitVec.getMsbD_of_ge _ i hi
  bit_outside b i hi := BitVec.getMsbD_of_ge _ i hi
  coeff_ext s t h := UInt16.toBitVec_inj.mp (BitVec.eq_of_getMsbD_eq fun i hi => h i hi)
  bit_ext a b h := UInt8.toBitVec_inj.mp (BitVec.eq_of_getMsbD_eq fun i hi => h i hi)
  coeff_step := odCrc16Bit_getMsbD
  coeff_add crc b i := by
    simp

def odConfigStoreCrc32Register : Register 32 8 (0xEDB88320#32).getLsbD UInt32 UInt8 where
  coeff crc := crc.toBitVec.getLsbD
  bit b := b.toBitVec.getLsbD
  step := odConfigStoreCrc32Bit
  add crc b := crc ^^^ b.toUInt32
  fits := by decide
  coeff_outside crc i hi := BitVec.getLsbD_of_ge _ i hi
  bit_outside b i hi := BitVec.getLsbD_of_ge _ i hi
  coeff_ext s t h := UInt32.toBitVec_inj.mp (BitVec.eq_of_getLsbD_eq fun i hi => h i hi)
  bit_ext a b h := UInt8.toBitVec_inj.mp (BitVec.eq_of_getLsbD_eq fun i hi => h i hi)
  coeff_step := odConfigStoreCrc32Bit_getLsbD
  coeff_add crc b i := by
    have hbyte : b.toUInt32.toBitVec.getLsbD i = b.toBitVec.getLsbD i := by
      show (b.toBitVec.setWidth 32).getLsbD i = _
      rw [BitVec.getLsbD_setWidth]
      by_cases hi : i < 32
      · simp [hi]
      · simp [hi, BitVec.getLsbD_of_ge b.toBitVec i (by omega)]
    rw [UInt32.toBitVec_xor, BitVec.getLsbD_xor, hbyte]

end Registers

section Checksums

variable {a b : Bytes}

theorem odConfigStoreCrc32_burst (hlen : a.length = b.length) (hne : a ≠ b)
    (h : DifferWithin 32 (lsbFirst a) (lsbFirst b)) : odConfigStoreCrc32 a ≠ odConfigStoreCrc32 b := by
  intro heq
  have hregister := odConfigStoreCrc32Register.burst (by decide) hlen hne h 0xFFFFFFFF
  rw [odConfigStoreCrc32, odConfigStoreCrc32, UInt32.not_inj] at heq
  exact hregister heq

/-- From the third byte on it is a plain checksum. -/
theorem odConfigTlvCrc16_eq (h : 2 ≤ a.length) :
    odConfigTlvCrc16 a = (a.drop 2).foldl odCrc16Feed (odCrc16Feed (odCrc16Feed 0xFFFF 0) 0) := if_neg (by omega)

theorem odConfigTlvCrc16_burst (hlen : a.length = b.length) (ha : 2 ≤ a.length) (hne : a.drop 2 ≠ b.drop 2)
    (h : DifferWithin 16 (msbFirst (a.drop 2)) (msbFirst (b.drop 2))) : odConfigTlvCrc16 a ≠ odConfigTlvCrc16 b := by
  rw [odConfigTlvCrc16_eq ha, odConfigTlvCrc16_eq (hlen ▸ ha)]
  exact odCrc16Register.burst (by decide) (by simp [hlen]) hne h _

/-- The checksum of a stored record tells a burst of 32 bits, and the advisory one a burst of 16 bits
behind the two bytes that it leaves out. -/
theorem odConfigCrc_bursts (a b : Bytes) (hlen : a.length = b.length) :
    (a ≠ b → DifferWithin 32 (lsbFirst a) (lsbFirst b) → odConfigStoreCrc32 a ≠ odConfigStoreCrc32 b) ∧
      (3 ≤ a.length →
        (a.drop 2 = b.drop 2 → odConfigTlvCrc16 a = odConfigTlvCrc16 b) ∧
          (a.drop 2 ≠ b.drop 2 → DifferWithin 16 (msbFirst (a.drop 2)) (msbFirst (b.drop 2)) →
            odConfigTlvCrc16 a ≠ odConfigTlvCrc16 b)) := by
  refine ⟨odConfigStoreCrc32_burst hlen, fun ha => ⟨fun heq => ?_, ?_⟩⟩
  · rw [odConfigTlvCrc16_eq (by omega), odConfigTlvCrc16_eq (by omega), heq]
  · exact odConfigTlvCrc16_burst hlen (by omega)

theorem odConfigCrc_bursts_last :
    odConfigStoreCrc32 [1, 2, 3] ≠ odConfigStoreCrc32 [1, 2, 4] ∧
      odConfigTlvCrc16 [1, 2, 3] = odConfigTlvCrc16 [5, 6, 3] ∧
      odConfigTlvCrc16 [1, 2, 3] ≠ odConfigTlvCrc16 [1, 2, 4] := by
  refine ⟨(odConfigCrc_bursts [1, 2, 3] [1, 2, 4] rfl).1 (by decide) ?_,
    ((odConfigCrc_bursts [1, 2, 3] [5, 6, 3] rfl).2 (by decide)).1 rfl,
    ((odConfigCrc_bursts [1, 2, 3] [1, 2, 4] rfl).2 (by decide)).2 (by decide) ?_⟩
  · exact differWithin_append (x := lsbFirst [3]) (y := lsbFirst [4]) rfl (by decide) (lsbFirst [1, 2]) []
  · exact differWithin_append (x := msbFirst [3]) (y := msbFirst [4]) rfl (by decide) [] []

end Checksums

end OpenDisplay
