import Mathlib.Data.List.Induction
import OpenDisplay.Lib.Huffman

/-! The deflate format and the zlib format around it: which bits stand for which bytes.
A stream is a sequence of blocks, stored or compressed with a fixed or a transmitted
pair of Huffman codes, between a header of two bytes and a checksum. -/

namespace Deflate

open Huffman

section Fields

/-- The lowest bits of a number, the lowest first. -/
def lowBits : Nat → Nat → List Bool
  | 0, _ => []
  | n + 1, v => v.testBit 0 :: lowBits n (v / 2)

def byteBits (b : UInt8) : List Bool := lowBits 8 b.toNat

def bytesBits (bs : List UInt8) : List Bool := bs.flatMap byteBits

def littleEndian (n : Nat) : List UInt8 := [UInt8.ofNat n, UInt8.ofNat (n / 2 ^ 8)]

def bigEndian (n : Nat) : List UInt8 :=
  [UInt8.ofNat (n / 2 ^ 24), UInt8.ofNat (n / 2 ^ 16), UInt8.ofNat (n / 2 ^ 8), UInt8.ofNat n]

@[simp]
theorem lowBits_length (n v : Nat) : (lowBits n v).length = n := by
  induction n generalizing v with
  | zero => rfl
  | succ n ih => rw [lowBits, List.length_cons, ih]

theorem byteBits_length (b : UInt8) : (byteBits b).length = 8 := lowBits_length 8 _

theorem bytesBits_append (xs ys : List UInt8) : bytesBits (xs ++ ys) = bytesBits xs ++ bytesBits ys :=
  List.flatMap_append

@[simp]
theorem bytesBits_length (bs : List UInt8) : (bytesBits bs).length = 8 * bs.length := by
  induction bs with
  | nil => rfl
  | cons b bs ih =>
    show (byteBits b ++ bytesBits bs).length = _
    rw [List.length_append, byteBits_length, ih, List.length_cons]
    omega

theorem lowBits_inj {n v w : Nat} (hv : v < 2 ^ n) (hw : w < 2 ^ n) (h : lowBits n v = lowBits n w) : v = w := by
  induction n generalizing v w with
  | zero =>
    rw [Nat.pow_zero] at hv hw
    omega
  | succ n ih =>
    obtain ⟨hbit, hrest⟩ := List.cons.inj h
    have hhalf := ih (by omega) (by omega) hrest
    simp only [Nat.testBit_zero, decide_eq_decide] at hbit
    omega

/-- Bits in a row are the lowest bits of a number. -/
theorem exists_lowBits (bs : List Bool) : ∃ v < 2 ^ bs.length, bs = lowBits bs.length v := by
  induction bs with
  | nil => exact ⟨0, Nat.one_pos, rfl⟩
  | cons b bs ih =>
    obtain ⟨v, hv, hbs⟩ := ih
    have hhalf : (2 * v + b.toNat) / 2 = v := by
      have hb := b.toNat_lt
      omega
    have hlow : (2 * v + b.toNat).testBit 0 = b := by
      rw [Nat.testBit_zero, Nat.mul_add_mod]
      cases b <;> rfl
    refine ⟨2 * v + b.toNat, ?_, ?_⟩
    · have hb := b.toNat_lt
      rw [List.length_cons, Nat.pow_succ]
      omega
    · rw [List.length_cons, lowBits, hlow, hhalf, ← hbs]

theorem byteBits_inj {b c : UInt8} (h : byteBits b = byteBits c) : b = c :=
  UInt8.toNat_inj.mp (lowBits_inj b.toNat_lt c.toNat_lt h)

theorem bytesBits_split {xs ys : List UInt8} {rest : List Bool} (h : bytesBits xs = bytesBits ys ++ rest) :
    ∃ zs, xs = ys ++ zs ∧ bytesBits zs = rest := by
  induction ys generalizing xs with
  | nil => exact ⟨xs, rfl, h⟩
  | cons y ys ih =>
    cases xs with
    | nil =>
      have hlen := congrArg List.length h
      rw [List.length_append, bytesBits_length, bytesBits_length, List.length_nil, List.length_cons] at hlen
      omega
    | cons x xs =>
      have hcons : byteBits x ++ bytesBits xs = byteBits y ++ (bytesBits ys ++ rest) := by
        rw [← List.append_assoc]
        exact h
      obtain ⟨hbyte, hrest⟩ := List.append_inj hcons (by rw [byteBits_length, byteBits_length])
      obtain ⟨zs, rfl, hzs⟩ := ih hrest
      exact ⟨zs, by rw [byteBits_inj hbyte]; rfl, hzs⟩

/-- Bits that end with those of some bytes are those of bytes that end with them. -/
theorem bytesBits_split_last {xs ys : List UInt8} {bs : List Bool} (h : bytesBits xs = bs ++ bytesBits ys) :
    ∃ zs, xs = zs ++ ys ∧ bytesBits zs = bs := by
  have hlen := congrArg List.length h
  rw [List.length_append, bytesBits_length, bytesBits_length] at hlen
  have hsplit : bytesBits (xs.take (xs.length - ys.length)) ++ bytesBits (xs.drop (xs.length - ys.length)) =
      bs ++ bytesBits ys := by
    rw [← bytesBits_append, List.take_append_drop, h]
  obtain ⟨hfront, hlast⟩ := List.append_inj hsplit (by rw [bytesBits_length, List.length_take]; omega)
  have hempty : bytesBits (xs.drop (xs.length - ys.length)) = bytesBits ys ++ [] := by rw [hlast, List.append_nil]
  obtain ⟨zs, hzs, hnil⟩ := bytesBits_split hempty
  have hzero := congrArg List.length hnil
  rw [bytesBits_length, List.length_nil] at hzero
  obtain rfl : zs = [] := List.length_eq_zero_iff.mp (by omega)
  rw [List.append_nil] at hzs
  refine ⟨_, ?_, hfront⟩
  conv_lhs => rw [← List.take_append_drop (xs.length - ys.length) xs, hzs]

end Fields

section Data

def lengthExtra : List Nat :=
  [0, 0, 0, 0, 0, 0, 0, 0, 1, 1, 1, 1, 2, 2, 2, 2, 3, 3, 3, 3, 4, 4, 4, 4, 5, 5, 5, 5, 0]

def lengthBase : List Nat :=
  [3, 4, 5, 6, 7, 8, 9, 10, 11, 13, 15, 17, 19, 23, 27, 31, 35, 43, 51, 59, 67, 83, 99, 115, 131, 163, 195,
    227, 258]

def distanceExtra : List Nat :=
  [0, 0, 0, 0, 1, 1, 2, 2, 3, 3, 4, 4, 5, 5, 6, 6, 7, 7, 8, 8, 9, 9, 10, 10, 11, 11, 12, 12, 13, 13]

def distanceBase : List Nat :=
  [1, 2, 3, 4, 5, 7, 9, 13, 17, 25, 33, 49, 65, 97, 129, 193, 257, 385, 513, 769, 1025, 1537, 2049, 3073,
    4097, 6145, 8193, 12289, 16385, 24577]

/-- So many bytes from so far back, each of which may be one that was just copied. -/
def copied (distance : Nat) : Nat → List UInt8 → List UInt8
  | 0, out => out
  | n + 1, out => copied distance n (out ++ [out.getD (out.length - distance) 0])

/-- Compressed data up to the end of its block: the output before, the bits, and the
output after. Literals and lengths share a code, and distances have their own. -/
inductive Data (window : Nat) (lit dist : List Nat) : List UInt8 → List Bool → List UInt8 → Prop where
  | finish {out : List UInt8} {bs : List Bool} : Sends lit 256 bs → Data window lit dist out bs out
  | literal {out out' : List UInt8} {bs rest : List Bool} {b : UInt8} : Sends lit b.toNat bs →
      Data window lit dist (out ++ [b]) rest out' → Data window lit dist out (bs ++ rest) out'
  | copy {out out' : List UInt8} {ls ds rest : List Bool} {i j x y : Nat} : i < 29 → j < 30 →
      x < 2 ^ lengthExtra.getD i 0 → y < 2 ^ distanceExtra.getD j 0 → Sends lit (257 + i) ls → Sends dist j ds →
      distanceBase.getD j 0 + y ≤ window → distanceBase.getD j 0 + y ≤ out.length →
      Data window lit dist (copied (distanceBase.getD j 0 + y) (lengthBase.getD i 0 + x) out) rest out' →
      Data window lit dist out
        (ls ++ (lowBits (lengthExtra.getD i 0) x ++ (ds ++ (lowBits (distanceExtra.getD j 0) y ++ rest)))) out'

variable {window : Nat} {lit dist : List Nat} {out out' : List UInt8} {bs : List Bool}

theorem copied_grows (distance n : Nat) (out : List UInt8) : out <+: copied distance n out := by
  induction n generalizing out with
  | zero => exact List.prefix_rfl
  | succ n ih => exact (List.prefix_append _ _).trans (ih _)

theorem copied_length (distance n : Nat) (out : List UInt8) : (copied distance n out).length = out.length + n := by
  induction n generalizing out with
  | zero => rfl
  | succ n ih =>
    rw [copied, ih, List.length_append, List.length_singleton]
    omega

theorem Data.grows (h : Data window lit dist out bs out') : out <+: out' := by
  induction h with
  | finish _ => exact List.prefix_rfl
  | literal _ _ ih => exact (List.prefix_append _ _).trans ih
  | copy _ _ _ _ _ _ _ _ _ ih => exact (copied_grows _ _ _).trans ih

theorem Data.ends (h : Data window lit dist out bs out') : lit.getD 256 0 ≠ 0 := by
  induction h with
  | finish hs => exact hs.used
  | literal _ _ ih => exact ih
  | copy _ _ _ _ _ _ _ _ _ ih => exact ih

end Data

section Header

def codeLengthOrder : List Nat := [16, 17, 18, 0, 8, 7, 9, 6, 10, 5, 11, 4, 12, 3, 13, 2, 14, 1, 15]

/-- The lengths of the code for code lengths, from those that are sent: the symbols that
are rarely used come last, and what is not sent is 0. -/
def codeLengths (sent : List Nat) : List Nat :=
  (List.range 19).map fun sym => sent.getD (codeLengthOrder.idxOf sym) 0

/-- A sequence of code lengths with its runs: those before, the bits, and all of them. -/
inductive Lengths (cl : List Nat) : List Nat → List Bool → List Nat → Prop where
  | finish {lens : List Nat} : Lengths cl lens [] lens
  | length {lens all : List Nat} {bs rest : List Bool} {n : Nat} : n < 16 → Sends cl n bs →
      Lengths cl (lens ++ [n]) rest all → Lengths cl lens (bs ++ rest) all
  | again {lens all : List Nat} {bs rest : List Bool} {n x : Nat} : lens.getLast? = some n → x < 4 →
      Sends cl 16 bs → Lengths cl (lens ++ List.replicate (x + 3) n) rest all →
      Lengths cl lens (bs ++ (lowBits 2 x ++ rest)) all
  | zeros {lens all : List Nat} {bs rest : List Bool} {x : Nat} : x < 8 → Sends cl 17 bs →
      Lengths cl (lens ++ List.replicate (x + 3) 0) rest all → Lengths cl lens (bs ++ (lowBits 3 x ++ rest)) all
  | moreZeros {lens all : List Nat} {bs rest : List Bool} {x : Nat} : x < 128 → Sends cl 18 bs →
      Lengths cl (lens ++ List.replicate (x + 11) 0) rest all → Lengths cl lens (bs ++ (lowBits 7 x ++ rest)) all

/-- The header that transmits a pair of codes. -/
inductive Header : List Bool → List Nat → List Nat → Prop where
  | mk {sent lit dist : List Nat} {bs : List Bool} (lits : 257 ≤ lit.length) (lits_le : lit.length ≤ 286)
      (dists : 1 ≤ dist.length) (dists_le : dist.length ≤ 32) (sent_ge : 4 ≤ sent.length)
      (sent_le : sent.length ≤ 19) (sent_lt : ∀ n ∈ sent, n < 8) (valid : Valid (codeLengths sent) 15)
      (lengths : Lengths (codeLengths sent) [] bs (lit ++ dist)) (lit_valid : Valid lit 15)
      (dist_valid : Valid dist 15) :
      Header (lowBits 5 (lit.length - 257) ++ (lowBits 5 (dist.length - 1) ++ (lowBits 4 (sent.length - 4) ++
        (sent.flatMap (lowBits 3) ++ bs)))) lit dist

theorem Lengths.grows {cl lens all : List Nat} {bs : List Bool} (h : Lengths cl lens bs all) : lens <+: all := by
  induction h with
  | finish => exact List.prefix_rfl
  | length _ _ _ ih => exact (List.prefix_append _ _).trans ih
  | again _ _ _ _ ih => exact (List.prefix_append _ _).trans ih
  | zeros _ _ _ ih => exact (List.prefix_append _ _).trans ih
  | moreZeros _ _ _ ih => exact (List.prefix_append _ _).trans ih

end Header

section Blocks

def fixedLit : List Nat :=
  List.replicate 144 8 ++ List.replicate 112 9 ++ List.replicate 24 7 ++ List.replicate 8 8

def fixedDist : List Nat := List.replicate 32 5

theorem fixedLit_valid : Valid fixedLit 15 := ⟨by decide +kernel, by decide +kernel⟩

theorem fixedDist_valid : Valid fixedDist 15 := ⟨by decide +kernel, by decide +kernel⟩

/-- One block: the position of its first bit, whether it is the last, the output before,
the bits, and the output after. The data of a stored block starts at a whole byte. -/
inductive Block (window : Nat) : Nat → Bool → List UInt8 → List Bool → List UInt8 → Prop where
  | stored {pos : Nat} {final : Bool} {out data : List UInt8} {pad : List Bool} : data.length < 2 ^ 16 →
      pad.length < 8 → 8 ∣ pos + 3 + pad.length →
      Block window pos final out ([final, false, false] ++ (pad ++ bytesBits (littleEndian data.length ++
        (littleEndian (2 ^ 16 - 1 - data.length) ++ data)))) (out ++ data)
  | fixed {pos : Nat} {final : Bool} {out out' : List UInt8} {bs : List Bool} :
      Data window fixedLit fixedDist out bs out' →
      Block window pos final out ([final, true, false] ++ bs) out'
  | dynamic {pos : Nat} {final : Bool} {out out' : List UInt8} {hs bs : List Bool} {lit dist : List Nat} :
      Header hs lit dist → Data window lit dist out bs out' →
      Block window pos final out ([final, false, true] ++ (hs ++ bs)) out'

inductive Blocks (window : Nat) : Nat → List UInt8 → List Bool → List UInt8 → Prop where
  | last {pos : Nat} {out out' : List UInt8} {bs : List Bool} : Block window pos true out bs out' →
      Blocks window pos out bs out'
  | more {pos : Nat} {out out' out'' : List UInt8} {bs rest : List Bool} : Block window pos false out bs out' →
      Blocks window (pos + bs.length) out' rest out'' → Blocks window pos out (bs ++ rest) out''

theorem Block.grows {window pos : Nat} {final : Bool} {out out' : List UInt8} {bs : List Bool}
    (h : Block window pos final out bs out') : out <+: out' := by
  cases h with
  | stored _ _ _ => exact List.prefix_append _ _
  | fixed hd => exact hd.grows
  | dynamic _ hd => exact hd.grows

theorem Blocks.grows {window pos : Nat} {out out' : List UInt8} {bs : List Bool}
    (h : Blocks window pos out bs out') : out <+: out' := by
  induction h with
  | last hb => exact hb.grows
  | more hb _ ih => exact hb.grows.trans ih

end Blocks

section Stream

def adlerStep (p : Nat × Nat) (b : UInt8) : Nat × Nat :=
  ((p.1 + b.toNat) % 65521, (p.2 + (p.1 + b.toNat) % 65521) % 65521)

def adlerPair (bs : List UInt8) : Nat × Nat := bs.foldl adlerStep (1, 0)

/-- The sum of the bytes and the sum of the sums, modulo 65521. -/
def adler32 (bs : List UInt8) : Nat := (adlerPair bs).2 * 2 ^ 16 + (adlerPair bs).1

/-- The size of the window that the first byte of a stream declares. -/
def declaredWindow (cmf : UInt8) : Nat := 2 ^ (cmf.toNat / 16 + 8)

/-- A zlib stream without a preset dictionary, whose window is no larger than `window`,
and its output. -/
inductive Zlib (window : Nat) : List UInt8 → List UInt8 → Prop where
  | mk {cmf flg : UInt8} {data out : List UInt8} {bs pad : List Bool} (method : cmf.toNat % 16 = 8)
      (declared : declaredWindow cmf ≤ window) (check : (256 * cmf.toNat + flg.toNat) % 31 = 0)
      (dictionary : flg.toNat.testBit 5 = false) (body : bytesBits data = bs ++ pad) (pad_lt : pad.length < 8)
      (blocks : Blocks (declaredWindow cmf) 0 [] bs out) :
      Zlib window (cmf :: flg :: (data ++ bigEndian (adler32 out))) out

theorem adlerPair_append (bs : List UInt8) (b : UInt8) : adlerPair (bs ++ [b]) = adlerStep (adlerPair bs) b := by
  simp [adlerPair]

theorem adlerPair_lt (bs : List UInt8) : (adlerPair bs).1 < 65521 ∧ (adlerPair bs).2 < 65521 := by
  induction bs using List.reverseRecOn with
  | nil => decide
  | append_singleton bs b _ =>
    rw [adlerPair_append]
    exact ⟨Nat.mod_lt _ (by decide), Nat.mod_lt _ (by decide)⟩

end Stream

end Deflate
