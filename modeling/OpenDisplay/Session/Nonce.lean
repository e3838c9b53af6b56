import Mathlib.Algebra.GroupWithZero.Nat
import Mathlib.Data.Fin.Basic
import Mathlib.Data.List.Basic
import Mathlib.Data.List.Induction
import Mathlib.Logic.Function.Basic
import Mathlib.Order.Fin.Basic
import Mathlib.Tactic.Common

/-! The anti-replay window: the largest counter consumed, and one bit for each of
the 256 counters up to it. It answers as the set of all consumed counters would. -/

namespace OpenDisplay

def odNonceBackwardBits : Nat := 256

abbrev Bitmap := Fin 4 → UInt64

inductive NonceResult where
  | ok | badSession | outOfWindow | replay
deriving DecidableEq

/-- The word of a bit. Callers pass bits below 256. -/
def nonceWord (bit : UInt64) : Fin 4 := Fin.ofNat 4 (bit >>> 6).toNat

def odNonceBitTest (bm : Bitmap) (bit : UInt64) : Bool :=
  ((bm (nonceWord bit) >>> (bit &&& 63)) &&& 1) ≠ 0

def odNonceBitSet (bm : Bitmap) (bit : UInt64) : Bitmap :=
  Function.update bm (nonceWord bit) (bm (nonceWord bit) ||| (1 <<< (bit &&& 63)))

structure NonceWindow where
  seen : Bitmap := fun _ => 0
  last : UInt64 := 0

def odNonceCheck (w : NonceWindow) (counter : UInt64) : NonceResult :=
  if counter = w.last then if odNonceBitTest w.seen 0 then .replay else .ok
  else if w.last < counter then .ok
  else
    let back := w.last - counter
    if back < UInt64.ofNat odNonceBackwardBits then
      if odNonceBitTest w.seen back then .replay else .ok
    else .outOfWindow

/-- One pass of the shift, for word `i`, in place. -/
def nonceShiftWord (wordShift : Nat) (bitShift : UInt64) (bm : Bitmap) (i : Fin 4) : Bitmap :=
  let v : UInt64 :=
    if wordShift ≤ i.val then
      let v := bm (Fin.ofNat 4 (i.val - wordShift)) <<< bitShift
      if bitShift ≠ 0 ∧ wordShift < i.val then
        v ||| (bm (Fin.ofNat 4 (i.val - wordShift - 1)) >>> (64 - bitShift))
      else v
    else 0
  Function.update bm i v

def odNonceBitmapShiftLeft (bm : Bitmap) (shift : UInt64) : Bitmap :=
  if shift = 0 then bm
  else if UInt64.ofNat odNonceBackwardBits ≤ shift then fun _ => 0
  else ([3, 2, 1, 0] : List (Fin 4)).foldl (nonceShiftWord (shift >>> 6).toNat (shift &&& 63)) bm

def odNonceCommit (w : NonceWindow) (counter : UInt64) : NonceWindow :=
  if counter = w.last then { w with seen := odNonceBitSet w.seen 0 }
  else if counter < w.last then
    let back := w.last - counter
    if back < UInt64.ofNat odNonceBackwardBits then { w with seen := odNonceBitSet w.seen back }
    else w
  else
    { last := counter
      seen := odNonceBitSet (odNonceBitmapShiftLeft w.seen (counter - w.last)) 0 }

section Bits

variable {bm : Bitmap} {i j n m : Nat} {shift : UInt64}

/-- Bit `i` of the bitmap. -/
def bitAt (bm : Bitmap) (i : Nat) : Bool := (bm (Fin.ofNat 4 (i / 64))).toNat.testBit (i % 64)

theorem shiftRight_six (x : UInt64) : (x >>> 6).toNat = x.toNat / 64 := by
  rw [UInt64.toNat_shiftRight]
  simp [Nat.shiftRight_eq_div_pow]

theorem and_mask (x : UInt64) : (x &&& 63).toNat = x.toNat % 64 := by
  rw [UInt64.toNat_and]
  exact Nat.and_two_pow_sub_one_eq_mod x.toNat 6

theorem nonceWord_eq (bit : UInt64) : nonceWord bit = Fin.ofNat 4 (bit.toNat / 64) := by
  rw [nonceWord, shiftRight_six]

theorem odNonceBitTest_eq (bm : Bitmap) (bit : UInt64) : odNonceBitTest bm bit = bitAt bm bit.toNat := by
  have hone : ∀ x : UInt64, (x &&& 1 ≠ 0) ↔ x.toNat.testBit 0 = true := by
    intro x
    rw [ne_eq, ← UInt64.toNat_inj, UInt64.toNat_and]
    change ¬ x.toNat &&& 1 = 0 ↔ _
    rw [Nat.and_one_is_mod, Nat.testBit_zero]
    simp
  unfold odNonceBitTest bitAt
  rw [nonceWord_eq, Bool.eq_iff_iff, decide_eq_true_eq, hone, UInt64.toNat_shiftRight, and_mask,
    Nat.mod_mod, Nat.testBit_shiftRight, Nat.add_zero]

theorem one_shiftLeft (bit : UInt64) : ((1 : UInt64) <<< (bit &&& 63)).toNat = 2 ^ (bit.toNat % 64) := by
  have hlt : 2 ^ (bit.toNat % 64) < 2 ^ 64 := Nat.pow_lt_pow_right (by decide) (Nat.mod_lt _ (by decide))
  rw [UInt64.toNat_shiftLeft, and_mask, Nat.mod_mod, Nat.shiftLeft_eq]
  simpa using Nat.mod_eq_of_lt hlt

theorem odNonceBitSet_bit (bm : Bitmap) (bit : UInt64) (hb : bit.toNat < 256) (hi : i < 256) :
    bitAt (odNonceBitSet bm bit) i = (bitAt bm i || decide (i = bit.toNat)) := by
  unfold odNonceBitSet bitAt
  rw [nonceWord_eq]
  by_cases hw : Fin.ofNat 4 (i / 64) = Fin.ofNat 4 (bit.toNat / 64)
  · rw [hw, Function.update_self, UInt64.toNat_or, Nat.testBit_or, one_shiftLeft, Nat.testBit_two_pow]
    congr 1
    rw [decide_eq_decide]
    have : i / 64 = bit.toNat / 64 := by
      have := congrArg Fin.val hw
      simp only [Fin.ofNat] at this
      omega
    omega
  · rw [Function.update_of_ne hw]
    have hne : i ≠ bit.toNat := fun h => hw (by rw [h])
    simp [hne]

/-- What the shift leaves in word `i`. -/
def shiftedWord (bm : Bitmap) (wordShift : Nat) (bitShift : UInt64) (i : Fin 4) : UInt64 :=
  if wordShift ≤ i.val then
    let v := bm (Fin.ofNat 4 (i.val - wordShift)) <<< bitShift
    if bitShift ≠ 0 ∧ wordShift < i.val then
      v ||| (bm (Fin.ofNat 4 (i.val - wordShift - 1)) >>> (64 - bitShift))
    else v
  else 0

theorem shiftedWord_congr {bm' : Bitmap} {k : Fin 4} (w : Nat) (b : UInt64)
    (h : ∀ j ≤ k, bm j = bm' j) : shiftedWord bm w b k = shiftedWord bm' w b k := by
  have hle : ∀ n, Fin.ofNat 4 (k.val - n) ≤ k := by
    intro n
    rw [Fin.le_def, Fin.val_ofNat]
    have := Nat.mod_le (k.val - n) 4
    omega
  unfold shiftedWord
  rw [h _ (hle w), Nat.sub_sub, h _ (hle (w + 1))]

/-- The passes run from the last word to the first, and so read only words that
they have not written. -/
theorem shift_passes {l : List (Fin 4)} (hl : l.Pairwise (· > ·)) (bm : Bitmap) (w : Nat) (b : UInt64)
    (k : Fin 4) : l.foldl (nonceShiftWord w b) bm k = if k ∈ l then shiftedWord bm w b k else bm k := by
  induction l generalizing bm with
  | nil => rfl
  | cons first l ih =>
    rw [List.pairwise_cons] at hl
    obtain ⟨hfirst, hl⟩ := hl
    have hpass : nonceShiftWord w b bm first = Function.update bm first (shiftedWord bm w b first) := rfl
    rw [List.foldl_cons, ih hl, hpass]
    by_cases hk : k ∈ l
    · have hlt := hfirst k hk
      rw [if_pos hk, if_pos (List.mem_cons_of_mem _ hk)]
      refine shiftedWord_congr w b fun j hj => Function.update_of_ne ?_ _ _
      exact (hj.trans_lt hlt).ne
    · rw [if_neg hk]
      by_cases he : k = first
      · subst he
        simp
      · rw [Function.update_of_ne he, if_neg (by simp [he, hk])]

theorem shiftLeft_testBit (x b : UInt64) (hb : b.toNat < 64) (hi : i < 64) :
    (x <<< b).toNat.testBit i = (decide (b.toNat ≤ i) && x.toNat.testBit (i - b.toNat)) := by
  rw [UInt64.toNat_shiftLeft, Nat.mod_eq_of_lt hb, Nat.testBit_mod_two_pow, Nat.testBit_shiftLeft]
  simp [hi]

theorem shiftRight_testBit (x b : UInt64) (hb : 0 < b.toNat) (hb' : b.toNat < 64) :
    (x >>> (64 - b)).toNat.testBit i = x.toNat.testBit (64 - b.toNat + i) := by
  have hsub : (64 - b).toNat = 64 - b.toNat := by
    rw [UInt64.toNat_sub_of_le _ _ (UInt64.le_iff_toNat_le.mpr (by simpa using hb'.le))]
    rfl
  rw [UInt64.toNat_shiftRight, hsub, Nat.mod_eq_of_lt (by omega), Nat.testBit_shiftRight]

theorem shiftedWord_testBit (bm : Bitmap) {w q r : Nat} {b : UInt64} (hq : q < 4) (hr : r < 64)
    (hb : b.toNat < 64) : (shiftedWord bm w b ⟨q, hq⟩).toNat.testBit r =
      (decide (64 * w + b.toNat ≤ 64 * q + r) && bitAt bm (64 * q + r - (64 * w + b.toNat))) := by
  unfold shiftedWord bitAt
  dsimp only
  split_ifs with hw hcarry
  · obtain ⟨hb0, hlt⟩ := hcarry
    have hpos : 0 < b.toNat := by
      rw [Nat.pos_iff_ne_zero]
      intro h0
      exact hb0 (UInt64.toNat_inj.mp h0)
    rw [UInt64.toNat_or, Nat.testBit_or, shiftLeft_testBit _ _ hb hr, shiftRight_testBit _ _ hpos hb]
    by_cases hle : b.toNat ≤ r
    · -- the bit comes from the word itself, and nothing is carried into it
      have hout : (bm (Fin.ofNat 4 (q - w - 1))).toNat.testBit (64 - b.toNat + r) = false :=
        Nat.testBit_lt_two_pow (lt_of_lt_of_le (UInt64.toNat_lt _)
          (Nat.pow_le_pow_right (by decide) (by omega)))
      have hdiv : (64 * q + r - (64 * w + b.toNat)) / 64 = q - w := by omega
      have hmod : (64 * q + r - (64 * w + b.toNat)) % 64 = r - b.toNat := by omega
      rw [hout, hdiv, hmod, decide_eq_true hle, decide_eq_true (by omega), Bool.or_false]
    · have hdiv : (64 * q + r - (64 * w + b.toNat)) / 64 = q - w - 1 := by omega
      have hmod : (64 * q + r - (64 * w + b.toNat)) % 64 = 64 - b.toNat + r := by omega
      rw [hdiv, hmod, decide_eq_false hle, decide_eq_true (by omega), Bool.false_and, Bool.false_or,
        Bool.true_and]
  · rw [shiftLeft_testBit _ _ hb hr]
    by_cases hle : b.toNat ≤ r
    · have hdiv : (64 * q + r - (64 * w + b.toNat)) / 64 = q - w := by omega
      have hmod : (64 * q + r - (64 * w + b.toNat)) % 64 = r - b.toNat := by omega
      rw [hdiv, hmod, decide_eq_true hle, decide_eq_true (by omega)]
    · -- nothing is carried into the first word that is kept
      have hq' : q = w := by
        by_contra hne
        refine hcarry ⟨fun h0 => ?_, by omega⟩
        rw [h0] at hle
        exact hle (Nat.zero_le _)
      rw [decide_eq_false hle, decide_eq_false (by omega), Bool.false_and, Bool.false_and]
  · rw [decide_eq_false (by omega)]
    simp

theorem odNonceBitmapShiftLeft_bit (bm : Bitmap) (shift : UInt64) (hi : i < 256) :
    bitAt (odNonceBitmapShiftLeft bm shift) i =
      (decide (shift.toNat ≤ i) && bitAt bm (i - shift.toNat)) := by
  unfold odNonceBitmapShiftLeft
  have hbits : (UInt64.ofNat odNonceBackwardBits).toNat = 256 := rfl
  split_ifs with hz hbig
  · subst hz
    simp
  · have : 256 ≤ shift.toNat := by
      rw [UInt64.le_iff_toNat_le, hbits] at hbig
      exact hbig
    rw [decide_eq_false (by omega)]
    simp [bitAt]
  · have hlt : shift.toNat < 256 := by
      rw [UInt64.le_iff_toNat_le, hbits] at hbig
      omega
    have hq : i / 64 < 4 := by omega
    have hword : Fin.ofNat 4 (i / 64) = ⟨i / 64, hq⟩ := Fin.ext (Nat.mod_eq_of_lt hq)
    have hall : ∀ k : Fin 4, k ∈ ([3, 2, 1, 0] : List (Fin 4)) := by decide
    unfold bitAt
    rw [shift_passes (by decide), if_pos (hall _), hword, shiftedWord_testBit bm hq (Nat.mod_lt _ (by decide))
      (by rw [and_mask]; exact Nat.mod_lt _ (by decide)), shiftRight_six, and_mask, Nat.div_add_mod,
      Nat.div_add_mod]
    rfl

/-- The bitmap as one number of 256 bits. -/
def bitmapValue (bm : Bitmap) : BitVec 256 :=
  ((bm 3).toBitVec ++ (bm 2).toBitVec ++ (bm 1).toBitVec ++ (bm 0).toBitVec : BitVec (64 + 64 + 64 + 64))

theorem bitmapValue_getLsbD (bm : Bitmap) (hi : i < 256) : (bitmapValue bm).getLsbD i = bitAt bm i := by
  have hword : ∀ (q : Nat) (hq : q < 4) (k : Nat), k < 64 → i = 64 * q + k →
      bitAt bm i = (bm ⟨q, hq⟩).toBitVec.getLsbD k := by
    intro q hq k hk h
    have hdiv : i / 64 = q := by omega
    have hmod : i % 64 = k := by omega
    have hfin : Fin.ofNat 4 q = ⟨q, hq⟩ := Fin.ext (Nat.mod_eq_of_lt hq)
    rw [bitAt, hdiv, hmod, hfin]
    rfl
  rw [bitmapValue, BitVec.getLsbD_append, BitVec.getLsbD_append, BitVec.getLsbD_append]
  split_ifs with h0 h1 h2
  · exact (hword 0 (by decide) i h0 (by omega)).symm
  · exact (hword 1 (by decide) (i - 64) h1 (by omega)).symm
  · exact (hword 2 (by decide) (i - 64 - 64) h2 (by omega)).symm
  · exact (hword 3 (by decide) (i - 64 - 64 - 64) (by omega) (by omega)).symm

theorem bitmapValue_shiftLeft (bm : Bitmap) (shift : UInt64) :
    bitmapValue (odNonceBitmapShiftLeft bm shift) = bitmapValue bm <<< shift.toNat := by
  refine BitVec.eq_of_getLsbD_eq fun i hi => ?_
  rw [bitmapValue_getLsbD _ hi, odNonceBitmapShiftLeft_bit _ _ hi, BitVec.getLsbD_shiftLeft,
    bitmapValue_getLsbD _ (by omega)]
  by_cases hle : shift.toNat ≤ i
  · simp [hle, hi]
  · simp [hle, hi, Nat.lt_of_not_le hle]

end Bits

section Spec

variable {cs : List UInt64} {c d : UInt64} {w : NonceWindow}

/-- The largest counter committed, 0 if none. -/
def nonceMax (cs : List UInt64) : UInt64 := cs.foldl max 0

def nonceWindow (cs : List UInt64) : NonceWindow := cs.foldl odNonceCommit {}

/-- The counter was committed when it was not yet 256 or more behind. -/
def Spent (cs : List UInt64) (c : UInt64) : Prop :=
  ∃ before after, cs = before ++ c :: after ∧ (nonceMax before).toNat < c.toNat + odNonceBackwardBits

theorem max_toNat (c d : UInt64) : (max c d).toNat = max c.toNat d.toNat := by
  have h : max c d = if c ≤ d then d else c := rfl
  rw [h]
  split_ifs with hle
  · exact (max_eq_right (UInt64.le_iff_toNat_le.mp hle)).symm
  · rw [UInt64.le_iff_toNat_le, not_le] at hle
    exact (max_eq_left hle.le).symm

theorem nonceMax_append (cs : List UInt64) (c : UInt64) :
    nonceMax (cs ++ [c]) = max (nonceMax cs) c := by
  simp [nonceMax]

theorem nonceMax_append_toNat (cs : List UInt64) (c : UInt64) :
    (nonceMax (cs ++ [c])).toNat = max (nonceMax cs).toNat c.toNat := by
  rw [nonceMax_append, max_toNat]

theorem le_nonceMax (h : c ∈ cs) : c.toNat ≤ (nonceMax cs).toNat := by
  induction cs using List.reverseRecOn with
  | nil => simp at h
  | append_singleton cs last ih =>
    rw [nonceMax_append_toNat]
    rcases List.mem_append.mp h with h | h
    · exact (ih h).trans (le_max_left _ _)
    · rw [List.mem_singleton.mp h]
      exact le_max_right _ _

theorem nonceMax_mem (h : cs ≠ []) : nonceMax cs ∈ cs := by
  induction cs using List.reverseRecOn with
  | nil => exact absurd rfl h
  | append_singleton cs last ih =>
    rcases Nat.lt_or_ge last.toNat (nonceMax cs).toNat with hlt | hle
    · have hmax : nonceMax (cs ++ [last]) = nonceMax cs := by
        rw [← UInt64.toNat_inj, nonceMax_append_toNat, max_eq_left hlt.le]
      have hcs : cs ≠ [] := by
        rintro rfl
        exact absurd hlt (Nat.not_lt_zero _)
      rw [hmax]
      exact List.mem_append_left _ (ih hcs)
    · have hmax : nonceMax (cs ++ [last]) = last := by
        rw [← UInt64.toNat_inj, nonceMax_append_toNat, max_eq_right hle]
      rw [hmax]
      simp

theorem Spent.mem (h : Spent cs c) : c ∈ cs := by
  obtain ⟨before, after, rfl, -⟩ := h
  simp

theorem spent_append :
    Spent (cs ++ [c]) d ↔ Spent cs d ∨ d = c ∧ (nonceMax cs).toNat < c.toNat + odNonceBackwardBits := by
  constructor
  · rintro ⟨before, after, h, hlt⟩
    rcases List.eq_nil_or_concat after with rfl | ⟨after, last, rfl⟩
    · obtain ⟨rfl, hc⟩ := List.append_inj' h rfl
      obtain rfl := List.singleton_inj.mp hc
      exact .inr ⟨rfl, hlt⟩
    · rw [List.concat_eq_append, ← List.cons_append, ← List.append_assoc] at h
      exact .inl ⟨before, after, (List.append_inj' h rfl).1, hlt⟩
  · rintro (⟨before, after, rfl, hlt⟩ | ⟨rfl, hlt⟩)
    · exact ⟨before, after ++ [c], by simp, hlt⟩
    · exact ⟨cs, [], rfl, hlt⟩

/-- What the window has to do with the counters committed so far: a bit for each
counter in reach, set if the counter was spent. -/
structure Tracks (cs : List UInt64) (w : NonceWindow) : Prop where
  last : w.last = nonceMax cs
  seen : ∀ d : UInt64, d.toNat ≤ w.last.toNat → w.last.toNat - d.toNat < 256 →
    (bitAt w.seen (w.last.toNat - d.toNat) = true ↔ Spent cs d)

theorem bits_toNat : (UInt64.ofNat odNonceBackwardBits).toNat = 256 := rfl

theorem Tracks.empty : Tracks [] {} where
  last := rfl
  seen d _ _ := by
    have hno : ¬ Spent [] d := fun h => by simpa using h.mem
    simp [hno, bitAt]

/-- A counter at or behind the largest one leaves it, and sets its own bit. -/
theorem Tracks.behind (h : Tracks cs w) (hle : c.toNat ≤ w.last.toNat)
    (hlt : w.last.toNat - c.toNat < 256) :
    Tracks (cs ++ [c]) { w with seen := odNonceBitSet w.seen (w.last - c) } where
  last := by
    rw [← UInt64.toNat_inj, nonceMax_append_toNat, ← h.last, max_eq_left hle]
  seen d hd hd' := by
    dsimp only at hd hd' ⊢
    have hback : (w.last - c).toNat = w.last.toNat - c.toNat :=
      UInt64.toNat_sub_of_le _ _ (UInt64.le_iff_toNat_le.mpr hle)
    have hspent : (nonceMax cs).toNat < c.toNat + odNonceBackwardBits := by
      rw [← h.last, odNonceBackwardBits]
      omega
    have hsame : w.last.toNat - d.toNat = w.last.toNat - c.toNat ↔ d = c := by
      rw [← UInt64.toNat_inj]
      omega
    rw [odNonceBitSet_bit _ _ (by omega) hd', hback, Bool.or_eq_true, h.seen d hd hd',
      decide_eq_true_eq, hsame, spent_append, and_iff_left hspent]

theorem Tracks.outside (h : Tracks cs w) (hlt : 256 ≤ w.last.toNat - c.toNat) :
    Tracks (cs ++ [c]) w where
  last := by
    rw [← UInt64.toNat_inj, nonceMax_append_toNat, ← h.last, max_eq_left (by omega)]
  seen d hd hd' := by
    have hno : ¬ (nonceMax cs).toNat < c.toNat + odNonceBackwardBits := by
      rw [← h.last, odNonceBackwardBits]
      omega
    rw [h.seen d hd hd', spent_append, or_iff_left (fun hand => hno hand.2)]

/-- A counter ahead of all others becomes the largest one: the counters spent move
away from it by the distance, and those it skips are not spent. -/
theorem Tracks.ahead (h : Tracks cs w) (hlt : w.last.toNat < c.toNat) :
    Tracks (cs ++ [c])
      { last := c, seen := odNonceBitSet (odNonceBitmapShiftLeft w.seen (c - w.last)) 0 } where
  last := by
    rw [← UInt64.toNat_inj, nonceMax_append_toNat, ← h.last, max_eq_right hlt.le]
  seen d hd hd' := by
    dsimp only at hd hd' ⊢
    have hdist : (c - w.last).toNat = c.toNat - w.last.toNat :=
      UInt64.toNat_sub_of_le _ _ (UInt64.le_iff_toNat_le.mpr hlt.le)
    have hspent : (nonceMax cs).toNat < c.toNat + odNonceBackwardBits := by
      rw [← h.last]
      omega
    have hsame : c.toNat - d.toNat = (0 : UInt64).toNat ↔ d = c := by
      rw [← UInt64.toNat_inj, UInt64.toNat_zero]
      omega
    rw [odNonceBitSet_bit _ _ (by decide) hd', odNonceBitmapShiftLeft_bit _ _ hd', hdist,
      Bool.or_eq_true, decide_eq_true_eq, hsame, spent_append, and_iff_left hspent, Bool.and_eq_true,
      decide_eq_true_eq]
    refine or_congr_left ?_
    by_cases hold : d.toNat ≤ w.last.toNat
    · have hidx : c.toNat - d.toNat - (c.toNat - w.last.toNat) = w.last.toNat - d.toNat := by omega
      rw [hidx, h.seen d hold (by omega), and_iff_right (by omega)]
    · have hno : ¬ Spent cs d := fun hs => hold (h.last ▸ le_nonceMax hs.mem)
      exact iff_of_false (fun hb => by omega) hno

theorem Tracks.commit (h : Tracks cs w) (c : UInt64) : Tracks (cs ++ [c]) (odNonceCommit w c) := by
  unfold odNonceCommit
  dsimp only
  split_ifs with heq hlt hback
  · subst heq
    have := h.behind (c := w.last) le_rfl (by omega)
    rwa [UInt64.sub_self] at this
  · have hle := UInt64.lt_iff_toNat_lt.mp hlt
    rw [UInt64.lt_iff_toNat_lt, bits_toNat, UInt64.toNat_sub_of_le _ _ (UInt64.le_of_lt hlt)] at hback
    exact h.behind hle.le hback
  · rw [UInt64.lt_iff_toNat_lt, bits_toNat, UInt64.toNat_sub_of_le _ _ (UInt64.le_of_lt hlt),
      not_lt] at hback
    exact h.outside hback
  · rw [UInt64.lt_iff_toNat_lt] at hlt
    rw [← UInt64.toNat_inj] at heq
    exact h.ahead (by omega)

theorem nonceWindow_tracks (cs : List UInt64) : Tracks cs (nonceWindow cs) := by
  induction cs using List.reverseRecOn with
  | nil => exact Tracks.empty
  | append_singleton cs last ih =>
    have hstep : nonceWindow (cs ++ [last]) = odNonceCommit (nonceWindow cs) last := by simp [nonceWindow]
    rw [hstep]
    exact ih.commit last

/-- The check answers by the distance behind the largest counter, and within 256
of it by whether the counter was spent. -/
theorem Tracks.check (h : Tracks cs w) (c : UInt64) :
    (odNonceCheck w c = .ok ↔ w.last.toNat < c.toNat ∨
      c.toNat ≤ w.last.toNat ∧ w.last.toNat - c.toNat < 256 ∧ ¬ Spent cs c) ∧
    (odNonceCheck w c = .replay ↔
      c.toNat ≤ w.last.toNat ∧ w.last.toNat - c.toNat < 256 ∧ Spent cs c) ∧
    (odNonceCheck w c = .outOfWindow ↔ c.toNat ≤ w.last.toNat ∧ 256 ≤ w.last.toNat - c.toNat) := by
  have hcases : odNonceCheck w c =
      if w.last.toNat < c.toNat then .ok
      else if w.last.toNat - c.toNat < 256 then
        if bitAt w.seen (w.last.toNat - c.toNat) then .replay else .ok
      else .outOfWindow := by
    unfold odNonceCheck
    simp only [odNonceBitTest_eq, UInt64.lt_iff_toNat_lt, bits_toNat]
    by_cases heq : c = w.last
    · subst heq
      simp
    · rw [if_neg heq]
      rw [← UInt64.toNat_inj] at heq
      by_cases hlt : w.last.toNat < c.toNat
      · rw [if_pos hlt, if_pos hlt]
      · rw [if_neg hlt, if_neg hlt, UInt64.toNat_sub_of_le _ _ (UInt64.le_iff_toNat_le.mpr (by omega))]
  rw [hcases]
  by_cases hlt : w.last.toNat < c.toNat
  · rw [if_pos hlt]
    simp [hlt]
  · have hle := Nat.le_of_not_lt hlt
    rw [if_neg hlt]
    by_cases hback : w.last.toNat - c.toNat < 256
    · have hbit := h.seen c hle hback
      rw [if_pos hback, ← hbit]
      by_cases hs : bitAt w.seen (w.last.toNat - c.toNat) = true <;> simp [hs, hlt, hle, hback]
    · rw [if_neg hback]
      simp [hlt, hle, hback, Nat.le_of_not_lt hback]

end Spec

section Accept

variable {c : UInt64}

/-- Check, then commit if the answer is OK; the counters accepted, oldest first. -/
def nonceReceive (a : NonceWindow × List UInt64) (c : UInt64) : NonceWindow × List UInt64 :=
  if odNonceCheck a.1 c = .ok then (odNonceCommit a.1 c, a.2 ++ [c]) else a

def nonceAccepted (offers : List UInt64) : List UInt64 := (offers.foldl nonceReceive ({}, [])).2

/-- Every accepted counter was spent, and no other was committed. -/
structure Accepts (a : NonceWindow × List UInt64) : Prop where
  tracks : Tracks a.2 a.1
  spent : ∀ c ∈ a.2, Spent a.2 c
  nodup : a.2.Nodup

variable {a : NonceWindow × List UInt64}

theorem Accepts.fresh (h : Accepts a) (hok : odNonceCheck a.1 c = .ok) : c ∉ a.2 := by
  intro hmem
  have hle := le_nonceMax hmem
  rw [← h.tracks.last] at hle
  rcases (h.tracks.check c).1.mp hok with hlt | ⟨-, -, hno⟩
  · omega
  · exact hno (h.spent c hmem)

theorem Accepts.commit (h : Accepts a) (hok : odNonceCheck a.1 c = .ok) :
    Accepts (odNonceCommit a.1 c, a.2 ++ [c]) := by
  have hcase := (h.tracks.check c).1.mp hok
  refine ⟨h.tracks.commit c, ?_, ?_⟩
  · intro d hd
    rw [spent_append]
    rcases List.mem_append.mp hd with hd | hd
    · exact .inl (h.spent d hd)
    · refine .inr ⟨List.mem_singleton.mp hd, ?_⟩
      rw [← h.tracks.last, odNonceBackwardBits]
      omega
  · refine List.nodup_append.mpr ⟨h.nodup, by simp, ?_⟩
    intro d hd e he hde
    rw [hde, List.mem_singleton.mp he] at hd
    exact h.fresh hok hd

theorem Accepts.receive (h : Accepts a) (c : UInt64) : Accepts (nonceReceive a c) := by
  unfold nonceReceive
  split_ifs with hok
  · exact h.commit hok
  · exact h

theorem Accepts.empty : Accepts ({}, []) := ⟨Tracks.empty, by simp, List.nodup_nil⟩

theorem nonceAccepted_accepts (offers : List UInt64) :
    Accepts (offers.foldl nonceReceive ({}, [])) := by
  induction offers using List.reverseRecOn with
  | nil => exact .empty
  | append_singleton offers last ih =>
    rw [List.foldl_append]
    exact ih.receive last

end Accept

/-- The window refines the set of spent counters: `last` is the largest counter
committed and never falls, the check answers as the set does, no counter is accepted
twice, and the bitmap shift is the shift of a number of 256 bits. -/
theorem nonce_window_refines :
    (∀ cs : List UInt64,
      (cs = [] → (nonceWindow cs).last = 0) ∧
      (cs ≠ [] → (nonceWindow cs).last ∈ cs) ∧
      (∀ c ∈ cs, c ≤ (nonceWindow cs).last) ∧
      (∀ c, (nonceWindow cs).last ≤ (nonceWindow (cs ++ [c])).last) ∧
      ∀ c, let m := (nonceWindow cs).last
        (odNonceCheck (nonceWindow cs) c = .ok ↔
          m < c ∨ c ≤ m ∧ m.toNat - c.toNat < 256 ∧ ¬ Spent cs c) ∧
        (odNonceCheck (nonceWindow cs) c = .replay ↔
          c ≤ m ∧ m.toNat - c.toNat < 256 ∧ Spent cs c) ∧
        (odNonceCheck (nonceWindow cs) c = .outOfWindow ↔ c ≤ m ∧ 256 ≤ m.toNat - c.toNat)) ∧
    (∀ offers, (nonceAccepted offers).Nodup) ∧
    ∀ bm shift, bitmapValue (odNonceBitmapShiftLeft bm shift) = bitmapValue bm <<< shift.toNat := by
  refine ⟨fun cs => ⟨?_, ?_, ?_, ?_, ?_⟩, ?_, bitmapValue_shiftLeft⟩
  · rintro rfl
    rfl
  · intro hne
    rw [(nonceWindow_tracks cs).last]
    exact nonceMax_mem hne
  · intro c hc
    rw [(nonceWindow_tracks cs).last, UInt64.le_iff_toNat_le]
    exact le_nonceMax hc
  · intro c
    rw [(nonceWindow_tracks cs).last, (nonceWindow_tracks (cs ++ [c])).last, UInt64.le_iff_toNat_le,
      nonceMax_append_toNat]
    exact le_max_left _ _
  · intro c
    simp only [UInt64.le_iff_toNat_le, UInt64.lt_iff_toNat_lt]
    exact (nonceWindow_tracks cs).check c
  · intro offers
    exact (nonceAccepted_accepts offers).nodup

end OpenDisplay
