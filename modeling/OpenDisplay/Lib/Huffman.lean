import Mathlib.Algebra.Order.BigOperators.Group.List
import Mathlib.Data.List.Count
import Mathlib.Data.List.GetD
import Mathlib.Data.List.Induction
import Mathlib.Data.Nat.Bitwise
import Mathlib.Tactic.Ring

/-! Canonical Huffman codes. A code is given by the lengths of its codewords: those of
one length are consecutive numbers in the order of their symbols, and shorter ones come
first. A decoder need only count, for the bits it has read, how many codewords are no
longer and how far the bits are past the last of them. -/

namespace Huffman

/-- The lowest bits of a number, the highest of them first. -/
def highBits : Nat → Nat → List Bool
  | 0, _ => []
  | n + 1, v => v.testBit n :: highBits n v

@[simp]
theorem highBits_length (n v : Nat) : (highBits n v).length = n := by
  induction n with
  | zero => rfl
  | succ n ih => rw [highBits, List.length_cons, ih]

/-- The highest bits of a number are those of what is left without the others. -/
theorem highBits_add (m n v : Nat) : highBits (m + n) v = highBits m (v / 2 ^ n) ++ highBits n v := by
  induction m with
  | zero => rw [Nat.zero_add, highBits, List.nil_append]
  | succ m ih =>
    rw [Nat.succ_add, highBits, highBits, ih, Nat.testBit_div_two_pow, Nat.add_comm m n, List.cons_append]

theorem highBits_inj {n v w : Nat} (hv : v < 2 ^ n) (hw : w < 2 ^ n) (h : highBits n v = highBits n w) : v = w := by
  have hbits : ∀ i < n, v.testBit i = w.testBit i := by
    clear hv hw
    induction n with
    | zero => exact fun i hi => absurd hi (Nat.not_lt_zero i)
    | succ n ih =>
      obtain ⟨hbit, hrest⟩ := List.cons.inj h
      intro i hi
      rcases Nat.lt_succ_iff_lt_or_eq.mp hi with hlt | rfl
      · exact ih hrest i hlt
      · exact hbit
  apply Nat.eq_of_testBit_eq
  intro i
  by_cases hi : i < n
  · exact hbits i hi
  · have hpow : 2 ^ n ≤ 2 ^ i := Nat.pow_le_pow_right (by omega) (by omega)
    rw [Nat.testBit_lt_two_pow (by omega), Nat.testBit_lt_two_pow (by omega)]

section Counts

variable (count : Nat → Nat)

/-- The first codeword of each length, with `count n` codewords of length `n`. -/
def firstCode : Nat → Nat
  | 0 => 0
  | n + 1 => 2 * (firstCode n + count n)

/-- How many codewords are shorter. -/
def shorter : Nat → Nat
  | 0 => 0
  | n + 1 => shorter n + count n

/-- How far the first `k` bits of an `n`-bit number are past the codewords of `k` bits. -/
def ahead (n v k : Nat) : Int := (v / 2 ^ (n - k) : Nat) - (firstCode count k + count k : Nat)

variable {count}

theorem firstCode_le {k n : Nat} (h : k < n) : (firstCode count k + count k) * 2 ^ (n - k) ≤ firstCode count n := by
  induction n, h using Nat.le_induction with
  | base =>
    show (firstCode count k + count k) * 2 ^ (k + 1 - k) ≤ 2 * (firstCode count k + count k)
    rw [Nat.add_sub_cancel_left, Nat.pow_one, Nat.mul_comm]
  | succ n hkn ih =>
    have hsub : n + 1 - k = n - k + 1 := by omega
    calc (firstCode count k + count k) * 2 ^ (n + 1 - k)
        = 2 * ((firstCode count k + count k) * 2 ^ (n - k)) := by rw [hsub]; ring
      _ ≤ 2 * (firstCode count n + count n) := Nat.mul_le_mul_left 2 (Nat.le_add_right_of_le ih)

theorem shorter_mono {m n : Nat} (h : m ≤ n) : shorter count m ≤ shorter count n := by
  induction n, h using Nat.le_induction with
  | base => exact Nat.le_refl _
  | succ n _ ih => exact Nat.le_add_right_of_le ih

theorem div_pow_eq (v m : Nat) : v / 2 ^ m = 2 * (v / 2 ^ (m + 1)) + (v.testBit m).toNat := by
  have hbit : (v.testBit m).toNat = v / 2 ^ m % 2 := by
    rw [Nat.testBit_eq_decide_div_mod_eq]
    rcases Nat.mod_two_eq_zero_or_one (v / 2 ^ m) with h | h <;> simp [h]
  rw [hbit, Nat.pow_succ, ← Nat.div_div_eq_div_mul, Nat.div_add_mod]

theorem ahead_zero {n v : Nat} (hcount : count 0 = 0) (hv : v < 2 ^ n) : ahead count n v 0 = 0 := by
  simp [ahead, firstCode, hcount, Nat.div_eq_of_lt hv]

theorem ahead_succ {n v k : Nat} (hk : k < n) :
    ahead count n v (k + 1) =
      2 * ahead count n v k + (v.testBit (n - (k + 1))).toNat - (count (k + 1) : Nat) := by
  have hsub : n - k = n - (k + 1) + 1 := by omega
  have hdiv := div_pow_eq v (n - (k + 1))
  rw [← hsub] at hdiv
  simp only [ahead, firstCode, hdiv]
  push_cast
  ring

/-- Too few bits of a codeword are past every codeword of so few bits. -/
theorem ahead_nonneg {n v k : Nat} (hk : k < n) (hv : firstCode count n ≤ v) : 0 ≤ ahead count n v k := by
  have hle : firstCode count k + count k ≤ v / 2 ^ (n - k) :=
    (Nat.le_div_iff_mul_le (Nat.two_pow_pos _)).mpr ((firstCode_le hk).trans hv)
  unfold ahead
  omega

theorem ahead_last {n v : Nat} (hv : v < firstCode count n + count n) : ahead count n v n < 0 := by
  simp only [ahead, Nat.sub_self, Nat.pow_zero, Nat.div_one]
  omega

end Counts

section Lengths

variable (lens : List Nat)

def countOf (n : Nat) : Nat := if n = 0 then 0 else lens.count n

/-- How many symbols before this one have a codeword of its length. -/
def rank (sym : Nat) : Nat := (lens.take sym).count (lens.getD sym 0)

def code (sym : Nat) : Nat := firstCode (countOf lens) (lens.getD sym 0) + rank lens sym

def codeword (sym : Nat) : List Bool := highBits (lens.getD sym 0) (code lens sym)

/-- The place of a symbol among those that have a codeword, in the order of the
codewords. -/
def slot (sym : Nat) : Nat := shorter (countOf lens) (lens.getD sym 0) + rank lens sym

/-- The share of the codewords of `bits` bits that begin with a codeword. -/
def kraft (bits : Nat) : Nat := (lens.map fun n => if n = 0 then 0 else 2 ^ (bits - n)).sum

/-- There are codewords of these lengths, none a prefix of another. -/
structure Valid (bits : Nat) : Prop where
  length_le : ∀ n ∈ lens, n ≤ bits
  kraft_le : kraft lens bits ≤ 2 ^ bits

/-- The symbol has a codeword, and these bits are it. -/
structure Sends (sym : Nat) (bs : List Bool) : Prop where
  known : sym < lens.length
  used : lens.getD sym 0 ≠ 0
  bits : bs = codeword lens sym

variable {lens}

/-- The codewords of up to `n` bits and what they take of those of `bits` bits. -/
theorem firstCode_kraft {bits n : Nat} (hn : n ≤ bits) :
    (firstCode (countOf lens) n + countOf lens n) * 2 ^ (bits - n) =
      (lens.map fun l => if l = 0 ∨ n < l then 0 else 2 ^ (bits - l)).sum := by
  induction n with
  | zero =>
    have hzero : (fun l => if l = 0 ∨ 0 < l then 0 else 2 ^ (bits - l)) = fun _ => 0 := by
      funext l
      rw [if_pos (by omega)]
    rw [hzero]
    simp [firstCode, countOf]
  | succ n ih =>
    have hsub : bits - n = bits - (n + 1) + 1 := by omega
    have hsplit : (lens.map fun l => if l = 0 ∨ n + 1 < l then 0 else 2 ^ (bits - l)).sum =
        (lens.map fun l => if l = 0 ∨ n < l then 0 else 2 ^ (bits - l)).sum +
          lens.count (n + 1) * 2 ^ (bits - (n + 1)) := by
      clear ih
      induction lens with
      | nil => simp
      | cons l lens ih =>
        have hterm : (if l = 0 ∨ n + 1 < l then 0 else 2 ^ (bits - l)) =
            (if l = 0 ∨ n < l then 0 else 2 ^ (bits - l)) + if l = n + 1 then 2 ^ (bits - (n + 1)) else 0 := by
          by_cases heq : l = n + 1
          · subst heq
            simp
          · by_cases hout : l = 0 ∨ n < l
            · rw [if_pos hout, if_pos (by omega), if_neg heq]
            · rw [if_neg hout, if_neg (by omega), if_neg heq, Nat.add_zero]
        have hcount : (l :: lens).count (n + 1) = lens.count (n + 1) + if l = n + 1 then 1 else 0 := by
          simp [List.count_cons]
        rw [List.map_cons, List.sum_cons, ih, List.map_cons, List.sum_cons, hterm, hcount]
        by_cases heq : l = n + 1
        · rw [if_pos heq, if_pos heq]
          ring
        · rw [if_neg heq, if_neg heq]
          ring
    have hcount : countOf lens (n + 1) = lens.count (n + 1) := by simp [countOf]
    rw [hsplit, ← ih (by omega), hsub, firstCode, hcount]
    ring

theorem Valid.fits {bits n : Nat} (h : Valid lens bits) (hn : n ≤ bits) :
    firstCode (countOf lens) n + countOf lens n ≤ 2 ^ n := by
  have hle : (lens.map fun l => if l = 0 ∨ n < l then 0 else 2 ^ (bits - l)).sum ≤ kraft lens bits := by
    refine List.sum_le_sum fun l _ => ?_
    by_cases hl : l = 0
    · simp [hl]
    · by_cases hlt : n < l
      · rw [if_pos (.inr hlt)]
        exact Nat.zero_le _
      · rw [if_neg (by omega), if_neg hl]
  have htotal := (firstCode_kraft hn).trans_le (hle.trans h.kraft_le)
  have hpow : 2 ^ bits = 2 ^ n * 2 ^ (bits - n) := by
    rw [← Nat.pow_add]
    congr 1
    omega
  rw [hpow] at htotal
  exact Nat.le_of_mul_le_mul_right htotal (Nat.two_pow_pos _)

theorem rank_lt {sym : Nat} (h : sym < lens.length) : rank lens sym < lens.count (lens.getD sym 0) := by
  have hget : lens.getD sym 0 = lens[sym] := by simp [h]
  have hsplit : lens = lens.take sym ++ lens[sym] :: lens.drop (sym + 1) := by
    rw [← List.drop_eq_getElem_cons h, List.take_append_drop]
  have hcount := congrArg (List.count lens[sym]) hsplit
  rw [List.count_append, List.count_cons_self] at hcount
  rw [rank, hget]
  omega

/-- Every place among the symbols with a codeword of some length is taken. -/
theorem exists_rank {n j : Nat} (h : j < lens.count n) :
    ∃ sym < lens.length, lens.getD sym 0 = n ∧ rank lens sym = j := by
  induction lens using List.reverseRecOn with
  | nil => simp at h
  | append_singleton lens l ih =>
    by_cases hold : j < lens.count n
    · obtain ⟨sym, hsym, hlen, hrank⟩ := ih hold
      have hget : (lens ++ [l]).getD sym 0 = lens.getD sym 0 := List.getD_append _ _ _ _ hsym
      refine ⟨sym, by simp; omega, hget.trans hlen, ?_⟩
      rw [rank, hget, List.take_append_of_le_length hsym.le]
      exact hrank
    · rw [List.count_append, List.count_singleton] at h
      obtain rfl : l = n := by
        by_contra hne
        simp [hne] at h
        omega
      refine ⟨lens.length, by simp, by simp, ?_⟩
      simp only [beq_self_eq_true, if_true] at h
      simp only [rank, List.take_left, List.getD_eq_getElem?_getD, List.getElem?_concat_length, Option.getD_some]
      omega

/-- The codewords of the lengths before a place are those of the symbols that have one. -/
theorem shorter_eq_countP (lens : List Nat) (n : Nat) :
    shorter (countOf lens) n = lens.countP fun l => decide (l ≠ 0 ∧ l < n) := by
  induction n with
  | zero => simp [shorter]
  | succ n ih =>
    rw [shorter, ih, countOf]
    clear ih
    induction lens with
    | nil => simp
    | cons l lens ih =>
      rw [List.countP_cons, List.countP_cons, List.count_cons, ← ih]
      by_cases h0 : n = 0
      · subst h0
        simp
      · by_cases heq : l = n
        · subst heq
          simp [h0]
          omega
        · have hlt : l < n + 1 ↔ l < n := by omega
          simp [h0, heq, hlt]
          omega

/-- No more symbols have a codeword than there are symbols. -/
theorem shorter_le_length (lens : List Nat) (n : Nat) : shorter (countOf lens) n ≤ lens.length := by
  rw [shorter_eq_countP]
  exact List.countP_le_length

section Used

variable {sym sym' : Nat} (hsym : sym < lens.length) (hused : lens.getD sym 0 ≠ 0)

include hsym hused

theorem rank_lt_countOf : rank lens sym < countOf lens (lens.getD sym 0) := by
  rw [countOf, if_neg hused]
  exact rank_lt hsym

theorem code_lt : code lens sym < firstCode (countOf lens) (lens.getD sym 0) + countOf lens (lens.getD sym 0) :=
  Nat.add_lt_add_left (rank_lt_countOf hsym hused) _

theorem slot_lt {n : Nat} (hn : lens.getD sym 0 < n) : slot lens sym < shorter (countOf lens) n := by
  have hnext : slot lens sym < shorter (countOf lens) (lens.getD sym 0 + 1) :=
    Nat.add_lt_add_left (rank_lt_countOf hsym hused) _
  exact hnext.trans_le (shorter_mono hn)

theorem slot_ne_of_lt (hlt : sym < sym') (hsym' : sym' < lens.length) (hused' : lens.getD sym' 0 ≠ 0) :
    slot lens sym ≠ slot lens sym' := by
  rcases Nat.lt_trichotomy (lens.getD sym 0) (lens.getD sym' 0) with hlen | hlen | hlen
  · have hbelow := slot_lt hsym hused hlen
    unfold slot at hbelow ⊢
    omega
  · have hget : lens.getD sym' 0 = lens[sym] := by
      rw [← hlen]
      simp [hsym]
    -- the symbol itself is among those before the later one
    have hsplit : lens.take sym' = lens.take sym ++ lens[sym] :: (lens.drop (sym + 1)).take (sym' - (sym + 1)) := by
      conv_lhs => rw [← List.take_append_drop sym lens]
      rw [List.drop_eq_getElem_cons hsym, List.take_append, List.take_take, List.length_take,
        min_eq_right (by omega), min_eq_left (by omega), show sym' - sym = sym' - (sym + 1) + 1 by omega,
        List.take_succ_cons]
    have hcount : rank lens sym < rank lens sym' := by
      rw [rank, rank, hsplit, hlen, List.count_append, hget, List.count_cons_self]
      omega
    unfold slot
    rw [hlen]
    omega
  · have hbelow := slot_lt hsym' hused' hlen
    unfold slot at hbelow ⊢
    omega

end Used

section Unique

variable {bits sym sym' : Nat} {bs bs' rest rest' : List Bool}

theorem Valid.length_le_bits (hvalid : Valid lens bits) (hsym : sym < lens.length) : lens.getD sym 0 ≤ bits := by
  rw [List.getD_eq_getElem _ _ hsym]
  exact hvalid.length_le _ (List.getElem_mem hsym)

theorem Sends.code_lt_pow (h : Sends lens sym bs) (hvalid : Valid lens bits) : code lens sym < 2 ^ lens.getD sym 0 :=
  (code_lt h.known h.used).trans_le (hvalid.fits (hvalid.length_le_bits h.known))

theorem Sends.length_eq (h : Sends lens sym bs) : bs.length = lens.getD sym 0 := by
  rw [h.bits, codeword, highBits_length]

/-- Every number among the codewords of some length is one of them. -/
theorem exists_sends {n v : Nat} (hn : n ≠ 0) (hfirst : firstCode (countOf lens) n ≤ v)
    (hlast : v < firstCode (countOf lens) n + countOf lens n) :
    ∃ sym, Sends lens sym (highBits n v) ∧
      slot lens sym = shorter (countOf lens) n + (v - firstCode (countOf lens) n) := by
  have hcount : v - firstCode (countOf lens) n < lens.count n := by
    rw [countOf, if_neg hn] at hlast
    omega
  obtain ⟨sym, hsym, hlen, hrank⟩ := exists_rank hcount
  have hcode : code lens sym = v := by
    rw [code, hlen, hrank]
    omega
  exact ⟨sym, ⟨hsym, by rwa [hlen], by rw [codeword, hlen, hcode]⟩, by rw [slot, hlen, hrank]⟩

/-- The first bits of a longer codeword are past every shorter one. -/
theorem Sends.length_le_of_starts (h : Sends lens sym bs) (h' : Sends lens sym' bs') (hvalid : Valid lens bits)
    (hpre : bs <+: bs') : bs'.length ≤ bs.length := by
  by_contra hlt
  rw [h.length_eq, h'.length_eq] at hlt
  obtain ⟨d, hd⟩ := Nat.exists_eq_add_of_le (Nat.le_of_not_le hlt)
  have hcode' := h'.code_lt_pow hvalid
  rw [hd, Nat.pow_add] at hcode'
  have hsplit : bs' = highBits (lens.getD sym 0) (code lens sym' / 2 ^ d) ++ highBits d (code lens sym') := by
    rw [h'.bits, codeword, hd, highBits_add]
  obtain ⟨rest, hrest⟩ := hpre
  rw [hsplit, h.bits, codeword] at hrest
  have heq := highBits_inj (h.code_lt_pow hvalid) (Nat.div_lt_of_lt_mul (by rwa [Nat.mul_comm]))
    (List.append_inj_left hrest (by rw [highBits_length, highBits_length]))
  have hfirst : (firstCode (countOf lens) (lens.getD sym 0) + countOf lens (lens.getD sym 0)) * 2 ^ d ≤
      code lens sym' := by
    have hlt' : lens.getD sym 0 < lens.getD sym' 0 := Nat.not_le.mp hlt
    have hle : _ ≤ firstCode (countOf lens) _ := firstCode_le hlt'
    rw [show lens.getD sym' 0 - lens.getD sym 0 = d by omega] at hle
    exact hle.trans (Nat.le_add_right _ _)
  have hpast := (Nat.le_div_iff_mul_le (Nat.two_pow_pos d)).mpr hfirst
  have hlast := code_lt h.known h.used
  omega

/-- No codeword of a valid code begins with another. -/
theorem Sends.unique (h : Sends lens sym bs) (h' : Sends lens sym' bs') (hvalid : Valid lens bits)
    (heq : bs ++ rest = bs' ++ rest') : sym = sym' ∧ bs = bs' := by
  have hbits : bs = bs' := by
    rcases List.append_eq_append_iff.mp heq with ⟨t, rfl, -⟩ | ⟨t, rfl, -⟩
    · exact (List.prefix_append bs t).eq_of_length_le (h.length_le_of_starts h' hvalid (List.prefix_append bs t))
    · exact ((List.prefix_append bs' t).eq_of_length_le
        (h'.length_le_of_starts h hvalid (List.prefix_append bs' t))).symm
  refine ⟨?_, hbits⟩
  have hlen : lens.getD sym 0 = lens.getD sym' 0 := by rw [← h.length_eq, ← h'.length_eq, hbits]
  have hcode : code lens sym = code lens sym' := by
    refine highBits_inj (h.code_lt_pow hvalid) (hlen ▸ h'.code_lt_pow hvalid) ?_
    have hwords : codeword lens sym = codeword lens sym' := by rw [← h.bits, ← h'.bits, hbits]
    rwa [codeword, codeword, ← hlen] at hwords
  have hslot : slot lens sym = slot lens sym' := by
    rw [code, code, hlen] at hcode
    rw [slot, slot, hlen]
    omega
  rcases Nat.lt_trichotomy sym sym' with hlt | hsym | hlt
  · exact absurd hslot (slot_ne_of_lt h.known h.used hlt h'.known h'.used)
  · exact hsym
  · exact absurd hslot.symm (slot_ne_of_lt h'.known h'.used hlt h.known h.used)

end Unique

end Lengths

end Huffman
