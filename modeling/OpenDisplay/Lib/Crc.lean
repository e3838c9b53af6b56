import Mathlib.Algebra.CharP.Two
import Mathlib.Algebra.Field.ZMod
import Mathlib.Algebra.Polynomial.FieldDivision
import Mathlib.Logic.Function.Iterate
import Mathlib.RingTheory.PrincipalIdealDomain
import Mathlib.Tactic.LinearCombination

/-! Checksums that are remainders of a division over the field of two elements: bits as
coefficients, the shift register that divides, and bursts of errors. -/

namespace Checksums

open Polynomial

section Bits

variable {α : Type*} {u v : List Bool}

noncomputable def digit (b : Bool) : (ZMod 2)[X] := if b then 1 else 0

/-- The bits are coefficients, from the highest one on. -/
noncomputable def ofBits : List Bool → (ZMod 2)[X]
  | [] => 0
  | b :: bs => digit b * X ^ bs.length + ofBits bs

theorem digit_xor (a b : Bool) : digit (a ^^ b) = digit a + digit b := by
  cases a <;> cases b <;> simp [digit, CharTwo.add_self_eq_zero]

theorem digit_injective : Function.Injective digit := by
  intro a b h
  cases a <;> cases b <;> simp_all [digit]

theorem ofBits_append (u v : List Bool) : ofBits (u ++ v) = ofBits u * X ^ v.length + ofBits v := by
  induction u with
  | nil => simp [ofBits]
  | cons b u ih =>
    rw [List.cons_append, ofBits, ofBits, ih, List.length_append]
    ring

theorem ofBits_replicate (n : Nat) : ofBits (List.replicate n false) = 0 := by
  induction n with
  | zero => rfl
  | succ n ih => simp [List.replicate_succ, ofBits, digit, ih]

theorem ofBits_xor (f g : α → Bool) (xs : List α) :
    ofBits (xs.map fun a => f a ^^ g a) = ofBits (xs.map f) + ofBits (xs.map g) := by
  induction xs with
  | nil => simp [ofBits]
  | cons a xs ih =>
    simp only [List.map_cons, ofBits, List.length_map, digit_xor, ih]
    ring

theorem ofBits_degree (u : List Bool) : (ofBits u).degree < u.length := by
  induction u with
  | nil => simp [ofBits]
  | cons b u ih =>
    have hhead : (digit b * X ^ u.length).degree ≤ (u.length : WithBot Nat) := by
      cases b <;> simp [digit]
    have hlonger : (u.length : WithBot Nat) < ((b :: u).length : WithBot Nat) :=
      Nat.cast_lt.mpr (Nat.lt_succ_self _)
    exact (degree_add_le _ _).trans_lt (max_lt (hhead.trans_lt hlonger) (ih.trans hlonger))

theorem ofBits_injective (hlen : u.length = v.length) (h : ofBits u = ofBits v) : u = v := by
  induction u generalizing v with
  | nil => exact (List.eq_nil_of_length_eq_zero hlen.symm).symm
  | cons a u ih =>
    cases v with
    | nil => simp at hlen
    | cons b v =>
      have hlen' : u.length = v.length := Nat.succ.inj hlen
      -- the head is the coefficient that the tail is too short for
      have hcoeff : ∀ (c : Bool) (w : List Bool), (ofBits (c :: w)).coeff w.length = (digit c).coeff 0 := by
        intro c w
        rw [ofBits, coeff_add, coeff_eq_zero_of_degree_lt (ofBits_degree w), add_zero]
        simpa using coeff_mul_X_pow (digit c) w.length 0
      have hhead : digit a = digit b := by
        have hc := hcoeff a u
        rw [h, hlen', hcoeff b v] at hc
        cases a <;> cases b <;> simp_all [digit]
      obtain rfl := digit_injective hhead
      rw [ofBits, ofBits, hlen', add_left_cancel_iff] at h
      rw [ih hlen' h]

end Bits

section Burst

variable {α : Type*} {k : Nat}

/-- The lists differ at most at `k` places in a row. -/
def DifferWithin (k : Nat) (u v : List α) : Prop := ∃ i, ∀ j, u[j]? ≠ v[j]? → i ≤ j ∧ j < i + k

/-- What differs is a piece in the middle. -/
theorem DifferWithin.split {u v : List α} (h : DifferWithin k u v) (hlen : u.length = v.length) :
    ∃ pre x y post, u = pre ++ (x ++ post) ∧ v = pre ++ (y ++ post) ∧ x.length = y.length ∧ x.length ≤ k := by
  obtain ⟨i, hi⟩ := h
  have hpre : u.take i = v.take i := by
    refine List.ext_getElem? fun j => ?_
    rw [List.getElem?_take, List.getElem?_take]
    split_ifs with hj
    · by_contra hne
      have := hi j hne
      omega
    · rfl
  have hpost : (u.drop i).drop k = (v.drop i).drop k := by
    refine List.ext_getElem? fun j => ?_
    rw [List.getElem?_drop, List.getElem?_drop, List.getElem?_drop, List.getElem?_drop]
    by_contra hne
    have := hi _ hne
    omega
  refine ⟨u.take i, (u.drop i).take k, (v.drop i).take k, (u.drop i).drop k, ?_, ?_, ?_, ?_⟩
  · rw [List.take_append_drop, List.take_append_drop]
  · rw [hpre, hpost, List.take_append_drop, List.take_append_drop]
  · rw [List.length_take, List.length_take, List.length_drop, List.length_drop, hlen]
  · exact List.length_take_le _ _

theorem differWithin_append {x y : List α} (hxy : x.length = y.length) (hx : x.length ≤ k) (pre post : List α) :
    DifferWithin k (pre ++ (x ++ post)) (pre ++ (y ++ post)) := by
  refine ⟨pre.length, fun j hj => ?_⟩
  by_contra hout
  refine hj ?_
  by_cases hpre : j < pre.length
  · rw [List.getElem?_append_left hpre, List.getElem?_append_left hpre]
  · have hpost : x.length ≤ j - pre.length := by omega
    rw [List.getElem?_append_right (by omega), List.getElem?_append_right hpost,
      List.getElem?_append_right (by omega), List.getElem?_append_right (hxy ▸ hpost), hxy]

/-- A burst is a multiple of no divisor that is as long, unless `X` divides it. -/
theorem not_dvd_burst {P : (ZMod 2)[X]} (hP : P.Monic) (hconst : P.coeff 0 ≠ 0) {u v : List Bool}
    (hlen : u.length = v.length) (hne : u ≠ v) (h : DifferWithin P.natDegree u v) (n : Nat) :
    ¬ P ∣ (ofBits u - ofBits v) * X ^ n := by
  obtain ⟨pre, x, y, post, rfl, rfl, hxy, hx⟩ := h.split hlen
  intro hdvd
  have hX : Irreducible (X : (ZMod 2)[X]) := irreducible_X
  have hcoprime : IsCoprime P X := (hX.coprime_iff_not_dvd.mpr fun hd => hconst (X_dvd_iff.mp hd)).symm
  have hburst :
      ofBits (pre ++ (x ++ post)) - ofBits (pre ++ (y ++ post)) = (ofBits x - ofBits y) * X ^ post.length := by
    simp only [ofBits_append, List.length_append, hxy]
    ring
  have hdvd' : P ∣ ofBits x - ofBits y := by
    rw [hburst] at hdvd
    exact (hcoprime.pow_right.dvd_of_dvd_mul_right (hcoprime.pow_right.dvd_of_dvd_mul_right hdvd))
  have hdegree : (ofBits x - ofBits y).degree < P.degree := by
    rw [degree_eq_natDegree hP.ne_zero]
    refine (degree_sub_le _ _).trans_lt (max_lt ?_ ?_)
    · exact (ofBits_degree x).trans_le (Nat.cast_le.mpr hx)
    · exact (ofBits_degree y).trans_le (Nat.cast_le.mpr (hxy ▸ hx))
  have heq : ofBits x = ofBits y := sub_eq_zero.mp (eq_zero_of_dvd_of_degree_lt hdvd' hdegree)
  exact hne (by rw [ofBits_injective hxy heq])

end Burst

section Register

variable {w k : Nat} {p : Nat → Bool} {σ β : Type*}

/-- The polynomial of a register of `w` bits, of which the first is the highest. -/
noncomputable def value (w : Nat) (f : Nat → Bool) : (ZMod 2)[X] := ofBits ((List.range w).map f)

/-- The divisor without its highest coefficient is what the register is combined with. -/
noncomputable def divisor (w : Nat) (p : Nat → Bool) : (ZMod 2)[X] := X ^ w + value w p

theorem value_degree (w : Nat) (f : Nat → Bool) : (value w f).degree < w := by
  have h := ofBits_degree ((List.range w).map f)
  rwa [List.length_map, List.length_range] at h

theorem value_xor (w : Nat) (f g : Nat → Bool) : value w (fun i => f i ^^ g i) = value w f + value w g :=
  ofBits_xor f g _

/-- Bits that are followed by zeros up to the end of the register. -/
theorem value_pad {f : Nat → Bool} (hkw : k ≤ w) (h : ∀ i, k ≤ i → f i = false) :
    value w f = ofBits ((List.range k).map f) * X ^ (w - k) := by
  obtain ⟨n, rfl⟩ := Nat.exists_eq_add_of_le hkw
  have hzero : ((List.range n).map fun i => f (k + i)) = List.replicate n false := by
    refine List.eq_replicate_iff.mpr ⟨by simp, fun b hb => ?_⟩
    obtain ⟨i, -, rfl⟩ := List.mem_map.mp hb
    exact h _ (Nat.le_add_right k i)
  rw [value, List.range_add, List.map_append, List.map_map, ofBits_append]
  simp only [Function.comp_def, hzero, ofBits_replicate, List.length_replicate, Nat.add_sub_cancel_left, add_zero]

theorem divisor_natDegree (w : Nat) (p : Nat → Bool) : (divisor w p).natDegree = w := by
  have hlower : (value w p).degree < (X ^ w : (ZMod 2)[X]).degree := by
    rw [degree_X_pow]
    exact value_degree w p
  refine natDegree_eq_of_degree_eq_some ?_
  rw [divisor, degree_add_eq_left_of_degree_lt hlower, degree_X_pow]

theorem divisor_monic (w : Nat) (p : Nat → Bool) : (divisor w p).Monic := monic_X_pow_add (value_degree w p)

theorem divisor_coeff_zero (hp : p w = true) : (divisor (w + 1) p).coeff 0 ≠ 0 := by
  rw [divisor, value, List.range_succ, List.map_append, ofBits_append]
  simp [ofBits, digit, hp]

/-- A shift moves the highest coefficient out, and the divisor is taken off in exchange. -/
theorem value_shift {f g : Nat → Bool} (hend : f w = false) (hstep : ∀ i, g i = (f (i + 1) ^^ (f 0 && p i))) :
    value w g = (value w f * X) %ₘ divisor w p := by
  have hshift : value w f * X = digit (f 0) * X ^ w + value w fun i => f (i + 1) := by
    have hsnoc : value (w + 1) f = value w f * X + digit (f w) := by
      rw [value, List.range_succ, List.map_append, ofBits_append]
      simp [value, ofBits]
    have hcons : value (w + 1) f = digit (f 0) * X ^ w + value w fun i => f (i + 1) := by
      rw [value, List.range_succ_eq_map, List.map_cons, List.map_map, ofBits]
      simp [value, Function.comp_def]
    rw [← hcons, hsnoc, hend]
    simp [digit]
  have hand : value w (fun i => f 0 && p i) = digit (f 0) * value w p := by
    cases f 0 with
    | true => simp [digit]
    | false =>
      have hzero := value_pad (f := fun _ => false) (Nat.zero_le w) fun _ _ => rfl
      simp only [Bool.false_and, hzero]
      simp [digit, ofBits]
  have hg : value w g = (value w fun i => f (i + 1)) + digit (f 0) * value w p := by
    rw [funext hstep, value_xor, hand]
  refine (div_modByMonic_unique (digit (f 0)) _ (divisor_monic w p) ⟨?_, ?_⟩).2.symm
  · rw [hg, hshift, divisor]
    linear_combination CharTwo.add_self_eq_zero (digit (f 0) * value w p)
  · rw [degree_eq_natDegree (divisor_monic w p).ne_zero, divisor_natDegree]
    exact value_degree w g

/-- A register that takes symbols of `k` bits in: each is added at its front, and then shifted
through it. -/
structure Register (w k : Nat) (p : Nat → Bool) (σ β : Type*) where
  coeff : σ → Nat → Bool
  bit : β → Nat → Bool
  step : σ → σ
  add : σ → β → σ
  fits : k ≤ w
  coeff_outside : ∀ s i, w ≤ i → coeff s i = false
  bit_outside : ∀ b i, k ≤ i → bit b i = false
  coeff_ext : ∀ s t, (∀ i < w, coeff s i = coeff t i) → s = t
  bit_ext : ∀ a b, (∀ i < k, bit a i = bit b i) → a = b
  coeff_step : ∀ s i, coeff (step s) i = (coeff s (i + 1) ^^ (coeff s 0 && p i))
  coeff_add : ∀ s b i, coeff (add s b) i = (coeff s i ^^ bit b i)

namespace Register

variable (r : Register w k p σ β)

def feed (s : σ) (b : β) : σ := r.step^[k] (r.add s b)

/-- The bits of the symbols, in the order in which they are taken in. -/
def bits (data : List β) : List Bool := data.flatMap fun b => (List.range k).map (r.bit b)

theorem bits_cons (b : β) (data : List β) : r.bits (b :: data) = (List.range k).map (r.bit b) ++ r.bits data := rfl

theorem bits_length (data : List β) : (r.bits data).length = k * data.length := by
  induction data with
  | nil => rfl
  | cons b data ih =>
    rw [bits_cons, List.length_append, List.length_map, List.length_range, ih, List.length_cons]
    ring

theorem bits_injective {u v : List β} (hlen : u.length = v.length) (h : r.bits u = r.bits v) : u = v := by
  induction u generalizing v with
  | nil => exact (List.eq_nil_of_length_eq_zero hlen.symm).symm
  | cons a u ih =>
    cases v with
    | nil => simp at hlen
    | cons b v =>
      rw [bits_cons, bits_cons] at h
      obtain ⟨hhead, htail⟩ := List.append_inj h (by simp)
      have hab : a = b := r.bit_ext a b fun i hi => List.map_inj_left.mp hhead i (List.mem_range.mpr hi)
      rw [hab, ih (Nat.succ.inj hlen) htail]

/-- Whatever is a remainder already stays one under a further division. -/
theorem mul_modByMonic_add {P : (ZMod 2)[X]} (hP : P.Monic) (a b c : (ZMod 2)[X]) :
    ((a %ₘ P) * b + c) %ₘ P = (a * b + c) %ₘ P := by
  refine modByMonic_eq_of_dvd_sub hP ?_
  rw [add_sub_add_right_eq_sub, ← sub_mul]
  exact (dvd_modByMonic_sub a P).mul_right b

theorem value_iterate (s : σ) (n : Nat) :
    value w (r.coeff (r.step^[n] s)) = (value w (r.coeff s) * X ^ n) %ₘ divisor w p := by
  have hP := divisor_monic w p
  induction n with
  | zero =>
    refine ((modByMonic_eq_self_iff hP).mpr ?_).symm.trans (by simp)
    rw [degree_eq_natDegree hP.ne_zero, divisor_natDegree]
    exact value_degree w _
  | succ n ih =>
    have hmod := mul_modByMonic_add hP (value w (r.coeff s) * X ^ n) X 0
    rw [add_zero, add_zero] at hmod
    rw [Function.iterate_succ_apply', value_shift (r.coeff_outside _ w le_rfl) (r.coeff_step _), ih, hmod, pow_succ,
      mul_assoc]

theorem value_feed (s : σ) (b : β) : value w (r.coeff (r.feed s b)) =
    (value w (r.coeff s) * X ^ k + ofBits ((List.range k).map (r.bit b)) * X ^ w) %ₘ divisor w p := by
  have hadd : value w (r.coeff (r.add s b)) =
      value w (r.coeff s) + ofBits ((List.range k).map (r.bit b)) * X ^ (w - k) := by
    rw [funext (r.coeff_add s b), value_xor, value_pad r.fits (r.bit_outside b)]
  rw [feed, value_iterate, hadd, add_mul, mul_assoc, ← pow_add, Nat.sub_add_cancel r.fits]

/-- The register holds the remainder of what it has taken in. -/
theorem value_foldl (data : List β) (s : σ) : value w (r.coeff (data.foldl r.feed s)) =
    (value w (r.coeff s) * X ^ (r.bits data).length + ofBits (r.bits data) * X ^ w) %ₘ divisor w p := by
  induction data generalizing s with
  | nil => simpa [bits, ofBits] using r.value_iterate s 0
  | cons b data ih =>
    rw [List.foldl_cons, ih, value_feed, mul_modByMonic_add (divisor_monic w p), bits_cons, ofBits_append,
      List.length_append, List.length_map, List.length_range]
    congr 1
    ring

end Register

/-- No burst that is not longer than the register leaves it as it was. -/
theorem Register.burst (r : Register (w + 1) k p σ β) (hp : p w = true) {u v : List β} (hlen : u.length = v.length)
    (hne : u ≠ v) (h : DifferWithin (w + 1) (r.bits u) (r.bits v)) (s : σ) :
    u.foldl r.feed s ≠ v.foldl r.feed s := by
  intro heq
  have hbits : (r.bits u).length = (r.bits v).length := by rw [bits_length, bits_length, hlen]
  have hvalue := congrArg (fun t => value (w + 1) (r.coeff t)) heq
  simp only [value_foldl, hbits] at hvalue
  rw [← sub_eq_zero, ← sub_modByMonic, add_sub_add_left_eq_sub, ← sub_mul,
    modByMonic_eq_zero_iff_dvd (divisor_monic _ _)] at hvalue
  refine not_dvd_burst (divisor_monic _ p) (divisor_coeff_zero hp) hbits
    (fun hb => hne (r.bits_injective hlen hb)) ?_ _ hvalue
  rwa [divisor_natDegree]

end Register

end Checksums
