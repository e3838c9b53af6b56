import Mathlib.Algebra.Group.Fin.Basic
import Mathlib.Data.ZMod.Defs
import Mathlib.Logic.Function.Basic
import Mathlib.Tactic.Abel
import Mathlib.Tactic.Common

/-! Ring buffers with one slot left unused. Indices are numbers modulo the slots,
and the contents are the slots from one index up to another. -/

namespace Rings

variable {n : Nat} [NeZero n] {α : Type*} {ring : Fin n → α} {a b c : Fin n} {k : Nat}

/-- The distance from one index up to another. -/
def gap (a b : Fin n) : Nat := (b - a).val

/-- The `k` slots from an index on. -/
def slots (ring : Fin n → α) : Fin n → Nat → List α
  | _, 0 => []
  | a, k + 1 => ring a :: slots ring (a + 1) k

def contents (ring : Fin n → α) (a b : Fin n) : List α := slots ring a (gap a b)

omit [NeZero n] in
theorem gap_lt (a b : Fin n) : gap a b < n := (b - a).isLt

theorem gap_eq_zero : gap a b = 0 ↔ a = b := by
  rw [gap, ← Fin.val_zero n, Fin.val_inj, sub_eq_zero, eq_comm]

@[simp] theorem gap_self (a : Fin n) : gap a a = 0 := gap_eq_zero.mpr rfl

theorem val_add_one {x : Fin n} (h : x.val + 1 < n) : (x + 1).val = x.val + 1 := by
  have hone : (1 : Fin n).val = 1 := by
    rw [Fin.val_one']
    exact Nat.mod_eq_of_lt (by omega)
  rw [Fin.val_add_eq_ite, hone, if_neg (by omega)]

theorem val_add_one_of_last {x : Fin n} (h : x.val + 1 = n) : x + 1 = 0 := by
  apply Fin.ext
  rw [Fin.val_add, Fin.val_one', Nat.add_mod_mod, h, Nat.mod_self, Fin.val_zero]

theorem gap_next_right (h : gap a b + 1 < n) : gap a (b + 1) = gap a b + 1 := by
  unfold gap at h ⊢
  rw [add_sub_right_comm]
  exact val_add_one h

theorem gap_next_left (h : a ≠ b) : gap a b = gap (a + 1) b + 1 := by
  have hsum : b - a = b - (a + 1) + 1 := by abel
  have hlt : (b - (a + 1)).val + 1 < n := by
    by_contra hge
    have hlast : (b - (a + 1)).val + 1 = n := by
      have := (b - (a + 1)).isLt
      omega
    rw [val_add_one_of_last hlast, sub_eq_zero] at hsum
    exact h hsum.symm
  unfold gap
  rw [hsum]
  exact val_add_one hlt

/-- Two distances in a row, which may lead once around the ring. -/
theorem gap_add_gap (a b c : Fin n) :
    gap a b + gap b c = gap a c ∨ gap a b + gap b c = gap a c + n := by
  have hsum : c - a = (b - a) + (c - b) := by abel
  have hval : gap a c = if n ≤ gap a b + gap b c then gap a b + gap b c - n else gap a b + gap b c := by
    unfold gap
    rw [hsum]
    exact Fin.val_add_eq_ite _ _
  split_ifs at hval with hn
  · exact .inr (by omega)
  · exact .inl hval.symm

@[simp] theorem slots_length (ring : Fin n → α) (a : Fin n) (k : Nat) : (slots ring a k).length = k := by
  induction k generalizing a with
  | zero => rfl
  | succ k ih => rw [slots, List.length_cons, ih]

@[simp] theorem contents_length (ring : Fin n → α) (a b : Fin n) :
    (contents ring a b).length = gap a b := slots_length ring a _

@[simp] theorem contents_self (ring : Fin n → α) (a : Fin n) : contents ring a a = [] := by
  rw [contents, gap_self, slots]

theorem contents_next_left (h : a ≠ b) : contents ring a b = ring a :: contents ring (a + 1) b := by
  rw [contents, gap_next_left h, slots, contents]

theorem contents_split (h : gap a b ≤ gap a c) :
    contents ring a c = contents ring a b ++ contents ring b c := by
  induction hk : gap a b generalizing a with
  | zero =>
    rw [gap_eq_zero] at hk
    rw [hk, contents_self, List.nil_append]
  | succ k ih =>
    have hab : a ≠ b := by
      rintro rfl
      simp at hk
    have hac : a ≠ c := by
      rintro rfl
      simp at h
      omega
    rw [gap_next_left hab] at h hk
    rw [gap_next_left hac] at h
    rw [contents_next_left hab, contents_next_left hac, ih (by omega) (by omega), List.cons_append]

theorem slots_congr {ring' : Fin n → α} (h : ∀ c, gap a c < k → ring c = ring' c) (hk : k ≤ n) :
    slots ring a k = slots ring' a k := by
  induction k generalizing a with
  | zero => rfl
  | succ k ih =>
    rw [slots, slots, h a (by simp), ih (fun c hc => h c ?_) (by omega)]
    by_cases hac : a = c
    · rw [hac, gap_self]
      omega
    · rw [gap_next_left hac]
      omega

theorem contents_update_of_le {x : α} (h : gap a b ≤ gap a c) :
    contents (Function.update ring c x) a b = contents ring a b := by
  refine slots_congr (fun d hd => Function.update_of_ne ?_ _ _) (gap_lt a b).le
  rintro rfl
  omega

theorem slots_snoc (ring : Fin n → α) (hk : gap a b = k) (hlt : k + 1 ≤ n) :
    slots ring a (k + 1) = slots ring a k ++ [ring b] := by
  induction k generalizing a with
  | zero =>
    rw [gap_eq_zero] at hk
    rw [hk]
    rfl
  | succ k ih =>
    have hab : a ≠ b := by
      rintro rfl
      simp at hk
    have hnext : gap (a + 1) b = k := by
      rw [gap_next_left hab] at hk
      omega
    rw [slots, ih hnext (by omega)]
    rfl

theorem contents_next_right (h : gap a b + 1 < n) :
    contents ring a (b + 1) = contents ring a b ++ [ring b] := by
  rw [contents, gap_next_right h, slots_snoc ring rfl h.le, contents]

theorem contents_push {x : α} (h : gap a b + 1 < n) :
    contents (Function.update ring b x) a (b + 1) = contents ring a b ++ [x] := by
  rw [contents_next_right h, contents_update_of_le le_rfl, Function.update_self]

end Rings
