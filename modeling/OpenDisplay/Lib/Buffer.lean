import Mathlib.Data.List.Basic

/-! Buffers of a fixed size that are filled from the front, and byte strings that are cut
into pieces of one size. -/

namespace Buffers

variable {α : Type*} {n : Nat}

/-- The elements of `src` go to the places from `pos` on, and the others stay. -/
def copyInto (dst : Vector α n) (pos : Nat) (src : List α) : Vector α n :=
  Vector.ofFn fun i => if h : pos ≤ i.val ∧ i.val - pos < src.length then src.get ⟨i.val - pos, h.2⟩ else dst.get i

theorem copyInto_take (dst : Vector α n) {pos : Nat} {src : List α} (h : pos + src.length ≤ n) :
    (copyInto dst pos src).toList.take (pos + src.length) = dst.toList.take pos ++ src := by
  have hlen : (dst.toList.take pos).length = pos := by
    rw [List.length_take, Vector.length_toList]
    omega
  apply List.ext_getElem
  · rw [List.length_take, Vector.length_toList, List.length_append, hlen]
    omega
  · intro i hi hi'
    rw [List.length_append, hlen] at hi'
    by_cases hlt : i < pos
    · rw [List.getElem_append_left (by omega)]
      simp [copyInto, Nat.not_le.mpr hlt, Vector.get]
    · rw [List.getElem_append_right (by omega)]
      simp [copyInto, Nat.le_of_not_lt hlt, show i - pos < src.length by omega, Nat.min_eq_left (show pos ≤ n by omega)]

theorem copyInto_get (dst : Vector α n) (pos : Nat) (src : List α) (i : Nat) (hi : i < n) :
    (copyInto dst pos src)[i] = if h : pos ≤ i ∧ i - pos < src.length then src.get ⟨i - pos, h.2⟩ else dst[i] := by
  simp [copyInto, Vector.get]

theorem copyInto_nil (dst : Vector α n) (pos : Nat) : copyInto dst pos [] = dst := by
  ext i hi
  simp [copyInto_get]

theorem copyInto_append (dst : Vector α n) (xs ys : List α) :
    copyInto (copyInto dst 0 xs) xs.length ys = copyInto dst 0 (xs ++ ys) := by
  ext i hi
  simp only [copyInto_get]
  by_cases hx : i < xs.length
  · simp [Nat.not_le.mpr hx, hx, Nat.lt_add_right, List.getElem_append_left]
  · have hle := Nat.not_lt.mp hx
    by_cases hy : i - xs.length < ys.length
    · simp [hle, hy, List.getElem_append_right, show i < xs.length + ys.length by omega]
    · simp [hle, hy, hx, show ¬ i < xs.length + ys.length by omega]

/-- A copy of the whole size leaves nothing of what was there. -/
theorem copyInto_full (dst dst' : Vector α n) {src : List α} (h : n ≤ src.length) :
    copyInto dst 0 src = copyInto dst' 0 src := by
  ext i hi
  simp [copyInto_get, Nat.lt_of_lt_of_le hi h]

/-- The first `k` pieces of size `size`. -/
def pieces (size : Nat) : Nat → List α → List (List α)
  | 0, _ => []
  | k + 1, xs => xs.take size :: pieces size k (xs.drop size)

end Buffers
