import Mathlib.Data.List.Basic

/-! A flat memory: what is read after a write at the same place, beside it, and over it. -/

namespace Memories

variable {α : Type*}

abbrev Memory (α : Type*) : Type _ := Nat → α

def load (m : Memory α) (p n : Nat) : List α := (List.range n).map fun i => m (p + i)

/-- The elements go to the addresses from `p` on. -/
def store (m : Memory α) (p : Nat) (xs : List α) : Memory α :=
  fun a => if h : p ≤ a ∧ a - p < xs.length then xs.get ⟨a - p, h.2⟩ else m a

variable {m m' : Memory α} {p q n k : Nat} {xs : List α}

theorem load_length : (load m p n).length = n := by
  rw [load, List.length_map, List.length_range]

theorem load_congr (h : ∀ i < n, m (p + i) = m' (q + i)) : load m p n = load m' q n :=
  List.map_congr_left fun i hi => h i (List.mem_range.mp hi)

theorem load_add : load m p (n + k) = load m p n ++ load m (p + n) k := by
  rw [load, List.range_add, List.map_append, List.map_map]
  simp only [load, Function.comp_def, Nat.add_assoc]

theorem load_store_self : load (store m p xs) p xs.length = xs := by
  apply List.ext_getElem load_length
  intro i hi hi'
  simp [load, store, hi']

theorem load_store_ne (h : q + n ≤ p ∨ p + xs.length ≤ q) : load (store m p xs) q n = load m q n := by
  refine load_congr fun i hi => dif_neg ?_
  omega

theorem load_left {ys : List α} (h : load m p (xs ++ ys).length = xs ++ ys) : load m p xs.length = xs := by
  rw [List.length_append, load_add] at h
  exact List.append_inj_left h load_length

theorem load_right {ys : List α} (h : load m p (xs ++ ys).length = xs ++ ys) :
    load m (p + xs.length) ys.length = ys := by
  rw [List.length_append, load_add] at h
  exact List.append_inj_right h load_length

/-- A write behind what has been read goes on with it. -/
theorem load_store_append {ys : List α} (h : load m p xs.length = xs) (hq : q = p + xs.length) :
    load (store m q ys) p (xs ++ ys).length = xs ++ ys := by
  rw [hq, List.length_append, load_add, load_store_self, load_store_ne (.inl (Nat.le_refl _)), h]

theorem store_outside {a : Nat} (h : a < p ∨ p + xs.length ≤ a) : store m p xs a = m a := by
  refine dif_neg ?_
  omega

theorem store_inside {i : Nat} (h : i < xs.length) : store m p xs (p + i) = xs[i] := by
  rw [store, dif_pos (by omega)]
  simp

theorem store_nil : store m p [] = m :=
  funext fun _ => dif_neg fun h => Nat.not_lt_zero _ h.2

/-- A copy reads its source as it was, however the two places overlap. -/
theorem load_move : load (store m' q (load m p n)) q n = load m p n := by
  have h := @load_store_self _ m' q (load m p n)
  rwa [load_length] at h

end Memories
