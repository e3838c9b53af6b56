import Mathlib.Logic.Function.Basic

/-! A memory of several planes that is filled through one stream. Data goes to the plane that was
started last, and a plane that is started again loses what it had. -/

namespace Canvases

/-- For each plane, the window it was started in and the data it has got since. -/
structure Canvas (ω π β : Type*) where
  window : Option ω := none
  selected : Option π := none
  planes : π → Option ω × List β := fun _ => (none, [])

variable {ω π β : Type*} {w : ω} {first second p q : π} {size : Nat} {xs ys : List β} {c : Canvas ω π β}

/-- The plane that the element at `n` of a stream is for, when the first `size` are for one plane. -/
def side (first second : π) (size n : Nat) : π := if n < size then first else second

/-- A stream is on the canvas: its first `size` elements on one plane and the rest on another, each
within the window. -/
structure Split (w : ω) (first second : π) (size : Nat) (xs : List β) (c : Canvas ω π β) : Prop where
  head : (c.planes first).2 = xs.take size
  tail : (c.planes second).2 = xs.drop size
  headIn : xs.take size ≠ [] → (c.planes first).1 = some w
  tailIn : xs.drop size ≠ [] → (c.planes second).1 = some w
  place : xs ≠ [] → xs.length ≠ size → c.selected = some (side first second size xs.length)

theorem Split.nil (hfirst : (c.planes first).2 = []) (hsecond : (c.planes second).2 = []) :
    Split w first second size [] c where
  head := by rw [hfirst, List.take_nil]
  tail := by rw [hsecond, List.drop_nil]
  headIn h := absurd List.take_nil h
  tailIn h := absurd List.drop_nil h
  place h := absurd rfl h

def Canvas.setWindow (w : ω) (c : Canvas ω π β) : Canvas ω π β := { c with window := some w }

theorem Split.setWindow (h : Split w first second size xs c) (v : ω) :
    Split w first second size xs (c.setWindow v) := ⟨h.head, h.tail, h.headIn, h.tailIn, h.place⟩

variable [DecidableEq π]

section Start

def Canvas.start (p : π) (c : Canvas ω π β) : Canvas ω π β :=
  { c with selected := some p, planes := Function.update c.planes p (c.window, []) }

@[simp] theorem Canvas.start_self : (c.start p).planes p = (c.window, []) := Function.update_self ..

theorem Canvas.start_of_ne (h : q ≠ p) : (c.start p).planes q = c.planes q := Function.update_of_ne h ..

/-- Nothing is lost by a start where the share of the plane begins. -/
theorem Split.start (h : Split w first second size xs c) (hne : first ≠ second) (hat : xs = [] ∨ xs.length = size) :
    Split w first second size xs (c.start (side first second size xs.length)) := by
  unfold side
  by_cases hlt : xs.length < size
  · obtain rfl : xs = [] := hat.resolve_right (Nat.ne_of_lt hlt)
    rw [if_pos hlt]
    refine .nil (by rw [Canvas.start_self]) ?_
    rw [Canvas.start_of_ne hne.symm, h.tail, List.drop_nil]
  · have hlen : xs.length ≤ size := by
      rcases hat with rfl | hlen
      · exact Nat.zero_le size
      · exact Nat.le_of_eq hlen
    have hdrop : xs.drop size = [] := List.drop_eq_nil_of_le hlen
    rw [if_neg hlt]
    refine ⟨?_, ?_, fun hn => ?_, fun hn => absurd hdrop hn, fun hn hend => absurd (hat.resolve_left hn) hend⟩
    · rw [Canvas.start_of_ne hne, h.head]
    · rw [Canvas.start_self, hdrop]
    · rw [Canvas.start_of_ne hne]
      exact h.headIn hn

end Start

section Data

def Canvas.data (ys : List β) (c : Canvas ω π β) : Canvas ω π β :=
  match c.selected with
  | none => c
  | some p => { c with planes := Function.update c.planes p ((c.planes p).1, (c.planes p).2 ++ ys) }

@[simp] theorem Canvas.data_window : (c.data ys).window = c.window := by
  unfold Canvas.data
  split <;> rfl

@[simp] theorem Canvas.data_selected : (c.data ys).selected = c.selected := by
  unfold Canvas.data
  split <;> rfl

theorem Canvas.data_self (h : c.selected = some p) :
    (c.data ys).planes p = ((c.planes p).1, (c.planes p).2 ++ ys) := by
  simp [Canvas.data, h]

theorem Canvas.data_of_ne (h : c.selected = some p) (hq : q ≠ p) : (c.data ys).planes q = c.planes q := by
  simp [Canvas.data, h, Function.update_of_ne hq]

/-- Data that stays on one side of the cut. -/
theorem Split.data (h : Split w first second size xs c) (hne : first ≠ second)
    (hsel : c.selected = some (side first second size xs.length))
    (hin : (c.planes (side first second size xs.length)).1 = some w)
    (hcut : xs.length < size → xs.length + ys.length ≤ size) :
    Split w first second size (xs ++ ys) (c.data ys) := by
  unfold side at hsel hin
  have hlen : (xs ++ ys).length = xs.length + ys.length := List.length_append
  by_cases hlt : xs.length < size
  · have hall : (xs ++ ys).length ≤ size := by rw [hlen]; exact hcut hlt
    rw [if_pos hlt] at hin hsel
    refine ⟨?_, ?_, fun _ => ?_, fun hn => absurd (List.drop_eq_nil_of_le hall) hn, fun _ hend => ?_⟩
    · rw [Canvas.data_self hsel, h.head, List.take_of_length_le hall, List.take_of_length_le (Nat.le_of_lt hlt)]
    · rw [Canvas.data_of_ne hsel hne.symm, h.tail, List.drop_eq_nil_of_le hall,
        List.drop_eq_nil_of_le (Nat.le_of_lt hlt)]
    · rw [Canvas.data_self hsel]
      exact hin
    · rw [Canvas.data_selected, hsel, side, if_pos (Nat.lt_of_le_of_ne hall hend)]
  · have hle : size ≤ xs.length := Nat.not_lt.mp hlt
    rw [if_neg hlt] at hin hsel
    refine ⟨?_, ?_, fun hn => ?_, fun _ => ?_, fun _ _ => ?_⟩
    · rw [Canvas.data_of_ne hsel hne, h.head, List.take_append_of_le_length hle]
    · rw [Canvas.data_self hsel, h.tail, List.drop_append_of_le_length hle]
    · rw [Canvas.data_of_ne hsel hne]
      rw [List.take_append_of_le_length hle] at hn
      exact h.headIn hn
    · rw [Canvas.data_self hsel]
      exact hin
    · rw [Canvas.data_selected, hsel, side, if_neg (by omega)]

end Data

end Canvases
