import Mathlib.Data.List.Basic

/-! Loops with a termination certificate. A loop body either continues with a
new state or stops with a result, and a measure that every continuation
decreases makes the loop a total function. -/

namespace Loops

inductive Iter (σ ρ : Type*) where
  | next (s : σ)
  | stop (r : ρ)

def loop {σ ρ : Type*} (body : σ → Iter σ ρ) (μ : σ → Nat)
    (hdec : ∀ s t, body s = .next t → μ t < μ s) (s : σ) : ρ :=
  match _hs : body s with
  | .next t => loop body μ hdec t
  | .stop r => r
termination_by μ s
decreasing_by exact hdec s t _hs

/-- The loop that starts from a state stops with a result on its `n`-th pass. -/
inductive Stops {σ ρ : Type*} (body : σ → Iter σ ρ) : Nat → σ → ρ → Prop where
  | stop {s : σ} {r : ρ} : body s = .stop r → Stops body 1 s r
  | next {n : Nat} {s t : σ} {r : ρ} : body s = .next t → Stops body n t r → Stops body (n + 1) s r

section Rules

variable {σ ρ : Type*} {f : σ → Iter σ ρ} {μ : σ → Nat}
  {d : ∀ s t, f s = .next t → μ t < μ s}

theorem loop_next {s t : σ} (h : f s = .next t) :
    loop f μ d s = loop f μ d t := by
  rw [loop]
  split
  · next u hu =>
    obtain rfl : u = t := by simpa [h] using hu.symm
    rfl
  · next r hr => simp [h] at hr

theorem loop_stop {s : σ} {r : ρ} (h : f s = .stop r) : loop f μ d s = r := by
  rw [loop]
  split
  · next u hu => simp [h] at hu
  · next q hq => simpa [h] using hq.symm

/-- The invariant rule of a loop: what holds where the body stops and is
carried back over a continuation holds of the whole loop. -/
theorem loop_rule {P : σ → ρ → Prop} (hstop : ∀ s r, f s = .stop r → P s r)
    (hnext : ∀ s t r, f s = .next t → P t r → P s r) (s : σ) :
    P s (loop f μ d s) := by
  induction hm : μ s using Nat.strongRecOn generalizing s with
  | _ m ih =>
    cases hb : f s with
    | stop r => rw [loop_stop hb]; exact hstop s r hb
    | next t =>
      rw [loop_next hb]
      exact hnext s t _ hb (ih (μ t) (hm ▸ d s t hb) t rfl)

/-- A loop makes no more passes than its measure has values. -/
theorem loop_stops (s : σ) : ∃ n ≤ μ s + 1, Stops f n s (loop f μ d s) := by
  apply loop_rule (P := fun s r => ∃ n ≤ μ s + 1, Stops f n s r)
  · intro s r h
    exact ⟨1, Nat.le_add_left 1 _, .stop h⟩
  · rintro s t r h ⟨n, hn, hstops⟩
    have hlt := d s t h
    exact ⟨n + 1, by omega, .next h hstops⟩

/-- A loop has the same result with every measure. -/
theorem loop_measure {μ' : σ → Nat} {d' : ∀ s t, f s = .next t → μ' t < μ' s} (s : σ) :
    loop f μ d s = loop f μ' d' s := by
  apply loop_rule (P := fun s r => r = loop f μ' d' s)
  · intro s r h
    exact (loop_stop h).symm
  · intro s t r h ih
    rw [loop_next h]
    exact ih

end Rules

end Loops
