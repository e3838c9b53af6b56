import Mathlib.Data.Set.Insert

/-! What a cell may hold when writes can fail. A write that is done leaves its value, and one
that fails leaves either the value before or its own, so that what the writer knows is a set. -/

namespace Durable

/-- What a writer knows of a write: the value that is there, or those that may be. -/
inductive Deed (ρ : Type*) where
  | put (v : ρ)
  | tried (V : Set ρ)

section Possible

variable {ρ : Type*} {C D : Set ρ} {ds ds' : List (Deed ρ)} {v : ρ}

def Deed.after (C : Set ρ) : Deed ρ → Set ρ
  | .put v => {v}
  | .tried V => C ∪ V

/-- What the cell may hold after the writes. -/
def possible (C : Set ρ) (ds : List (Deed ρ)) : Set ρ := ds.foldl Deed.after C

@[simp] theorem possible_nil : possible C [] = C := rfl

@[simp] theorem possible_put : possible C [.put v] = {v} := rfl

@[simp] theorem possible_tried {V : Set ρ} : possible C [.tried V] = C ∪ V := rfl

theorem possible_append : possible C (ds ++ ds') = possible (possible C ds) ds' :=
  List.foldl_append

theorem possible_mono (h : C ⊆ D) : possible C ds ⊆ possible D ds := by
  induction ds generalizing C D with
  | nil => exact h
  | cons d ds ih =>
    cases d with
    | put v => exact ih (Set.Subset.refl _)
    | tried V => exact ih (Set.union_subset_union_left V h)

end Possible

section Runs

variable {σ ι ρ : Type*} {step : σ → ι → σ} {deeds : σ → ι → List (Deed ρ)} {holds : σ → Set ρ} {Inv : σ → Prop} {s : σ}
  {is js : List ι}

/-- The writes of a run, in order. -/
def deedsOf (step : σ → ι → σ) (deeds : σ → ι → List (Deed ρ)) : σ → List ι → List (Deed ρ)
  | _, [] => []
  | s, i :: is => deeds s i ++ deedsOf step deeds (step s i) is

theorem deedsOf_append :
    deedsOf step deeds s (is ++ js) = deedsOf step deeds s is ++ deedsOf step deeds (is.foldl step s) js := by
  induction is generalizing s with
  | nil => rfl
  | cons i is ih => rw [List.cons_append, deedsOf, ih, deedsOf, List.append_assoc, List.foldl_cons]

/-- A cell that each step keeps within what its writes allow is within what the writes of the
run allow. -/
theorem holds_run (hstep : ∀ s i, Inv s → Inv (step s i) ∧ holds (step s i) ⊆ possible (holds s) (deeds s i))
    (hs : Inv s) (is : List ι) :
    Inv (is.foldl step s) ∧ holds (is.foldl step s) ⊆ possible (holds s) (deedsOf step deeds s is) := by
  induction is generalizing s with
  | nil => exact ⟨hs, Set.Subset.refl _⟩
  | cons i is ih =>
    obtain ⟨hnext, hsub⟩ := hstep s i hs
    obtain ⟨hinv, hrest⟩ := ih hnext
    refine ⟨hinv, hrest.trans ?_⟩
    rw [deedsOf, possible_append]
    exact possible_mono hsub

end Runs

end Durable
