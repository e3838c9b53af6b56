import Mathlib.Data.List.Basic

/-! Safety properties of logs and conditions on the steps of a run. A log only grows, and each
entry is judged by the entries before it. -/

namespace Traces

variable {α : Type*} {P : List α → α → Prop} {es es' : List α} {e : α}

/-- Every entry is allowed by the entries before it. -/
def Always (P : List α → α → Prop) (es : List α) : Prop :=
  ∀ pre e post, es = pre ++ e :: post → P pre e

theorem Always.nil : Always P [] := by
  intro pre e post h
  simp at h

theorem always_append : Always P (es ++ es') ↔
    Always P es ∧ ∀ pre e post, es' = pre ++ e :: post → P (es ++ pre) e := by
  constructor
  · intro h
    constructor
    · intro pre e post he
      exact h pre e (post ++ es') (by simp [he])
    · intro pre e post he
      exact h (es ++ pre) e post (by simp [he])
  · rintro ⟨h, h'⟩ pre e post he
    rcases List.append_eq_append_iff.mp he with ⟨mid, rfl, hm⟩ | ⟨mid, rfl, hm⟩
    · exact h' mid e post hm
    · cases mid with
      | nil =>
        have := h' [] e post (by simpa using hm.symm)
        simpa using this
      | cons x mid =>
        obtain ⟨rfl, rfl⟩ := List.cons.inj hm
        exact h pre e mid rfl

theorem always_concat : Always P (es ++ [e]) ↔ Always P es ∧ P es e := by
  rw [always_append]
  refine and_congr_right fun _ => ⟨fun h => by simpa using h [] e [] rfl, ?_⟩
  intro h pre x post hx
  rcases List.singleton_eq_append_iff.mp hx with ⟨rfl, hp⟩ | ⟨_, hp⟩
  · obtain ⟨rfl, -⟩ := List.cons.inj hp
    simpa using h
  · simp at hp

theorem always_iff_getElem : Always P es ↔ ∀ i, (h : i < es.length) → P (es.take i) (es[i]) := by
  constructor
  · intro h i hi
    exact h (es.take i) (es[i]) (es.drop (i + 1)) (by rw [← List.drop_eq_getElem_cons hi, List.take_append_drop])
  · rintro h pre e post rfl
    have hlen : pre.length < (pre ++ e :: post).length := by simp
    simpa using h pre.length hlen

section Runs

variable {σ ι : Type*} {step : σ → ι → σ} {C : σ → ι → Prop} {s : σ} {acts acts' : List ι}

/-- Every step of the run meets `C` in the state it starts from. -/
def Each (step : σ → ι → σ) (C : σ → ι → Prop) : σ → List ι → Prop
  | _, [] => True
  | s, a :: acts => C s a ∧ Each step C (step s a) acts

instance decidableEach [∀ s a, Decidable (C s a)] : (s : σ) → (acts : List ι) → Decidable (Each step C s acts)
  | _, [] => inferInstanceAs (Decidable True)
  | s, a :: acts => @instDecidableAnd _ _ _ (decidableEach (step s a) acts)

theorem each_append : Each step C s (acts ++ acts') ↔
    Each step C s acts ∧ Each step C (acts.foldl step s) acts' := by
  induction acts generalizing s with
  | nil => simp [Each]
  | cons a acts ih => simp only [List.cons_append, Each, ih, List.foldl_cons, and_assoc]

/-- What every step keeps under the condition holds after the run. -/
theorem Each.keeps {I : σ → Prop} (h : Each step C s acts) (hstep : ∀ s a, I s → C s a → I (step s a))
    (hs : I s) : I (acts.foldl step s) := by
  induction acts generalizing s with
  | nil => exact hs
  | cons a acts ih => exact ih h.2 (hstep s a hs h.1)

end Runs

end Traces
