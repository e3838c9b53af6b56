import Mathlib.Data.List.Basic

/-! Invariants of state programs. What every part of a program keeps, the program keeps, and a
part that leads from one condition to another hands it to the next one. -/

namespace Programs

variable {σ α β ι : Type} {I : σ → Prop} {m : StateM σ α} {f : α → StateM σ β}

/-- A run of `m` that begins with `I` ends with `I`. -/
def Preserves (I : σ → Prop) (m : StateM σ α) : Prop := ∀ s, I s → I (m.run s).2

theorem Preserves.pure (a : α) : Preserves I (pure a : StateM σ α) := fun _ h => h

theorem Preserves.get : Preserves I (get : StateM σ σ) := fun _ h => h

theorem Preserves.modify {g : σ → σ} (h : ∀ s, I s → I (g s)) : Preserves I (modify g : StateM σ PUnit) := h

theorem Preserves.modifyGet {g : σ → α × σ} (h : ∀ s, I s → I (g s).2) : Preserves I (modifyGet g : StateM σ α) := h

theorem Preserves.bind (hm : Preserves I m) (hf : ∀ a, Preserves I (f a)) : Preserves I (m >>= f) :=
  fun s h => hf _ _ (hm s h)

theorem Preserves.ite {c : Prop} [Decidable c] {m' : StateM σ α} (h : c → Preserves I m) (h' : ¬ c → Preserves I m') :
    Preserves I (if c then m else m') := by
  split_ifs with hc
  · exact h hc
  · exact h' hc

theorem Preserves.foldlM {xs : List ι} {g : β → ι → StateM σ β} (h : ∀ b, ∀ x ∈ xs, Preserves I (g b x)) (b : β) :
    Preserves I (xs.foldlM g b) := by
  induction xs generalizing b with
  | nil => exact .pure b
  | cons x xs ih =>
    rw [List.foldlM_cons]
    exact (h b x List.mem_cons_self).bind fun b' => ih (fun b y hy => h b y (List.mem_cons_of_mem x hy)) b'

theorem Preserves.forM {xs : List ι} {g : ι → StateM σ PUnit} (h : ∀ x ∈ xs, Preserves I (g x)) :
    Preserves I (xs.forM g) := by
  induction xs with
  | nil => exact .pure _
  | cons x xs ih =>
    exact (h x List.mem_cons_self).bind fun _ => ih fun y hy => h y (List.mem_cons_of_mem x hy)

variable {P P' : σ → Prop} {R : α → σ → Prop} {Q : β → σ → Prop} {Q' : α → σ → Prop}

/-- A run of `m` that begins with `P` ends with `Q'` of its result. -/
def Leads (P : σ → Prop) (Q' : α → σ → Prop) (m : StateM σ α) : Prop := ∀ s, P s → Q' (m.run s).1 (m.run s).2

theorem Preserves.leads (h : Preserves I m) : Leads I (fun _ => I) m := h

theorem Leads.pure {a : α} (h : ∀ s, P s → Q' a s) : Leads P Q' (pure a) := h

theorem Leads.bind (hm : Leads P R m) (hf : ∀ a, Leads (R a) Q (f a)) : Leads P Q (m >>= f) :=
  fun s h => hf _ _ (hm s h)

theorem Leads.of_imp (h : Leads P' Q' m) (himp : ∀ s, P s → P' s) : Leads P Q' m := fun s hs => h s (himp s hs)

theorem Leads.ite {c : Prop} [Decidable c] {m' : StateM σ α} (h : c → Leads P Q' m) (h' : ¬ c → Leads P Q' m') :
    Leads P Q' (if c then m else m') := by
  split_ifs with hc
  · exact h hc
  · exact h' hc

/-- A loop whose condition speaks of the items that are left. -/
theorem Leads.foldlM {P : List ι → σ → Prop} {xs : List ι} {g : β → ι → StateM σ β}
    (h : ∀ b x rest, x :: rest <:+ xs → Leads (P (x :: rest)) (fun _ => P rest) (g b x)) (b : β) :
    Leads (P xs) (fun _ => P []) (xs.foldlM g b) := by
  induction xs generalizing b with
  | nil => exact .pure fun _ hs => hs
  | cons x xs ih =>
    rw [List.foldlM_cons]
    refine (h b x xs (List.suffix_refl _)).bind fun b' => ih (fun b y rest hrest => ?_) b'
    exact h b y rest (hrest.trans (List.suffix_cons x xs))

theorem Leads.forM {P : List ι → σ → Prop} {xs : List ι} {g : ι → StateM σ PUnit}
    (h : ∀ x rest, x :: rest <:+ xs → Leads (P (x :: rest)) (fun _ => P rest) (g x)) :
    Leads (P xs) (fun _ => P []) (xs.forM g) := by
  induction xs with
  | nil => exact .pure fun _ hs => hs
  | cons x xs ih =>
    refine (h x xs (List.suffix_refl _)).bind fun _ => ih fun y rest hrest => ?_
    exact h y rest (hrest.trans (List.suffix_cons x xs))

end Programs
