import Mathlib.Data.List.Basic

/-! Resumable transducers. A machine reads a stream and writes a stream one
small step at a time and may stop at any moment to wait for input. The results
here say when a paused run can be replayed inside the run on a longer input. -/

namespace Resumable

inductive Tick (σ β : Type*) where
  | next (s : σ)
  | emit (b : β) (s : σ)
  | need (s : σ)
  | fail
  | done

section Machine

variable {σ β : Type*} {tick : σ → Tick σ β}

/-- The output of a machine that runs to its end, and whether it accepts. -/
inductive Eval (tick : σ → Tick σ β) : σ → List β → Bool → Prop where
  | done {s} : tick s = .done → Eval tick s [] true
  | fail {s} : tick s = .fail → Eval tick s [] false
  | next {s t o v} : tick s = .next t → Eval tick t o v → Eval tick s o v
  | emit {s t b o v} : tick s = .emit b t → Eval tick t o v → Eval tick s (b :: o) v

theorem Eval.unique {s : σ} {o o' : List β} {v v' : Bool}
    (h : Eval tick s o v) (h' : Eval tick s o' v') : o = o' ∧ v = v' := by
  induction h generalizing o' v' with
  | done hs => cases h' <;> simp_all
  | fail hs => cases h' <;> simp_all
  | next hs _ ih =>
    cases h' with
    | next hs' he =>
      obtain rfl : _ = _ := Tick.next.inj (hs.symm.trans hs')
      exact ih he
    | done hs' => simp [hs] at hs'
    | fail hs' => simp [hs] at hs'
    | emit hs' _ => simp [hs] at hs'
  | emit hs _ ih =>
    cases h' with
    | emit hs' he =>
      obtain ⟨rfl, rfl⟩ := Tick.emit.inj (hs.symm.trans hs')
      obtain ⟨rfl, rfl⟩ := ih he
      exact ⟨rfl, rfl⟩
    | done hs' => simp [hs] at hs'
    | fail hs' => simp [hs] at hs'
    | next hs' _ => simp [hs] at hs'

theorem Eval.congr {s t : σ} {o : List β} {v : Bool} (h : tick s = tick t)
    (he : Eval tick t o v) : Eval tick s o v := by
  cases he with
  | done ht => exact .done (h.trans ht)
  | fail ht => exact .fail (h.trans ht)
  | next ht he => exact .next (h.trans ht) he
  | emit ht he => exact .emit (h.trans ht) he

/-- The machine goes from `s` to `t` writing `out`, possibly through pauses. -/
inductive Path (tick : σ → Tick σ β) : σ → List β → σ → Prop where
  | refl {s} : Path tick s [] s
  | next {s t u o} : tick s = .next t → Path tick t o u → Path tick s o u
  | emit {s t u b o} : tick s = .emit b t → Path tick t o u → Path tick s (b :: o) u
  | need {s t u o} : tick s = .need t → Path tick t o u → Path tick s o u

variable {s t u : σ} {out out' : List β}

theorem Path.trans (h : Path tick s out t) (h' : Path tick t out' u) :
    Path tick s (out ++ out') u := by
  induction h with
  | refl => exact h'
  | next hs _ ih => exact .next hs (ih h')
  | emit hs _ ih => exact .emit hs (ih h')
  | need hs _ ih => exact .need hs (ih h')

/-- A relation that every step respects, with what the step writes, holds
along every path. -/
theorem Path.rule {R : σ → List β → σ → Prop} (h : Path tick s out t)
    (hrefl : ∀ s, R s [] s)
    (hnext : ∀ {s t u o}, tick s = .next t ∨ tick s = .need t → R t o u → R s o u)
    (hemit : ∀ {s t u b o}, tick s = .emit b t → R t o u → R s (b :: o) u) : R s out t := by
  induction h with
  | refl => exact hrefl _
  | next hs _ ih => exact hnext (.inl hs) ih
  | emit hs _ ih => exact hemit hs ih
  | need hs _ ih => exact hnext (.inr hs) ih

/-- A change of state that the machine does not notice before it needs input:
it commutes with every step, and resuming after a pause replays the pause. -/
structure Embeds (tick : σ → Tick σ β) (φ : σ → σ) (P : σ → Prop) : Prop where
  next : ∀ {s t}, P s → tick s = .next t → P t ∧ tick (φ s) = .next (φ t)
  emit : ∀ {s t b}, P s → tick s = .emit b t → P t ∧ tick (φ s) = .emit b (φ t)
  need : ∀ {s t}, P s → tick s = .need t → P t ∧ tick (φ s) = tick (φ t)

/-- A path taken on part of the input is taken on all of it. -/
theorem Embeds.eval {φ : σ → σ} {P : σ → Prop} (hφ : Embeds tick φ P)
    (h : Path tick s out t) (hs : P s) {o : List β} {v : Bool} (he : Eval tick (φ t) o v) :
    Eval tick (φ s) (out ++ o) v := by
  induction h with
  | refl => exact he
  | next ht _ ih =>
    obtain ⟨hp, hn⟩ := hφ.next hs ht
    exact .next hn (ih hp he)
  | emit ht _ ih =>
    obtain ⟨hp, hn⟩ := hφ.emit hs ht
    exact .emit hn (ih hp he)
  | need ht _ ih =>
    obtain ⟨hp, hn⟩ := hφ.need hs ht
    exact (ih hp he).congr hn

/-- What a path taken on part of the input writes, the run on all of it writes
first. -/
theorem Embeds.leads {φ : σ → σ} {P : σ → Prop} (hφ : Embeds tick φ P)
    (h : Path tick s out t) (hs : P s) {o : List β} {v : Bool} (he : Eval tick (φ s) o v) :
    out <+: o := by
  induction h generalizing o with
  | refl => exact List.nil_prefix
  | next ht _ ih =>
    obtain ⟨hp, hn⟩ := hφ.next hs ht
    cases he with
    | next hs' he' =>
      obtain rfl := Tick.next.inj (hn.symm.trans hs')
      exact ih hp he'
    | done hs' => simp [hn] at hs'
    | fail hs' => simp [hn] at hs'
    | emit hs' _ => simp [hn] at hs'
  | emit ht _ ih =>
    obtain ⟨hp, hn⟩ := hφ.emit hs ht
    cases he with
    | emit hs' he' =>
      obtain ⟨rfl, rfl⟩ := Tick.emit.inj (hn.symm.trans hs')
      exact (List.prefix_cons_inj _).mpr (ih hp he')
    | done hs' => simp [hn] at hs'
    | fail hs' => simp [hn] at hs'
    | next hs' _ => simp [hn] at hs'
  | need ht _ ih =>
    obtain ⟨hp, hn⟩ := hφ.need hs ht
    exact ih hp (he.congr hn.symm)

section Accepts

variable (tick : σ → Tick σ β) (total : List β)

/-- The run from here, with some output written before, is accepted with this output in all. -/
def Accepts (s : σ) (out : List β) : Prop := ∃ o, total = out ++ o ∧ Eval tick s o true

/-- What a tick of an accepted run comes to. -/
def AcceptsTick (out : List β) : Tick σ β → Prop
  | .next t => Accepts tick total t out
  | .emit b t => Accepts tick total t (out ++ [b])
  | .need _ => False
  | .fail => False
  | .done => total = out

variable {tick total}

theorem Accepts.step (h : Accepts tick total s out) : AcceptsTick tick total out (tick s) := by
  obtain ⟨o, ho, he⟩ := h
  cases he with
  | done hs =>
    rw [hs]
    exact ho.trans (List.append_nil out)
  | next hs he =>
    rw [hs]
    exact ⟨_, ho, he⟩
  | emit hs he =>
    rw [hs]
    exact ⟨_, ho.trans (List.append_cons out _ _), he⟩

theorem Accepts.next (h : Accepts tick total s out) (hs : tick s = .next t) : Accepts tick total t out := by
  have hstep := h.step
  rwa [hs] at hstep

theorem Accepts.emit {b : β} (h : Accepts tick total s out) (hs : tick s = .emit b t) :
    Accepts tick total t (out ++ [b]) := by
  have hstep := h.step
  rwa [hs] at hstep

/-- An accepted run is still accepted anywhere on its path. -/
theorem Accepts.path {o : List β} (hp : Path tick s o t) (h : Accepts tick total s out) :
    Accepts tick total t (out ++ o) := by
  induction hp generalizing out with
  | refl => rwa [List.append_nil]
  | next hs _ ih => exact ih (h.next hs)
  | emit hs _ ih =>
    rw [List.append_cons]
    exact ih (h.emit hs)
  | need hs _ _ =>
    have hstep := h.step
    rw [hs] at hstep
    exact hstep.elim

end Accepts

end Machine

end Resumable
