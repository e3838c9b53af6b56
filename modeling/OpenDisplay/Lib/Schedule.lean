import Mathlib.Algebra.GroupWithZero.Nat
import Mathlib.Data.List.Chain
import Mathlib.Data.List.Infix

/-! Machines that never sleep: each call does one step and returns how long to wait for the
next one, or does nothing if it comes too early. The clock is a word that wraps; calls that
are not too far apart are told apart by the time that really passes. -/

namespace Schedules

section Clock

/-- True from the deadline on, for half the range of the clock. -/
def reached (now deadline : UInt32) : Bool := now - deadline < 0x80000000

variable {t due : Nat}

theorem sub_toNat (h : due ≤ t) (hlt : t < due + 2 ^ 32) : (UInt32.ofNat t - UInt32.ofNat due).toNat = t - due := by
  rw [UInt32.toNat_sub, UInt32.toNat_ofNat', UInt32.toNat_ofNat']
  omega

theorem reached_iff (h : due ≤ t + 2 ^ 31) (h' : t < due + 2 ^ 31) :
    reached (UInt32.ofNat t) (UInt32.ofNat due) = true ↔ due ≤ t := by
  have hlt : reached (UInt32.ofNat t) (UInt32.ofNat due) = true ↔
      (UInt32.ofNat t - UInt32.ofNat due).toNat < 2 ^ 31 := decide_eq_true_iff.trans UInt32.lt_iff_toNat_lt
  rw [hlt, UInt32.toNat_sub, UInt32.toNat_ofNat', UInt32.toNat_ofNat']
  omega

/-- The times of the calls never go back and are less than half the range of the clock apart. -/
def Gapped (last : Nat) (times : List Nat) : Prop := List.IsChain (fun t t' => t ≤ t' ∧ t' < t + 2 ^ 31) (last :: times)

theorem Gapped.snoc {last t : Nat} {times rest : List Nat} (h : Gapped last (times ++ t :: rest)) :
    Gapped last times ∧ Gapped t rest ∧ (last :: times).getLast (List.cons_ne_nil _ _) ≤ t ∧
      t < (last :: times).getLast (List.cons_ne_nil _ _) + 2 ^ 31 := by
  have h : List.IsChain (fun t t' => t ≤ t' ∧ t' < t + 2 ^ 31) ((last :: times) ++ t :: rest) := h
  obtain ⟨hfront, hrest, hjoin⟩ := List.isChain_append.mp h
  obtain ⟨hle, hlt⟩ := hjoin _ (List.getLast?_eq_some_getLast (List.cons_ne_nil _ _)) t rfl
  exact ⟨hfront, hrest, hle, hlt⟩

theorem Gapped.append {last t t' : Nat} {times : List Nat} (h : Gapped last (times ++ [t, t'])) :
    Gapped last times ∧ (last :: times).getLast (List.cons_ne_nil _ _) ≤ t ∧
      t < (last :: times).getLast (List.cons_ne_nil _ _) + 2 ^ 31 ∧ t ≤ t' := by
  obtain ⟨hfront, hrest, hle, hlt⟩ := h.snoc
  exact ⟨hfront, hle, hlt, (List.isChain_cons_cons.mp hrest).1.1⟩

end Clock

section Machine

variable {σ ε : Type*}

/-- A call: when it was made, what it returned and what it did. -/
structure Call (ε : Type*) where
  time : Nat
  returned : UInt32
  acts : List ε

def call (service : UInt32 → σ → UInt32 × List ε × σ) (s : σ) (t : Nat) : Call ε × σ :=
  let (returned, acts, s') := service (UInt32.ofNat t) s
  (⟨t, returned, acts⟩, s')

/-- The calls at these times, and the state after them. -/
def calls (service : UInt32 → σ → UInt32 × List ε × σ) (s : σ) : List Nat → List (Call ε) × σ
  | [] => ([], s)
  | t :: ts =>
    let (c, s') := call service s t
    let (cs, s'') := calls service s' ts
    (c :: cs, s'')

theorem calls_time (service : UInt32 → σ → UInt32 × List ε × σ) (s : σ) (times : List Nat) :
    (calls service s times).1.map Call.time = times := by
  induction times generalizing s with
  | nil => rfl
  | cons t ts ih => exact congrArg (t :: ·) (ih _)

end Machine

section Plan

variable {π ι ε : Type*}

/-- What a machine is to do: the items one after another, each with what it does and how long
it takes, at the time when it is due; and what is done when there are none left. -/
structure Plan (π ι ε : Type*) where
  next : Nat → π → Option (ι × π)
  acts : ι → List ε
  wait : Nat → ι → Nat
  final : π → List ε
  idle : UInt32

/-- What is left of the plan, and when the next item is due. -/
def Plan.service (P : Plan π ι ε) (t : Nat) : Option (π × Nat) → Call ε × Option (π × Nat)
  | none => (⟨t, P.idle, []⟩, none)
  | some (p, due) =>
    if t < due then (⟨t, UInt32.ofNat (due - t), []⟩, some (p, due))
    else
      match P.next t p with
      | none => (⟨t, P.idle, P.final p⟩, none)
      | some (i, p') => (⟨t, UInt32.ofNat (P.wait t i), P.acts i⟩, some (p', t + P.wait t i))

def Plan.calls (P : Plan π ι ε) (a : Option (π × Nat)) : List Nat → List (Call ε) × Option (π × Nat)
  | [] => ([], a)
  | t :: ts =>
    let (c, a') := P.service t a
    let (cs, a'') := P.calls a' ts
    (c :: cs, a'')

end Plan

section Follow

variable {σ π ι ε : Type*}

/-- The machine does what the plan says when its timer has run out, and nothing before. `Sim due s p`
says that in state `s` the plan `p` is left, from the time `due` on. -/
structure Obeys (service : UInt32 → σ → UInt32 × List ε × σ) (P : Plan π ι ε) (Sim : Nat → σ → π → Prop)
    (timer : σ → Option UInt32) (Idle : σ → Prop) : Prop where
  idle : ∀ now s, Idle s → service now s = (P.idle, [], s)
  early : ∀ now s p due d, Sim due s p → timer s = some d → reached now d = false → service now s = (d - now, [], s)
  finish : ∀ t s p due, Sim due s p → due ≤ t → t < due + 2 ^ 31 →
    (∀ d, timer s = some d → reached (UInt32.ofNat t) d = true) → P.next t p = none →
    ∃ s', service (UInt32.ofNat t) s = (P.idle, P.final p, s') ∧ Idle s'
  next : ∀ t s p due i p', Sim due s p → due ≤ t → t < due + 2 ^ 31 →
    (∀ d, timer s = some d → reached (UInt32.ofNat t) d = true) → P.next t p = some (i, p') →
    0 < P.wait t i ∧ P.wait t i < 2 ^ 31 ∧
      ∃ s', service (UInt32.ofNat t) s = (UInt32.ofNat (P.wait t i), P.acts i, s') ∧
        timer s' = some (UInt32.ofNat (t + P.wait t i)) ∧ Sim (t + P.wait t i) s' p'
  nonzero : P.idle ≠ 0

/-- The state of the machine after a call at `last`, against what is left of the plan. -/
def Awaits (Sim : Nat → σ → π → Prop) (timer : σ → Option UInt32) (Idle : σ → Prop) (last : Nat) (s : σ) :
    Option (π × Nat) → Prop
  | none => Idle s
  | some (p, due) => Sim due s p ∧ last ≤ due ∧ due < last + 2 ^ 31 ∧
    (timer s = some (UInt32.ofNat due) ∨ timer s = none ∧ due = last)

variable {service : UInt32 → σ → UInt32 × List ε × σ} {P : Plan π ι ε} {Sim : Nat → σ → π → Prop}
  {timer : σ → Option UInt32} {Idle : σ → Prop} {last t : Nat} {s : σ} {a : Option (π × Nat)}

theorem Awaits.early {p : π} {due : Nat} (hf : Obeys service P Sim timer Idle)
    (h : Awaits Sim timer Idle last s (some (p, due))) (hle : last ≤ t) (hlt : t < due) :
    service (UInt32.ofNat t) s = (UInt32.ofNat (due - t), [], s) := by
  obtain ⟨hsim, hlast, hdue, htimer⟩ := h
  rcases htimer with htimer | ⟨-, rfl⟩
  · have hreached : reached (UInt32.ofNat t) (UInt32.ofNat due) = false :=
      Bool.eq_false_iff.mpr (mt (reached_iff (by omega) (by omega)).mp (by omega))
    rw [hf.early _ s p due _ hsim htimer hreached]
    congr 1
    apply UInt32.toNat_inj.mp
    rw [sub_toNat hlt.le (by omega), UInt32.toNat_ofNat_of_lt' (show due - t < UInt32.size from by
      have hsize : UInt32.size = 2 ^ 32 := rfl
      omega)]
  · omega

theorem Awaits.step (hf : Obeys service P Sim timer Idle) (h : Awaits Sim timer Idle last s a) (hle : last ≤ t)
    (hlt : t < last + 2 ^ 31) :
    (call service s t).1 = (P.service t a).1 ∧ Awaits Sim timer Idle t (call service s t).2 (P.service t a).2 ∧
      (call service s t).1.returned ≠ 0 := by
  have hsize : UInt32.size = 2 ^ 32 := rfl
  have hnonzero : ∀ n, 0 < n → n < 2 ^ 31 → UInt32.ofNat n ≠ 0 := by
    intro n hpos hbound hzero
    have hn := congrArg UInt32.toNat hzero
    rw [UInt32.toNat_ofNat_of_lt' (show n < UInt32.size by omega)] at hn
    exact absurd hn (by simpa using Nat.pos_iff_ne_zero.mp hpos)
  cases a with
  | none =>
    rw [call, hf.idle _ s h]
    exact ⟨rfl, h, hf.nonzero⟩
  | some a =>
    obtain ⟨p, due⟩ := a
    by_cases hearly : t < due
    · obtain ⟨hsim, hlast, hdue, htimer⟩ := id h
      rw [call, h.early hf hle hearly, Plan.service, if_pos hearly]
      refine ⟨rfl, ⟨hsim, by omega, by omega, ?_⟩, hnonzero _ (by omega) (by omega)⟩
      rcases htimer with htimer | ⟨htimer, hnow⟩
      · exact .inl htimer
      · omega
    · obtain ⟨hsim, hlast, hdue, htimer⟩ := h
      have hreached : ∀ d, timer s = some d → reached (UInt32.ofNat t) d = true := by
        intro d hd
        rcases htimer with htimer | ⟨htimer, -⟩
        · obtain rfl := Option.some.inj (htimer.symm.trans hd)
          exact (reached_iff (by omega) (by omega)).mpr (by omega)
        · cases htimer.symm.trans hd
      rw [call, Plan.service, if_neg hearly]
      cases hnext : P.next t p with
      | none =>
        obtain ⟨s', hservice, hidle⟩ := hf.finish t s p due hsim (by omega) (by omega) hreached hnext
        rw [hservice]
        exact ⟨rfl, hidle, hf.nonzero⟩
      | some i =>
        obtain ⟨i, p'⟩ := i
        obtain ⟨hpos, hbound, s', hservice, htimer', hsim'⟩ :=
          hf.next t s p due i p' hsim (by omega) (by omega) hreached hnext
        rw [hservice]
        exact ⟨rfl, ⟨hsim', by omega, by omega, .inl htimer'⟩, hnonzero _ hpos hbound⟩

/-- A run of the machine is a run of the plan. -/
theorem Awaits.calls (hf : Obeys service P Sim timer Idle) {times : List Nat} (h : Awaits Sim timer Idle last s a)
    (hgaps : Gapped last times) :
    (calls service s times).1 = (P.calls a times).1 ∧
      Awaits Sim timer Idle ((last :: times).getLast (List.cons_ne_nil _ _)) (calls service s times).2
        (P.calls a times).2 ∧
      ∀ c ∈ (calls service s times).1, c.returned ≠ 0 := by
  induction times generalizing last s a with
  | nil => exact ⟨rfl, h, fun c hc => absurd hc List.not_mem_nil⟩
  | cons t ts ih =>
    obtain ⟨⟨hle, hlt⟩, hrest⟩ := List.isChain_cons_cons.mp hgaps
    obtain ⟨hcall, hstands, hreturned⟩ := h.step hf hle hlt
    obtain ⟨hcalls, hstands', hreturned'⟩ := ih hstands hrest
    refine ⟨congrArg₂ List.cons hcall hcalls, ?_, ?_⟩
    · rw [List.getLast_cons (List.cons_ne_nil _ _)]
      exact hstands'
    · intro c hc
      rcases List.mem_cons.mp hc with rfl | hc
      · exact hreturned
      · exact hreturned' c hc

/-- A call that is due does the next item, or what comes at the end if there is none. -/
theorem Awaits.due {p : π} {due : Nat} (hf : Obeys service P Sim timer Idle)
    (h : Awaits Sim timer Idle last s (some (p, due))) (hle : last ≤ t) (hlt : t < last + 2 ^ 31) (hdue : due ≤ t) :
    (P.next t p = none ∧ (call service s t).1 = ⟨t, P.idle, P.final p⟩ ∧ Idle (call service s t).2) ∨
      ∃ i p', P.next t p = some (i, p') ∧ (call service s t).1 = ⟨t, UInt32.ofNat (P.wait t i), P.acts i⟩ ∧
        Awaits Sim timer Idle t (call service s t).2 (some (p', t + P.wait t i)) := by
  obtain ⟨hcall, hstands, -⟩ := h.step hf hle hlt
  rw [hcall]
  rw [Plan.service, if_neg (Nat.not_lt.mpr hdue)] at hstands ⊢
  cases hnext : P.next t p with
  | none =>
    rw [hnext] at hstands
    exact .inl ⟨rfl, rfl, hstands⟩
  | some i =>
    rw [hnext] at hstands
    exact .inr ⟨i.1, i.2, rfl, rfl, hstands⟩

theorem Plan.service_returned (P : Plan π ι ε) (t : Nat) (a : Option (π × Nat)) :
    ((P.service t a).2 = none → (P.service t a).1.returned = P.idle) ∧
      ∀ p due, (P.service t a).2 = some (p, due) → (P.service t a).1.returned = UInt32.ofNat (due - t) := by
  cases a with
  | none => exact ⟨fun _ => rfl, fun p due h => (by cases h)⟩
  | some a =>
    obtain ⟨p, due⟩ := a
    by_cases hearly : t < due
    · simp only [Plan.service, if_pos hearly]
      refine ⟨fun h => (by cases h), fun p' due' h => ?_⟩
      obtain ⟨rfl, rfl⟩ := Prod.mk.inj (Option.some.inj h)
      rfl
    · simp only [Plan.service, if_neg hearly]
      cases hnext : P.next t p with
      | none => exact ⟨fun _ => rfl, fun p' due' h => (by cases h)⟩
      | some i =>
        refine ⟨fun h => (by cases h), fun p' due' h => ?_⟩
        obtain ⟨-, rfl⟩ := Prod.mk.inj (Option.some.inj h)
        rw [Nat.add_sub_cancel_left]

/-- A call before the time that the call before it named does nothing. -/
theorem Awaits.again (hf : Obeys service P Sim timer Idle) (h : Awaits Sim timer Idle last s a) {t' : Nat}
    (hle : last ≤ t) (hlt : t < last + 2 ^ 31) (hle' : t ≤ t') (hidle : (call service s t).1.returned ≠ P.idle)
    (hearly : t' < t + (call service s t).1.returned.toNat) :
    call service (call service s t).2 t' =
      (⟨t', UInt32.ofNat (t + (call service s t).1.returned.toNat - t'), []⟩, (call service s t).2) := by
  obtain ⟨hcall, hstands, -⟩ := h.step hf hle hlt
  obtain ⟨hover, hleft⟩ := P.service_returned t a
  rw [hcall] at hidle hearly ⊢
  cases hplan : (P.service t a).2 with
  | none => exact absurd (hover hplan) hidle
  | some a' =>
    obtain ⟨p', due⟩ := a'
    rw [hplan] at hstands
    obtain ⟨hsim, hlast, hdue, htimer⟩ := id hstands
    have hreturned : (P.service t a).1.returned.toNat = due - t := by
      have hsize : UInt32.size = 2 ^ 32 := rfl
      rw [hleft p' due hplan, UInt32.toNat_ofNat_of_lt' (show due - t < UInt32.size by omega)]
    rw [hreturned, show t + (due - t) = due by omega] at hearly ⊢
    rw [call, hstands.early hf hle' hearly]

end Follow

section Perform

variable {π ι ε : Type*} {P : Plan π ι ε}

/-- The items that are done at these times, and what is left then. -/
inductive Plan.Does (P : Plan π ι ε) : π → List (Nat × ι) → π → Prop where
  | nil {p : π} : P.Does p [] p
  | cons {p p' q : π} {t : Nat} {i : ι} {rest : List (Nat × ι)} : P.next t p = some (i, p') → P.Does p' rest q →
      P.Does p ((t, i) :: rest) q

theorem Plan.Does.snoc {p q q' : π} {t : Nat} {i : ι} {done : List (Nat × ι)} (h : P.Does p done q)
    (hnext : P.next t q = some (i, q')) : P.Does p (done ++ [(t, i)]) q' := by
  induction h with
  | nil => exact .cons hnext .nil
  | cons hfirst _ ih => exact .cons hfirst (ih hnext)

/-- When the item after these is due. -/
def Plan.dueAfter (P : Plan π ι ε) (due : Nat) (done : List (Nat × ι)) : Nat :=
  (done.getLast?.map fun d => d.1 + P.wait d.1 d.2).getD due

theorem Plan.dueAfter_cons (P : Plan π ι ε) (due : Nat) (d : Nat × ι) (done : List (Nat × ι)) :
    P.dueAfter due (d :: done) = P.dueAfter (d.1 + P.wait d.1 d.2) done := by
  cases done with
  | nil => rfl
  | cons d' done => rw [Plan.dueAfter, List.getLast?_cons_cons, Plan.dueAfter, List.getLast?_cons]; rfl

/-- What the calls do is the items and, if the plan is over, what comes at its end. -/
structure Plan.Performs (P : Plan π ι ε) (p : π) (due : Nat) (cs : List (Call ε)) (a : Option (π × Nat))
    (done : List (Nat × ι)) : Prop where
  does : ∃ q, P.Does p done q ∧ (∀ p' due', a = some (p', due') → p' = q) ∧
    (a = none → ∃ c ∈ cs, P.next c.time q = none) ∧
    cs.flatMap Call.acts = done.flatMap (fun d => P.acts d.2) ++ if a.isNone then P.final q else []
  dueNext : ∀ p' due', a = some (p', due') → due' = P.dueAfter due done
  start : ∀ d, done.head? = some d → due ≤ d.1
  spaced : done.IsChain fun d d' => d.1 + P.wait d.1 d.2 ≤ d'.1
  called : (done.map fun d => ⟨d.1, UInt32.ofNat (P.wait d.1 d.2), P.acts d.2⟩).Sublist cs
  each : ∀ c ∈ cs, c.acts = [] ∨ (∃ q, c.acts = P.final q) ∨ ∃ d ∈ done, c.acts = P.acts d.2

theorem Plan.calls_over (times : List Nat) :
    (P.calls none times).2 = none ∧ ∀ c ∈ (P.calls none times).1, c.acts = [] := by
  induction times with
  | nil => exact ⟨rfl, fun c hc => absurd hc List.not_mem_nil⟩
  | cons t ts ih =>
    refine ⟨ih.1, fun c hc => ?_⟩
    rcases List.mem_cons.mp hc with rfl | hc
    · rfl
    · exact ih.2 c hc

theorem Plan.calls_performs (p : π) (due : Nat) (times : List Nat) :
    ∃ done, P.Performs p due (P.calls (some (p, due)) times).1 (P.calls (some (p, due)) times).2 done := by
  induction times generalizing p due with
  | nil =>
    exact ⟨[], ⟨p, .nil, fun p' due' h => (Prod.mk.inj (Option.some.inj h)).1.symm, fun h => (by cases h), rfl⟩,
      fun p' due' h => (Prod.mk.inj (Option.some.inj h)).2.symm, fun d hd => (by cases hd), .nil, .slnil,
      fun c hc => absurd hc List.not_mem_nil⟩
  | cons t ts ih =>
    by_cases hearly : t < due
    · obtain ⟨done, ⟨q, hdoes, hleft, hover, hacts⟩, hdue, hstart, hspaced, hcalled, heach⟩ := ih p due
      have hservice : P.service t (some (p, due)) = (⟨t, UInt32.ofNat (due - t), []⟩, some (p, due)) := if_pos hearly
      rw [Plan.calls, hservice]
      refine ⟨done, ⟨q, hdoes, hleft,
        fun h => (hover h).imp fun c hc => ⟨List.mem_cons_of_mem _ hc.1, hc.2⟩, hacts⟩, hdue, hstart, hspaced,
          .cons _ hcalled, fun c hc => ?_⟩
      rcases List.mem_cons.mp hc with rfl | hc
      · exact .inl rfl
      · exact heach c hc
    cases hnext : P.next t p with
    | none =>
      have hservice : P.service t (some (p, due)) = (⟨t, P.idle, P.final p⟩, none) := by
        rw [Plan.service, if_neg hearly, hnext]
      obtain ⟨hover, hidle⟩ := P.calls_over ts
      rw [Plan.calls, hservice]
      have hend : ∀ a', (P.calls none ts).2 ≠ some a' := fun a' h => by cases hover.symm.trans h
      refine ⟨[], ⟨p, .nil, fun p' due' h => absurd h (hend _), fun _ => ⟨_, List.mem_cons_self, hnext⟩, ?_⟩,
        fun p' due' h => absurd h (hend _), fun d hd => (by cases hd), .nil, List.nil_sublist _, fun c hc => ?_⟩
      · show P.final p ++ (P.calls none ts).1.flatMap Call.acts =
          [] ++ if (P.calls none ts).2.isNone then P.final p else []
        rw [hover, List.flatMap_eq_nil_iff.mpr hidle]
        exact List.append_nil _
      · rcases List.mem_cons.mp hc with rfl | hc
        · exact .inr (.inl ⟨p, rfl⟩)
        · exact .inl (hidle c hc)
    | some i =>
      obtain ⟨i, p'⟩ := i
      have hservice : P.service t (some (p, due)) =
          (⟨t, UInt32.ofNat (P.wait t i), P.acts i⟩, some (p', t + P.wait t i)) := by
        rw [Plan.service, if_neg hearly, hnext]
      obtain ⟨done, ⟨q, hdoes, hleft, hover, hacts⟩, hdue, hstart, hspaced, hcalled, heach⟩ :=
        ih p' (t + P.wait t i)
      rw [Plan.calls, hservice]
      refine ⟨(t, i) :: done, ⟨q, .cons hnext hdoes, hleft,
        fun h => (hover h).imp fun c hc => ⟨List.mem_cons_of_mem _ hc.1, hc.2⟩, ?_⟩, ?_, ?_, ?_, .cons_cons _ hcalled,
        fun c hc => ?_⟩
      · show P.acts i ++ (P.calls _ ts).1.flatMap Call.acts = (P.acts i ++ done.flatMap _) ++ _
        rw [hacts, List.append_assoc]
      · intro p' due' h
        rw [P.dueAfter_cons]
        exact hdue p' due' h
      · intro d hd
        obtain rfl := Option.some.inj hd
        exact Nat.not_lt.mp hearly
      · exact List.isChain_cons.mpr ⟨fun d hd => hstart d hd, hspaced⟩
      · rcases List.mem_cons.mp hc with rfl | hc
        · exact .inr (.inr ⟨_, List.mem_cons_self, rfl⟩)
        · rcases heach c hc with h | h | ⟨d, hd, h⟩
          · exact .inl h
          · exact .inr (.inl h)
          · exact .inr (.inr ⟨d, List.mem_cons_of_mem _ hd, h⟩)

end Perform

end Schedules
