import OpenDisplay.Inflate.Chunking

/-! The rule of the pump, over whichever engine a build selects: what a push comes to, from
what each poll of the engine keeps. -/

namespace OpenDisplay

open Loops

variable {ε : Type}

namespace InflateApp

section Spec

/-- What an engine keeps of the bytes that it has put out, from poll to poll, and what it
has come to when it returns for anything else than output. -/
structure Polls (app : InflateApp ε) (scratch : Nat) (Kept : Bytes → ε → Prop)
    (Stopped : ZlibStatus → Bytes → ε → Prop) :
    Prop where
  length_le : ∀ {o s status out t}, Kept o s → app.poll scratch s = (status, out, t) → out.length ≤ scratch
  kept : ∀ {o s out t}, Kept o s → app.poll scratch s = (.outputReady, out, t) → Kept (o ++ out) t
  stopped : ∀ {o s status out t}, Kept o s → app.poll scratch s = (status, out, t) → status ≠ .outputReady →
    Stopped status (o ++ out) t

/-- The pump has handed over what it says it has. -/
structure Emitting (expected : UInt32) (p : AppPump ε × Bytes) : Prop where
  ready : p.1.error ≠ some .notInitialized
  asked : p.1.expectedOutput = expected
  emitted : p.1.emittedOutput.toNat = p.2.length
  bound : p.2.length ≤ expected.toNat

/-- What a push comes to. It fails where its engine does, where the stream is not complete
with the final push or has another size, or where there is more output than expected. -/
def Pumped (app : InflateApp ε) (Kept : Bytes → ε → Prop) (Stopped : ZlibStatus → Bytes → ε → Prop) (expected : UInt32)
    (final : Bool) : PumpStatus → AppPump ε × Bytes → Prop
  | .more, p => final = false ∧ Emitting expected p ∧ Stopped .needsInput p.2 p.1.engine
  | .done, p => Emitting expected p ∧ Stopped .done p.2 p.1.engine ∧ p.2.length = expected.toNat
  | .error, _ => ∃ o t, Stopped .error o t ∨ (final = true ∧ Stopped .needsInput o t) ∨
      (Stopped .done o t ∧ (o.length ≠ expected.toNat ∨ app.outputCount t ≠ expected)) ∨
      expected.toNat < o.length ∧ (Kept o t ∨ ∃ status, Stopped status o t)

variable {app : InflateApp ε} {scratch : Nat} {Kept : Bytes → ε → Prop} {Stopped : ZlibStatus → Bytes → ε → Prop}
  {expected : UInt32} {final : Bool} {p : AppPump ε × Bytes}

/-- What a pass of the pump comes to. -/
def PumpPassed (app : InflateApp ε) (Kept : Bytes → ε → Prop) (Stopped : ZlibStatus → Bytes → ε → Prop)
    (expected : UInt32) (final : Bool) : PumpIter ε Bytes → Prop
  | .next p => Emitting expected p ∧ Kept p.2 p.1.engine
  | .stop (status, p) => Pumped app Kept Stopped expected final status p

theorem pumpStatus_rule {status : ZlibStatus} (hp : Emitting expected p)
    (hkept : status = .outputReady → Kept p.2 p.1.engine)
    (hstopped : status ≠ .outputReady → Stopped status p.2 p.1.engine) :
    PumpPassed app Kept Stopped expected final (app.pumpStatus final status p) := by
  cases status with
  | outputReady => exact ⟨hp, hkept rfl⟩
  | needsInput =>
    have hs := hstopped nofun
    cases final with
    | false => exact ⟨rfl, hp, hs⟩
    | true => exact ⟨_, _, .inr (.inl ⟨rfl, hs⟩)⟩
  | done =>
    have hs := hstopped nofun
    unfold pumpStatus
    dsimp only
    split_ifs with hsize
    · refine ⟨_, _, .inr (.inr (.inl ⟨hs, ?_⟩))⟩
      rw [hp.asked] at hsize
      rcases hsize with hne | hne
      · exact .inl fun hlen => hne (UInt32.toNat_inj.mp (hp.emitted.trans hlen))
      · by_cases hlen : p.2.length = expected.toNat
        · exact .inr fun hcount => hne (hcount.trans (UInt32.toNat_inj.mp (hp.emitted.trans hlen)).symm)
        · exact .inl hlen
    · have heq := (not_or.mp hsize).1
      rw [not_not, hp.asked] at heq
      exact ⟨hp, hs, by rw [← hp.emitted, heq]⟩
  | error => exact ⟨_, _, .inl (hstopped nofun)⟩

theorem pumpPass_rule (final : Bool) (hpolls : Polls app scratch Kept Stopped) (hp : Emitting expected p)
    (hkept : Kept p.2 p.1.engine) :
    PumpPassed app Kept Stopped expected final (app.pumpPass collect final scratch p) := by
  cases hpoll : app.poll scratch p.1.engine with
  | mk status w =>
    obtain ⟨out, engine⟩ := w
    have hlen := hpolls.length_le hkept hpoll
    have hnext : status = .outputReady → Kept (p.2 ++ out) engine := by
      rintro rfl
      exact hpolls.kept hkept hpoll
    have hstop : status ≠ .outputReady → Stopped status (p.2 ++ out) engine := hpolls.stopped hkept hpoll
    unfold pumpPass
    rw [hpoll]
    dsimp only
    rw [if_neg (Nat.not_lt.mpr hlen)]
    split_ifs with hnil hover
    · rw [hnil, List.append_nil] at hnext hstop
      exact pumpStatus_rule ⟨hp.ready, hp.asked, hp.emitted, hp.bound⟩ hnext hstop
    · -- the bytes that came are more than there may be
      refine ⟨p.2 ++ out, engine, .inr (.inr (.inr ⟨?_, ?_⟩))⟩
      · have hle : p.1.emittedOutput ≤ expected := by
          rw [UInt32.le_iff_toNat_le, hp.emitted]
          exact hp.bound
        rw [hp.asked, UInt32.toNat_sub_of_le _ _ hle, hp.emitted] at hover
        rw [List.length_append]
        rcases hover with hlt | hlt
        · exact absurd hle (UInt32.not_le.mpr hlt)
        · omega
      · by_cases hs : status = .outputReady
        · exact .inl (hnext hs)
        · exact .inr ⟨status, hstop hs⟩
    · obtain ⟨hemitted, hbound⟩ := emitted_toNat hover
      rw [hp.emitted, ← List.length_append] at hemitted hbound
      rw [hp.asked] at hbound
      exact pumpStatus_rule (p := ({ p.1 with
        engine := engine, emittedOutput := p.1.emittedOutput + UInt32.ofNat out.length }, p.2 ++ out))
        ⟨hp.ready, hp.asked, hemitted, hbound⟩ hnext hstop

/-- The rule of the pump: a push that its engine takes comes to what the polls lead to. -/
theorem odZlibPumpPush_rule (final : Bool) (hpolls : Polls app scratch Kept Stopped) (hc : 0 < scratch)
    (hp : Emitting expected p) {input : Bytes} {status : ZlibStatus} {engine : ε}
    (hpush : app.push input final p.1.engine = (status, engine)) (hok : status ≠ .error) (hkept : Kept p.2 engine) :
    Pumped app Kept Stopped expected final (app.odZlibPumpPush collect input final scratch p).1
      (app.odZlibPumpPush collect input final scratch p).2 := by
  rw [odZlibPumpPush_loop hp.ready hc hpush hok]
  apply loop_rule (d := pumpPass_dec hc final)
    (P := fun (p : AppPump ε × Bytes) r => Emitting expected p → Kept p.2 p.1.engine →
      Pumped app Kept Stopped expected final r.1 r.2)
  · intro p r hstop hp hkept
    have hpass := pumpPass_rule final hpolls hp hkept
    rw [hstop] at hpass
    exact hpass
  · intro p p' r hnext ih hp hkept
    have hpass := pumpPass_rule final hpolls hp hkept
    rw [hnext] at hpass
    exact ih hpass.1 hpass.2
  · exact ⟨hp.ready, hp.asked, hp.emitted, hp.bound⟩
  · exact hkept

end Spec

end InflateApp

end OpenDisplay
