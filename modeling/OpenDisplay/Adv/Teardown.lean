import Mathlib.Data.List.Induction
import OpenDisplay.Adv.Model

/-! The radio beneath the controller: whether it is on the air, and the notices that it went
off by itself. They are queued, so the controller may read one after a later start. -/

namespace OpenDisplay

section Air

/-- The controller with its radio. `calls` are the calls to the radio, each with what was on air then. -/
structure AdvAir where
  ctl : AdvControl := odAdvControlInit
  onAir : Bool := false
  ended : Nat := 0
  calls : List (HalAdvCall × Bool) := []
deriving DecidableEq

inductive AirOp where
  | setPayload (msd : Msd)
  | requestStart
  | requestStop
  | stackReady
  | stackReset
  | setConnectionCount (count : UInt8)
  | process (startAllowed busy : Bool)
  | endsItself
  | observeEnded
deriving DecidableEq

/-- The radio's answer: it says what is so, or asks for a retry and does nothing. -/
def airHal (busy : Bool) (call : HalAdvCall) (h : Bool × List (HalAdvCall × Bool)) :
    HalAdvResult × Bool × List (HalAdvCall × Bool) :=
  let calls := h.2 ++ [(call, h.1)]
  if busy then (.retry, h.1, calls)
  else
    match call with
    | .program _ => (.ok, h.1, calls)
    | .start => (if h.1 then .already else .ok, true, calls)
    | .stop => (if h.1 then .ok else .notActive, false, calls)

def airStep (w : AdvAir) : AirOp → AdvAir
  | .setPayload msd => { w with ctl := odAdvSetPayload msd w.ctl }
  | .requestStart => { w with ctl := odAdvRequestStart w.ctl }
  | .requestStop => { w with ctl := odAdvRequestStop w.ctl }
  | .stackReady => { w with ctl := odAdvStackReady w.ctl }
  | .stackReset => { w with ctl := odAdvStackReset w.ctl }
  | .setConnectionCount count => { w with ctl := odAdvSetConnectionCount count w.ctl }
  | .process allowed busy =>
    let (_, ctl, onAir, calls) := odAdvProcess (airHal busy) allowed w.ctl (w.onAir, w.calls)
    { w with ctl := ctl, onAir := onAir, calls := calls }
  | .endsItself => if w.onAir then { w with onAir := false, ended := w.ended + 1 } else w
  | .observeEnded => if 0 < w.ended then { w with ctl := odAdvObserveEnded w.ctl, ended := w.ended - 1 } else w

def airRun (ops : List AirOp) : AdvAir := ops.foldl airStep {}

/-- A teardown is real, and the payload is never changed on the air. -/
def TeardownReal (w : AdvAir) : Prop :=
  (odAdvIsQuiescent w.ctl = true → w.onAir = false) ∧ ∀ msd, (HalAdvCall.program msd, true) ∉ w.calls

/-- The notice of an end, or of a reset, comes before the radio is on the air again. -/
def Timely (w : AdvAir) : AirOp → Prop
  | .observeEnded => 0 < w.ended → w.onAir = false
  | .stackReset => w.onAir = false
  | _ => True

def TimelyRun (w : AdvAir) : List AirOp → Prop
  | [] => True
  | o :: ops => Timely w o ∧ TimelyRun (airStep w o) ops

/-- The controller never takes a radio that is on the air for silent. -/
structure AirKnown (w : AdvAir) : Prop where
  believed : w.onAir = true → w.ctl.active = true
  quiet : ∀ msd, (HalAdvCall.program msd, true) ∉ w.calls

theorem AirKnown.real {w : AdvAir} (h : AirKnown w) : TeardownReal w := by
  refine ⟨fun hq => ?_, h.quiet⟩
  by_contra hair
  have hactive := h.believed (Bool.not_eq_false _ ▸ hair)
  simp [odAdvIsQuiescent, hactive] at hq

/-- A radio that is called does not add a payload on the air, unless it was told to. -/
theorem AirKnown.quiet_call {w : AdvAir} (h : AirKnown w) {call : HalAdvCall}
    (hcall : (∀ msd, call ≠ .program msd) ∨ w.onAir = false) (busy : Bool) :
    ∀ msd, (HalAdvCall.program msd, true) ∉ (airHal busy call (w.onAir, w.calls)).2.2 := by
  intro msd hmem
  have hcalls : (airHal busy call (w.onAir, w.calls)).2.2 = w.calls ++ [(call, w.onAir)] := by
    unfold airHal
    by_cases hb : busy = true
    · rw [if_pos hb]
    · rw [if_neg hb]
      cases call <;> rfl
  rw [hcalls, List.mem_append, List.mem_singleton] at hmem
  rcases hmem with hold | hnew
  · exact h.quiet msd hold
  · obtain ⟨rfl, hair⟩ := Prod.mk.inj hnew
    rcases hcall with hne | hoff
    · exact hne msd rfl
    · rw [← hair] at hoff
      cases hoff

theorem AirKnown.process {w : AdvAir} (h : AirKnown w) (allowed busy : Bool) :
    AirKnown (airStep w (.process allowed busy)) := by
  have hpass := odAdvProcess_pass (airHal busy) allowed w.ctl (w.onAir, w.calls)
  unfold airStep
  dsimp only
  generalize odAdvProcess (airHal busy) allowed w.ctl (w.onAir, w.calls) = out at hpass
  cases hpass with
  | rest => exact ⟨h.believed, h.quiet⟩
  | stop _ hactive _ =>
    refine ⟨fun hair => ?_, h.quiet_call (.inl fun _ hc => by cases hc) busy⟩
    -- only a busy radio is still on the air after a stop
    cases busy with
    | true => exact hactive
    | false => cases hair
  | program _ hidle _ _ _ =>
    have hoff : w.onAir = false := by
      by_contra hair
      rw [h.believed (Bool.not_eq_false _ ▸ hair)] at hidle
      cases hidle
    refine ⟨fun hair => ?_, h.quiet_call (.inr hoff) busy⟩
    cases busy <;> exact absurd hair (by simp [airHal, hoff])
  | start _ hidle _ _ _ _ _ _ =>
    refine ⟨fun hair => ?_, h.quiet_call (.inl fun _ hc => by cases hc) busy⟩
    cases busy with
    | true => exact h.believed hair
    | false =>
      cases hon : w.onAir <;> simp [airHal, classify, advFold]

theorem AirKnown.step {w : AdvAir} (h : AirKnown w) {o : AirOp} (ht : Timely w o) : AirKnown (airStep w o) := by
  cases o with
  | setPayload msd =>
    refine ⟨fun hair => ?_, h.quiet⟩
    have hactive : (odAdvSetPayload msd w.ctl).active = w.ctl.active := by
      unfold odAdvSetPayload
      split <;> rfl
    exact hactive.trans (h.believed hair)
  | requestStart => exact ⟨h.believed, h.quiet⟩
  | requestStop => exact ⟨h.believed, h.quiet⟩
  | stackReady => exact ⟨h.believed, h.quiet⟩
  | stackReset => exact ⟨fun hair => absurd (hair.symm.trans ht) (by decide), h.quiet⟩
  | setConnectionCount count => exact ⟨h.believed, h.quiet⟩
  | process allowed busy => exact h.process allowed busy
  | endsItself =>
    unfold airStep
    dsimp only
    split
    · exact ⟨nofun, h.quiet⟩
    · exact h
  | observeEnded =>
    unfold airStep
    dsimp only
    split
    next hsome => exact ⟨fun hair => absurd (hair.symm.trans (ht hsome)) (by decide), h.quiet⟩
    next => exact h

theorem AirKnown.run {w : AdvAir} (h : AirKnown w) (ops : List AirOp) (ht : TimelyRun w ops) :
    AirKnown (ops.foldl airStep w) := by
  induction ops generalizing w with
  | nil => exact h
  | cons o ops ih => exact ih (h.step ht.1) ht.2

/-- With every notice in time, a quiescent controller has a silent radio. -/
theorem odAdvIsQuiescent_timely (ops : List AirOp) (ht : TimelyRun {} ops) : TeardownReal (airRun ops) :=
  (AirKnown.run ⟨fun hair => absurd hair Bool.false_ne_true, fun _ => List.not_mem_nil⟩ ops ht).real

/-- An end that is told before the stop, and a start after it. -/
theorem odAdvIsQuiescent_timely_restart :
    TeardownReal (airRun [.setPayload (Vector.replicate 16 7), .stackReady, .requestStart, .process true false,
      .process true false, .endsItself, .observeEnded, .process true false, .requestStop, .process true false]) :=
  odAdvIsQuiescent_timely _
    ⟨trivial, trivial, trivial, trivial, trivial, trivial, fun _ => by decide, trivial, trivial, trivial, trivial⟩

/-- The radio ends by itself, is stopped and started again, and only then the old notice is read: the controller
takes the radio for silent, and the next pass that would correct it finds a stop or a new payload. -/
theorem odAdvIsQuiescent_stale :
    ¬ (∀ ops : List AirOp, odAdvIsQuiescent (airRun ops).ctl = true → (airRun ops).onAir = false) ∧
      ¬ ∀ (ops : List AirOp) (msd : Msd), (HalAdvCall.program msd, true) ∉ (airRun ops).calls := by
  constructor
  · intro hall
    have hstop := hall [.setPayload (Vector.replicate 16 7), .stackReady, .requestStart, .process true false,
      .process true false, .endsItself, .requestStop, .process true false, .requestStart, .process true false,
      .observeEnded, .requestStop] (by decide)
    exact absurd hstop (by decide)
  · intro hall
    exact hall [.setPayload (Vector.replicate 16 7), .stackReady, .requestStart, .process true false,
      .process true false, .endsItself, .requestStop, .process true false, .requestStart, .process true false,
      .observeEnded, .setPayload (Vector.replicate 16 8), .process true false] (Vector.replicate 16 8) (by decide)

end Air

end OpenDisplay
