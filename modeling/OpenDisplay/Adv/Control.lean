import Mathlib.Data.List.Induction
import OpenDisplay.Adv.Model
import OpenDisplay.Lib.Trace

/-! What is on air is what was last supplied, and the controller settles. -/

namespace OpenDisplay

open Traces

section Runs

/-- The operations; a pass comes with what the radio would answer. -/
inductive AdvOp where
  | setPayload (msd : Msd)
  | requestStart
  | requestStop
  | stackReady
  | stackReset
  | setConnectionCount (count : UInt8)
  | observeEnded
  | process (startAllowed : Bool) (answer : HalAdvCall → HalAdvResult)

/-- An operation, or a call to the radio with its answer and the controller at the call. -/
inductive AdvEvent where
  | op (o : AdvOp)
  | hal (call : HalAdvCall) (answer : HalAdvResult) (s : AdvControl)

/-- The radio that answers like that, with a log of the calls. -/
def loggedHal (answer : HalAdvCall → HalAdvResult) (s : AdvControl) (call : HalAdvCall) (log : List AdvEvent) :
    HalAdvResult × List AdvEvent :=
  (answer call, log ++ [.hal call (answer call) s])

def advStep (w : AdvControl × List AdvEvent) (o : AdvOp) : AdvControl × List AdvEvent :=
  let log := w.2 ++ [.op o]
  match o with
  | .setPayload msd => (odAdvSetPayload msd w.1, log)
  | .requestStart => (odAdvRequestStart w.1, log)
  | .requestStop => (odAdvRequestStop w.1, log)
  | .stackReady => (odAdvStackReady w.1, log)
  | .stackReset => (odAdvStackReset w.1, log)
  | .setConnectionCount count => (odAdvSetConnectionCount count w.1, log)
  | .observeEnded => (odAdvObserveEnded w.1, log)
  | .process allowed answer => (odAdvProcess (loggedHal answer w.1) allowed w.1 log).2

def advRun (ops : List AdvOp) : AdvControl × List AdvEvent := ops.foldl advStep (odAdvControlInit, [])

/-- The payload of the last successful program since the last reset of the stack. -/
def installedStep (m : Option Msd) : AdvEvent → Option Msd
  | .op .stackReset => none
  | .hal (.program msd) answer _ => if classify answer = .acted then some msd else m
  | _ => m

def installed (es : List AdvEvent) : Option Msd := es.foldl installedStep none

/-- The payload that the application supplied last. -/
def suppliedStep (m : Option Msd) : AdvEvent → Option Msd
  | .op (.setPayload msd) => some msd
  | _ => m

def supplied (es : List AdvEvent) : Option Msd := es.foldl suppliedStep none

/-- What allows a start: all gates agree, and the radio holds the current payload. -/
def StartGuarded (pre : List AdvEvent) : AdvEvent → Prop
  | .hal .start _ s => s.stackReady = true ∧ s.desired = true ∧ s.connectionCount = 0 ∧ s.faulted = false ∧
      installed pre = some s.msd ∧ supplied pre = some s.msd
  | _ => True

structure AdvSound (w : AdvControl × List AdvEvent) : Prop where
  dirty : w.1.payloadDirty = true → w.1.payloadValid = true
  active : w.1.active = true → w.1.payloadValid = true
  supplied : w.1.payloadValid = true → supplied w.2 = some w.1.msd
  installed : w.1.payloadValid = true → w.1.payloadDirty = false → installed w.2 = some w.1.msd
  starts : Always StartGuarded w.2

theorem installed_append (es : List AdvEvent) (e : AdvEvent) :
    installed (es ++ [e]) = installedStep (installed es) e := by
  rw [installed, List.foldl_append]
  rfl

theorem supplied_append (es : List AdvEvent) (e : AdvEvent) : supplied (es ++ [e]) = suppliedStep (supplied es) e := by
  rw [supplied, List.foldl_append]
  rfl

theorem AdvSound.keep {w : AdvControl × List AdvEvent} (h : AdvSound w) {e : AdvEvent} {s : AdvControl}
    (hdirty : s.payloadDirty = w.1.payloadDirty) (hvalid : s.payloadValid = w.1.payloadValid) (hmsd : s.msd = w.1.msd)
    (hactive : s.active = true → w.1.payloadValid = true)
    (hi : installedStep (OpenDisplay.installed w.2) e = OpenDisplay.installed w.2)
    (hs : suppliedStep (OpenDisplay.supplied w.2) e = OpenDisplay.supplied w.2) (hguard : StartGuarded w.2 e) :
    AdvSound (s, w.2 ++ [e]) where
  dirty hd := by
    rw [hvalid]
    exact h.dirty (hdirty ▸ hd)
  active ha := by
    rw [hvalid]
    exact hactive ha
  supplied hv := by
    rw [supplied_append, hs, hmsd]
    exact h.supplied (hvalid ▸ hv)
  installed hv hd := by
    rw [installed_append, hi, hmsd]
    exact h.installed (hvalid ▸ hv) (hdirty ▸ hd)
  starts := always_concat.mpr ⟨h.starts, hguard⟩

theorem AdvSound.op {w : AdvControl × List AdvEvent} (h : AdvSound w) {o : AdvOp} :
    Always StartGuarded (w.2 ++ [.op o]) := always_concat.mpr ⟨h.starts, trivial⟩

theorem AdvSound.setPayload {w : AdvControl × List AdvEvent} (h : AdvSound w) (msd : Msd) :
    AdvSound (odAdvSetPayload msd w.1, w.2 ++ [.op (.setPayload msd)]) := by
  have hsupplied : OpenDisplay.supplied (w.2 ++ [.op (.setPayload msd)]) = some msd := supplied_append _ _
  unfold odAdvSetPayload
  by_cases hsame : w.1.payloadValid = true ∧ w.1.msd = msd
  · rw [if_pos hsame]
    refine ⟨h.dirty, h.active, fun _ => by rw [hsupplied, ← hsame.2], fun hv hd => ?_, h.op⟩
    rw [installed_append]
    exact h.installed hv hd
  · rw [if_neg hsame]
    exact ⟨fun _ => rfl, fun _ => rfl, fun _ => hsupplied, nofun, h.op⟩

theorem AdvSound.stackReset {w : AdvControl × List AdvEvent} (h : AdvSound w) :
    AdvSound (odAdvStackReset w.1, w.2 ++ [.op .stackReset]) := by
  refine ⟨fun hd => ?_, nofun, fun hv => ?_, fun hv hd => ?_, h.op⟩
  · simp only [odAdvStackReset] at hd ⊢
    split at hd
    · assumption
    · exact h.dirty hd
  · rw [supplied_append]
    exact h.supplied hv
  · have hv' : w.1.payloadValid = true := hv
    simp [odAdvStackReset, hv'] at hd

/-- What a call to the radio leaves, when an advance only says whether it is active. -/
theorem AdvSound.active_call {s : AdvControl} {log : List AdvEvent} (h : AdvSound (s, log)) {call : HalAdvCall}
    {answer : HalAdvResult} (on : Bool) (hon : on = true → s.payloadValid = true)
    (hi : installedStep (OpenDisplay.installed log) (.hal call answer s) = OpenDisplay.installed log)
    (hguard : StartGuarded log (.hal call answer s)) :
    AdvSound (advFold ({ · with active := on }) (classify answer) s, log ++ [.hal call answer s]) := by
  cases classify answer with
  | acted => exact h.keep rfl rfl rfl hon hi rfl hguard
  | faulted => exact h.keep rfl rfl rfl h.active hi rfl hguard
  | busy => exact h.keep rfl rfl rfl h.active hi rfl hguard
  | reconciled => exact h.keep rfl rfl rfl h.active hi rfl hguard

theorem AdvSound.process {w : AdvControl × List AdvEvent} (h : AdvSound w) (allowed : Bool)
    (answer : HalAdvCall → HalAdvResult) : AdvSound (advStep w (.process allowed answer)) := by
  have hlog : AdvSound (w.1, w.2 ++ [.op (.process allowed answer)]) := h.keep rfl rfl rfl h.active rfl rfl trivial
  have hpass := odAdvProcess_pass (loggedHal answer w.1) allowed w.1 (w.2 ++ [.op (.process allowed answer)])
  show AdvSound (odAdvProcess (loggedHal answer w.1) allowed w.1 (w.2 ++ [.op (.process allowed answer)])).2
  generalize w.2 ++ [.op (.process allowed answer)] = log at hlog hpass ⊢
  generalize odAdvProcess (loggedHal answer w.1) allowed w.1 log = out at hpass ⊢
  cases hpass with
  | rest => exact hlog
  | stop _ _ _ => exact hlog.active_call false nofun rfl trivial
  | program _ hactive _ hdirty hvalid =>
    show AdvSound (advFold _ (classify (answer (.program w.1.msd))) w.1,
      log ++ [.hal (.program w.1.msd) (answer (.program w.1.msd)) w.1])
    cases hr : classify (answer (.program w.1.msd)) with
    | acted =>
      refine ⟨nofun, hlog.active, fun _ => ?_, fun _ _ => ?_, always_concat.mpr ⟨hlog.starts, trivial⟩⟩
      · rw [supplied_append]
        exact hlog.supplied hvalid
      · rw [installed_append, installedStep, if_pos hr]
        rfl
    | faulted => exact hlog.keep rfl rfl rfl hlog.active (if_neg (by rw [hr]; nofun)) rfl trivial
    | busy => exact hlog.keep rfl rfl rfl hlog.active (if_neg (by rw [hr]; nofun)) rfl trivial
    | reconciled => exact hlog.keep rfl rfl rfl hlog.active (if_neg (by rw [hr]; nofun)) rfl trivial
  | start hready _ hfault hdesired hcount hvalid hdirty _ =>
    exact hlog.active_call true (fun _ => hvalid) rfl
      ⟨hready, hdesired, hcount, hfault, hlog.installed hvalid hdirty, hlog.supplied hvalid⟩

theorem AdvSound.step {w : AdvControl × List AdvEvent} (h : AdvSound w) (o : AdvOp) : AdvSound (advStep w o) := by
  cases o with
  | setPayload msd => exact h.setPayload msd
  | requestStart => exact h.keep rfl rfl rfl h.active rfl rfl trivial
  | requestStop => exact h.keep rfl rfl rfl h.active rfl rfl trivial
  | stackReady => exact h.keep rfl rfl rfl h.active rfl rfl trivial
  | stackReset => exact h.stackReset
  | setConnectionCount count => exact h.keep rfl rfl rfl h.active rfl rfl trivial
  | observeEnded => exact h.keep rfl rfl rfl nofun rfl rfl trivial
  | process allowed answer => exact h.process allowed answer

theorem advRun_sound (ops : List AdvOp) : AdvSound (advRun ops) := by
  induction ops using List.reverseRecOn with
  | nil => exact ⟨nofun, nofun, nofun, nofun, .nil⟩
  | append_singleton ops o ih =>
    rw [advRun, List.foldl_append]
    exact ih.step o

end Runs

section Settles

/-- The radio with a list of the calls it was given. -/
def countedHal (answer : HalAdvCall → HalAdvResult) (call : HalAdvCall) (calls : List HalAdvCall) :
    HalAdvResult × List HalAdvCall :=
  (answer call, calls ++ [call])

/-- So many passes with no other event, and the calls they make. -/
def advPasses (answers : Nat → HalAdvCall → HalAdvResult) (allowed : Bool) (s : AdvControl) :
    Nat → AdvControl × List HalAdvCall
  | 0 => (s, [])
  | n + 1 =>
    let w := advPasses answers allowed s n
    (odAdvProcess (countedHal (answers n)) allowed w.1 w.2).2

/-- How many calls are still to be made at most: a stop, a program and a start. -/
def advRank (allowed : Bool) (s : AdvControl) : Nat :=
  if s.active then
    if s.desired = false ∨ s.connectionCount ≠ 0 ∨ s.payloadDirty then 3 else 0
  else if s.payloadDirty ∧ s.payloadValid then 2
  else if s.desired ∧ s.connectionCount = 0 ∧ s.payloadValid ∧ ¬ s.payloadDirty ∧ allowed then 1
  else 0

/-- The controller can act, and it is active only with a payload. -/
structure Reconciling (s : AdvControl) : Prop where
  ready : s.stackReady = true
  clean : s.faulted = false
  valid : s.active = true → s.payloadValid = true

/-- A pass with a radio that succeeds makes a call and comes closer, or leaves all as it is. -/
theorem advRank_pass {answer : HalAdvCall → HalAdvResult} (hanswer : ∀ c, classify (answer c) = .acted) (allowed : Bool)
    {s : AdvControl} (hr : Reconciling s) (calls : List HalAdvCall) :
    let out := (odAdvProcess (countedHal answer) allowed s calls).2
    Reconciling out.1 ∧ (out = (s, calls) ∧ advRank allowed s = 0 ∨ advRank allowed out.1 < advRank allowed s) := by
  obtain ⟨hready, hfault, hvalid⟩ := hr
  have hpass := odAdvProcess_pass (countedHal answer) allowed s calls
  generalize odAdvProcess (countedHal answer) allowed s calls = out at hpass
  cases hpass with
  | rest _ _ hrest =>
    obtain ⟨hdirty, hactive, hstart⟩ := hrest hready hfault
    refine ⟨⟨hready, hfault, hvalid⟩, .inl ⟨rfl, ?_⟩⟩
    grind [advRank]
  | stop _ hactive hwhy =>
    have hacted : classify (countedHal answer .stop calls).1 = .acted := hanswer .stop
    rw [hacted]
    refine ⟨⟨hready, hfault, nofun⟩, .inr ?_⟩
    grind [advRank, advFold]
  | program _ hactive _ hdirty hpayload =>
    have hacted : classify (countedHal answer (.program s.msd) calls).1 = .acted := hanswer (.program s.msd)
    rw [hacted]
    refine ⟨⟨hready, hfault, hvalid⟩, .inr ?_⟩
    grind [advRank, advFold]
  | start _ hactive _ hdesired hcount hpayload hdirty hallowed =>
    have hacted : classify (countedHal answer .start calls).1 = .acted := hanswer .start
    rw [hacted]
    refine ⟨⟨hready, hfault, fun _ => hpayload⟩, .inr ?_⟩
    grind [advRank, advFold]

theorem advPasses_rank {answers : Nat → HalAdvCall → HalAdvResult} (hanswer : ∀ n c, classify (answers n c) = .acted)
    (allowed : Bool) {s : AdvControl} (hr : Reconciling s) (n : Nat) :
    Reconciling (advPasses answers allowed s n).1 ∧
      advRank allowed (advPasses answers allowed s n).1 ≤ advRank allowed s - n := by
  induction n with
  | zero => exact ⟨hr, Nat.le_refl _⟩
  | succ n ih =>
    obtain ⟨hr', hle⟩ := ih
    obtain ⟨hnext, hstep⟩ := advRank_pass (hanswer n) allowed hr' (advPasses answers allowed s n).2
    refine ⟨hnext, ?_⟩
    show advRank allowed (odAdvProcess (countedHal (answers n)) allowed (advPasses answers allowed s n).1
      (advPasses answers allowed s n).2).2.1 ≤ _
    rcases hstep with ⟨hsame, hzero⟩ | hless
    · rw [hsame, hzero]
      exact Nat.zero_le _
    · omega

theorem advRank_le (allowed : Bool) (s : AdvControl) : advRank allowed s ≤ 3 := by
  unfold advRank
  split_ifs <;> decide

theorem advPasses_settled {answers : Nat → HalAdvCall → HalAdvResult} (hanswer : ∀ n c, classify (answers n c) = .acted)
    (allowed : Bool) {s : AdvControl} (hr : Reconciling s) {n : Nat} (hn : 3 ≤ n) :
    advPasses answers allowed s n = advPasses answers allowed s 3 := by
  obtain ⟨k, rfl⟩ := Nat.exists_eq_add_of_le hn
  clear hn
  induction k with
  | zero => rfl
  | succ k ih =>
    obtain ⟨hr', hle⟩ := advPasses_rank hanswer allowed hr (3 + k)
    have hrank := advRank_le allowed s
    obtain ⟨-, ⟨hsame, -⟩ | hless⟩ := advRank_pass (hanswer (3 + k)) allowed hr' (advPasses answers allowed s (3 + k)).2
    · rw [← ih]
      exact hsame
    · omega

theorem advRank_zero {s : AdvControl} (hr : Reconciling s) (hzero : advRank true s = 0) :
    s.active = true ↔ s.desired = true ∧ s.connectionCount = 0 ∧ s.payloadValid = true := by
  have hvalid := hr.valid
  grind [advRank]

theorem AdvSound.reconciling {w : AdvControl × List AdvEvent} (h : AdvSound w) (hready : w.1.stackReady = true)
    (hclean : w.1.faulted = false) : Reconciling w.1 := ⟨hready, hclean, h.active⟩

/-- A pass makes at most one call to the radio, and a call that is to be retried changes
nothing. In every run, a start is called only with all gates open and with the radio holding
the current payload, which is the one supplied last. Left alone with a radio that succeeds, the
controller makes no call after three passes, and then it is active exactly when it should be. -/
theorem odAdvControl_safe_and_settles :
    (∀ (answer : HalAdvCall → HalAdvResult) (allowed : Bool) (s : AdvControl) (calls : List HalAdvCall),
      let out := odAdvProcess (countedHal answer) allowed s calls
      out.2.2 = calls ∨ ∃ call, out.2.2 = calls ++ [call] ∧ (answer call = .retry → out.2.1 = s)) ∧
    (∀ ops : List AdvOp, Always StartGuarded (advRun ops).2) ∧
    (∀ (ops : List AdvOp) (answers : Nat → HalAdvCall → HalAdvResult) (allowed : Bool),
      (∀ n c, classify (answers n c) = .acted) → (advRun ops).1.stackReady = true → (advRun ops).1.faulted = false →
      let settled := advPasses answers allowed (advRun ops).1 3
      (∀ n ≥ 3, advPasses answers allowed (advRun ops).1 n = settled) ∧
      (allowed = true → (settled.1.active = true ↔
        settled.1.desired = true ∧ settled.1.connectionCount = 0 ∧ settled.1.payloadValid = true))) := by
  refine ⟨fun answer allowed s calls => ?_, fun ops => (advRun_sound ops).starts, ?_⟩
  · have hpass := odAdvProcess_pass (countedHal answer) allowed s calls
    generalize odAdvProcess (countedHal answer) allowed s calls = out at hpass
    have hretry : ∀ call advance, answer call = .retry →
        advFold advance (classify (countedHal answer call calls).1) s = s := by
      intro call advance h
      rw [countedHal, h]
      rfl
    cases hpass with
    | rest => exact .inl rfl
    | stop => exact .inr ⟨.stop, rfl, fun h => by dsimp only; rw [hretry .stop _ h]⟩
    | program => exact .inr ⟨.program s.msd, rfl, fun h => by dsimp only; rw [hretry (.program s.msd) _ h]⟩
    | start => exact .inr ⟨.start, rfl, fun h => by dsimp only; rw [hretry .start _ h]⟩
  · intro ops answers allowed hanswer hready hclean
    have hr := (advRun_sound ops).reconciling hready hclean
    refine ⟨fun n hn => advPasses_settled hanswer allowed hr hn, ?_⟩
    rintro rfl
    obtain ⟨hr', hle⟩ := advPasses_rank hanswer true hr 3
    have hrank := advRank_le true (advRun ops).1
    exact advRank_zero hr' (by omega)

/-- A payload, a start and a stack that is ready: after three passes it is on air. -/
theorem odAdvControl_safe_and_settles_on_air :
    (advPasses (fun _ _ => .ok) true
      (advRun [.setPayload (Vector.replicate 16 7), .requestStart, .stackReady]).1 3).1.active = true :=
  ((odAdvControl_safe_and_settles.2.2 [.setPayload (Vector.replicate 16 7), .requestStart, .stackReady]
    (fun _ _ => .ok) true (fun _ _ => rfl) (by decide) (by decide)).2 rfl).mpr (by decide)

end Settles

end OpenDisplay
