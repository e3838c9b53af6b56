import OpenDisplay.Led.Model

/-! A light pattern as the list of its steps, and the runner as a machine that follows it. -/

namespace OpenDisplay

open Loops Schedules

section Steps

/-- A flash or a pause, with the time until the next step. -/
structure LedStep where
  color : Option UInt8
  delayMs : Nat
deriving DecidableEq

def LedStep.acts (pins : LedPins) (brightness : UInt8) (step : LedStep) : List LedAct :=
  (step.color.map fun color => LedAct.flash pins color brightness).toList

def delayMs (units : UInt8) : Nat := if 0 < units then units.toNat * 100 else 1

def flashSteps (color delay : UInt8) (count : Nat) : List LedStep := List.replicate count ⟨some color, delayMs delay⟩

/-- A pause of no length is no step. -/
def pauseSteps (delay : UInt8) : List LedStep := if 0 < delay then [⟨none, delayMs delay⟩] else []

namespace LedPattern

variable (p : LedPattern)

/-- The steps of the third loop from its `i3`-th flash on, and the end of the group. -/
def fromLoop3 (i3 : UInt8) : List LedStep :=
  flashSteps p.c3 p.loop3delay (p.loopcnt3.toNat - i3.toNat) ++ [⟨none, delayMs p.ildelay3⟩]

def fromLoop2 (i2 i3 : UInt8) : List LedStep :=
  flashSteps p.c2 p.loop2delay (p.loopcnt2.toNat - i2.toNat) ++ (pauseSteps p.ildelay2 ++ p.fromLoop3 i3)

def fromLoop1 (i1 i2 i3 : UInt8) : List LedStep :=
  flashSteps p.c1 p.loop1delay (p.loopcnt1.toNat - i1.toNat) ++ (pauseSteps p.ildelay1 ++ p.fromLoop2 i2 i3)

def group : List LedStep := p.fromLoop1 0 0 0

end LedPattern

/-- The steps of the group under way, and the groups after it, if they have an end. -/
structure LedPlan where
  rest : List LedStep
  left : Option Nat

def LedPlan.next (p : LedPattern) (plan : LedPlan) : Option (LedStep × LedPlan) :=
  match plan.rest, plan.left with
  | step :: rest, left => some (step, ⟨rest, left⟩)
  | [], some 0 => none
  | [], some (k + 1) => p.group.head?.map fun step => (step, ⟨p.group.tail, some k⟩)
  | [], none => p.group.head?.map fun step => (step, ⟨p.group.tail, none⟩)

def ledPlan (pins : LedPins) (ledInstance : UInt8) (p : LedPattern) : Plan LedPlan LedStep LedAct where
  next _ plan := plan.next p
  acts := LedStep.acts pins p.brightness
  wait _ step := step.delayMs
  final _ := [.allOff pins, .finished ledInstance]
  idle := odLedIdle

end Steps

section Position

/-- The groups after the one under way. -/
def LedRun.left (s : LedRun) (pos : Nat) : Option Nat :=
  if s.pattern.repeatForever then none else some (s.pattern.grouprepeats.toNat - pos)

/-- What is left to do, by the phase. -/
def LedRun.plan (s : LedRun) : LedPlan :=
  match s.phase with
  | .idle => ⟨[], some 0⟩
  | .group => ⟨[], s.left s.groupPos.toNat⟩
  | .loop1 | .loop1Delay => ⟨s.pattern.fromLoop1 s.i1 s.i2 s.i3, s.left (s.groupPos.toNat + 1)⟩
  | .inter1Delay | .loop2 | .loop2Delay => ⟨s.pattern.fromLoop2 s.i2 s.i3, s.left (s.groupPos.toNat + 1)⟩
  | .inter2Delay | .loop3 | .loop3Delay => ⟨s.pattern.fromLoop3 s.i3, s.left (s.groupPos.toNat + 1)⟩
  | .inter3Delay => ⟨[], s.left (s.groupPos.toNat + 1)⟩

/-- A run is under way, and its groups have not run over. -/
structure LedRun.Sound (s : LedRun) : Prop where
  active : s.active = true
  phase : s.phase ≠ .idle
  groups : s.pattern.repeatForever = false → s.phase ≠ .group → s.groupPos < s.pattern.grouprepeats

variable {p : LedPattern} {color delay : UInt8} {count : Nat}

theorem flashSteps_succ (h : count ≠ 0) :
    flashSteps color delay count = ⟨some color, delayMs delay⟩ :: flashSteps color delay (count - 1) := by
  obtain ⟨n, rfl⟩ := Nat.exists_eq_succ_of_ne_zero h
  exact List.replicate_succ

/-- One flash of a loop is one step of its list. -/
theorem flashSteps_flash {cnt i : UInt8} (h : ¬ i ≥ cnt) :
    flashSteps color delay (cnt.toNat - i.toNat) =
      ⟨some color, delayMs delay⟩ :: flashSteps color delay (cnt.toNat - (i + 1).toNat) := by
  have hlt := UInt8.lt_iff_toNat_lt.mp (UInt8.not_le.mp h)
  have hcnt := cnt.toNat_lt
  have hsucc : (i + 1).toNat = i.toNat + 1 := by
    rw [UInt8.toNat_add]
    show (i.toNat + 1) % 256 = _
    omega
  rw [flashSteps_succ (by omega), hsucc, Nat.sub_sub]

theorem flashSteps_done {cnt i : UInt8} (h : i ≥ cnt) : flashSteps color delay (cnt.toNat - i.toNat) = [] := by
  rw [Nat.sub_eq_zero_of_le (UInt8.le_iff_toNat_le.mp h)]
  rfl

theorem next_cons (step : LedStep) (rest : List LedStep) (left : Option Nat) :
    LedPlan.next p ⟨step :: rest, left⟩ = some (step, ⟨rest, left⟩) := by
  rw [LedPlan.next]

theorem group_ne_nil (p : LedPattern) : p.group ≠ [] := by
  simp [LedPattern.group, LedPattern.fromLoop1, LedPattern.fromLoop2, LedPattern.fromLoop3]

/-- Opening a group takes no step. -/
theorem next_open (p : LedPattern) (k : Nat) :
    LedPlan.next p ⟨p.group, some k⟩ = LedPlan.next p ⟨[], some (k + 1)⟩ ∧
      LedPlan.next p ⟨p.group, none⟩ = LedPlan.next p ⟨[], none⟩ := by
  obtain ⟨step, rest, hgroup⟩ := List.exists_cons_of_ne_nil (group_ne_nil p)
  simp [LedPlan.next, hgroup]

theorem delayMs_bounds (units : UInt8) : 0 < delayMs units ∧ delayMs units < 2 ^ 31 := by
  have hlt := units.toNat_lt
  unfold delayMs
  split
  · next hpos =>
    rw [UInt8.lt_iff_toNat_lt] at hpos
    exact ⟨Nat.mul_pos hpos (by decide), by omega⟩
  · decide

/-- What is scheduled is the delay of the step. -/
theorem delayMs_word (units : UInt8) :
    (0 < units → units.toUInt32 * odLedDelayFactorMs = UInt32.ofNat (delayMs units)) ∧
      (¬ 0 < units → odLedMinStepDelayMs = UInt32.ofNat (delayMs units)) := by
  refine ⟨fun h => ?_, fun h => ?_⟩
  · rw [delayMs, if_pos h, UInt32.ofNat_mul]
    congr 1
    apply UInt32.toNat_inj.mp
    simp
  · rw [delayMs, if_neg h]
    rfl

end Position

section Pass

variable {nowMs : UInt32} {s s' : LedRun}

/-- Who the run is for stays the same. -/
structure SameRun (s s' : LedRun) : Prop where
  pins : s'.pins = s.pins
  ledInstance : s'.ledInstance = s.ledInstance
  pattern : s'.pattern = s.pattern

/-- A step of the plan has been done and the next one is scheduled. -/
structure Stepped (nowMs : UInt32) (s : LedRun) (step : LedStep) (out : UInt32 × List LedAct × LedRun) : Prop where
  delay : 0 < step.delayMs ∧ step.delayMs < 2 ^ 31
  next : s.plan.next s.pattern = some (step, out.2.2.plan)
  returned : out.1 = UInt32.ofNat step.delayMs
  acts : out.2.1 = step.acts s.pins s.pattern.brightness
  sound : out.2.2.Sound
  same : SameRun s out.2.2
  timer : out.2.2.waiting = true ∧ out.2.2.deadlineMs = nowMs + UInt32.ofNat step.delayMs

/-- The plan is over and the run has been closed. -/
structure Closed (s : LedRun) (out : UInt32 × List LedAct × LedRun) : Prop where
  next : s.plan.next s.pattern = none
  out : out = (odLedIdle, [.allOff s.pins, .finished s.ledInstance], {})

/-- A pass goes on with the same plan, does its next step, or ends it. -/
inductive PassSpec (nowMs : UInt32) (s : LedRun) : Iter LedRun (UInt32 × List LedAct × LedRun) → Prop where
  | next {s' : LedRun} : s'.plan.next s'.pattern = s.plan.next s.pattern → s'.Sound → SameRun s s' →
    PassSpec nowMs s (.next s')
  | step {step : LedStep} {out : UInt32 × List LedAct × LedRun} : Stepped nowMs s step out →
    PassSpec nowMs s (.stop out)
  | close {out : UInt32 × List LedAct × LedRun} : Closed s out → PassSpec nowMs s (.stop out)

theorem SameRun.trans {s'' : LedRun} (h : SameRun s s') (h' : SameRun s' s'') : SameRun s s'' :=
  ⟨h'.pins.trans h.pins, h'.ledInstance.trans h.ledInstance, h'.pattern.trans h.pattern⟩

theorem schedule_stepped (color : Option UInt8) {units : UInt8} {delay : UInt32} {acts : List LedAct}
    (hnext : s.plan.next s.pattern = some (⟨color, delayMs units⟩, s'.plan))
    (hdelay : delay = UInt32.ofNat (delayMs units))
    (hacts : acts = LedStep.acts s.pins s.pattern.brightness ⟨color, delayMs units⟩) (hsound : s'.Sound)
    (hsame : SameRun s s') : PassSpec nowMs s (ledSchedule nowMs delay acts s') := by
  refine @PassSpec.step nowMs s ⟨color, delayMs units⟩ _ ⟨delayMs_bounds units, hnext, hdelay, hacts,
    ⟨hsound.active, hsound.phase, hsound.groups⟩, ⟨hsame.pins, hsame.ledInstance, hsame.pattern⟩, rfl, ?_⟩
  exact congrArg (nowMs + ·) hdelay

theorem LedRun.Sound.phased (h : s.Sound) (phase : LedPhase) (hne : phase ≠ .idle) (hgroup : s.phase ≠ .group) :
    LedRun.Sound { s with phase := phase } :=
  ⟨h.active, hne, fun hforever _ => h.groups hforever hgroup⟩

theorem LedRun.left_finite (h : s.pattern.repeatForever = false) (pos : Nat) :
    s.left pos = some (s.pattern.grouprepeats.toNat - pos) := by
  rw [LedRun.left, h, if_neg (by decide)]

theorem LedRun.left_forever (h : s.pattern.repeatForever = true) (pos : Nat) : s.left pos = none := by
  rw [LedRun.left, h, if_pos rfl]

theorem groupPass_spec (h : s.Sound) (hphase : s.phase = .group) : PassSpec nowMs s (ledPass nowMs s) := by
  have hplan : s.plan = ⟨[], s.left s.groupPos.toNat⟩ := by rw [LedRun.plan, hphase]
  have hsame : SameRun s { s with i1 := 0, i2 := 0, i3 := 0, phase := .loop1 } := ⟨rfl, rfl, rfl⟩
  simp only [ledPass, hphase]
  cases hforever : s.pattern.repeatForever with
  | true =>
    rw [if_neg (by simp)]
    refine .next ?_ ⟨h.active, LedPhase.noConfusion, fun hfinite _ => ?_⟩ hsame
    · rw [hplan, LedRun.left_forever hforever]
      show LedPlan.next s.pattern ⟨s.pattern.group, s.left _⟩ = _
      rw [LedRun.left_forever hforever]
      exact (next_open s.pattern 0).2
    · cases hforever.symm.trans hfinite
  | false =>
    by_cases hover : s.groupPos ≥ s.pattern.grouprepeats
    · rw [if_pos ⟨Bool.false_ne_true, hover⟩]
      refine .close ⟨?_, ?_⟩
      · rw [hplan, LedRun.left_finite hforever, Nat.sub_eq_zero_of_le (UInt8.le_iff_toNat_le.mp hover)]
        rfl
      · simp only [ledRunFinish, h.active, if_true]
        rfl
    · have hlt := UInt8.not_le.mp hover
      rw [if_neg (fun hcond => hover hcond.2)]
      refine .next ?_ ⟨h.active, LedPhase.noConfusion, fun _ _ => hlt⟩ hsame
      rw [hplan, LedRun.left_finite hforever]
      show LedPlan.next s.pattern ⟨s.pattern.group, s.left _⟩ = _
      rw [LedRun.left_finite hforever, (next_open s.pattern _).1]
      have hlt := UInt8.lt_iff_toNat_lt.mp hlt
      rw [show s.pattern.grouprepeats.toNat - (s.groupPos.toNat + 1) + 1 =
        s.pattern.grouprepeats.toNat - s.groupPos.toNat by omega]

/-- The position of the group moves on without running over. -/
theorem LedRun.Sound.left_succ (h : s.Sound) (hgroup : s.phase ≠ .group) :
    s.left (s.groupPos + 1).toNat = s.left (s.groupPos.toNat + 1) := by
  cases hforever : s.pattern.repeatForever with
  | true => rw [LedRun.left_forever hforever, LedRun.left_forever hforever]
  | false =>
    have hlt := UInt8.lt_iff_toNat_lt.mp (h.groups hforever hgroup)
    have hrepeats := s.pattern.grouprepeats.toNat_lt
    have hsucc : (s.groupPos + 1).toNat = s.groupPos.toNat + 1 := by
      rw [UInt8.toNat_add]
      show (s.groupPos.toNat + 1) % 256 = _
      omega
    rw [hsucc]

/-- A flash, with the delay of its loop if it has one. -/
theorem flash_spec {s₁ s₂ : LedRun} {color delay : UInt8}
    (hnext : s.plan.next s.pattern = some (⟨some color, delayMs delay⟩, s₁.plan)) (hplan : s₂.plan = s₁.plan)
    (hsound : s₁.Sound) (hsound' : s₂.Sound) (hsame : SameRun s s₁) (hsame' : SameRun s s₂) :
    PassSpec nowMs s
      (if delay > 0 then
        ledSchedule nowMs (delay.toUInt32 * odLedDelayFactorMs) [.flash s.pins color s.pattern.brightness] s₂
      else ledSchedule nowMs odLedMinStepDelayMs [.flash s.pins color s.pattern.brightness] s₁) := by
  by_cases hdelay : delay > 0
  · rw [if_pos hdelay]
    exact schedule_stepped (some color) (hplan ▸ hnext) ((delayMs_word _).1 hdelay) rfl hsound' hsame'
  · rw [if_neg hdelay]
    exact schedule_stepped (some color) hnext ((delayMs_word _).2 hdelay) rfl hsound hsame

/-- The end of a loop, with the pause behind it if it has one. -/
theorem pause_spec {s₁ s₂ : LedRun} {delay : UInt8} {rest : List LedStep} {left : Option Nat}
    (hplan : s.plan = ⟨pauseSteps delay ++ rest, left⟩) (hplan₁ : s₁.plan = ⟨rest, left⟩)
    (hplan₂ : s₂.plan = ⟨rest, left⟩)
    (hsound : s₁.Sound) (hsound' : s₂.Sound) (hsame : SameRun s s₁) (hsame' : SameRun s s₂) :
    PassSpec nowMs s
      (if delay > 0 then ledSchedule nowMs (delay.toUInt32 * odLedDelayFactorMs) [] s₂ else .next s₁) := by
  by_cases hdelay : delay > 0
  · rw [if_pos hdelay]
    refine schedule_stepped none ?_ ((delayMs_word _).1 hdelay) rfl hsound' hsame'
    rw [hplan, hplan₂, pauseSteps, if_pos hdelay]
    exact next_cons _ _ _
  · rw [if_neg hdelay]
    refine .next ?_ hsound hsame
    rw [hsame.pattern, hplan, hplan₁, pauseSteps, if_neg hdelay]
    rfl

theorem loop1Pass_spec (h : s.Sound) (hphase : s.phase = .loop1) : PassSpec nowMs s (ledPass nowMs s) := by
  have hgroup : s.phase ≠ .group := by rw [hphase]; exact LedPhase.noConfusion
  have hplan : s.plan = ⟨s.pattern.fromLoop1 s.i1 s.i2 s.i3, s.left (s.groupPos.toNat + 1)⟩ := by
    rw [LedRun.plan, hphase]
  simp only [ledPass, hphase]
  by_cases hdone : s.i1 ≥ s.pattern.loopcnt1
  · rw [if_pos hdone]
    rw [LedPattern.fromLoop1, flashSteps_done hdone] at hplan
    exact pause_spec hplan rfl rfl (h.phased .loop2 LedPhase.noConfusion hgroup)
      (h.phased .inter1Delay LedPhase.noConfusion hgroup) ⟨rfl, rfl, rfl⟩ ⟨rfl, rfl, rfl⟩
  · rw [if_neg hdone]
    rw [LedPattern.fromLoop1, flashSteps_flash hdone] at hplan
    have hsound : ∀ phase, phase ≠ .idle → LedRun.Sound { s with i1 := s.i1 + 1, phase := phase } :=
      fun phase hne => ⟨h.active, hne, fun hforever _ => h.groups hforever hgroup⟩
    exact flash_spec (hplan ▸ next_cons _ _ _) rfl (hsound .loop1 LedPhase.noConfusion)
      (hsound .loop1Delay LedPhase.noConfusion) ⟨rfl, rfl, rfl⟩ ⟨rfl, rfl, rfl⟩

theorem loop2Pass_spec (h : s.Sound) (hphase : s.phase = .loop2) : PassSpec nowMs s (ledPass nowMs s) := by
  have hgroup : s.phase ≠ .group := by rw [hphase]; exact LedPhase.noConfusion
  have hplan : s.plan = ⟨s.pattern.fromLoop2 s.i2 s.i3, s.left (s.groupPos.toNat + 1)⟩ := by
    rw [LedRun.plan, hphase]
  simp only [ledPass, hphase]
  by_cases hdone : s.i2 ≥ s.pattern.loopcnt2
  · rw [if_pos hdone]
    rw [LedPattern.fromLoop2, flashSteps_done hdone] at hplan
    exact pause_spec hplan rfl rfl (h.phased .loop3 LedPhase.noConfusion hgroup)
      (h.phased .inter2Delay LedPhase.noConfusion hgroup) ⟨rfl, rfl, rfl⟩ ⟨rfl, rfl, rfl⟩
  · rw [if_neg hdone]
    rw [LedPattern.fromLoop2, flashSteps_flash hdone] at hplan
    have hsound : ∀ phase, phase ≠ .idle → LedRun.Sound { s with i2 := s.i2 + 1, phase := phase } :=
      fun phase hne => ⟨h.active, hne, fun hforever _ => h.groups hforever hgroup⟩
    exact flash_spec (hplan ▸ next_cons _ _ _) rfl (hsound .loop2 LedPhase.noConfusion)
      (hsound .loop2Delay LedPhase.noConfusion) ⟨rfl, rfl, rfl⟩ ⟨rfl, rfl, rfl⟩

theorem loop3Pass_spec (h : s.Sound) (hphase : s.phase = .loop3) : PassSpec nowMs s (ledPass nowMs s) := by
  have hgroup : s.phase ≠ .group := by rw [hphase]; exact LedPhase.noConfusion
  have hplan : s.plan = ⟨s.pattern.fromLoop3 s.i3, s.left (s.groupPos.toNat + 1)⟩ := by
    rw [LedRun.plan, hphase]
  simp only [ledPass, hphase]
  by_cases hdone : s.i3 ≥ s.pattern.loopcnt3
  · rw [if_pos hdone]
    rw [LedPattern.fromLoop3, flashSteps_done hdone] at hplan
    by_cases hdelay : s.pattern.ildelay3 > 0
    · rw [if_pos hdelay]
      exact schedule_stepped none (hplan ▸ next_cons _ _ _) ((delayMs_word _).1 hdelay) rfl
        (h.phased .inter3Delay LedPhase.noConfusion hgroup) ⟨rfl, rfl, rfl⟩
    · rw [if_neg hdelay]
      refine schedule_stepped none ?_ ((delayMs_word _).2 hdelay) rfl
        ⟨h.active, LedPhase.noConfusion, fun _ hne => absurd rfl hne⟩ ⟨rfl, rfl, rfl⟩
      rw [hplan, List.nil_append, next_cons]
      show _ = some (_, LedPlan.mk [] (s.left (s.groupPos + 1).toNat))
      rw [h.left_succ hgroup]
  · rw [if_neg hdone]
    rw [LedPattern.fromLoop3, flashSteps_flash hdone] at hplan
    have hsound : ∀ phase, phase ≠ .idle → LedRun.Sound { s with i3 := s.i3 + 1, phase := phase } :=
      fun phase hne => ⟨h.active, hne, fun hforever _ => h.groups hforever hgroup⟩
    exact flash_spec (hplan ▸ next_cons _ _ _) rfl (hsound .loop3 LedPhase.noConfusion)
      (hsound .loop3Delay LedPhase.noConfusion) ⟨rfl, rfl, rfl⟩ ⟨rfl, rfl, rfl⟩

/-- The phases between the loops only lead to the next one. -/
theorem phasePass_spec (h : s.Sound) (phase : LedPhase) (hne : phase ≠ .idle) (hgroup : s.phase ≠ .group)
    (hplan : LedRun.plan { s with phase := phase } = s.plan) : PassSpec nowMs s (.next { s with phase := phase }) :=
  .next (by rw [hplan]) (h.phased phase hne hgroup) ⟨rfl, rfl, rfl⟩

theorem ledPass_spec (nowMs : UInt32) (h : s.Sound) : PassSpec nowMs s (ledPass nowMs s) := by
  cases hphase : s.phase with
  | idle => exact absurd hphase h.phase
  | group => exact groupPass_spec h hphase
  | loop1 => exact loop1Pass_spec h hphase
  | loop2 => exact loop2Pass_spec h hphase
  | loop3 => exact loop3Pass_spec h hphase
  | loop1Delay | inter1Delay | loop2Delay | inter2Delay | loop3Delay =>
    simp only [ledPass, hphase]
    refine phasePass_spec h _ LedPhase.noConfusion (by rw [hphase]; exact LedPhase.noConfusion) ?_
    simp only [LedRun.plan, hphase]
    rfl
  | inter3Delay =>
    have hgroup : s.phase ≠ .group := by rw [hphase]; exact LedPhase.noConfusion
    simp only [ledPass, hphase]
    refine .next ?_ ⟨h.active, LedPhase.noConfusion, fun _ hne => absurd rfl hne⟩ ⟨rfl, rfl, rfl⟩
    show LedPlan.next s.pattern ⟨[], s.left (s.groupPos + 1).toNat⟩ = _
    rw [h.left_succ hgroup]
    simp only [LedRun.plan, hphase]

/-- A call that is not too early does the next step of the plan or closes the run. -/
theorem ledLoop_spec (nowMs : UInt32) (h : s.Sound) :
    (∃ step, Stepped nowMs s step (loop (ledPass nowMs) (fun s => s.phase.rank) (ledPass_dec nowMs) s)) ∨
      Closed s (loop (ledPass nowMs) (fun s => s.phase.rank) (ledPass_dec nowMs) s) := by
  refine loop_rule (P := fun (s : LedRun) (out : UInt32 × List LedAct × LedRun) =>
    s.Sound → (∃ step, Stepped nowMs s step out) ∨ Closed s out) ?_ ?_ s h
  · intro s out hstop hs
    have hspec := ledPass_spec nowMs hs
    rw [hstop] at hspec
    cases hspec with
    | step hstep => exact .inl ⟨_, hstep⟩
    | close hclose => exact .inr hclose
  · intro s s' out hnext hout hs
    have hspec := ledPass_spec nowMs hs
    rw [hnext] at hspec
    cases hspec with
    | next hplan hsound hsame =>
      rcases hout hsound with ⟨step, hstep⟩ | hclose
      · refine .inl ⟨step, hstep.delay, hplan ▸ hstep.next, hstep.returned, ?_, hstep.sound, hsame.trans hstep.same,
          hstep.timer⟩
        rw [hstep.acts, hsame.pins, hsame.pattern]
      · refine .inr ⟨hplan ▸ hclose.next, ?_⟩
        rw [hclose.out, hsame.pins, hsame.ledInstance]

end Pass

section Follow

variable {pins : LedPins} {ledInstance : UInt8} {p : LedPattern} {mode : UInt8 → UInt8}

/-- The run is sound and stands at this place of the plan. -/
structure LedSim (pins : LedPins) (ledInstance : UInt8) (p : LedPattern) (s : LedRun) (plan : LedPlan) : Prop where
  sound : s.Sound
  pins : s.pins = pins
  ledInstance : s.ledInstance = ledInstance
  pattern : s.pattern = p
  plan : s.plan = plan

def LedRun.timer (s : LedRun) : Option UInt32 := if s.waiting then some s.deadlineMs else none

theorem odLedService_late {s : LedRun} {nowMs : UInt32} (h : s.Sound) (hmode : mode s.ledInstance = 1)
    (hreached : ∀ d, s.timer = some d → reached nowMs d = true) :
    (∃ step, Stepped nowMs s step (odLedService mode nowMs s)) ∨ Closed s (odLedService mode nowMs s) := by
  have hlate : ¬ (s.waiting = true ∧ ¬ reached nowMs s.deadlineMs = true) := fun hearly =>
    hearly.2 (hreached _ (if_pos hearly.1))
  have hsound : LedRun.Sound { s with waiting := false } := ⟨h.active, h.phase, h.groups⟩
  rw [odLedService, if_neg (not_not.mpr h.active), if_neg (not_not.mpr hmode), if_neg hlate]
  rcases ledLoop_spec nowMs hsound with ⟨step, hstep⟩ | hclose
  · exact .inl ⟨step, hstep.delay, hstep.next, hstep.returned, hstep.acts, hstep.sound,
      ⟨hstep.same.pins, hstep.same.ledInstance, hstep.same.pattern⟩, hstep.timer⟩
  · exact .inr ⟨hclose.next, hclose.out⟩

theorem odLedService_follows (pins : LedPins) (p : LedPattern) (hmode : mode ledInstance = 1) :
    Obeys (odLedService mode) (ledPlan pins ledInstance p) (fun _ => LedSim pins ledInstance p) LedRun.timer
      (fun s => s.active = false) where
  idle now s h := by
    rw [odLedService, if_pos (by simp [h])]
    rfl
  early now s plan due d hsim htimer hreached := by
    have hwaiting : s.waiting = true ∧ s.deadlineMs = d := by
      unfold LedRun.timer at htimer
      split at htimer
      · next hwaiting => exact ⟨hwaiting, Option.some.inj htimer⟩
      · cases htimer
    obtain ⟨hwaiting, rfl⟩ := hwaiting
    rw [odLedService, if_neg (not_not.mpr hsim.sound.active), if_neg (not_not.mpr (hsim.ledInstance ▸ hmode)),
      if_pos ⟨hwaiting, by simp [hreached]⟩]
  finish t s plan due hsim _ _ hreached hnext := by
    have hnone : s.plan.next s.pattern = none := by
      rw [hsim.plan, hsim.pattern]
      exact hnext
    have hlive : mode s.ledInstance = 1 := hsim.ledInstance ▸ hmode
    rcases odLedService_late hsim.sound hlive hreached with ⟨step, hstep⟩ | hclose
    · cases hstep.next.symm.trans hnone
    · exact ⟨{}, by rw [hclose.out, hsim.pins, hsim.ledInstance]; rfl, rfl⟩
  next t s plan due step plan' hsim _ _ hreached hnext := by
    have hsome : s.plan.next s.pattern = some (step, plan') := by
      rw [hsim.plan, hsim.pattern]
      exact hnext
    have hlive : mode s.ledInstance = 1 := hsim.ledInstance ▸ hmode
    rcases odLedService_late hsim.sound hlive hreached with ⟨step', hstep⟩ | hclose
    · obtain ⟨rfl, hplan⟩ := Prod.mk.inj (Option.some.inj (hstep.next.symm.trans hsome))
      obtain ⟨hwaiting, hdeadline⟩ := hstep.timer
      refine ⟨hstep.delay.1, hstep.delay.2, (odLedService mode (UInt32.ofNat t) s).2.2, ?_, ?_, hstep.sound,
        hstep.same.pins.trans hsim.pins, hstep.same.ledInstance.trans hsim.ledInstance,
        hstep.same.pattern.trans hsim.pattern, hplan⟩
      · refine Prod.ext hstep.returned (Prod.ext ?_ rfl)
        rw [hstep.acts, hsim.pins, hsim.pattern]
        rfl
      · rw [LedRun.timer, if_pos hwaiting, hdeadline, ← UInt32.ofNat_add]
        rfl
    · cases hclose.next.symm.trans hsome
  nonzero := show odLedIdle ≠ 0 by decide

end Follow

section Order

variable {pins : LedPins} {ledInstance : UInt8} {p : LedPattern}

/-- The steps of so many groups, one group after another. -/
def LedPattern.groups (p : LedPattern) (k : Nat) : List LedStep := (List.replicate k p.group).flatten

theorem next_order {plan plan' : LedPlan} {step : LedStep} (h : plan.next p = some (step, plan')) :
    ∃ k, plan.rest ++ p.groups k = step :: plan'.rest ∧ (∀ n, plan.left = some n → k ≤ n ∧ plan'.left = some (n - k)) ∧
      (plan.left = none → plan'.left = none) := by
  obtain ⟨step₁, group, hgroup⟩ := List.exists_cons_of_ne_nil (group_ne_nil p)
  have hone : p.groups 1 = step₁ :: group := by
    rw [LedPattern.groups, List.replicate_one, List.flatten_singleton, hgroup]
  unfold LedPlan.next at h
  split at h
  · next hrest =>
    obtain ⟨rfl, rfl⟩ := Prod.mk.inj (Option.some.inj h)
    exact ⟨0, by rw [hrest]; exact List.append_nil _, fun n hn => ⟨Nat.zero_le n, hn⟩, id⟩
  · cases h
  · next k hrest hleft =>
    rw [hgroup] at h
    obtain ⟨rfl, rfl⟩ := Prod.mk.inj (Option.some.inj h)
    refine ⟨1, by rw [hrest, hone]; rfl, fun n hn => ?_, fun hn => ?_⟩
    · obtain rfl := Option.some.inj (hleft.symm.trans hn)
      exact ⟨Nat.le_add_left 1 k, rfl⟩
    · cases hleft.symm.trans hn
  · next hrest hleft =>
    rw [hgroup] at h
    obtain ⟨rfl, rfl⟩ := Prod.mk.inj (Option.some.inj h)
    refine ⟨1, by rw [hrest, hone]; rfl, fun n hn => ?_, fun _ => rfl⟩
    cases hleft.symm.trans hn

/-- What has been done is what the groups that were opened hold, up to what is left of the last. -/
theorem does_order {plan plan' : LedPlan} {done : List (Nat × LedStep)}
    (h : (ledPlan pins ledInstance p).Does plan done plan') :
    ∃ k, plan.rest ++ p.groups k = done.map Prod.snd ++ plan'.rest ∧
      (∀ n, plan.left = some n → k ≤ n ∧ plan'.left = some (n - k)) ∧ (plan.left = none → plan'.left = none) := by
  induction h with
  | nil => exact ⟨0, List.append_nil _, fun n hn => ⟨Nat.zero_le n, hn⟩, id⟩
  | @cons plan plan₁ plan' t step rest hnext _ ih =>
    obtain ⟨k, hk, hfinite, hforever⟩ := next_order (show plan.next p = _ from hnext)
    obtain ⟨k', hk', hfinite', hforever'⟩ := ih
    refine ⟨k + k', ?_, fun n hn => ?_, fun hn => hforever' (hforever hn)⟩
    · have hadd : p.groups (k + k') = p.groups k ++ p.groups k' := by
        rw [LedPattern.groups, List.replicate_add, List.flatten_append]
        rfl
      rw [hadd, ← List.append_assoc, hk, List.cons_append, hk']
      rfl
    · obtain ⟨hle, hleft⟩ := hfinite n hn
      obtain ⟨hle', hleft'⟩ := hfinite' _ hleft
      exact ⟨by omega, hleft'.trans (congrArg some (by omega))⟩

theorem next_none {plan : LedPlan} (h : plan.next p = none) : plan.rest = [] ∧ plan.left = some 0 := by
  obtain ⟨step, group, hgroup⟩ := List.exists_cons_of_ne_nil (group_ne_nil p)
  unfold LedPlan.next at h
  split at h
  · cases h
  · next hrest hleft => exact ⟨hrest, hleft⟩
  · rw [hgroup] at h
    cases h
  · rw [hgroup] at h
    cases h

end Order

section Run

variable {pins : LedPins} {ledInstance : UInt8} {p : LedPattern}

def LedAct.flashColor : LedAct → Option UInt8
  | .flash _ color _ => some color
  | .allOff _ | .finished _ => none

/-- The colors of a group, flash by flash. -/
def LedPattern.colors (p : LedPattern) : List UInt8 :=
  List.replicate p.loopcnt1.toNat p.c1 ++ List.replicate p.loopcnt2.toNat p.c2 ++ List.replicate p.loopcnt3.toNat p.c3

theorem flashSteps_colors (color delay : UInt8) (count : Nat) :
    (flashSteps color delay count).filterMap LedStep.color = List.replicate count color := by
  rw [flashSteps]
  exact List.filterMap_replicate_of_some rfl

theorem pauseSteps_colors (delay : UInt8) : (pauseSteps delay).filterMap LedStep.color = [] := by
  unfold pauseSteps
  split <;> rfl

theorem group_colors (p : LedPattern) : p.group.filterMap LedStep.color = p.colors := by
  have hend : [LedStep.mk none (delayMs p.ildelay3)].filterMap LedStep.color = [] := rfl
  simp only [LedPattern.group, LedPattern.fromLoop1, LedPattern.fromLoop2, LedPattern.fromLoop3, List.filterMap_append,
    flashSteps_colors, pauseSteps_colors, hend, List.nil_append, List.append_nil, LedPattern.colors, List.append_assoc]
  rfl

theorem groups_colors (p : LedPattern) (k : Nat) :
    (p.groups k).filterMap LedStep.color = (List.replicate k p.colors).flatten := by
  rw [LedPattern.groups, List.filterMap_flatten, List.map_replicate, group_colors]

theorem acts_colors (pins : LedPins) (brightness : UInt8) (steps : List LedStep) :
    (steps.flatMap (LedStep.acts pins brightness)).filterMap LedAct.flashColor = steps.filterMap LedStep.color := by
  induction steps with
  | nil => rfl
  | cons step steps ih =>
    rw [List.flatMap_cons, List.filterMap_append, ih, List.filterMap_cons]
    obtain ⟨color, delay⟩ := step
    cases color <;> rfl

theorem acts_flashes (pins : LedPins) (brightness : UInt8) (step : LedStep) :
    ((step.acts pins brightness).filterMap LedAct.flashColor).length ≤ 1 := by
  obtain ⟨color, delay⟩ := step
  cases color <;> simp [LedStep.acts, LedAct.flashColor]

/-- A run of an accepted pattern, called at any times: the calls are those of the plan. -/
theorem ledRun_stands (pins : LedPins) (ledInstance : UInt8) (pattern : Vector UInt8 12)
    (hrun : ledMode pattern = 1) (s₀ : LedRun) (start : Nat) :
    Awaits (fun _ => LedSim pins ledInstance (ledParse pattern)) LedRun.timer (fun s => s.active = false) start
      (odLedActivate ledInstance (some pins) (some pattern) (UInt32.ofNat start) s₀).2.2
      (some (⟨[], if ledRepeats pattern ≥ 0xFE then none else some ((ledRepeats pattern).toNat + 1)⟩, start)) := by
  rw [odLedActivate, if_neg (not_not.mpr hrun)]
  refine ⟨⟨⟨rfl, LedPhase.noConfusion, fun _ hne => absurd rfl hne⟩, rfl, rfl, rfl, ?_⟩, le_rfl, by omega,
    .inr ⟨rfl, rfl⟩⟩
  show LedPlan.mk [] (LedRun.left _ 0) = _
  by_cases hforever : ledRepeats pattern ≥ 0xFE
  · rw [LedRun.left_forever (by simpa [ledParse] using hforever), if_pos hforever]
  · have hlt := UInt8.lt_iff_toNat_lt.mp (UInt8.not_le.mp hforever)
    have hsucc : (ledRepeats pattern + 1).toNat = (ledRepeats pattern).toNat + 1 := by
      rw [UInt8.toNat_add]
      show ((ledRepeats pattern).toNat + 1) % 256 = _
      have hbound : (ledRepeats pattern).toNat < 254 := hlt
      omega
    rw [LedRun.left_finite (by simpa [ledParse] using hforever), if_neg hforever]
    show LedPlan.mk [] (some ((ledRepeats pattern + 1).toNat - 0)) = _
    rw [hsucc, Nat.sub_zero]

theorem groups_mono (p : LedPattern) {k n : Nat} (h : k ≤ n) : p.groups k <+: p.groups n := by
  refine ⟨p.groups (n - k), ?_⟩
  rw [LedPattern.groups, LedPattern.groups, ← List.flatten_append, ← List.replicate_add, Nat.add_sub_cancel' h]
  rfl

/-- The steps that a run has done, in the order of the pattern. -/
structure LedOrder (pattern : Vector UInt8 12) (ended : Bool) (steps : List LedStep) : Prop where
  finite : ¬ ledRepeats pattern ≥ 0xFE → steps <+: (ledParse pattern).groups ((ledRepeats pattern).toNat + 1)
  forever : ledRepeats pattern ≥ 0xFE → ∃ k, steps <+: (ledParse pattern).groups k
  whole : ended = true → ¬ ledRepeats pattern ≥ 0xFE ∧ steps = (ledParse pattern).groups
    ((ledRepeats pattern).toNat + 1)

theorem does_ledOrder {pattern : Vector UInt8 12} {ended : Bool} {done : List (Nat × LedStep)} {q : LedPlan}
    (h : (ledPlan pins ledInstance (ledParse pattern)).Does
      ⟨[], if ledRepeats pattern ≥ 0xFE then none else some ((ledRepeats pattern).toNat + 1)⟩ done q)
    (hended : ended = true → q.next (ledParse pattern) = none) : LedOrder pattern ended (done.map Prod.snd) := by
  obtain ⟨k, hk, hfinite, hforever⟩ := does_order h
  have hk : (ledParse pattern).groups k = done.map Prod.snd ++ q.rest := hk
  have hprefix : done.map Prod.snd <+: (ledParse pattern).groups k := ⟨q.rest, hk.symm⟩
  refine ⟨fun hlt => ?_, fun _ => ⟨k, hprefix⟩, fun hend => ?_⟩
  · exact hprefix.trans (groups_mono _ (hfinite _ (if_neg hlt)).1)
  · obtain ⟨hrest, hleft⟩ := next_none (hended hend)
    by_cases hlt : ledRepeats pattern ≥ 0xFE
    · cases (hforever (if_pos hlt)).symm.trans hleft
    · obtain ⟨hle, hleft'⟩ := hfinite _ (if_neg hlt)
      have hzero := Option.some.inj (hleft'.symm.trans hleft)
      rw [hrest, List.append_nil, show k = (ledRepeats pattern).toNat + 1 by omega] at hk
      exact ⟨hlt, hk.symm⟩

theorem performs_order {pattern : Vector UInt8 12} {start : Nat} {cs : List (Call LedAct)}
    {a : Option (LedPlan × Nat)} {done : List (Nat × LedStep)}
    (h : (ledPlan pins ledInstance (ledParse pattern)).Performs
      ⟨[], if ledRepeats pattern ≥ 0xFE then none else some ((ledRepeats pattern).toNat + 1)⟩ start cs a done) :
    LedOrder pattern a.isNone (done.map Prod.snd) := by
  obtain ⟨q, hdoes, -, hover, -⟩ := h.does
  refine does_ledOrder hdoes fun hnone => ?_
  obtain ⟨c, -, hnext⟩ := hover (Option.isNone_iff_eq_none.mp hnone)
  exact hnext

/-- When the step after these is due: when the delay of the last one is over. -/
def ledDue (start : Nat) (done : List (Nat × LedStep)) : Nat :=
  (done.getLast?.map fun d => d.1 + d.2.delayMs).getD start

/-- After these steps a call does the one that comes next in the pattern, or ends the run if there is none. -/
inductive LedGoesOn (pins : LedPins) (ledInstance : UInt8) (pattern : Vector UInt8 12) (steps : List LedStep)
    (c : Call LedAct) (s : LedRun) : Prop where
  | step (step : LedStep) : LedOrder pattern false (steps ++ [step]) → c.returned = UInt32.ofNat step.delayMs →
      c.acts = step.acts pins (ledParse pattern).brightness → s.active = true →
        LedGoesOn pins ledInstance pattern steps c s
  | finish : LedOrder pattern true steps → c.returned = odLedIdle → c.acts = [.allOff pins, .finished ledInstance] →
      s.active = false → LedGoesOn pins ledInstance pattern steps c s

/-- A call that is not early goes on, from wherever the calls before it have come. -/
theorem performs_goesOn {pattern : Vector UInt8 12} {start last t : Nat} {cs : List (Call LedAct)}
    {a : Option (LedPlan × Nat)} {done : List (Nat × LedStep)} {mode : UInt8 → UInt8} {s : LedRun}
    (hmode : mode ledInstance = 1)
    (h : (ledPlan pins ledInstance (ledParse pattern)).Performs
      ⟨[], if ledRepeats pattern ≥ 0xFE then none else some ((ledRepeats pattern).toNat + 1)⟩ start cs a done)
    (hstands : Awaits (fun _ => LedSim pins ledInstance (ledParse pattern)) LedRun.timer (fun s => s.active = false)
      last s a)
    (hactive : s.active = true) (hle : last ≤ t) (hlt : t < last + 2 ^ 31) (hdue : ledDue start done ≤ t) :
    LedGoesOn pins ledInstance pattern (done.map Prod.snd) (call (odLedService mode) s t).1
      (call (odLedService mode) s t).2 := by
  cases a with
  | none => cases hactive.symm.trans hstands
  | some a =>
    obtain ⟨plan, due⟩ := a
    obtain ⟨q, hdoes, hleft, -, -⟩ := h.does
    obtain rfl : plan = q := hleft plan due rfl
    have hreached : due ≤ t := (h.dueNext plan due rfl).trans_le hdue
    rcases hstands.due (odLedService_follows pins (ledParse pattern) hmode) hle hlt hreached with
      ⟨hnone, hcall, hidle⟩ | ⟨step, plan', hnext, hcall, hawaits⟩
    · rw [hcall]
      exact .finish (does_ledOrder hdoes fun _ => hnone) rfl rfl hidle
    · have horder := does_ledOrder (hdoes.snoc (t := t) hnext) (fun h : false = true => Bool.noConfusion h)
      rw [List.map_append] at horder
      rw [hcall]
      exact .step step horder rfl rfl hawaits.1.sound.active

/-- However the runner is called, it does the steps of the pattern in their order: the flashes of
the three loops, group after group, each step no sooner than the delay of the one before, and
at the first call after it; and when all groups are done it switches the lights off and says so,
once. A call does one step, or none if it is early, and is over after six passes. -/
theorem odLedService_pattern (mode : UInt8 → UInt8) (ledInstance : UInt8) (pins : LedPins) (pattern : Vector UInt8 12)
    (s₀ : LedRun) (start : Nat) (times : List Nat) (hrun : ledMode pattern = 1) (hmode : mode ledInstance = 1)
    (hgaps : Gapped start times) :
    let p := ledParse pattern
    let s := (odLedActivate ledInstance (some pins) (some pattern) (UInt32.ofNat start) s₀).2.2
    let out := calls (odLedService mode) s times
    let flashes := (out.1.flatMap Call.acts).filterMap LedAct.flashColor
    (∃ done : List (Nat × LedStep), LedOrder pattern (!out.2.active) (done.map Prod.snd) ∧
      out.1.flatMap Call.acts = done.flatMap (fun d => d.2.acts pins p.brightness) ++
        (if out.2.active then [] else [.allOff pins, .finished ledInstance]) ∧
      done.IsChain (fun d d' => d.1 + d.2.delayMs ≤ d'.1) ∧
      (done.map fun d => ⟨d.1, UInt32.ofNat d.2.delayMs, d.2.acts pins p.brightness⟩).Sublist out.1 ∧
      ∀ t, Gapped start (times ++ [t]) → out.2.active = true → ledDue start done ≤ t →
        LedGoesOn pins ledInstance pattern (done.map Prod.snd) (call (odLedService mode) out.2 t).1
          (call (odLedService mode) out.2 t).2) ∧
    (¬ ledRepeats pattern ≥ 0xFE → flashes <+: (List.replicate ((ledRepeats pattern).toNat + 1) p.colors).flatten) ∧
    (ledRepeats pattern ≥ 0xFE → ∃ k, flashes <+: (List.replicate k p.colors).flatten) ∧
    (out.2.active = false → ¬ ledRepeats pattern ≥ 0xFE ∧
      flashes = (List.replicate ((ledRepeats pattern).toNat + 1) p.colors).flatten ∧
      ledAllOff pins <:+ (out.1.flatMap Call.acts).flatMap LedAct.out) ∧
    (∀ c ∈ out.1, (c.acts.filterMap LedAct.flashColor).length ≤ 1 ∧ c.returned ≠ 0) ∧
    (∀ t t', Gapped start (times ++ [t, t']) → (call (odLedService mode) out.2 t).1.returned ≠ odLedIdle →
      t' < t + (call (odLedService mode) out.2 t).1.returned.toNat →
      (call (odLedService mode) (call (odLedService mode) out.2 t).2 t').1.acts = [] ∧
        (call (odLedService mode) (call (odLedService mode) out.2 t).2 t').2 = (call (odLedService mode) out.2 t).2) ∧
    ∀ nowMs s, ∃ n ≤ 6,
      Stops (ledPass nowMs) n s (loop (ledPass nowMs) (fun s => s.phase.rank) (ledPass_dec nowMs) s) := by
  intro p s out flashes
  have hf := odLedService_follows pins (ledParse pattern) hmode
  obtain ⟨hcalls, hstands, hreturned⟩ := (ledRun_stands pins ledInstance pattern hrun s₀ start).calls hf hgaps
  obtain ⟨done, hperforms⟩ := (ledPlan pins ledInstance (ledParse pattern)).calls_performs
    ⟨[], if ledRepeats pattern ≥ 0xFE then none else some ((ledRepeats pattern).toNat + 1)⟩ start times
  generalize (ledPlan pins ledInstance (ledParse pattern)).calls
    (some (⟨[], if ledRepeats pattern ≥ 0xFE then none else some ((ledRepeats pattern).toNat + 1)⟩, start))
      times = planned at *
  have hcalls : out.1 = planned.1 := hcalls
  have hover : (!out.2.active) = planned.2.isNone := by
    cases hplan : planned.2 with
    | none =>
      rw [hplan] at hstands
      have hidle : out.2.active = false := hstands
      rw [hidle]
      rfl
    | some a =>
      rw [hplan] at hstands
      have hactive : out.2.active = true := hstands.1.sound.active
      rw [hactive]
      rfl
  have horder : LedOrder pattern (!out.2.active) (done.map Prod.snd) := hover ▸ performs_order hperforms
  have hacts : out.1.flatMap Call.acts = done.flatMap (fun d => d.2.acts pins p.brightness) ++
      (if out.2.active then [] else [.allOff pins, .finished ledInstance]) := by
    obtain ⟨q, -, -, -, hperformed⟩ := hperforms.does
    rw [hcalls, hperformed]
    congr 1
    cases hactive : out.2.active <;> rw [hactive] at hover <;> rw [← hover] <;> rfl
  have hflashes : flashes = (done.map Prod.snd).filterMap LedStep.color := by
    have hend : ∀ b : Bool,
        (if b then [] else [LedAct.allOff pins, .finished ledInstance]).filterMap LedAct.flashColor = [] := by
      intro b
      cases b <;> rfl
    show (out.1.flatMap Call.acts).filterMap LedAct.flashColor = _
    rw [hacts, List.filterMap_append, hend, List.append_nil, ← acts_colors pins p.brightness, List.flatMap_map]
  have hgoes : ∀ t, Gapped start (times ++ [t]) → out.2.active = true → ledDue start done ≤ t →
      LedGoesOn pins ledInstance pattern (done.map Prod.snd) (call (odLedService mode) out.2 t).1
        (call (odLedService mode) out.2 t).2 := by
    intro t hlater hactive hdue
    obtain ⟨-, -, hle, hlt⟩ := hlater.snoc
    exact performs_goesOn hmode hperforms hstands hactive hle hlt hdue
  refine ⟨⟨done, horder, hacts, hperforms.spaced, hcalls ▸ hperforms.called, hgoes⟩, fun hfinite => ?_,
    fun hforever => ?_,
    fun hidle => ?_, fun c hc => ⟨?_, hreturned c hc⟩, fun t t' hlater hidle hearly => ?_, fun nowMs s => ?_⟩
  · rw [hflashes, ← groups_colors]
    exact (horder.finite hfinite).filterMap _
  · obtain ⟨k, hk⟩ := horder.forever hforever
    refine ⟨k, ?_⟩
    rw [hflashes, ← groups_colors]
    exact hk.filterMap _
  · obtain ⟨hfinite, hwhole⟩ := horder.whole (by rw [hidle]; rfl)
    refine ⟨hfinite, by rw [hflashes, hwhole, groups_colors], ?_⟩
    rw [hacts, hidle, List.flatMap_append]
    exact List.suffix_append _ _
  · rw [hcalls] at hc
    rcases hperforms.each c hc with h | ⟨q, h⟩ | ⟨d, -, h⟩
    · rw [h]
      exact Nat.zero_le 1
    · rw [h]
      exact Nat.zero_le 1
    · rw [h]
      exact acts_flashes pins p.brightness d.2
  · obtain ⟨-, hle, hlt, hle'⟩ := hlater.append
    rw [hstands.again hf hle hlt hle' hidle hearly]
    exact ⟨rfl, rfl⟩
  · obtain ⟨n, hn, hstops⟩ := loop_stops (d := ledPass_dec nowMs) s
    have hrank : s.phase.rank ≤ 5 := by cases s.phase <;> decide
    exact ⟨n, by omega, hstops⟩

/-- Two groups of two flashes, with a pause between the loops: all of them, the lights off, and the word that
the run is over. -/
theorem odLedService_pattern_two_groups :
    let out := calls (odLedService fun _ => 1)
      (odLedActivate 0 (some {}) (some #v[0x01, 7, 0x01, 2, 9, 0x01, 0, 0, 0, 0, 1, 0]) (UInt32.ofNat 5) {}).2.2
      [5, 6, 205, 206, 300, 301, 302, 502, 503, 504]
    out.2.active = false ∧ (out.1.flatMap Call.acts).filterMap LedAct.flashColor = [7, 9, 7, 9] ∧
      (out.1.getLast?.map Call.acts) = some [.allOff {}, .finished 0] ∧
      ∃ done : List (Nat × LedStep), out.1.flatMap Call.acts =
        done.flatMap (fun d => d.2.acts {} (ledParse #v[0x01, 7, 0x01, 2, 9, 0x01, 0, 0, 0, 0, 1, 0]).brightness) ++
          [.allOff {}, .finished 0] := by
  intro out
  have hidle : out.2.active = false := by decide +kernel
  have hrun := odLedService_pattern (fun _ => 1) 0 {} #v[0x01, 7, 0x01, 2, 9, 0x01, 0, 0, 0, 0, 1, 0] {} 5
    [5, 6, 205, 206, 300, 301, 302, 502, 503, 504] (by decide) rfl (by simp [Gapped])
  refine ⟨hidle, (hrun.2.2.2.1 hidle).2.1, by decide +kernel, ?_⟩
  obtain ⟨done, -, hacts, -⟩ := hrun.1
  refine ⟨done, hacts.trans ?_⟩
  rw [show (calls (odLedService fun _ => 1) _ _).2.active = false from hidle]
  rfl

end Run

end OpenDisplay
