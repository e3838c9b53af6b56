import OpenDisplay.Lib.Loop
import OpenDisplay.Lib.Schedule
import OpenDisplay.Wire

/-! The runner of a light pattern: three loops of flashes with pauses between them, in a group
that repeats, one step for each call. -/

namespace OpenDisplay

open Loops Schedules

def odLedIdle : UInt32 := 0xFFFFFFFF
def odLedMinStepDelayMs : UInt32 := 1
def odLedPwmDelayUs : Nat := 100
def odLedDelayFactorMs : UInt32 := 100

structure LedPins where
  r : UInt8 := 0
  g : UInt8 := 0
  b : UInt8 := 0
  flags : UInt8 := 0
deriving DecidableEq

/-- What goes to the hardware. -/
inductive LedOut where
  | write (pin : UInt8) (level : Bool)
  | delay (us : Nat)
deriving DecidableEq

section Pins

def LedPins.inv (p : LedPins) (mask : UInt8) : Bool := p.flags &&& mask ≠ 0

def ledAllOff (p : LedPins) : List LedOut :=
  [.write p.r (p.inv 0x01), .write p.g (p.inv 0x02), .write p.b (p.inv 0x04)]

/-- One slice of a flash: a pin is on if its level reaches the threshold. -/
def ledSlice (p : LedPins) (cr cg cb : UInt8) (rg : UInt8) (b : Option UInt8) : List LedOut :=
  [.write p.r (p.inv 0x01 ^^ decide (cr ≥ rg)), .write p.g (p.inv 0x02 ^^ decide (cg ≥ rg))] ++
    (b.map fun b => LedOut.write p.b (p.inv 0x04 ^^ decide (cb ≥ b))).toList ++ [.delay odLedPwmDelayUs]

def ledFlashPins (p : LedPins) (color brightness : UInt8) : List LedOut :=
  let cr := (color >>> 5) &&& 0x07
  let cg := (color >>> 2) &&& 0x07
  let cb := color &&& 0x03
  (List.replicate brightness.toNat
    (ledSlice p cr cg cb 7 (some 3) ++ ledSlice p cr cg cb 1 none ++ ledSlice p cr cg cb 6 (some 1) ++
      ledSlice p cr cg cb 2 none ++ ledSlice p cr cg cb 5 none ++ ledSlice p cr cg cb 3 (some 2) ++
      ledSlice p cr cg cb 4 none ++ ledAllOff p)).flatten

/-- What the runner does: a flash, its lights off, or the word that it has finished. -/
inductive LedAct where
  | flash (pins : LedPins) (color brightness : UInt8)
  | allOff (pins : LedPins)
  | finished (ledInstance : UInt8)
deriving DecidableEq

def LedAct.out : LedAct → List LedOut
  | .flash pins color brightness => ledFlashPins pins color brightness
  | .allOff pins => ledAllOff pins
  | .finished _ => []

end Pins

inductive LedPhase where
  | idle | group | loop1 | loop1Delay | inter1Delay | loop2 | loop2Delay | inter2Delay
  | loop3 | loop3Delay | inter3Delay
deriving DecidableEq

/-- What a pattern sets when it is activated, and nothing changes until the next one. -/
structure LedPattern where
  brightness : UInt8 := 0
  c1 : UInt8 := 0
  c2 : UInt8 := 0
  c3 : UInt8 := 0
  loop1delay : UInt8 := 0
  loop2delay : UInt8 := 0
  loop3delay : UInt8 := 0
  loopcnt1 : UInt8 := 0
  loopcnt2 : UInt8 := 0
  loopcnt3 : UInt8 := 0
  ildelay1 : UInt8 := 0
  ildelay2 : UInt8 := 0
  ildelay3 : UInt8 := 0
  grouprepeats : UInt8 := 0
  repeatForever : Bool := false
deriving DecidableEq

structure LedRun where
  active : Bool := false
  ledInstance : UInt8 := 0
  pins : LedPins := {}
  pattern : LedPattern := {}
  groupPos : UInt8 := 0
  i1 : UInt8 := 0
  i2 : UInt8 := 0
  i3 : UInt8 := 0
  phase : LedPhase := .idle
  waiting : Bool := false
  deadlineMs : UInt32 := 0
deriving DecidableEq

section Model

def ledRunFinish (s : LedRun) : List LedAct × LedRun := (if s.active then [.allOff s.pins] else [], {})

def ledParse (pattern : Vector UInt8 12) : LedPattern where
  brightness := ((pattern[0] >>> 4) &&& 0x0F) + 1
  c1 := pattern[1]
  c2 := pattern[4]
  c3 := pattern[7]
  loop1delay := (pattern[2] >>> 4) &&& 0x0F
  loop2delay := (pattern[5] >>> 4) &&& 0x0F
  loop3delay := (pattern[8] >>> 4) &&& 0x0F
  loopcnt1 := pattern[2] &&& 0x0F
  loopcnt2 := pattern[5] &&& 0x0F
  loopcnt3 := pattern[8] &&& 0x0F
  ildelay1 := pattern[3]
  ildelay2 := pattern[6]
  ildelay3 := pattern[9]
  repeatForever := pattern[10] ≥ 0xFE
  grouprepeats := pattern[10] + 1

abbrev ledMode (pattern : Vector UInt8 12) : UInt8 := pattern[0] &&& 0x0F

/-- How often the group is repeated after its first time; from 0xFE on without an end. -/
abbrev ledRepeats (pattern : Vector UInt8 12) : UInt8 := pattern[10]

def odLedActivate (ledInstance : UInt8) (pins : Option LedPins) (pattern : Option (Vector UInt8 12)) (nowMs : UInt32)
    (s : LedRun) : Nat × List LedAct × LedRun :=
  match pins, pattern with
  | some pins, some pattern =>
    if pattern[0] &&& 0x0F ≠ 1 then (2, [], s)
    else
      (0, (ledRunFinish s).1,
        { active := true, ledInstance := ledInstance, pins := pins, pattern := ledParse pattern, phase := .group
          deadlineMs := nowMs })
  | _, _ => (2, [], s)

def ledSchedule (nowMs delayMs : UInt32) (acts : List LedAct) (s : LedRun) :
    Iter LedRun (UInt32 × List LedAct × LedRun) :=
  .stop (delayMs, acts, { s with waiting := true, deadlineMs := nowMs + delayMs })

def ledPass (nowMs : UInt32) (s : LedRun) : Iter LedRun (UInt32 × List LedAct × LedRun) :=
  match s.phase with
  | .group =>
    if ¬ s.pattern.repeatForever ∧ s.groupPos ≥ s.pattern.grouprepeats then
      let (acts, s') := ledRunFinish s
      .stop (odLedIdle, acts ++ [.finished s.ledInstance], s')
    else .next { s with i1 := 0, i2 := 0, i3 := 0, phase := .loop1 }
  | .loop1 =>
    if s.i1 ≥ s.pattern.loopcnt1 then
      if s.pattern.ildelay1 > 0 then
        ledSchedule nowMs (s.pattern.ildelay1.toUInt32 * odLedDelayFactorMs) [] { s with phase := .inter1Delay }
      else .next { s with phase := .loop2 }
    else
      let flash := [LedAct.flash s.pins s.pattern.c1 s.pattern.brightness]
      let s := { s with i1 := s.i1 + 1 }
      if s.pattern.loop1delay > 0 then
        ledSchedule nowMs (s.pattern.loop1delay.toUInt32 * odLedDelayFactorMs) flash { s with phase := .loop1Delay }
      else ledSchedule nowMs odLedMinStepDelayMs flash s
  | .loop1Delay => .next { s with phase := .loop1 }
  | .inter1Delay => .next { s with phase := .loop2 }
  | .loop2 =>
    if s.i2 ≥ s.pattern.loopcnt2 then
      if s.pattern.ildelay2 > 0 then
        ledSchedule nowMs (s.pattern.ildelay2.toUInt32 * odLedDelayFactorMs) [] { s with phase := .inter2Delay }
      else .next { s with phase := .loop3 }
    else
      let flash := [LedAct.flash s.pins s.pattern.c2 s.pattern.brightness]
      let s := { s with i2 := s.i2 + 1 }
      if s.pattern.loop2delay > 0 then
        ledSchedule nowMs (s.pattern.loop2delay.toUInt32 * odLedDelayFactorMs) flash { s with phase := .loop2Delay }
      else ledSchedule nowMs odLedMinStepDelayMs flash s
  | .loop2Delay => .next { s with phase := .loop2 }
  | .inter2Delay => .next { s with phase := .loop3 }
  | .loop3 =>
    if s.i3 ≥ s.pattern.loopcnt3 then
      if s.pattern.ildelay3 > 0 then
        ledSchedule nowMs (s.pattern.ildelay3.toUInt32 * odLedDelayFactorMs) [] { s with phase := .inter3Delay }
      else
        -- the edge of the group is the only step if no loop has a flash
        ledSchedule nowMs odLedMinStepDelayMs [] { s with groupPos := s.groupPos + 1, phase := .group }
    else
      let flash := [LedAct.flash s.pins s.pattern.c3 s.pattern.brightness]
      let s := { s with i3 := s.i3 + 1 }
      if s.pattern.loop3delay > 0 then
        ledSchedule nowMs (s.pattern.loop3delay.toUInt32 * odLedDelayFactorMs) flash { s with phase := .loop3Delay }
      else ledSchedule nowMs odLedMinStepDelayMs flash s
  | .loop3Delay => .next { s with phase := .loop3 }
  | .inter3Delay => .next { s with groupPos := s.groupPos + 1, phase := .group }
  | .idle =>
    let (acts, s') := ledRunFinish s
    .stop (odLedIdle, acts, s')

/-- How many passes a call can still make. -/
def LedPhase.rank : LedPhase → Nat
  | idle => 0
  | loop3 => 1
  | loop3Delay | inter2Delay | loop2 => 2
  | loop2Delay | inter1Delay | loop1 => 3
  | loop1Delay | group => 4
  | inter3Delay => 5

theorem ledPass_dec (nowMs : UInt32) (s s' : LedRun) (h : ledPass nowMs s = .next s') :
    s'.phase.rank < s.phase.rank := by
  cases hphase : s.phase <;> simp only [ledPass, ledSchedule, hphase] at h <;> (try split_ifs at h) <;> cases h <;>
    exact Nat.le_of_ble_eq_true rfl

/-- `mode` is the live mode nibble of an instance. -/
def odLedService (mode : UInt8 → UInt8) (nowMs : UInt32) (s : LedRun) : UInt32 × List LedAct × LedRun :=
  if ¬ s.active then (odLedIdle, [], s)
  else if mode s.ledInstance ≠ 1 then
    let (acts, s') := ledRunFinish s
    (odLedIdle, acts, s')
  else if s.waiting ∧ ¬ reached nowMs s.deadlineMs then (s.deadlineMs - nowMs, [], s)
  else
    loop (ledPass nowMs) (fun s => s.phase.rank) (ledPass_dec nowMs) { s with waiting := false }

end Model

end OpenDisplay
