import Mathlib.Data.UInt
import Mathlib.Data.Fintype.Basic

/-! The watchdog policy: strikes and a breadcrumb share one byte that outlives a reset. -/

namespace OpenDisplay

section Retained

def odWdtRetainedTagMask : UInt8 := 0xC0

def odWdtRetainedTagValue : UInt8 := 0x80

def odWdtRetainedCntMask : UInt8 := 0x30

def odWdtRetainedCntShift : UInt8 := 4

def odWdtRetainedPhaseMask : UInt8 := 0x0F

def odWdtSafeModeStrikes : UInt8 := 3

def odWdtHealthyMs : UInt32 := 10 * 60 * 1000

def odWdtPhaseIdle : UInt8 := 0

def odHalWdtResetWatchdog : UInt32 := 0x02

def odWatchdogRetainedValid (byte : UInt8) : Bool := byte &&& odWdtRetainedTagMask = odWdtRetainedTagValue

def odWatchdogRetainedStrikes (byte : UInt8) : UInt8 := (byte &&& odWdtRetainedCntMask) >>> odWdtRetainedCntShift

def odWatchdogRetainedPhase (byte : UInt8) : UInt8 := byte &&& odWdtRetainedPhaseMask

def odWatchdogRetainedPack (strikes phase : UInt8) : UInt8 :=
  let strikes := if strikes > 3 then 3 else strikes
  odWdtRetainedTagValue ||| ((strikes <<< odWdtRetainedCntShift) &&& odWdtRetainedCntMask) |||
    (phase &&& odWdtRetainedPhaseMask)

end Retained

section Policy

structure Watchdog where
  armed : Bool := false
  safeMode : Bool := false
  strikesToClear : Bool := false
  retainedUsable : Bool := false
  bootMs : UInt32 := 0
  strikes : UInt8 := 0
  lastPhase : UInt8 := 0
  writeFailed : Bool := false

structure WatchdogBootReport where
  resetReason : UInt32
  wasWatchdog : Bool
  retainedReadable : Bool
  retainedWritable : Bool
  breadcrumbValid : Bool
  prevPhase : UInt8
  strikes : UInt8
  safeMode : Bool

inductive HalWdtArmResult where
  | ok | inherited | disabled | unsupported | error
deriving DecidableEq

/-- The retained byte as the target gives it, in a store that may refuse. -/
structure HalWdt (η : Type) where
  read : η → Option UInt8
  write : UInt8 → η → Bool × η

variable {η : Type} (hal : HalWdt η)

def retainedUpdate (s : Watchdog) (mask value : UInt8) (h : η) : Bool × η :=
  if ¬ s.retainedUsable then (false, h)
  else
    match hal.read h with
    | none => (false, h)
    | some cur =>
      let cur := if odWatchdogRetainedValid cur then cur else odWdtRetainedTagValue
      hal.write ((cur &&& ~~~mask) ||| (value &&& mask)) h

def strikesStore (s : Watchdog) (n : UInt8) (h : η) : η :=
  let n := if n > 3 then 3 else n
  (retainedUpdate hal s odWdtRetainedCntMask (n <<< odWdtRetainedCntShift) h).2

def odWatchdogBreadcrumb (s : Watchdog) (phase : UInt8) (h : η) : Watchdog × η :=
  let phase := phase &&& odWdtRetainedPhaseMask
  if phase = s.lastPhase then (s, h)
  else
    match retainedUpdate hal s odWdtRetainedPhaseMask phase h with
    | (false, h) => ({ s with writeFailed := true }, h)
    | (true, h) => ({ s with lastPhase := phase }, h)

def odWatchdogBootInit (reason nowMs : UInt32) (h : η) : Watchdog × WatchdogBootReport × η :=
  let s : Watchdog := { bootMs := nowMs, lastPhase := 0xFF }
  let retained := hal.read h
  let readable := retained.isSome
  let valid := retained.any odWatchdogRetainedValid
  let was := reason &&& odHalWdtResetWatchdog ≠ 0
  -- a byte that is not ours is replaced by a bare tag
  let (usable, h) := if readable ∧ ¬ valid then hal.write odWdtRetainedTagValue h else (readable, h)
  let s := { s with retainedUsable := usable }
  let strikes := if valid then odWatchdogRetainedStrikes (retained.getD 0) else 0
  let (strikes, h) :=
    if was then
      let strikes := if strikes < 3 then strikes + 1 else strikes
      (strikes, strikesStore hal s strikes h)
    else if strikes ≠ 0 then (0, strikesStore hal s 0 h)
    else (strikes, h)
  let s := { s with
    strikes := strikes, safeMode := strikes ≥ odWdtSafeModeStrikes, strikesToClear := strikes ≠ 0 }
  let (s, h) := odWatchdogBreadcrumb hal s odWdtPhaseIdle h
  (s,
    { resetReason := reason, wasWatchdog := was, retainedReadable := readable, retainedWritable := s.retainedUsable
      breadcrumbValid := valid, prevPhase := if valid then odWatchdogRetainedPhase (retained.getD 0) else 0
      strikes := strikes, safeMode := s.safeMode }, h)

def odWatchdogArm (rc : HalWdtArmResult) (s : Watchdog) : Watchdog := { s with armed := rc = .ok ∨ rc = .inherited }

def strikesClearIfHealthy (s : Watchdog) (nowMs : UInt32) (h : η) : Watchdog × η :=
  if ¬ s.strikesToClear then (s, h)
  else if nowMs - s.bootMs < odWdtHealthyMs then (s, h)
  else
    let s := { s with strikesToClear := false, strikes := 0 }
    (s, strikesStore hal s 0 h)

/-- A feed; the feed of the hardware itself changes nothing here. -/
def odWatchdogFeed (s : Watchdog) (nowMs : UInt32) (h : η) : Watchdog × η := strikesClearIfHealthy hal s nowMs h

end Policy

end OpenDisplay
