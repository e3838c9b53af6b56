import Mathlib.Data.List.FinRange
import Mathlib.Logic.Function.Basic

/-! The GT911 touch driver over the seams of its target: what the transfers, the bus and the
attaches answer comes from outside, and the pins with a handler are part of the state. Levels
that are driven, delays and logs are left out, because nothing here reads them back. -/

namespace OpenDisplay

section Config

structure TouchController where
  touchIcType : UInt16 := 1
  busId : UInt8 := 0
  i2cAddr7bit : UInt8 := 0xFF
  intPin : UInt8 := 0xFF
  rstPin : UInt8 := 0xFF
  displayInstance : Nat := 0
  flags : UInt8 := 0
  pollIntervalMs : UInt8 := 0
  touchDataStartByte : UInt8 := 0

structure DataBus where
  instanceNumber : UInt8
  busType : UInt8 := 1
  pin1 : UInt8
  pin2 : UInt8

structure TouchConfig where
  touchControllerCount : Nat
  touchControllers : Fin 4 → TouchController
  dataBuses : List DataBus
  displays : List (UInt16 × UInt16) := []

def odTouchIcGt911 : UInt16 := 1

def touchCfg (cfg : Option TouchConfig) (i : Fin 4) : Option TouchController :=
  cfg.bind fun cfg =>
    if cfg.touchControllerCount ≤ i.val then none
    else if (cfg.touchControllers i).touchIcType ≠ odTouchIcGt911 then none
    else some (cfg.touchControllers i)

/-- The one bus with that number: a number that is declared twice names no bus. -/
def odConfigDataBus (cfg : TouchConfig) (inst : UInt8) : Option DataBus :=
  match cfg.dataBuses.filter fun bus => bus.instanceNumber = inst with
  | [bus] => some bus
  | _ => none

def touchBusOk (cfg : TouchConfig) (t : TouchController) : Bool :=
  if t.busId = 0xFF then false
  else
    match odConfigDataBus cfg t.busId with
    | some bus => bus.busType = 1 ∧ bus.pin1 ≠ 0xFF ∧ bus.pin2 ≠ 0xFF
    | none => false

end Config

section State

structure TouchRuntime where
  addr7 : UInt8 := 0
  busId : UInt8 := 0
  ok : Bool := false
  regHighFirst : Bool := false
  intAttached : Bool := false
  intPinAttached : UInt8 := 0xFF
  disabled : Bool := false
  latched : Bool := false
  failStreak : UInt8 := 0
  lastCount : UInt8 := 0
  lastId : UInt8 := 0
  lastX : UInt16 := 0
  lastY : UInt16 := 0
  lastPollMs : UInt32 := 0
  lastFailMs : UInt32 := 0

/-- The answers of the target to the calls of the driver, by the number of the call. `unwinds` is
whether an attach that fails leaves nothing on its pin. -/
structure TouchEnv where
  i2c : Nat → (busId addr7 : UInt8) → (tx : List UInt8) → (rxLen : Nat) → Option (List UInt8)
  busPrepare : Nat → UInt8 → Bool
  gpioRead : Nat → UInt8 → Int
  attachInt : Nat → Fin 4 → UInt8 → Bool
  unwinds : Bool

/-- `isr` has the controller whose handler is on a pin, `msd` the bytes that were written, and
`taken` is whether an attach was made on a pin that another controller had recorded. -/
structure Touch where
  rt : Fin 4 → TouchRuntime := fun _ => {}
  suspend : UInt8 := 0
  isr : UInt8 → Option (Fin 4) := fun _ => none
  msd : List (UInt8 × UInt8) := []
  calls : Nat := 0
  taken : Bool := false

def setRt (i : Fin 4) (f : TouchRuntime → TouchRuntime) : StateM Touch Unit :=
  modify fun s => { s with rt := Function.update s.rt i (f (s.rt i)) }

def getRt (i : Fin 4) : StateM Touch TouchRuntime := do
  let s ← get
  return s.rt i

/-- The number of a call of a seam. -/
def seamCall : StateM Touch Nat := modifyGet fun s => (s.calls, { s with calls := s.calls + 1 })

end State

variable (env : TouchEnv)

section Seam

def odHalI2c (busId addr7 : UInt8) (tx : List UInt8) (rxLen : Nat) : StateM Touch (Option (List UInt8)) := do
  let k ← seamCall
  return env.i2c k busId addr7 tx rxLen

def odTouchAppBusPrepare (busId : UInt8) : StateM Touch Bool := do
  let k ← seamCall
  return env.busPrepare k busId

def odTouchAppGpioRead (pin : UInt8) : StateM Touch Int := do
  let k ← seamCall
  return env.gpioRead k pin

def odTouchAppMsdWrite (index value : UInt8) : StateM Touch Unit :=
  modify fun s => { s with msd := s.msd ++ [(index, value)] }

/-- Whether another controller has recorded the pin. -/
def heldByOther (s : Touch) (i : Fin 4) (pin : UInt8) : Bool := ∃ j, j ≠ i ∧ (s.rt j).intPinAttached = pin

def odTouchAppGpioAttachInt (i : Fin 4) (pin : UInt8) : StateM Touch Bool := do
  let k ← seamCall
  let attached := env.attachInt k i pin
  modify fun s => { s with
    isr :=
      if attached then Function.update s.isr pin (some i)
      else if env.unwinds then Function.update s.isr pin none
      else s.isr
    taken := s.taken || heldByOther s i pin }
  return attached

def odTouchAppGpioDetachInt (pin : UInt8) : StateM Touch Unit :=
  modify fun s => { s with isr := Function.update s.isr pin none }

end Seam

section Transfers

def gt911I2cRetries : Nat := 3
def gt911RegPid : UInt16 := 0x8140
def gt911RegStatus : UInt16 := 0x814E
def gt911RegPoint1 : UInt16 := 0x814F

def gt911Select (reg : UInt16) (highFirst : Bool) : List UInt8 :=
  if highFirst then [(reg >>> 8).toUInt8, reg.toUInt8] else [reg.toUInt8, (reg >>> 8).toUInt8]

def gt911ReadOnce (busId addr7 : UInt8) (reg : UInt16) (len : Nat) (highFirst repeatedStart : Bool) :
    StateM Touch (Option (List UInt8)) := do
  let sel := gt911Select reg highFirst
  if repeatedStart then odHalI2c env busId addr7 sel len
  else
    match ← odHalI2c env busId addr7 sel 0 with
    | none => return none
    | some _ => odHalI2c env busId addr7 [] len

def gt911Attempts (busId addr7 : UInt8) (reg : UInt16) (len : Nat) (highFirst : Bool) :
    Nat → StateM Touch (Option (List UInt8))
  | 0 => return none
  | attempts + 1 => do
    match ← gt911ReadOnce env busId addr7 reg len highFirst true with
    | some buf => return some buf
    | none =>
      match ← gt911ReadOnce env busId addr7 reg len highFirst false with
      | some buf => return some buf
      | none => gt911Attempts busId addr7 reg len highFirst attempts

def gt911Read (busId addr7 : UInt8) (reg : UInt16) (len : Nat) (highFirst : Bool) :
    StateM Touch (Option (List UInt8)) :=
  gt911Attempts env busId addr7 reg len highFirst gt911I2cRetries

def gt911WriteAttempts (busId addr7 : UInt8) (tx : List UInt8) : Nat → StateM Touch Bool
  | 0 => return false
  | attempts + 1 => do
    match ← odHalI2c env busId addr7 tx 0 with
    | some _ => return true
    | none => gt911WriteAttempts busId addr7 tx attempts

def gt911Write (busId addr7 : UInt8) (reg : UInt16) (buf : List UInt8) (highFirst : Bool) : StateM Touch Bool :=
  if buf.length + 2 > 10 then return false
  else gt911WriteAttempts env busId addr7 (gt911Select reg highFirst ++ buf) gt911I2cRetries

def gt911ClearStatus (rt : TouchRuntime) : StateM Touch Unit := do
  let _ ← gt911Write env rt.busId rt.addr7 gt911RegStatus [0] rt.regHighFirst

def gt911IdMatch (id : List UInt8) : Bool := id.getD 0 0 = 0x39 ∧ id.getD 1 0 = 0x31 ∧ id.getD 2 0 = 0x31

def gt911Probe (busId addr7 : UInt8) : StateM Touch (Option Bool) := do
  let id ← gt911Read env busId addr7 gt911RegPid 4 true
  if id.any gt911IdMatch then return some true
  let id ← gt911Read env busId addr7 gt911RegPid 4 false
  if id.any gt911IdMatch then return some false
  return none

end Transfers

section Reset

/-- The pin is driven and configured again, which destroys its trigger. -/
def gt911HwReset (i : Fin 4) (t : TouchController) : StateM Touch Unit :=
  if t.rstPin = 0xFF then return ()
  else setRt i fun rt => { rt with intAttached := false }

def gt911IntWake (i : Fin 4) (t : TouchController) : StateM Touch Unit :=
  if t.intPin = 0xFF then return ()
  else setRt i fun rt => { rt with intAttached := false }

/-- A probe that succeeds stores the byte order that it found. -/
def gt911ProbeAt (i : Fin 4) (addr7 : UInt8) : StateM Touch Bool := do
  let rt ← getRt i
  match ← gt911Probe env rt.busId addr7 with
  | some highFirst => do
    setRt i fun rt => { rt with regHighFirst := highFirst }
    return true
  | none => return false

def gt911Addr5D : UInt8 := 0x5D
def gt911Addr14 : UInt8 := 0x14

def gt911Resolve (i : Fin 4) (t : TouchController) : StateM Touch UInt8 := do
  let want := t.i2cAddr7bit
  if want ≠ 0 ∧ want ≠ 0xFF then
    -- a configured address that does not answer is not searched for elsewhere
    gt911HwReset i t
    if ← gt911ProbeAt env i want then return want
    return 0
  gt911HwReset i t
  if ← gt911ProbeAt env i gt911Addr5D then return gt911Addr5D
  gt911HwReset i t
  if ← gt911ProbeAt env i gt911Addr14 then return gt911Addr14
  return 0

end Reset

section Lifecycle

/-- The recorded pin is detached, and the record ends. -/
def touchDetach (i : Fin 4) : StateM Touch Unit := do
  let rt ← getRt i
  odTouchAppGpioDetachInt rt.intPinAttached
  setRt i fun rt => { rt with intPinAttached := 0xFF, intAttached := false }

def touchDetachRecord (i : Fin 4) : StateM Touch Unit := do
  let rt ← getRt i
  if rt.intPinAttached ≠ 0xFF then touchDetach i else return ()

def touchDisable (i : Fin 4) : StateM Touch Unit := do
  let rt ← getRt i
  if rt.disabled then return ()
  setRt i fun rt => { rt with disabled := true, ok := false }
  touchDetachRecord i

/-- A recorded pin that is not the configured one any more is detached first. -/
def touchDetachStale (i : Fin 4) (t : TouchController) : StateM Touch Unit := do
  let rt ← getRt i
  if rt.intPinAttached ≠ 0xFF ∧ rt.intPinAttached ≠ t.intPin then touchDetach i else return ()

/-- The attach, and the record of what it did. -/
def touchInstall (i : Fin 4) (t : TouchController) : StateM Touch Unit := do
  let attached ← odTouchAppGpioAttachInt env i t.intPin
  setRt i fun rt => { rt with
    intAttached := attached || rt.intAttached
    intPinAttached := if attached then t.intPin else 0xFF }

def touchAttachInt (i : Fin 4) (t : TouchController) : StateM Touch Unit := do
  touchDetachStale i t
  let rt ← getRt i
  if t.intPin = 0xFF ∨ rt.intAttached then return () else touchInstall env i t

def touchWakeAndAttach (i : Fin 4) (t : TouchController) : StateM Touch Unit :=
  if t.intPin ≠ 0xFF then do
    gt911IntWake i t
    touchAttachInt env i t
  else return ()

def touchMsdMaxStart : UInt8 := 6

def touchBringUp (cfg : TouchConfig) (i : Fin 4) (t : TouchController) (nowMs : UInt32) : StateM Touch Bool := do
  if ¬ touchBusOk cfg t then return false
  if t.touchDataStartByte > touchMsdMaxStart then return false
  setRt i fun rt => { rt with busId := t.busId }
  if ¬ (← odTouchAppBusPrepare env t.busId) then return false
  let addr ← gt911Resolve env i t
  if addr = 0 then
    setRt i fun rt => { rt with ok := false }
    return false
  setRt i fun rt => { rt with
    addr7 := addr, ok := true, disabled := false, failStreak := 0, lastFailMs := 0, latched := false
    lastPollMs := nowMs }
  let rt ← getRt i
  gt911ClearStatus env rt
  touchWakeAndAttach env i t
  let _ ← gt911Read env rt.busId addr gt911RegPid 12 rt.regHighFirst
  return true

def touchLightResume (i : Fin 4) (t : TouchController) : StateM Touch Bool := do
  let rt ← getRt i
  if ¬ rt.ok ∨ rt.addr7 = 0 then return false
  if ¬ (← odTouchAppBusPrepare env rt.busId) then return false
  let id ← gt911Read env rt.busId rt.addr7 gt911RegPid 4 rt.regHighFirst
  if ¬ id.any gt911IdMatch then return false
  setRt i fun rt => { rt with failStreak := 0, latched := false }
  gt911ClearStatus env rt
  touchWakeAndAttach env i t
  return true

end Lifecycle

section Service

def odTouchIdleMs : UInt32 := 1000
def odTouchNoChange : UInt32 := 0
def touchDefaultIntervalMs : UInt8 := 100
def touchI2cFailBackoffMs : UInt32 := 100
def touchI2cFailDisableThreshold : UInt8 := 5
def gt911MaxContacts : UInt8 := 5

def touchFlagInvertX : UInt8 := 1
def touchFlagInvertY : UInt8 := 2
def touchFlagSwapXY : UInt8 := 4

/-- One axis: mirrored when the flag is set, and clipped to the panel. -/
def mapAxis (invert : Bool) (size x : UInt16) : UInt16 :=
  let x := if invert ∧ size > 0 then (if size > x then size - 1 - x else 0) else x
  if size > 0 ∧ x ≥ size then size - 1 else x

def applyTouchMap (cfg : TouchConfig) (t : TouchController) (x y : UInt16) : UInt16 × UInt16 :=
  let (x, y) := if t.flags &&& touchFlagSwapXY ≠ 0 then (y, x) else (x, y)
  let (w, h) := cfg.displays.getD t.displayInstance (0, 0)
  (mapAxis (t.flags &&& touchFlagInvertX ≠ 0) w x, mapAxis (t.flags &&& touchFlagInvertY ≠ 0) h y)

def touchPackMsd (start count trackId : UInt8) (x y : UInt16) (latched : Bool) : StateM Touch Unit := do
  if start.toNat + 5 > 11 then return ()
  if count = 0 ∧ ¬ latched then
    [0, 1, 2, 3, 4].forM fun k => odTouchAppMsdWrite (start + k) 0
    return ()
  odTouchAppMsdWrite start
    ((if count = 0 then 6 else count &&& (0x0F : UInt8)) ||| ((trackId &&& (0x0F : UInt8)) <<< 4))
  odTouchAppMsdWrite (start + 1) x.toUInt8
  odTouchAppMsdWrite (start + 2) (x >>> 8).toUInt8
  odTouchAppMsdWrite (start + 3) y.toUInt8
  odTouchAppMsdWrite (start + 4) (y >>> 8).toUInt8

def touchInterval (t : TouchController) : UInt8 :=
  if t.pollIntervalMs ≠ 0 then t.pollIntervalMs else touchDefaultIntervalMs

/-- A failed read: the streak grows, and at the threshold the controller is disabled. -/
def touchReadFailed (i : Fin 4) (nowMs : UInt32) (poll : Bool) : StateM Touch UInt32 := do
  setRt i fun rt => { rt with
    failStreak := if rt.failStreak < 255 then rt.failStreak + 1 else rt.failStreak
    lastFailMs := nowMs
    lastPollMs := if poll then nowMs else rt.lastPollMs }
  let rt ← getRt i
  if rt.failStreak ≥ touchI2cFailDisableThreshold then
    touchDisable i
    return odTouchIdleMs
  return touchI2cFailBackoffMs

/-- A line that is held low means a report, except while a failing controller is left alone. -/
def touchLineLow (rt : TouchRuntime) (nowMs : UInt32) : StateM Touch Bool := do
  if ¬ rt.intAttached then return false
  let level ← odTouchAppGpioRead env rt.intPinAttached
  if rt.failStreak > 0 ∧ nowMs - rt.lastFailMs < touchI2cFailBackoffMs then return false
  return level = 0

/-- The report of the point block, or of the last contact when there is none. -/
def touchReport (i : Fin 4) (t : TouchController) (count trackId : UInt8) (x y : UInt16) :
    StateM Touch UInt32 := do
  let rt ← getRt i
  gt911ClearStatus env rt
  setRt i fun rt => { rt with lastCount := count, lastX := x, lastY := y, lastId := trackId }
  touchPackMsd t.touchDataStartByte count trackId x y rt.latched
  return (touchInterval t).toUInt32

def touchServiceOne (cfg : TouchConfig) (i : Fin 4) (t : TouchController) (nowMs : UInt32) (edge : Bool) :
    StateM Touch UInt32 := do
  let interval := (touchInterval t).toUInt32
  let rt ← getRt i
  let highFirst := rt.regHighFirst
  if ¬ rt.ok ∨ rt.disabled then return odTouchIdleMs
  let lineLow ← touchLineLow env rt nowMs
  let elapsed := nowMs - rt.lastPollMs
  if ¬ edge ∧ elapsed < interval ∧ ¬ lineLow then return interval - elapsed
  if ¬ (← odTouchAppBusPrepare env rt.busId) then return touchI2cFailBackoffMs
  let status ← gt911Read env rt.busId rt.addr7 gt911RegStatus 1 highFirst
  match status with
  | none => touchReadFailed i nowMs true
  | some status => do
    let status := status.getD 0 0
    setRt i fun rt => { rt with failStreak := 0 }
    if status &&& (0x80 : UInt8) = 0 then
      if ¬ edge ∧ ¬ lineLow then setRt i fun rt => { rt with lastPollMs := nowMs }
      return interval
    let count := status &&& (0x0F : UInt8)
    if count > gt911MaxContacts then
      gt911ClearStatus env rt
      setRt i fun rt => { rt with lastPollMs := nowMs }
      return interval
    setRt i fun rt => { rt with lastPollMs := nowMs }
    if count > 0 then
      let point ← gt911Read env rt.busId rt.addr7 gt911RegPoint1 8 highFirst
      match point with
      | none => touchReadFailed i nowMs false
      | some p => do
        let x := (p.getD 1 0).toUInt16 ||| ((p.getD 2 0).toUInt16 <<< 8)
        let y := (p.getD 3 0).toUInt16 ||| ((p.getD 4 0).toUInt16 <<< 8)
        setRt i fun rt => { rt with latched := true }
        let (x, y) := applyTouchMap cfg t x y
        touchReport env i t count (p.getD 0 0) x y
    else touchReport env i t count rt.lastId rt.lastX rt.lastY

end Service

section Entry

/-- Every pin that is recorded is detached, whatever the new configuration names. -/
def touchDetachRecorded : StateM Touch Unit := (List.finRange 4).forM touchDetachRecord

/-- A controller that was up is kept, on the bus of the new configuration. -/
def touchKeep (cfg : TouchConfig) (i : Fin 4) (t : TouchController) (prior : TouchRuntime) (nowMs : UInt32) :
    StateM Touch Bool := do
  setRt i fun _ => { prior with
    intAttached := false, intPinAttached := 0xFF, disabled := false, failStreak := 0, busId := t.busId }
  if ¬ touchBusOk cfg t then return false
  if ¬ (← odTouchAppBusPrepare env t.busId) then return false
  let rt ← getRt i
  gt911ClearStatus env rt
  touchWakeAndAttach env i t
  setRt i fun rt => { rt with lastPollMs := nowMs }
  return true

def touchInitOne (cfg : TouchConfig) (i : Fin 4) (t : TouchController) (prior : TouchRuntime) (nowMs : UInt32) :
    StateM Touch Bool := do
  if prior.ok ∧ prior.addr7 ≠ 0 ∧ t.touchDataStartByte ≤ touchMsdMaxStart then
    if ← touchKeep env cfg i t prior nowMs then return true
    setRt i fun _ => {}
  touchBringUp env cfg i t nowMs

def odTouchGt911Init (cfg : Option TouchConfig) (nowMs : UInt32) : StateM Touch UInt32 := do
  let prior := (← get).rt
  touchDetachRecorded
  modify fun s => { s with rt := fun _ => {} }
  match cfg with
  | none => return odTouchIdleMs
  | some c => do
    if c.touchControllerCount = 0 then return odTouchIdleMs
    let up ← (List.finRange 4).foldlM (fun up i =>
      match touchCfg cfg i with
      | none => return up
      | some t => do
        let isUp ← touchInitOne env c i t (prior i) nowMs
        return up || isUp) false
    return if up then touchDefaultIntervalMs.toUInt32 else odTouchIdleMs

def odTouchGt911Service (cfg : Option TouchConfig) (nowMs : UInt32) (irqMask : UInt8) : StateM Touch UInt32 := do
  match cfg with
  | none => return odTouchIdleMs
  | some c => do
    if (← get).suspend > 0 then return odTouchIdleMs
    (List.finRange 4).foldlM (fun next i =>
      match touchCfg cfg i with
      | none => return next
      | some t => do
        let rt ← getRt i
        if rt.disabled ∨ ¬ rt.ok then return next
        let want ← touchServiceOne env c i t nowMs (irqMask.toNat.testBit i.val)
        return if want < next then want else next) odTouchIdleMs

def odTouchGt911Suspend : StateM Touch Unit :=
  modify fun s => { s with suspend := if s.suspend < 255 then s.suspend + 1 else s.suspend }

def touchReestablishOne (cfg : TouchConfig) (i : Fin 4) (t : TouchController) (nowMs : UInt32) :
    StateM Touch Unit := do
  let rt ← getRt i
  if rt.disabled then return ()
  if ← touchLightResume env i t then return ()
  let _ ← touchBringUp env cfg i t nowMs

def odTouchGt911Reestablish (cfg : Option TouchConfig) (nowMs : UInt32) : StateM Touch UInt32 := do
  match cfg with
  | none => return odTouchIdleMs
  | some c => do
    if c.touchControllerCount = 0 then return odTouchIdleMs
    (List.finRange 4).forM fun i =>
      match touchCfg cfg i with
      | none => return ()
      | some t => touchReestablishOne env c i t nowMs
    return touchDefaultIntervalMs.toUInt32

def odTouchGt911Resume (cfg : Option TouchConfig) (nowMs : UInt32) : StateM Touch UInt32 := do
  if (← get).suspend = 0 then return odTouchNoChange
  modify fun s => { s with suspend := s.suspend - 1 }
  if (← get).suspend ≠ 0 then return odTouchNoChange
  odTouchGt911Reestablish env cfg nowMs

def odTouchGt911ForceResume (cfg : Option TouchConfig) (nowMs : UInt32) : StateM Touch UInt32 := do
  if (← get).suspend = 0 then return odTouchNoChange
  modify fun s => { s with suspend := 1 }
  odTouchGt911Resume env cfg nowMs

inductive TouchCall where
  | init (cfg : Option TouchConfig) (nowMs : UInt32)
  | service (cfg : Option TouchConfig) (nowMs : UInt32) (irqMask : UInt8)
  | suspend
  | resume (cfg : Option TouchConfig) (nowMs : UInt32)
  | reestablish (cfg : Option TouchConfig) (nowMs : UInt32)
  | forceResume (cfg : Option TouchConfig) (nowMs : UInt32)

def touchStep (s : Touch) : TouchCall → Touch
  | .init cfg nowMs => ((odTouchGt911Init env cfg nowMs).run s).2
  | .service cfg nowMs irqMask => ((odTouchGt911Service env cfg nowMs irqMask).run s).2
  | .suspend => (odTouchGt911Suspend.run s).2
  | .resume cfg nowMs => ((odTouchGt911Resume env cfg nowMs).run s).2
  | .reestablish cfg nowMs => ((odTouchGt911Reestablish env cfg nowMs).run s).2
  | .forceResume cfg nowMs => ((odTouchGt911ForceResume env cfg nowMs).run s).2

def touchRun (s : Touch) (calls : List TouchCall) : Touch := calls.foldl (touchStep env) s

end Entry

end OpenDisplay
