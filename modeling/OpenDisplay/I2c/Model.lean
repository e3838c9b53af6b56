import OpenDisplay.Lib.TwoWire
import OpenDisplay.Touch.Model

/-! The bit-banged I2C controller and the four transactions over it. A line is driven low or
released, every wait for a stretched clock is bounded, and what else is on the bus is a peer. -/

namespace OpenDisplay

open TwoWire

section Engine

/-- A bus as the engine is given it. The pins and pull-ups are those that the drives go to. -/
structure OdI2cBus where
  halfPeriodUs : Nat
  ready : Bool := true

inductive OdI2cResult where
  | ok | nackAddr | err
deriving DecidableEq

def odI2cStretchTimeoutUs : Nat := 1000

variable {π : Type*} (p : Peer π) (bus : OdI2cBus)

def odDelay (w : Bus π) : Bus π := w.wait p bus.halfPeriodUs

def sclLow (w : Bus π) : Bus π := w.drive p false w.sda

def sdaLow (w : Bus π) : Bus π := w.drive p w.scl false

def sdaRelease (w : Bus π) : Bus π := w.drive p w.scl true

def sdaRead (w : Bus π) : Bool := (w.lines p).sda

/-- The polls of a released clock, with a microsecond between them. -/
def sclAwait : Nat → Bus π → Bool × Bus π
  | 0, w => ((w.lines p).scl, w)
  | n + 1, w => if (w.lines p).scl then (true, w) else sclAwait n (w.wait p 1)

def sclRelease (w : Bus π) : Bool × Bus π := sclAwait p odI2cStretchTimeoutUs (w.drive p true w.sda)

def odI2cStart (w : Bus π) : Bus π :=
  let w := odDelay p bus w
  let w := sdaRelease p w
  let w := (sclRelease p w).2
  let w := odDelay p bus w
  let w := sdaLow p w
  let w := odDelay p bus w
  sclLow p w

def odI2cStop (w : Bus π) : Bus π :=
  let w := sclLow p w
  let w := sdaLow p w
  let w := odDelay p bus w
  let w := (sclRelease p w).2
  let w := odDelay p bus w
  let w := sdaRelease p w
  odDelay p bus w

def odI2cClock (w : Bus π) : Bool × Bus π :=
  let w := odDelay p bus w
  let (high, w) := sclRelease p w
  if high then (true, sclLow p (odDelay p bus w)) else (false, w)

/-- The bits of a byte that are still to go out. -/
def odI2cWriteBits : Nat → UInt8 → Bus π → Bool × Bus π
  | 0, _, w => (true, w)
  | n + 1, val, w =>
    let w := sclLow p w
    let w := if val &&& 0x80 ≠ 0 then sdaRelease p w else sdaLow p w
    let (clocked, w) := odI2cClock p bus w
    if clocked then odI2cWriteBits n (val <<< 1) w else (false, w)

def odI2cWriteByte (val : UInt8) (w : Bus π) : Bool × Bus π :=
  let (clocked, w) := odI2cWriteBits p bus 8 val w
  if !clocked then (false, w)
  else
    let w := sclLow p w
    let w := sdaRelease p w
    let w := odDelay p bus w
    let (high, w) := sclRelease p w
    if !high then (false, w)
    else
      let ack := sdaRead p w
      let w := odDelay p bus w
      (!ack, sclLow p w)

def odI2cReadBits : Nat → UInt8 → Bus π → Bool × UInt8 × Bus π
  | 0, val, w => (true, val, w)
  | n + 1, val, w =>
    let w := sclLow p w
    let w := odDelay p bus w
    let (high, w) := sclRelease p w
    if !high then (false, val, w)
    else
      let val := (val <<< 1) ||| if sdaRead p w then 1 else 0
      let w := odDelay p bus w
      odI2cReadBits n val (sclLow p w)

def odI2cReadByte (ack : Bool) (w : Bus π) : Bool × UInt8 × Bus π :=
  let w := sdaRelease p w
  let (clocked, val, w) := odI2cReadBits p bus 8 0 w
  if !clocked then (false, val, w)
  else
    let w := sclLow p w
    let w := if ack then sdaLow p w else sdaRelease p w
    let (clocked, w) := odI2cClock p bus w
    if !clocked then (false, val, w) else (true, val, sdaRelease p w)

def odI2cWriteBytes : List UInt8 → Bus π → Bool × Bus π
  | [], w => (true, w)
  | val :: data, w =>
    let (acked, w) := odI2cWriteByte p bus val w
    if acked then odI2cWriteBytes data w else (false, w)

/-- All bytes but the last are acknowledged. -/
def odI2cReadBytes : Nat → Bus π → Bool × List UInt8 × Bus π
  | 0, w => (true, [], w)
  | n + 1, w =>
    let (read, val, w) := odI2cReadByte p bus (0 < n) w
    if !read then (false, [], w)
    else
      let (read, data, w) := odI2cReadBytes n w
      (read, val :: data, w)

def odI2cWriteEx (addr7 : UInt8) (data : List UInt8) (stop : Bool) (w : Bus π) : OdI2cResult × Bus π :=
  if !bus.ready then (.err, w)
  else
    let w := odI2cStart p bus w
    let (acked, w) := odI2cWriteByte p bus (addr7 <<< 1 ||| 0) w
    if !acked then (.nackAddr, odI2cStop p bus w)
    else
      let (acked, w) := odI2cWriteBytes p bus data w
      if !acked then (.err, odI2cStop p bus w)
      else (.ok, if stop then odI2cStop p bus w else w)

def odI2cReadEx (addr7 : UInt8) (len : Nat) (w : Bus π) : OdI2cResult × List UInt8 × Bus π :=
  if !bus.ready then (.err, [], w)
  else if len = 0 then (.err, [], odI2cStop p bus w)
  else
    let w := odI2cStart p bus w
    let (acked, w) := odI2cWriteByte p bus (addr7 <<< 1 ||| 1) w
    if !acked then (.nackAddr, [], odI2cStop p bus w)
    else
      let (read, data, w) := odI2cReadBytes p bus len w
      (if read then .ok else .err, data, odI2cStop p bus w)

end Engine

section Hal

def odHalI2cOk : Int := 0
def odHalI2cEio : Int := -1
def odHalI2cEnodev : Int := -2
def odHalI2cEinval : Int := -3

structure I2cDataBus extends DataBus where
  busSpeedHz : UInt32

def fromEngine : OdI2cResult → Int
  | .ok => odHalI2cOk
  | .nackAddr => odHalI2cEnodev
  | .err => odHalI2cEio

/-- Half a period is at least a microsecond, and no speed is 100 kHz. -/
def odI2cHalfPeriodUs (speedHz : UInt32) : Nat :=
  let half := 500000 / (if speedHz = 0 then 100000 else speedHz).toNat
  if half = 0 then 1 else half

variable {π : Type*} (p : Peer π) (decodes : UInt8 → Bool)

/-- The lines are left high. -/
def odI2cInit (sclCfg sdaCfg : UInt8) (speedHz : UInt32) (w : Bus π) : Option OdI2cBus × Bus π :=
  if !decodes sclCfg || !decodes sdaCfg then (none, w)
  else
    let w := sdaRelease p w
    let w := (sclRelease p w).2
    (some { halfPeriodUs := odI2cHalfPeriodUs speedHz }, w)

/-- The one bus with that number: a number that is declared twice names no bus. -/
def i2cDataBus (cfg : List I2cDataBus) (inst : UInt8) : Option I2cDataBus :=
  match cfg.filter fun bus => bus.instanceNumber = inst with
  | [bus] => some bus
  | _ => none

def selectBus (cfg : Option (List I2cDataBus)) (busId : UInt8) (w : Bus π) : Option OdI2cBus × Bus π :=
  match cfg.bind (i2cDataBus · busId) with
  | none => (none, w)
  | some bus =>
    if bus.busType ≠ 1 then (none, w)
    else if bus.pin1 = 0xFF ∨ bus.pin2 = 0xFF then (none, w)
    else odI2cInit p decodes bus.pin1 bus.pin2 bus.busSpeedHz w

def argsOk (addr7 : UInt8) (len : Nat) : Bool := addr7 ≤ 0x7F && 0 < len

variable (cfg : Option (List I2cDataBus)) (busId addr7 : UInt8)

def odHalI2cProbe (w : Bus π) : Int × Bus π :=
  if 0x7F < addr7 then (odHalI2cEinval, w)
  else
    match selectBus p decodes cfg busId w with
    | (none, w) => (odHalI2cEinval, w)
    | (some bus, w) =>
      let (r, w) := odI2cWriteEx p bus addr7 [] true w
      (fromEngine r, w)

def odHalI2cWrite (data : List UInt8) (w : Bus π) : Int × Bus π :=
  if !argsOk addr7 data.length then (odHalI2cEinval, w)
  else
    match selectBus p decodes cfg busId w with
    | (none, w) => (odHalI2cEinval, w)
    | (some bus, w) =>
      let (r, w) := odI2cWriteEx p bus addr7 data true w
      (fromEngine r, w)

def odHalI2cRead (len : Nat) (w : Bus π) : Int × List UInt8 × Bus π :=
  if !argsOk addr7 len then (odHalI2cEinval, [], w)
  else
    match selectBus p decodes cfg busId w with
    | (none, w) => (odHalI2cEinval, [], w)
    | (some bus, w) =>
      let (r, data, w) := odI2cReadEx p bus addr7 len w
      (fromEngine r, data, w)

/-- One bus for both phases: to set it up again between them would be a stop in all but name. -/
def odHalI2cWriteRead (tx : List UInt8) (rxLen : Nat) (w : Bus π) : Int × List UInt8 × Bus π :=
  if !argsOk addr7 tx.length || !argsOk addr7 rxLen then (odHalI2cEinval, [], w)
  else
    match selectBus p decodes cfg busId w with
    | (none, w) => (odHalI2cEinval, [], w)
    | (some bus, w) =>
      let (r, w) := odI2cWriteEx p bus addr7 tx false w
      if r ≠ .ok then (fromEngine r, [], w)
      else
        let (r, data, w) := odI2cReadEx p bus addr7 rxLen w
        (fromEngine r, data, w)

end Hal

end OpenDisplay
