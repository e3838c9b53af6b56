import Mathlib.Data.List.Basic

/-! A bus of two open-drain lines, a clock and data. A line is high when nobody holds it low. A
controller drives the bus, and a target takes and gives bytes bit by bit, as it sees the lines
change; it may hold the clock low for a while. -/

namespace TwoWire

section Bus

structure Lines where
  scl : Bool
  sda : Bool
deriving DecidableEq

/-- The other party on the bus: which lines it leaves high, what it makes of a change of the lines,
and what time does. -/
structure Peer (π : Type*) where
  scl : π → Bool
  sda : π → Bool
  see : π → (old new : Lines) → π
  wait : π → Nat → π

/-- Which lines the controller leaves high, and the other party. -/
structure Bus (π : Type*) where
  scl : Bool
  sda : Bool
  peer : π

variable {π : Type*} (p : Peer π)

def Bus.lines (b : Bus π) : Lines := ⟨b.scl && p.scl b.peer, b.sda && p.sda b.peer⟩

/-- The controller drives the lines anew, and the peer sees what becomes of them. -/
def Bus.drive (b : Bus π) (scl sda : Bool) : Bus π :=
  ⟨scl, sda, p.see b.peer (b.lines p) ⟨scl && p.scl b.peer, sda && p.sda b.peer⟩⟩

/-- Time passes, and a line that the peer lets go rises. -/
def Bus.wait (b : Bus π) (us : Nat) : Bus π :=
  ⟨b.scl, b.sda, p.see (p.wait b.peer us) (b.lines p)
    ⟨b.scl && p.scl (p.wait b.peer us), b.sda && p.sda (p.wait b.peer us)⟩⟩

end Bus

section Bits

/-- The bits of a byte as a shift register gives them. -/
def msbBits : Nat → UInt8 → List Bool
  | 0, _ => []
  | n + 1, v => (v &&& 0x80 ≠ 0) :: msbBits n (v <<< 1)

def shiftIn (v : UInt8) (b : Bool) : UInt8 := (v <<< 1) ||| if b then 1 else 0

def byteOf (bits : List Bool) : UInt8 := bits.foldl shiftIn 0

theorem byteOf_msbBits (v : UInt8) : byteOf (msbBits 8 v) = v := by
  have h : ∀ x : BitVec 8, byteOf (msbBits 8 ⟨x⟩) = ⟨x⟩ := by decide +kernel
  exact h v.toBitVec

end Bits

section Target

/-- Where a target is in a transfer. -/
inductive Phase where
  | idle
  | take (address : Bool) (bits : List Bool)
  | acking (read : Bool)
  | send (rest : List Bool)
  | sent
  | acknowledged

/-- What a target is for: it takes an address or lets it pass, takes bytes and says whether it
wants more, gives bytes, sees the end, and at each clock holds it for some microseconds. -/
structure Device (δ : Type*) where
  start : δ → UInt8 → Option δ
  receive : δ → UInt8 → Bool × δ
  send : δ → UInt8 × δ
  stop : δ → δ
  hold : δ → Phase → Nat

variable {δ : Type*} (d : Device δ)

/-- A byte is taken, as the address that comes after a start or as one of the bytes written. -/
def Device.take (address : Bool) (device : δ) (v : UInt8) : Bool × δ :=
  if address then
    match d.start device v with
    | none => (false, device)
    | some device => (true, device)
  else d.receive device v

@[ext] structure Target (δ : Type*) where
  phase : Phase
  device : δ
  pull : Bool := false
  hold : Nat := 0

namespace Target

/-- The first bit of the next byte goes out. -/
def load (t : Target δ) : Target δ :=
  { t with phase := .send (msbBits 7 ((d.send t.device).1 <<< 1)), device := (d.send t.device).2,
           pull := (d.send t.device).1 &&& 0x80 = 0 }

def rise (t : Target δ) (sda : Bool) : Target δ :=
  match t.phase with
  | .take address bits => { t with phase := .take address (bits ++ [sda]) }
  | .sent => { t with phase := if sda then .idle else .acknowledged }
  | _ => t

/-- What the target drives next is decided while the clock is low. -/
def shift (t : Target δ) : Target δ :=
  match t.phase with
  | .take address bits =>
    if bits.length < 8 then t
    else
      let (ack, device) := d.take address t.device (byteOf bits)
      { t with phase := if ack then .acking (address && byteOf bits &&& 1 ≠ 0) else .idle, device, pull := ack }
  | .acking read => if read then t.load d else { t with phase := .take false [], pull := false }
  | .send (bit :: rest) => { t with phase := .send rest, pull := !bit }
  | .send [] => { t with phase := .sent, pull := false }
  | .acknowledged => t.load d
  | .idle | .sent => t

def fall (t : Target δ) : Target δ := { t.shift d with hold := d.hold (t.shift d).device (t.shift d).phase }

def see (t : Target δ) (old new : Lines) : Target δ :=
  match old.scl, new.scl with
  | true, true =>
    match old.sda, new.sda with
    | true, false => { t with phase := .take true [], pull := false }
    | false, true => { t with phase := .idle, device := d.stop t.device, pull := false }
    | _, _ => t
  | false, true => t.rise new.sda
  | true, false => t.fall d
  | false, false => t

end Target

def Device.peer : Peer (Target δ) where
  scl t := t.hold = 0
  sda t := !t.pull
  see := Target.see d
  wait t us := { t with hold := t.hold - us }

end Target

section Edges

variable {δ : Type*} {d : Device δ} {t : Target δ} {sda sda' : Bool} {us : Nat}

theorem drive_low : (⟨false, sda, t⟩ : Bus (Target δ)).drive d.peer false sda' = ⟨false, sda', t⟩ := rfl

theorem wait_low :
    (⟨false, sda, t⟩ : Bus (Target δ)).wait d.peer us = ⟨false, sda, { t with hold := t.hold - us }⟩ := rfl

theorem Target.see_same (lines : Lines) : t.see d lines lines = t := by
  obtain ⟨_ | _, _ | _⟩ := lines <;> rfl

theorem drive_same {b : Bus (Target δ)} : b.drive d.peer b.scl b.sda = b := by
  rw [Bus.drive]
  exact congrArg (Bus.mk b.scl b.sda) (Target.see_same _)

theorem wait_high (h : t.hold = 0) : (⟨true, sda, t⟩ : Bus (Target δ)).wait d.peer us = ⟨true, sda, t⟩ := by
  have hwait : d.peer.wait t us = t := by
    show ({ t with hold := t.hold - us } : Target δ) = t
    rw [h, Nat.zero_sub, ← h]
  rw [Bus.wait, hwait]
  exact congrArg (Bus.mk true sda) (Target.see_same _)

theorem drive_rise (h : t.hold = 0) :
    (⟨false, sda, t⟩ : Bus (Target δ)).drive d.peer true sda = ⟨true, sda, t.rise (sda && !t.pull)⟩ := by
  simp [Bus.drive, Bus.lines, Device.peer, Target.see, h]

theorem drive_held (h : t.hold ≠ 0) :
    (⟨false, sda, t⟩ : Bus (Target δ)).drive d.peer true sda = ⟨true, sda, t⟩ := by
  simp [Bus.drive, Bus.lines, Device.peer, Target.see, h]

theorem drive_fall (h : t.hold = 0) :
    (⟨true, sda, t⟩ : Bus (Target δ)).drive d.peer false sda = ⟨false, sda, t.fall d⟩ := by
  simp [Bus.drive, Bus.lines, Device.peer, Target.see, h]

theorem drive_start (h : t.hold = 0) (hp : t.pull = false) :
    (⟨true, true, t⟩ : Bus (Target δ)).drive d.peer true false =
    ⟨true, false, { t with phase := .take true [] }⟩ := by
  simp [Bus.drive, Bus.lines, Device.peer, Target.see, h, hp]

theorem drive_stop (h : t.hold = 0) (hp : t.pull = false) : (⟨true, false, t⟩ : Bus (Target δ)).drive d.peer true true =
    ⟨true, true, { t with phase := .idle, device := d.stop t.device }⟩ := by
  simp [Bus.drive, Bus.lines, Device.peer, Target.see, h, hp]

theorem wait_held (h : us < t.hold) :
    (⟨true, sda, t⟩ : Bus (Target δ)).wait d.peer us = ⟨true, sda, { t with hold := t.hold - us }⟩ := by
  simp [Bus.wait, Bus.lines, Device.peer, Target.see, show t.hold ≠ 0 by omega, show t.hold - us ≠ 0 by omega]

theorem wait_let (h : t.hold ≠ 0) (hus : t.hold ≤ us) : (⟨true, sda, t⟩ : Bus (Target δ)).wait d.peer us =
    ⟨true, sda, ({ t with hold := 0 } : Target δ).rise (sda && !t.pull)⟩ := by
  simp [Bus.wait, Bus.lines, Device.peer, Target.see, h, Nat.sub_eq_zero_of_le hus]

end Edges

section Clocks

variable {δ : Type*} {d : Device δ} {t : Target δ} {address read bit : Bool} {pre rest : List Bool}

@[simp] theorem Target.rise_hold : (t.rise bit).hold = t.hold := by
  rw [Target.rise]
  split <;> rfl

@[simp] theorem Target.rise_pull : (t.rise bit).pull = t.pull := by
  rw [Target.rise]
  split <;> rfl

@[simp] theorem Target.rise_device : (t.rise bit).device = t.device := by
  rw [Target.rise]
  split <;> rfl

/-- A clock once the target lets the line go: it rises with a bit, and falls. -/
def Target.tick (d : Device δ) (t : Target δ) (bit : Bool) : Target δ :=
  (({ t with hold := 0 } : Target δ).rise bit).fall d

/-- What a target is after the last bit of a byte. -/
def Target.took (d : Device δ) (t : Target δ) (address : Bool) (v : UInt8) : Target δ :=
  { phase := if (d.take address t.device v).1 then .acking (address && v &&& 1 ≠ 0) else .idle
    device := (d.take address t.device v).2
    pull := (d.take address t.device v).1
    hold := d.hold (d.take address t.device v).2
      (if (d.take address t.device v).1 then .acking (address && v &&& 1 ≠ 0) else .idle) }

/-- A target with the first bit of a byte out. -/
def Target.loaded (d : Device δ) (device : δ) : Target δ :=
  { phase := .send (msbBits 7 ((d.send device).1 <<< 1))
    device := (d.send device).2
    pull := (d.send device).1 &&& 0x80 = 0
    hold := d.hold (d.send device).2 (.send (msbBits 7 ((d.send device).1 <<< 1))) }

/-- A target that has seen a start. -/
def Target.addressing (d : Device δ) (device : δ) : Target δ :=
  { phase := .take true [], device, pull := false, hold := d.hold device (.take true []) }

/-- A target with a byte out, for the controller to acknowledge. -/
def Target.answered (d : Device δ) (device : δ) : Target δ :=
  { phase := .sent, device, pull := false, hold := d.hold device .sent }

/-- A target that waits for the next byte. -/
def Target.taking (d : Device δ) (device : δ) : Target δ :=
  { phase := .take false [], device, pull := false, hold := d.hold device (.take false []) }

/-- A target that is out of the transfer. -/
def Target.out (d : Device δ) (device : δ) : Target δ :=
  { phase := .idle, device, pull := false, hold := d.hold device .idle }

theorem Target.tick_more (bit : Bool) (h : t.phase = .take address pre) (hlen : pre.length + 1 < 8) :
    t.tick d bit =
      { t with phase := .take address (pre ++ [bit]), hold := d.hold t.device (.take address (pre ++ [bit])) } := by
  simp [tick, rise, h, fall, shift, hlen]

theorem Target.tick_last (h : t.phase = .take address pre) (hlen : pre.length = 7) :
    t.tick d bit = t.took d address (byteOf (pre ++ [bit])) := by
  simp [tick, rise, h, fall, shift, hlen, took]

theorem Target.tick_acking (h : t.phase = .acking read) :
    t.tick d bit = if read then loaded d t.device else taking d t.device := by
  cases read <;> simp [tick, rise, h, fall, shift, loaded, taking, load]

theorem Target.tick_idle (h : t.phase = .idle) (hp : t.pull = false) : t.tick d bit = out d t.device := by
  simp [tick, rise, h, fall, shift, out, hp]

/-- The clock of the acknowledgement. -/
theorem Target.tick_took (v : UInt8) : (t.took d address v).tick d bit =
    if (d.take address t.device v).1 then
      if address && v &&& 1 ≠ 0 then loaded d (d.take address t.device v).2 else taking d (d.take address t.device v).2
    else out d (d.take address t.device v).2 := by
  cases hack : (d.take address t.device v).1 with
  | true =>
    have hphase : (t.took d address v).phase = .acking (address && v &&& 1 ≠ 0) := by
      rw [took, hack]
      rfl
    rw [tick_acking hphase, if_pos rfl]
    rfl
  | false =>
    have hphase : (t.took d address v).phase = .idle := by
      rw [took, hack]
      rfl
    rw [tick_idle hphase hack, if_neg Bool.false_ne_true]
    rfl

theorem Target.tick_send (h : t.phase = .send (bit :: rest)) {sda : Bool} :
    t.tick d sda = { t with phase := .send rest, pull := !bit, hold := d.hold t.device (.send rest) } := by
  simp [tick, rise, h, fall, shift]

theorem Target.tick_sent_last (h : t.phase = .send []) : t.tick d bit = answered d t.device := by
  simp [tick, rise, h, fall, shift, answered]

theorem Target.tick_answered (device : δ) :
    (answered d device).tick d bit = if bit then out d device else loaded d device := by
  cases bit <;> simp [tick, rise, answered, fall, shift, loaded, out, load]

end Clocks

section Transactions

variable {δ : Type*} (d : Device δ)

/-- Bytes are written until one is refused. -/
def Device.write (device : δ) : List UInt8 → Bool × δ
  | [] => (true, device)
  | v :: vs =>
    if (d.receive device v).1 then write (d.receive device v).2 vs else (false, (d.receive device v).2)

def Device.read (device : δ) : Nat → List UInt8 × δ
  | 0 => ([], device)
  | n + 1 => ((d.send device).1 :: (read (d.send device).2 n).1, (read (d.send device).2 n).2)

/-- How a transfer ends: done, nobody took the address, or a byte was refused. -/
inductive Outcome where
  | done | absent | refused
deriving DecidableEq

/-- An address and bytes that are written, and the bus is kept. -/
def Device.writing (device : δ) (addr : UInt8) (vs : List UInt8) : Outcome × δ :=
  match d.start device (addr <<< 1) with
  | none => (.absent, device)
  | some device => if (d.write device vs).1 then (.done, (d.write device vs).2) else (.refused, (d.write device vs).2)

/-- An address and bytes that are read. -/
def Device.reading (device : δ) (addr : UInt8) (n : Nat) : Outcome × List UInt8 × δ :=
  match d.start device (addr <<< 1 ||| 1) with
  | none => (.absent, [], device)
  | some device => (.done, (d.read device n).1, (d.read device n).2)

end Transactions

end TwoWire
