import OpenDisplay.I2c.Model

/-! The transactions with a target that stretches the clock no longer than the controller waits:
bit by bit the engine does what the transaction says, and leaves the bus idle. -/

namespace OpenDisplay

open TwoWire

section Lines

variable {δ : Type*} {d : Device δ} {t : Target δ} {sda bit : Bool} {bus : OdI2cBus}

theorem sclAwait_high (h : t.hold = 0) (n : Nat) : sclAwait d.peer n ⟨true, sda, t⟩ = (true, ⟨true, sda, t⟩) := by
  have hline : ((⟨true, sda, t⟩ : Bus (Target δ)).lines d.peer).scl = true := by
    simp [Bus.lines, Device.peer, h]
  cases n with
  | zero => rw [sclAwait, hline]
  | succ n => rw [sclAwait, if_pos hline]

/-- A held clock is let go within as many polls as it is held microseconds. -/
theorem sclAwait_held {n : Nat} (h : t.hold ≠ 0) (hn : t.hold ≤ n) : sclAwait d.peer n ⟨true, sda, t⟩ =
    (true, ⟨true, sda, ({ t with hold := 0 } : Target δ).rise (sda && !t.pull)⟩) := by
  induction n generalizing t with
  | zero => exact absurd (Nat.le_zero.mp hn) h
  | succ n ih =>
    have hline : ((⟨true, sda, t⟩ : Bus (Target δ)).lines d.peer).scl = false := by
      simp [Bus.lines, Device.peer, h]
    rw [sclAwait, if_neg (by rw [hline]; exact Bool.false_ne_true)]
    by_cases hone : t.hold ≤ 1
    · rw [wait_let h hone]
      exact sclAwait_high Target.rise_hold n
    · rw [wait_held (Nat.lt_of_not_le hone), ih (show t.hold - 1 ≠ 0 by omega) (show t.hold - 1 ≤ n by omega)]

theorem sclRelease_low (h : t.hold ≤ odI2cStretchTimeoutUs) : sclRelease d.peer ⟨false, sda, t⟩ =
    (true, ⟨true, sda, ({ t with hold := 0 } : Target δ).rise (sda && !t.pull)⟩) := by
  rw [sclRelease]
  by_cases hzero : t.hold = 0
  · rw [drive_rise hzero, sclAwait_high (Target.rise_hold.trans hzero)]
    rw [show ({ t with hold := 0 } : Target δ) = t from Target.ext rfl rfl rfl hzero.symm]
  · rw [drive_held hzero]
    exact sclAwait_held hzero h

theorem sclRelease_high (h : t.hold = 0) : sclRelease d.peer ⟨true, sda, t⟩ = (true, ⟨true, sda, t⟩) := by
  rw [sclRelease, drive_same (b := ⟨true, sda, t⟩)]
  exact sclAwait_high h _

theorem odDelay_risen : odDelay d.peer bus ⟨true, sda, ({ t with hold := 0 } : Target δ).rise bit⟩ =
    ⟨true, sda, ({ t with hold := 0 } : Target δ).rise bit⟩ :=
  wait_high Target.rise_hold

/-- Time that passes before the clock is released only shortens the hold. -/
theorem sclRelease_delay (h : t.hold ≤ odI2cStretchTimeoutUs) :
    sclRelease d.peer (odDelay d.peer bus ⟨false, sda, t⟩) =
      (true, ⟨true, sda, ({ t with hold := 0 } : Target δ).rise (sda && !t.pull)⟩) := by
  have hle : t.hold - bus.halfPeriodUs ≤ odI2cStretchTimeoutUs := Nat.le_trans (Nat.sub_le _ _) h
  exact sclRelease_low (t := { t with hold := t.hold - bus.halfPeriodUs }) hle

/-- The clock falls after a rise. -/
theorem sclLow_tick :
    sclLow d.peer ⟨true, sda, ({ t with hold := 0 } : Target δ).rise bit⟩ = ⟨false, sda, t.tick d bit⟩ :=
  drive_fall Target.rise_hold

theorem sdaRead_risen : sdaRead d.peer ⟨true, sda, ({ t with hold := 0 } : Target δ).rise bit⟩ = (sda && !t.pull) := by
  simp [sdaRead, Bus.lines, Device.peer]

/-- One bit is clocked: the target sees it rise and fall once. -/
theorem odI2cClock_low (h : t.hold ≤ odI2cStretchTimeoutUs) : odI2cClock d.peer bus ⟨false, sda, t⟩ =
    (true, ⟨false, sda, t.tick d (sda && !t.pull)⟩) := by
  simp only [odI2cClock, sclRelease_delay h, if_true, odDelay_risen, sclLow_tick]

end Lines

section Bytes

variable {δ : Type*} {d : Device δ} {t : Target δ} {device : δ} {sda address : Bool} {pre : List Bool} {bus : OdI2cBus}
  (hd : ∀ device phase, d.hold device phase ≤ odI2cStretchTimeoutUs)

theorem odI2cWriteBits_step (n : Nat) (val : UInt8) (ht : t.hold ≤ odI2cStretchTimeoutUs) (hpull : t.pull = false) :
    odI2cWriteBits d.peer bus (n + 1) val ⟨false, sda, t⟩ =
      odI2cWriteBits d.peer bus n (val <<< 1) ⟨false, val &&& 0x80 ≠ 0, t.tick d (val &&& 0x80 ≠ 0)⟩ := by
  have hset : (if val &&& 0x80 ≠ 0 then sdaRelease d.peer ⟨false, sda, t⟩ else sdaLow d.peer ⟨false, sda, t⟩) =
      ⟨false, val &&& 0x80 ≠ 0, t⟩ := by
    by_cases hbit : val &&& 0x80 ≠ 0
    · rw [if_pos hbit, decide_eq_true hbit]
      exact drive_low
    · rw [if_neg hbit, decide_eq_false hbit]
      exact drive_low
  rw [odI2cWriteBits, sclLow, drive_low]
  simp only [hset, odI2cClock_low ht, hpull, Bool.not_false, Bool.and_true, if_true]

/-- The bits of a byte go to a target that is taking one. -/
theorem odI2cWriteBits_take (bus : OdI2cBus) (n : Nat) (val : UInt8) (sda : Bool)
    (hd : ∀ device phase, d.hold device phase ≤ odI2cStretchTimeoutUs) (ht : t.hold ≤ odI2cStretchTimeoutUs)
    (hp : t.phase = .take address pre) (hpull : t.pull = false)
    (hn : pre.length + (n + 1) = 8) : ∃ sda', odI2cWriteBits d.peer bus (n + 1) val ⟨false, sda, t⟩ =
      (true, ⟨false, sda', t.took d address (byteOf (pre ++ msbBits (n + 1) val))⟩) := by
  induction n generalizing pre val t sda with
  | zero =>
    refine ⟨decide (val &&& 0x80 ≠ 0), ?_⟩
    rw [odI2cWriteBits_step 0 val ht hpull, Target.tick_last hp (by omega)]
    rfl
  | succ n ih =>
    have hmore := Target.tick_more (d := d) (decide (val &&& 0x80 ≠ 0)) hp (by omega)
    rw [odI2cWriteBits_step (n + 1) val ht hpull, hmore]
    obtain ⟨sda', hrest⟩ := ih (val <<< 1) (decide (val &&& 0x80 ≠ 0))
      (t := { t with
        phase := .take address (pre ++ [decide (val &&& 0x80 ≠ 0)])
        hold := d.hold t.device (.take address (pre ++ [decide (val &&& 0x80 ≠ 0)])) })
      (hd t.device _) rfl hpull (by rw [List.length_append]; simp only [List.length_singleton]; omega)
    refine ⟨sda', hrest.trans ?_⟩
    rw [List.append_assoc]
    rfl

/-- A target that is taking a byte takes it, and its answer is the acknowledgement. -/
theorem odI2cWriteByte_take (bus : OdI2cBus) (address sda : Bool)
    (hd : ∀ device phase, d.hold device phase ≤ odI2cStretchTimeoutUs) (ht : t.hold ≤ odI2cStretchTimeoutUs)
    (hp : t.phase = .take address []) (hpull : t.pull = false) (val : UInt8) :
    odI2cWriteByte d.peer bus val ⟨false, sda, t⟩ = ((d.take address t.device val).1,
      ⟨false, true, if (d.take address t.device val).1 then
        if address && val &&& 1 ≠ 0 then Target.loaded d (d.take address t.device val).2
        else Target.taking d (d.take address t.device val).2
      else Target.out d (d.take address t.device val).2⟩) := by
  obtain ⟨sda', hbits⟩ := odI2cWriteBits_take bus 7 val sda hd ht hp hpull rfl
  rw [List.nil_append, byteOf_msbBits] at hbits
  have hhold : (t.took d address val).hold ≤ odI2cStretchTimeoutUs := hd _ _
  rw [odI2cWriteByte, hbits]
  have hlow :
    sdaRelease d.peer (sclLow d.peer ⟨false, sda', t.took d address val⟩) = ⟨false, true, t.took d address val⟩ :=
    drive_low
  simp only [Bool.not_true, Bool.false_eq_true, if_false, hlow, sclRelease_delay hhold, sdaRead_risen,
    Bool.true_and, Bool.not_not, odDelay_risen, sclLow_tick]
  rw [Target.tick_took]
  rfl

theorem odI2cReadBits_step (n : Nat) (val : UInt8) (ht : t.hold ≤ odI2cStretchTimeoutUs) :
    odI2cReadBits d.peer bus (n + 1) val ⟨false, true, t⟩ =
      odI2cReadBits d.peer bus n (shiftIn val (!t.pull)) ⟨false, true, t.tick d (!t.pull)⟩ := by
  have hlow : sclLow d.peer ⟨false, true, t⟩ = ⟨false, true, t⟩ := drive_low
  rw [odI2cReadBits]
  simp only [hlow, sclRelease_delay ht, Bool.not_true, Bool.false_eq_true, if_false, sdaRead_risen, odDelay_risen,
    sclLow_tick, Bool.true_and]
  rfl

/-- A byte that goes out bit by bit is collected bit by bit. -/
theorem odI2cReadBits_send {n : Nat} {val v : UInt8} (hd : ∀ device phase, d.hold device phase ≤ odI2cStretchTimeoutUs)
    (ht : t.hold ≤ odI2cStretchTimeoutUs) (hp : t.phase = .send (msbBits n (v <<< 1)))
    (hpull : (!t.pull) = decide (v &&& 0x80 ≠ 0)) : odI2cReadBits d.peer bus (n + 1) val ⟨false, true, t⟩ =
      (true, (msbBits (n + 1) v).foldl shiftIn val, ⟨false, true, Target.answered d t.device⟩) := by
  induction n generalizing v val t with
  | zero =>
    rw [odI2cReadBits_step 0 val ht, hpull, Target.tick_sent_last hp]
    rfl
  | succ n ih =>
    rw [msbBits] at hp
    rw [odI2cReadBits_step (n + 1) val ht, hpull, Target.tick_send hp]
    exact ih (v := v <<< 1) (hd t.device _) rfl (Bool.not_not _)

/-- A byte is read, and with its acknowledgement the next one is out. -/
theorem odI2cReadByte_loaded (hd : ∀ device phase, d.hold device phase ≤ odI2cStretchTimeoutUs) (device : δ)
    (ack : Bool) :
    odI2cReadByte d.peer bus ack ⟨false, sda, Target.loaded d device⟩ = (true, (d.send device).1,
      ⟨false, true, if ack then Target.loaded d (d.send device).2 else Target.out d (d.send device).2⟩) := by
  have hpull : (!(Target.loaded d device).pull) = decide ((d.send device).1 &&& 0x80 ≠ 0) := by
    simp [Target.loaded]
  have hbits : odI2cReadBits d.peer bus 8 0 ⟨false, true, Target.loaded d device⟩ =
      (true, (d.send device).1, ⟨false, true, Target.answered d (d.send device).2⟩) := by
    rw [odI2cReadBits_send (n := 7) hd (hd _ _) rfl hpull]
    exact congrArg (fun v => (true, v, _)) (byteOf_msbBits _)
  have hlow : sdaRelease d.peer ⟨false, sda, Target.loaded d device⟩ = ⟨false, true, Target.loaded d device⟩ :=
    drive_low
  have hset : (if ack then sdaLow d.peer (sclLow d.peer ⟨false, true, Target.answered d (d.send device).2⟩)
      else sdaRelease d.peer (sclLow d.peer ⟨false, true, Target.answered d (d.send device).2⟩)) =
      ⟨false, !ack, Target.answered d (d.send device).2⟩ := by
    cases ack <;> rfl
  have hclock : odI2cClock d.peer bus ⟨false, !ack, Target.answered d (d.send device).2⟩ = (true, ⟨false, !ack,
      if ack then Target.loaded d (d.send device).2 else Target.out d (d.send device).2⟩) := by
    rw [odI2cClock_low (hd _ _), Target.tick_answered]
    cases ack <;> rfl
  simp only [odI2cReadByte, hlow, hbits, Bool.not_true, Bool.false_eq_true, if_false, hset, hclock]
  exact congrArg (fun w => (true, _, w)) drive_low

end Bytes

section Ends

variable {δ : Type*} {d : Device δ} {t : Target δ} {device : δ} {sda : Bool} {bus : OdI2cBus}

/-- Both lines are high and the target is in no transfer. -/
def idleBus (device : δ) : Bus (Target δ) := ⟨true, true, { phase := .idle, device }⟩

/-- Both lines high and then the data line low, and the clock after it. -/
theorem odI2cStart_high (h : t.hold = 0) (hpull : t.pull = false) :
    sclLow d.peer (odDelay d.peer bus (sdaLow d.peer ⟨true, true, t⟩)) =
      ⟨false, false, Target.addressing d t.device⟩ := by
  have hstart : sdaLow d.peer ⟨true, true, t⟩ = ⟨true, false, { t with phase := .take true [] }⟩ := drive_start h hpull
  have hdelay : odDelay d.peer bus ⟨true, false, { t with phase := .take true [] }⟩ =
      ⟨true, false, { t with phase := .take true [] }⟩ := wait_high h
  have hlow : sclLow d.peer ⟨true, false, { t with phase := .take true [] }⟩ =
      ⟨false, false, ({ t with phase := .take true [] } : Target δ).fall d⟩ := drive_fall h
  rw [hstart, hdelay, hlow]
  simp [Target.fall, Target.shift, Target.addressing, hpull]

theorem odI2cStart_idle : odI2cStart d.peer bus (idleBus device) = ⟨false, false, Target.addressing d device⟩ := by
  have hdelay : odDelay d.peer bus (idleBus device) = idleBus device := wait_high rfl
  have hrelease : sdaRelease d.peer (idleBus device) = idleBus device := drive_same
  have hhigh : sclRelease d.peer (idleBus device) = (true, idleBus device) :=
    sclRelease_high (t := { phase := .idle, device }) rfl
  simp only [odI2cStart, hdelay, hrelease, hhigh]
  exact odI2cStart_high (t := { phase := .idle, device }) rfl rfl

/-- A start while the bus is kept, with no stop before it. -/
theorem odI2cStart_kept (hd : ∀ device phase, d.hold device phase ≤ odI2cStretchTimeoutUs) :
    odI2cStart d.peer bus ⟨false, sda, Target.taking d device⟩ = ⟨false, false, Target.addressing d device⟩ := by
  have hrelease : sdaRelease d.peer (odDelay d.peer bus ⟨false, sda, Target.taking d device⟩) =
      odDelay d.peer bus ⟨false, true, Target.taking d device⟩ := rfl
  have hhold : (Target.taking d device).hold ≤ odI2cStretchTimeoutUs := hd device _
  simp only [odI2cStart, hrelease, sclRelease_delay hhold, odDelay_risen]
  refine (odI2cStart_high Target.rise_hold Target.rise_pull).trans ?_
  rw [Target.rise_device]
  rfl

/-- The data line rises while the clock is high. -/
theorem odI2cStop_low (ht : t.hold ≤ odI2cStretchTimeoutUs) (hpull : t.pull = false) :
    odI2cStop d.peer bus ⟨false, sda, t⟩ = idleBus (d.stop t.device) := by
  have hlow : sdaLow d.peer (sclLow d.peer ⟨false, sda, t⟩) = ⟨false, false, t⟩ := rfl
  have hrise : sdaRelease d.peer ⟨true, false, ({ t with hold := 0 } : Target δ).rise (false && !t.pull)⟩ =
      idleBus (d.stop t.device) := by
    refine (drive_stop (Target.rise_hold (t := { t with hold := 0 })) (Target.rise_pull.trans hpull)).trans ?_
    rw [idleBus]
    congr 1
    exact Target.ext rfl (congrArg d.stop Target.rise_device) (Target.rise_pull.trans hpull) Target.rise_hold
  simp only [odI2cStop, hlow, sclRelease_delay ht, odDelay_risen, hrise]
  exact wait_high rfl

theorem odI2cStop_out (hd : ∀ device phase, d.hold device phase ≤ odI2cStretchTimeoutUs) :
    odI2cStop d.peer bus ⟨false, sda, Target.out d device⟩ = idleBus (d.stop device) :=
  odI2cStop_low (d := d) (t := Target.out d device) (hd device _) rfl

theorem odI2cStop_taking (hd : ∀ device phase, d.hold device phase ≤ odI2cStretchTimeoutUs) :
    odI2cStop d.peer bus ⟨false, sda, Target.taking d device⟩ = idleBus (d.stop device) :=
  odI2cStop_low (d := d) (t := Target.taking d device) (hd device _) rfl

end Ends

section Transfers

variable {δ : Type*} {d : Device δ} {sda : Bool} {bus : OdI2cBus}

theorem odI2cWriteBytes_taking (bus : OdI2cBus) (sda : Bool)
    (hd : ∀ device phase, d.hold device phase ≤ odI2cStretchTimeoutUs) (device : δ) (data : List UInt8) :
    ∃ sda', odI2cWriteBytes d.peer bus data ⟨false, sda, Target.taking d device⟩ = ((d.write device data).1,
      ⟨false, sda', if (d.write device data).1 then Target.taking d (d.write device data).2
        else Target.out d (d.write device data).2⟩) := by
  induction data generalizing device sda with
  | nil => exact ⟨sda, rfl⟩
  | cons val data ih =>
    have hbyte := odI2cWriteByte_take (t := Target.taking d device) bus false sda hd
      (hd device _) rfl rfl val
    have htake : d.take false (Target.taking d device).device val = d.receive device val := rfl
    rw [htake] at hbyte
    rcases hreceive : d.receive device val with ⟨_ | _, device'⟩ <;>
      simp only [hreceive, Bool.false_and, Bool.false_eq_true, if_true, if_false] at hbyte
    · simp only [odI2cWriteBytes, hbyte, Device.write, hreceive, Bool.false_eq_true, if_false]
      exact ⟨true, rfl⟩
    · simp only [odI2cWriteBytes, hbyte, Device.write, hreceive, if_true]
      exact ih true device'

theorem odI2cReadBytes_loaded (hd : ∀ device phase, d.hold device phase ≤ odI2cStretchTimeoutUs) (device : δ)
    (n : Nat) :
    odI2cReadBytes d.peer bus (n + 1) ⟨false, sda, Target.loaded d device⟩ = (true, (d.read device (n + 1)).1,
      ⟨false, true, Target.out d (d.read device (n + 1)).2⟩) := by
  induction n generalizing device sda with
  | zero =>
    rw [odI2cReadBytes, odI2cReadByte_loaded hd]
    rfl
  | succ n ih =>
    rw [odI2cReadBytes, odI2cReadByte_loaded hd]
    simp only [Nat.zero_lt_succ, decide_true, if_true, Bool.not_true, Bool.false_eq_true, if_false, ih]
    rfl

/-- The byte after a start is taken by the one it addresses, who then has a byte out or waits for
one. -/
theorem odI2cWriteByte_address (bus : OdI2cBus) (hd : ∀ device phase, d.hold device phase ≤ odI2cStretchTimeoutUs)
    (device : δ) (v : UInt8) : odI2cWriteByte d.peer bus v ⟨false, false, Target.addressing d device⟩ =
      match d.start device v with
      | none => (false, ⟨false, true, Target.out d device⟩)
      | some device' =>
        (true, ⟨false, true, if v &&& 1 ≠ 0 then Target.loaded d device' else Target.taking d device'⟩) := by
  have htake : d.take true (Target.addressing d device).device v =
      match d.start device v with
      | none => (false, device)
      | some device' => (true, device') := rfl
  rw [odI2cWriteByte_take bus true false hd (hd device _) rfl rfl v, htake]
  cases d.start device v with
  | none => rfl
  | some device' => simp

theorem writeAddress_even (addr7 : UInt8) : (addr7 <<< 1 ||| 0) &&& 1 = 0 := by
  have h : ∀ x : BitVec 8, ((⟨x⟩ : UInt8) <<< 1 ||| 0) &&& 1 = 0 := by decide +kernel
  exact h addr7.toBitVec

theorem readAddress_odd (addr7 : UInt8) : (addr7 <<< 1 ||| 1) &&& 1 ≠ 0 := by
  have h : ∀ x : BitVec 8, ((⟨x⟩ : UInt8) <<< 1 ||| 1) &&& 1 ≠ 0 := by decide +kernel
  exact h addr7.toBitVec

/-- Where a transaction can begin: the bus is idle, or it is kept and the target waits. -/
def Startable (d : Device δ) (w : Bus (Target δ)) (device : δ) : Prop :=
  w = idleBus device ∨ ∃ sda, w = ⟨false, sda, Target.taking d device⟩

theorem Startable.start {w : Bus (Target δ)} {device : δ}
    (hd : ∀ device phase, d.hold device phase ≤ odI2cStretchTimeoutUs) (h : Startable d w device) :
    odI2cStart d.peer bus w = ⟨false, false, Target.addressing d device⟩ := by
  rcases h with rfl | ⟨sda, rfl⟩
  · exact odI2cStart_idle
  · exact odI2cStart_kept hd

def outcomeResult : Outcome → OdI2cResult
  | .done => .ok
  | .absent => .nackAddr
  | .refused => .err

/-- A write does what the target makes of it, and the bus is idle after it or kept for more. -/
theorem odI2cWriteEx_startable {w : Bus (Target δ)} {device : δ}
    (hd : ∀ device phase, d.hold device phase ≤ odI2cStretchTimeoutUs) (hready : bus.ready = true)
    (hw : Startable d w device) (addr7 : UInt8) (data : List UInt8) (stop : Bool) :
    (odI2cWriteEx d.peer bus addr7 data stop w).1 = outcomeResult (d.writing device addr7 data).1 ∧
      if stop = false ∧ (d.writing device addr7 data).1 = .done then
        Startable d (odI2cWriteEx d.peer bus addr7 data stop w).2 (d.writing device addr7 data).2
      else (odI2cWriteEx d.peer bus addr7 data stop w).2 = idleBus (d.stop (d.writing device addr7 data).2) := by
  have heven := writeAddress_even addr7
  have hbyte := odI2cWriteByte_address bus hd device (addr7 <<< 1 ||| 0)
  rw [heven] at hbyte
  rw [UInt8.or_zero] at hbyte
  simp only [odI2cWriteEx, hready, hw.start hd, Device.writing, UInt8.or_zero, Bool.not_true,
    Bool.false_eq_true, if_false]
  rcases hstart : d.start device (addr7 <<< 1) with _ | device' <;> rw [hstart] at hbyte
  · simp only [hbyte, Bool.not_false, if_true, odI2cStop_out hd]
    exact ⟨rfl, by simp⟩
  obtain ⟨sda', hbytes⟩ := odI2cWriteBytes_taking bus true hd device' data
  rcases hwrite : d.write device' data with ⟨_ | _, device''⟩ <;>
    simp only [hwrite, Bool.false_eq_true, if_true, if_false] at hbytes
  · simp only [hbyte, hwrite, ne_eq, not_true, if_false, Bool.not_true, Bool.not_false, Bool.false_eq_true, if_true,
      hbytes, odI2cStop_out hd]
    exact ⟨rfl, by simp⟩
  · simp only [hbyte, hwrite, ne_eq, not_true, if_false, Bool.not_true, Bool.false_eq_true, if_true, hbytes]
    refine ⟨rfl, ?_⟩
    cases stop with
    | true => simp [odI2cStop_taking hd]
    | false =>
      rw [if_pos ⟨rfl, trivial⟩]
      exact .inr ⟨sda', rfl⟩

/-- A read gives what the target gives, and the bus is idle after it. -/
theorem odI2cReadEx_startable {w : Bus (Target δ)} {device : δ}
    (hd : ∀ device phase, d.hold device phase ≤ odI2cStretchTimeoutUs) (hready : bus.ready = true)
    (hw : Startable d w device) (addr7 : UInt8) (n : Nat) :
    odI2cReadEx d.peer bus addr7 (n + 1) w = (outcomeResult (d.reading device addr7 (n + 1)).1,
      (d.reading device addr7 (n + 1)).2.1, idleBus (d.stop (d.reading device addr7 (n + 1)).2.2)) := by
  have hbyte := odI2cWriteByte_address bus hd device (addr7 <<< 1 ||| 1)
  simp only [odI2cReadEx, hready, hw.start hd, Device.reading, Bool.not_true, Bool.false_eq_true, if_false,
    Nat.succ_ne_zero]
  rcases hstart : d.start device (addr7 <<< 1 ||| 1) with _ | device' <;> rw [hstart] at hbyte
  · simp only [hbyte, Bool.not_false, if_true, odI2cStop_out hd]
    rfl
  · simp only [if_pos (readAddress_odd addr7)] at hbyte
    simp only [hbyte, Bool.not_true, Bool.false_eq_true, if_false, odI2cReadBytes_loaded hd, if_true, odI2cStop_out hd]
    rfl

end Transfers

section Hal

variable {δ : Type*} {d : Device δ} {decodes : UInt8 → Bool} {cfg : Option (List I2cDataBus)} {busId : UInt8}

/-- The four transactions. -/
inductive I2cOp where
  | probe
  | write (data : List UInt8)
  | read (len : Nat)
  | writeRead (tx : List UInt8) (rxLen : Nat)

def odHalI2cCall {π : Type*} (p : Peer π) (decodes : UInt8 → Bool) (cfg : Option (List I2cDataBus))
    (busId addr7 : UInt8) (w : Bus π) : I2cOp → Int × List UInt8 × Bus π
  | .probe => ((odHalI2cProbe p decodes cfg busId addr7 w).1, [], (odHalI2cProbe p decodes cfg busId addr7 w).2)
  | .write data =>
    ((odHalI2cWrite p decodes cfg busId addr7 data w).1, [], (odHalI2cWrite p decodes cfg busId addr7 data w).2)
  | .read len => odHalI2cRead p decodes cfg busId addr7 len w
  | .writeRead tx rxLen => odHalI2cWriteRead p decodes cfg busId addr7 tx rxLen w

/-- A seven-bit address, and no empty phase. -/
def I2cOp.Valid (addr7 : UInt8) : I2cOp → Bool
  | .probe => addr7 ≤ 0x7F
  | .write data => argsOk addr7 data.length
  | .read len => argsOk addr7 len
  | .writeRead tx rxLen => argsOk addr7 tx.length && argsOk addr7 rxLen

/-- The bus has one record, of the right kind, with pins that exist. -/
def busUsable (decodes : UInt8 → Bool) (cfg : Option (List I2cDataBus)) (busId : UInt8) : Bool :=
  match cfg.bind (i2cDataBus · busId) with
  | none => false
  | some bus => bus.busType = 1 && bus.pin1 ≠ 0xFF && bus.pin2 ≠ 0xFF && decodes bus.pin1 && decodes bus.pin2

def outcomeStatus : Outcome → Int
  | .done => odHalI2cOk
  | .absent => odHalI2cEnodev
  | .refused => odHalI2cEio

/-- What a transaction is to the target: one transfer from start to stop, the second phase of
which is there only after the whole of the first. -/
def transact (d : Device δ) (device : δ) (addr7 : UInt8) : I2cOp → Outcome × List UInt8 × δ
  | .probe => ((d.writing device addr7 []).1, [], d.stop (d.writing device addr7 []).2)
  | .write data => ((d.writing device addr7 data).1, [], d.stop (d.writing device addr7 data).2)
  | .read len =>
    ((d.reading device addr7 len).1, (d.reading device addr7 len).2.1, d.stop (d.reading device addr7 len).2.2)
  | .writeRead tx rxLen =>
    if (d.writing device addr7 tx).1 = .done then
      ((d.reading (d.writing device addr7 tx).2 addr7 rxLen).1,
        (d.reading (d.writing device addr7 tx).2 addr7 rxLen).2.1,
        d.stop (d.reading (d.writing device addr7 tx).2 addr7 rxLen).2.2)
    else ((d.writing device addr7 tx).1, [], d.stop (d.writing device addr7 tx).2)

/-- A transaction between idle buses: it is refused and nobody sees it, or the target does. -/
def halCall (d : Device δ) (usable : Bool) (device : δ) (addr7 : UInt8) (op : I2cOp) : Int × List UInt8 × δ :=
  if usable && op.Valid addr7 then
    (outcomeStatus (transact d device addr7 op).1, (transact d device addr7 op).2.1, (transact d device addr7 op).2.2)
  else (odHalI2cEinval, [], device)

theorem fromEngine_outcomeResult (o : Outcome) : fromEngine (outcomeResult o) = outcomeStatus o := by
  cases o <;> rfl

theorem odI2cInit_idle (sclCfg sdaCfg : UInt8) (speedHz : UInt32) (device : δ) :
    odI2cInit d.peer decodes sclCfg sdaCfg speedHz (idleBus device) =
      (if decodes sclCfg && decodes sdaCfg then some { halfPeriodUs := odI2cHalfPeriodUs speedHz } else none,
        idleBus device) := by
  have hrelease : sdaRelease d.peer (idleBus device) = idleBus device := drive_same
  have hhigh : sclRelease d.peer (idleBus device) = (true, idleBus device) :=
    sclRelease_high (t := { phase := .idle, device }) rfl
  simp only [odI2cInit, hrelease, hhigh]
  cases decodes sclCfg <;> cases decodes sdaCfg <;> rfl

theorem selectBus_idle (d : Device δ) (decodes : UInt8 → Bool) (cfg : Option (List I2cDataBus)) (busId : UInt8)
    (device : δ) : ∃ bus : OdI2cBus, bus.ready = true ∧
    selectBus d.peer decodes cfg busId (idleBus device) =
      (if busUsable decodes cfg busId then some bus else none, idleBus device) := by
  rw [selectBus, busUsable]
  rcases cfg.bind (i2cDataBus · busId) with _ | found
  · exact ⟨{ halfPeriodUs := 1 }, rfl, rfl⟩
  refine ⟨{ halfPeriodUs := odI2cHalfPeriodUs found.busSpeedHz }, rfl, ?_⟩
  simp only [odI2cInit_idle]
  by_cases htype : found.busType = 1
  · by_cases hpins : found.pin1 = 0xFF ∨ found.pin2 = 0xFF
    · rcases hpins with hpin | hpin <;> simp [htype, hpin]
    · obtain ⟨hpin1, hpin2⟩ := not_or.mp hpins
      simp [htype, hpin1, hpin2]
  · simp [htype]

theorem argsOk_false {addr7 : UInt8} {len : Nat} (h : argsOk addr7 len = false) : 0x7F < addr7 ∨ len = 0 := by
  rcases Bool.and_eq_false_iff.mp h with haddr | hlen
  · exact .inl (UInt8.not_le.mp (of_decide_eq_false haddr))
  · exact .inr (Nat.eq_zero_of_not_pos (of_decide_eq_false hlen))

theorem argsOk_true {addr7 : UInt8} {len : Nat} (h : argsOk addr7 len = true) : ¬ (0x7F < addr7 ∨ len = 0) := by
  obtain ⟨haddr, hlen⟩ := Bool.and_eq_true_iff.mp h
  rintro (hbad | hbad)
  · exact UInt8.not_lt.mpr (of_decide_eq_true haddr) hbad
  · exact Nat.ne_of_gt (of_decide_eq_true hlen) hbad

theorem argsOk_ne_zero {addr7 : UInt8} {len : Nat} (h : argsOk addr7 len = true) : len ≠ 0 := by
  rw [argsOk, Bool.and_eq_true] at h
  exact Nat.ne_of_gt (of_decide_eq_true h.2)

/-- Each call is its transaction, and leaves the bus idle. -/
theorem odHalI2cCall_idle (hd : ∀ device phase, d.hold device phase ≤ odI2cStretchTimeoutUs) (device : δ)
    (addr7 : UInt8) (op : I2cOp) :
    odHalI2cCall d.peer decodes cfg busId addr7 (idleBus device) op =
      ((halCall d (busUsable decodes cfg busId) device addr7 op).1,
        (halCall d (busUsable decodes cfg busId) device addr7 op).2.1,
        idleBus (halCall d (busUsable decodes cfg busId) device addr7 op).2.2) := by
  have hidle : Startable d (idleBus device) device := .inl rfl
  obtain ⟨bus, hready, hselect⟩ := selectBus_idle d decodes cfg busId device
  cases op with
  | probe =>
    obtain ⟨hresult, hbus⟩ := odI2cWriteEx_startable hd hready hidle addr7 [] true
    rw [if_neg (fun h => Bool.noConfusion h.1)] at hbus
    by_cases haddr : 0x7F < addr7
    · have hinvalid : I2cOp.probe.Valid addr7 = false := decide_eq_false (UInt8.not_le.mpr haddr)
      simp only [odHalI2cCall, odHalI2cProbe, if_pos haddr, halCall, hinvalid, Bool.and_false,
        Bool.false_eq_true, if_false]
    have hvalid : I2cOp.probe.Valid addr7 = true := decide_eq_true (UInt8.not_lt.mp haddr)
    cases husable : busUsable decodes cfg busId <;> rw [husable] at hselect
    · simp only [odHalI2cCall, odHalI2cProbe, if_neg haddr, hselect, Bool.false_eq_true, if_false, halCall,
        Bool.false_and]
    · simp only [odHalI2cCall, odHalI2cProbe, if_neg haddr, hselect, if_true, halCall, hvalid, Bool.and_true, transact,
        hresult, hbus, fromEngine_outcomeResult]
  | write data =>
    obtain ⟨hresult, hbus⟩ := odI2cWriteEx_startable hd hready hidle addr7 data true
    rw [if_neg (fun h => Bool.noConfusion h.1)] at hbus
    cases hvalid : argsOk addr7 data.length
    · simp [odHalI2cCall, odHalI2cWrite, hvalid, halCall, I2cOp.Valid]
    cases husable : busUsable decodes cfg busId <;> rw [husable] at hselect
    · simp only [odHalI2cCall, odHalI2cWrite, hvalid, hselect, Bool.not_true, Bool.false_eq_true, if_false, halCall,
        Bool.false_and]
    · simp only [odHalI2cCall, odHalI2cWrite, hvalid, hselect, Bool.not_true, Bool.false_eq_true, if_false, if_true,
        halCall, I2cOp.Valid, Bool.and_true, transact, hresult, hbus, fromEngine_outcomeResult]
  | read len =>
    cases hvalid : argsOk addr7 len
    · simp [odHalI2cCall, odHalI2cRead, hvalid, halCall, I2cOp.Valid]
    obtain ⟨n, rfl⟩ : ∃ n, len = n + 1 := Nat.exists_eq_succ_of_ne_zero (argsOk_ne_zero hvalid)
    have hread := odI2cReadEx_startable hd hready hidle addr7 n
    cases husable : busUsable decodes cfg busId <;> rw [husable] at hselect
    · simp only [odHalI2cCall, odHalI2cRead, hvalid, hselect, Bool.not_true, Bool.false_eq_true, if_false, halCall,
        Bool.false_and]
    · simp only [odHalI2cCall, odHalI2cRead, hvalid, hselect, Bool.not_true, Bool.false_eq_true, if_false, if_true,
        halCall, I2cOp.Valid, Bool.and_true, transact, hread, fromEngine_outcomeResult]
  | writeRead tx rxLen =>
    cases hvalid : argsOk addr7 tx.length && argsOk addr7 rxLen
    · have hbad : (!argsOk addr7 tx.length || !argsOk addr7 rxLen) = true := by
        rw [← Bool.not_and, hvalid]
        rfl
      simp only [odHalI2cCall, odHalI2cWriteRead, hbad, if_true, halCall, I2cOp.Valid, hvalid, Bool.and_false,
        Bool.false_eq_true, if_false]
    have hgood : (!argsOk addr7 tx.length || !argsOk addr7 rxLen) = false := by
      rw [← Bool.not_and, hvalid]
      rfl
    cases husable : busUsable decodes cfg busId <;> rw [husable] at hselect
    · simp only [odHalI2cCall, odHalI2cWriteRead, hgood, hselect, Bool.false_eq_true, if_false, halCall, Bool.false_and]
    obtain ⟨n, rfl⟩ : ∃ n, rxLen = n + 1 :=
      Nat.exists_eq_succ_of_ne_zero (argsOk_ne_zero (Bool.and_eq_true_iff.mp hvalid).2)
    obtain ⟨hresult, hbus⟩ := odI2cWriteEx_startable hd hready hidle addr7 tx false
    rcases hwrite : odI2cWriteEx d.peer bus addr7 tx false (idleBus device) with ⟨r, w⟩
    rw [hwrite] at hresult hbus
    dsimp only at hresult hbus
    simp only [odHalI2cCall, odHalI2cWriteRead, hgood, hselect, Bool.false_eq_true, if_false, if_true, halCall,
      I2cOp.Valid, hvalid, Bool.and_true, transact, hwrite]
    by_cases hdone : (d.writing device addr7 tx).1 = .done
    · rw [if_pos ⟨rfl, hdone⟩] at hbus
      have hok : ¬ r ≠ .ok := not_not.mpr (hresult.trans (congrArg outcomeResult hdone))
      have hread := odI2cReadEx_startable hd hready hbus addr7 n
      simp only [if_pos hdone, if_neg hok, hread, fromEngine_outcomeResult]
    · rw [if_neg fun h => hdone h.2] at hbus
      have hfail : r ≠ .ok := by
        intro hok
        rw [hok] at hresult
        cases ho : (d.writing device addr7 tx).1 <;> rw [ho] at hresult hdone
        · exact hdone rfl
        · cases hresult
        · cases hresult
      simp only [if_neg hdone, if_pos hfail, hbus]
      rw [hresult, fromEngine_outcomeResult]

end Hal

section Runs

variable {δ : Type*} {d : Device δ}

/-- The calls of a run on one bus, and what they answer. -/
def odHalI2cRun {π : Type*} (p : Peer π) (decodes : UInt8 → Bool) (cfg : Option (List I2cDataBus)) (busId : UInt8) :
    Bus π → List (UInt8 × I2cOp) → List (Int × List UInt8) × Bus π
  | w, [] => ([], w)
  | w, (addr7, op) :: calls =>
    let (rc, data, w) := odHalI2cCall p decodes cfg busId addr7 w op
    let (answers, w) := odHalI2cRun p decodes cfg busId w calls
    ((rc, data) :: answers, w)

def halCalls (d : Device δ) (usable : Bool) : δ → List (UInt8 × I2cOp) → List (Int × List UInt8) × δ
  | device, [] => ([], device)
  | device, (addr7, op) :: calls =>
    (((halCall d usable device addr7 op).1, (halCall d usable device addr7 op).2.1) ::
      (halCalls d usable (halCall d usable device addr7 op).2.2 calls).1,
      (halCalls d usable (halCall d usable device addr7 op).2.2 calls).2)

/-- Over every run of calls the bits on the two lines are the transactions, with a target that
stretches the clock no longer than the controller waits, and the bus is idle after each. -/
theorem odHalI2cRun_transacts (d : Device δ) (hd : ∀ device phase, d.hold device phase ≤ odI2cStretchTimeoutUs)
    (decodes : UInt8 → Bool) (cfg : Option (List I2cDataBus)) (busId : UInt8) (device : δ)
    (calls : List (UInt8 × I2cOp)) : odHalI2cRun d.peer decodes cfg busId (idleBus device) calls =
      ((halCalls d (busUsable decodes cfg busId) device calls).1,
        idleBus (halCalls d (busUsable decodes cfg busId) device calls).2) := by
  induction calls generalizing device with
  | nil => rfl
  | cons call calls ih =>
    obtain ⟨addr7, op⟩ := call
    rw [odHalI2cRun, odHalI2cCall_idle hd]
    simp only [ih]
    rfl

/-- A memory behind an address, with a pointer that is written and goes on with each byte read. -/
def memoryDevice : Device (UInt8 × List UInt8) where
  start m v := if v >>> 1 = 0x28 then some m else none
  receive m v := (true, v, m.2)
  send m := (m.2.getD m.1.toNat 0, m.1 + 1, m.2)
  stop m := m
  hold _ phase := match phase with
    | .take _ bits => bits.length % 4
    | _ => 3

theorem memoryDevice_hold (m : UInt8 × List UInt8) (phase : Phase) :
    memoryDevice.hold m phase ≤ odI2cStretchTimeoutUs := by
  have hlow : 3 ≤ odI2cStretchTimeoutUs := by decide
  cases phase with
  | take address bits => exact (Nat.le_of_lt_succ (Nat.mod_lt bits.length (by decide))).trans hlow
  | idle | acking | send | sent | acknowledged => exact hlow

/-- Two bytes from the third on, and nobody at another address. -/
theorem odHalI2cRun_transacts_memory :
    (odHalI2cRun memoryDevice.peer (fun _ => true)
      (some [{ instanceNumber := 0, pin1 := 1, pin2 := 2, busSpeedHz := 0 }]) 0
      (idleBus (0, [7, 8, 9, 10])) [(0x28, .writeRead [2] 2), (0x29, .probe)]).1 = [(0, [9, 10]), (-2, [])] := by
  rw [odHalI2cRun_transacts memoryDevice memoryDevice_hold]
  decide

end Runs

section Releases

variable {π : Type*} {p : Peer π} {bus : OdI2cBus} {w : Bus π} {decodes : UInt8 → Bool} {cfg : Option (List I2cDataBus)}
  {busId : UInt8}

/-- The controller holds neither line. -/
def Released (w : Bus π) : Prop := w.scl = true ∧ w.sda = true

theorem sclAwait_drives (n : Nat) (w : Bus π) : (sclAwait p n w).2.scl = w.scl ∧ (sclAwait p n w).2.sda = w.sda := by
  induction n generalizing w with
  | zero => exact ⟨rfl, rfl⟩
  | succ n ih =>
    rw [sclAwait]
    split
    · exact ⟨rfl, rfl⟩
    · exact ih (w.wait p 1)

theorem sclRelease_scl (w : Bus π) : (sclRelease p w).2.scl = true := (sclAwait_drives _ _).1

theorem sclRelease_sda (w : Bus π) : (sclRelease p w).2.sda = w.sda := (sclAwait_drives _ _).2

/-- A stop lets go of both lines, whatever the peer does to them. -/
theorem odI2cStop_released (w : Bus π) : Released (odI2cStop p bus w) :=
  ⟨sclRelease_scl _, rfl⟩

theorem odI2cWriteEx_released (hready : bus.ready = true) (addr7 : UInt8) (data : List UInt8) (stop : Bool)
    (h : stop = true ∨ (odI2cWriteEx p bus addr7 data stop w).1 ≠ .ok) :
    Released (odI2cWriteEx p bus addr7 data stop w).2 := by
  rcases haddr : odI2cWriteByte p bus (addr7 <<< 1 ||| 0) (odI2cStart p bus w) with ⟨_ | _, w₁⟩
  · simp only [odI2cWriteEx, hready, haddr]
    exact odI2cStop_released w₁
  rcases hdata : odI2cWriteBytes p bus data w₁ with ⟨_ | _, w₂⟩
  · simp only [odI2cWriteEx, hready, haddr, hdata]
    exact odI2cStop_released w₂
  · simp only [odI2cWriteEx, hready, haddr, hdata] at h ⊢
    rcases h with rfl | h
    · exact odI2cStop_released w₂
    · exact absurd rfl h

theorem odI2cReadEx_released (hready : bus.ready = true) (addr7 : UInt8) (len : Nat) :
    Released (odI2cReadEx p bus addr7 len w).2.2 := by
  rw [odI2cReadEx, if_neg (by rw [hready]; decide)]
  split
  · exact odI2cStop_released w
  rcases haddr : odI2cWriteByte p bus (addr7 <<< 1 ||| 1) (odI2cStart p bus w) with ⟨_ | _, w₁⟩
  · simp only [haddr]
    exact odI2cStop_released w₁
  · simp only [haddr]
    exact odI2cStop_released _

theorem selectBus_released (p : Peer π) (decodes : UInt8 → Bool) (cfg : Option (List I2cDataBus)) (busId : UInt8)
    (hw : Released w) : Released (selectBus p decodes cfg busId w).2 ∧
    ∀ bus ∈ (selectBus p decodes cfg busId w).1, bus.ready = true := by
  have hinit : ∀ sclCfg sdaCfg speedHz, Released (odI2cInit p decodes sclCfg sdaCfg speedHz w).2 ∧
      ∀ bus ∈ (odI2cInit p decodes sclCfg sdaCfg speedHz w).1, bus.ready = true := by
    intro sclCfg sdaCfg speedHz
    rw [odI2cInit]
    split
    · exact ⟨hw, fun _ h => nomatch h⟩
    · refine ⟨⟨sclRelease_scl _, sclRelease_sda _⟩, ?_⟩
      rintro _ ⟨⟩
      rfl
  rw [selectBus]
  split
  · exact ⟨hw, fun _ h => nomatch h⟩
  · split
    · exact ⟨hw, fun _ h => nomatch h⟩
    · split
      · exact ⟨hw, fun _ h => nomatch h⟩
      · exact hinit _ _ _

/-- A call that is over holds no line, on any bus. -/
theorem odHalI2cCall_released (addr7 : UInt8) (op : I2cOp) (hw : Released w) :
    Released (odHalI2cCall p decodes cfg busId addr7 w op).2.2 := by
  obtain ⟨hselect, hready⟩ := selectBus_released p decodes cfg busId hw
  rcases hbus : selectBus p decodes cfg busId w with ⟨_ | bus, w₁⟩ <;> rw [hbus] at hselect hready
  · cases op <;> simp only [odHalI2cCall, odHalI2cProbe, odHalI2cWrite, odHalI2cRead, odHalI2cWriteRead, hbus] <;>
      split <;> assumption
  have hready := hready bus rfl
  cases op with
  | probe =>
    simp only [odHalI2cCall, odHalI2cProbe, hbus]
    split
    · exact hw
    · exact odI2cWriteEx_released hready addr7 [] true (.inl rfl)
  | write data =>
    simp only [odHalI2cCall, odHalI2cWrite, hbus]
    split
    · exact hw
    · exact odI2cWriteEx_released hready addr7 data true (.inl rfl)
  | read len =>
    simp only [odHalI2cCall, odHalI2cRead, hbus]
    split
    · exact hw
    · exact odI2cReadEx_released hready addr7 len
  | writeRead tx rxLen =>
    simp only [odHalI2cCall, odHalI2cWriteRead, hbus]
    split
    · exact hw
    · split
      · next hfail => exact odI2cWriteEx_released hready addr7 tx false (.inr hfail)
      · exact odI2cReadEx_released hready addr7 rxLen

/-- Whatever else is on the bus and does to it, a run of calls ends with both lines let go. -/
theorem odHalI2cRun_released (p : Peer π) (decodes : UInt8 → Bool) (cfg : Option (List I2cDataBus)) (busId : UInt8)
    (w : Bus π) (calls : List (UInt8 × I2cOp)) (hw : Released w) :
    Released (odHalI2cRun p decodes cfg busId w calls).2 := by
  induction calls generalizing w with
  | nil => exact hw
  | cons call calls ih => exact ih _ (odHalI2cCall_released call.1 call.2 hw)

/-- A peer that holds both lines low for ever. -/
def stuckPeer : Peer Unit where
  scl _ := false
  sda _ := false
  see _ _ _ := ()
  wait _ _ := ()

theorem odHalI2cRun_released_stuck :
    Released (odHalI2cRun stuckPeer (fun _ => true)
      (some [{ instanceNumber := 0, pin1 := 1, pin2 := 2, busSpeedHz := 0 }]) 0 ⟨true, true, ()⟩
      [(0x28, .writeRead [2] 2), (0x29, .probe)]).2 :=
  odHalI2cRun_released stuckPeer _ _ 0 ⟨true, true, ()⟩ _ ⟨rfl, rfl⟩

end Releases

end OpenDisplay
