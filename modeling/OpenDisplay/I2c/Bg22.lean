import OpenDisplay.I2c.Transfer

/-! The controller of the smallest target. It drives the clock without looking at it, and turns the
data line between an input and an open-drain output; with a target that does not stretch the clock
its transactions are the same. -/

namespace OpenDisplay

open TwoWire

namespace Bg22

section Engine

variable {π : Type*} (p : Peer π)

/-- The level of an output pin, or its mode: an input is high and a new output low. -/
def setScl (w : Bus π) (level : Bool) : Bus π := w.drive p level w.sda

def setSda (w : Bus π) (level : Bool) : Bus π := w.drive p w.scl level

def bbStart (w : Bus π) : Bus π :=
  let w := setSda p w true
  let w := setScl p w true
  let w := w.wait p 2
  let w := setSda p w false
  let w := w.wait p 2
  setScl p w false

def bbStop (w : Bus π) : Bus π :=
  let w := setSda p w false
  let w := w.wait p 2
  let w := setScl p w true
  let w := w.wait p 2
  let w := setSda p w true
  w.wait p 2

def bbWriteBits : Nat → UInt8 → Bus π → Bus π
  | 0, _, w => w
  | n + 1, byte, w =>
    let w := if byte &&& 0x80 ≠ 0 then setSda p w true else setSda p w false
    let w := w.wait p 1
    let w := setScl p w true
    let w := w.wait p 2
    bbWriteBits n (byte <<< 1) (setScl p w false)

def bbWriteByte (byte : UInt8) (w : Bus π) : Bool × Bus π :=
  let w := bbWriteBits p 8 byte w
  let w := setSda p w true
  let w := w.wait p 1
  let w := setScl p w true
  let w := w.wait p 2
  let ack := !(w.lines p).sda
  let w := setScl p w false
  (ack, setSda p w false)

def bbReadBits : Nat → UInt8 → Bus π → UInt8 × Bus π
  | 0, value, w => (value, w)
  | n + 1, value, w =>
    let w := setScl p w true
    let w := w.wait p 2
    let value := (value <<< 1) ||| if (w.lines p).sda then 1 else 0
    let w := setScl p w false
    bbReadBits n value (w.wait p 1)

def bbReadByte (ack : Bool) (w : Bus π) : UInt8 × Bus π :=
  let w := setSda p w true
  let (value, w) := bbReadBits p 8 0 w
  let w := setSda p w false
  let w := if ack then setSda p w false else setSda p w true
  let w := w.wait p 1
  let w := setScl p w true
  let w := w.wait p 2
  let w := setScl p w false
  (value, setSda p w true)

def bbWriteBytes : List UInt8 → Bus π → Bool × Bus π
  | [], w => (true, w)
  | byte :: data, w =>
    let (acked, w) := bbWriteByte p byte w
    if acked then bbWriteBytes data w else (false, w)

/-- All bytes but the last are acknowledged. -/
def bbReadBytes : Nat → Bus π → List UInt8 × Bus π
  | 0, w => ([], w)
  | n + 1, w =>
    let (value, w) := bbReadByte p (0 < n) w
    let (data, w) := bbReadBytes n w
    (value :: data, w)

end Engine

section Hal

variable {π : Type*} (p : Peer π) (decodes : UInt8 → Bool) (cfg : Option (List I2cDataBus)) (busId addr7 : UInt8)

def selectBus : Bool :=
  match cfg.bind (i2cDataBus · busId) with
  | none => false
  | some bus => if bus.busType ≠ 1 then false else decodes bus.pin1 && decodes bus.pin2

def odHalI2cProbe (w : Bus π) : Int × Bus π :=
  if 0x7F < addr7 then (odHalI2cEinval, w)
  else if !selectBus decodes cfg busId then (odHalI2cEinval, w)
  else
    let w := bbStart p w
    let (ack, w) := bbWriteByte p (addr7 <<< 1) w
    let w := bbStop p w
    (if ack then odHalI2cOk else odHalI2cEnodev, w)

def odHalI2cWrite (data : List UInt8) (w : Bus π) : Int × Bus π :=
  if 0x7F < addr7 ∨ data.length = 0 then (odHalI2cEinval, w)
  else if !selectBus decodes cfg busId then (odHalI2cEinval, w)
  else
    let w := bbStart p w
    let (acked, w) := bbWriteByte p (addr7 <<< 1) w
    if !acked then (odHalI2cEnodev, bbStop p w)
    else
      let (acked, w) := bbWriteBytes p data w
      if !acked then (odHalI2cEio, bbStop p w) else (odHalI2cOk, bbStop p w)

def odHalI2cRead (len : Nat) (w : Bus π) : Int × List UInt8 × Bus π :=
  if 0x7F < addr7 ∨ len = 0 then (odHalI2cEinval, [], w)
  else if !selectBus decodes cfg busId then (odHalI2cEinval, [], w)
  else
    let w := bbStart p w
    let (acked, w) := bbWriteByte p (addr7 <<< 1 ||| 1) w
    if !acked then (odHalI2cEnodev, [], bbStop p w)
    else
      let (data, w) := bbReadBytes p len w
      (odHalI2cOk, data, bbStop p w)

/-- A start and no stop between the phases. -/
def odHalI2cWriteRead (tx : List UInt8) (rxLen : Nat) (w : Bus π) : Int × List UInt8 × Bus π :=
  if 0x7F < addr7 ∨ tx.length = 0 ∨ rxLen = 0 then (odHalI2cEinval, [], w)
  else if !selectBus decodes cfg busId then (odHalI2cEinval, [], w)
  else
    let w := bbStart p w
    let (acked, w) := bbWriteByte p (addr7 <<< 1) w
    if !acked then (odHalI2cEnodev, [], bbStop p w)
    else
      let (acked, w) := bbWriteBytes p tx w
      if !acked then (odHalI2cEio, [], bbStop p w)
      else
        let w := bbStart p w
        let (acked, w) := bbWriteByte p (addr7 <<< 1 ||| 1) w
        if !acked then (odHalI2cEnodev, [], bbStop p w)
        else
          let (data, w) := bbReadBytes p rxLen w
          (odHalI2cOk, data, bbStop p w)

def odHalI2cCall (w : Bus π) : I2cOp → Int × List UInt8 × Bus π
  | .probe => ((odHalI2cProbe p decodes cfg busId addr7 w).1, [], (odHalI2cProbe p decodes cfg busId addr7 w).2)
  | .write data =>
    ((odHalI2cWrite p decodes cfg busId addr7 data w).1, [], (odHalI2cWrite p decodes cfg busId addr7 data w).2)
  | .read len => odHalI2cRead p decodes cfg busId addr7 len w
  | .writeRead tx rxLen => odHalI2cWriteRead p decodes cfg busId addr7 tx rxLen w

end Hal

section Lines

variable {δ : Type*} {d : Device δ} {t : Target δ} {scl sda bit : Bool} {us : Nat}

theorem hold_zero (h : t.hold = 0) : ({ t with hold := 0 } : Target δ) = t := Target.ext rfl rfl rfl h.symm

theorem wait_still (h : t.hold = 0) : (⟨scl, sda, t⟩ : Bus (Target δ)).wait d.peer us = ⟨scl, sda, t⟩ := by
  cases scl with
  | false =>
    rw [wait_low, h, Nat.zero_sub]
    exact congrArg (Bus.mk false sda) (hold_zero h)
  | true => exact wait_high h

theorem setSda_low {sda' : Bool} : setSda d.peer ⟨false, sda, t⟩ sda' = ⟨false, sda', t⟩ := drive_low

theorem setScl_rise (h : t.hold = 0) : (setScl d.peer ⟨false, sda, t⟩ true).wait d.peer us =
    ⟨true, sda, t.rise (sda && !t.pull)⟩ := by
  have hrise : setScl d.peer ⟨false, sda, t⟩ true = ⟨true, sda, t.rise (sda && !t.pull)⟩ := drive_rise h
  rw [hrise]
  exact wait_high (Target.rise_hold.trans h)

theorem setScl_fall (h : t.hold = 0) : setScl d.peer ⟨true, sda, t.rise bit⟩ false = ⟨false, sda, t.tick d bit⟩ := by
  have hfall : setScl d.peer ⟨true, sda, t.rise bit⟩ false = ⟨false, sda, (t.rise bit).fall d⟩ :=
    drive_fall (Target.rise_hold.trans h)
  rw [hfall, Target.tick, hold_zero h]

theorem lines_risen : ((⟨true, sda, t.rise bit⟩ : Bus (Target δ)).lines d.peer).sda = (sda && !t.pull) := by
  simp [Bus.lines, Device.peer]

end Lines

section Bytes

variable {δ : Type*} {d : Device δ} {t : Target δ} {device : δ} {sda address : Bool} {pre : List Bool}

theorem bbWriteBits_step (n : Nat) (byte : UInt8) (h : t.hold = 0) (hpull : t.pull = false) :
    bbWriteBits d.peer (n + 1) byte ⟨false, sda, t⟩ =
      bbWriteBits d.peer n (byte <<< 1) ⟨false, byte &&& 0x80 ≠ 0, t.tick d (byte &&& 0x80 ≠ 0)⟩ := by
  have hset : (if byte &&& 0x80 ≠ 0 then setSda d.peer ⟨false, sda, t⟩ true else setSda d.peer ⟨false, sda, t⟩ false) =
      ⟨false, byte &&& 0x80 ≠ 0, t⟩ := by
    by_cases hbit : byte &&& 0x80 ≠ 0
    · rw [if_pos hbit, decide_eq_true hbit]
      exact setSda_low
    · rw [if_neg hbit, decide_eq_false hbit]
      exact setSda_low
  simp only [bbWriteBits, hset, wait_still h, setScl_rise h, setScl_fall h, hpull, Bool.not_false, Bool.and_true]

theorem bbWriteBits_take (n : Nat) (byte : UInt8) (sda : Bool) (hd : ∀ device phase, d.hold device phase = 0)
    (h : t.hold = 0)
    (hp : t.phase = .take address pre) (hpull : t.pull = false) (hn : pre.length + (n + 1) = 8) :
    ∃ sda', bbWriteBits d.peer (n + 1) byte ⟨false, sda, t⟩ =
      ⟨false, sda', t.took d address (byteOf (pre ++ msbBits (n + 1) byte))⟩ := by
  induction n generalizing pre byte t sda with
  | zero =>
    refine ⟨decide (byte &&& 0x80 ≠ 0), ?_⟩
    rw [bbWriteBits_step 0 byte h hpull, Target.tick_last hp (by omega)]
    rfl
  | succ n ih =>
    have hmore := Target.tick_more (d := d) (decide (byte &&& 0x80 ≠ 0)) hp (by omega)
    rw [bbWriteBits_step (n + 1) byte h hpull, hmore]
    obtain ⟨sda', hrest⟩ := ih (byte <<< 1) (decide (byte &&& 0x80 ≠ 0))
      (t := { t with
        phase := .take address (pre ++ [decide (byte &&& 0x80 ≠ 0)])
        hold := d.hold t.device (.take address (pre ++ [decide (byte &&& 0x80 ≠ 0)])) })
      (hd t.device _) rfl hpull (by rw [List.length_append]; simp only [List.length_singleton]; omega)
    refine ⟨sda', hrest.trans ?_⟩
    rw [List.append_assoc]
    rfl

/-- The acknowledgement is read, and the data line is held low after it. -/
theorem bbWriteByte_take (address sda : Bool) (hd : ∀ device phase, d.hold device phase = 0) (h : t.hold = 0)
    (hp : t.phase = .take address []) (hpull : t.pull = false) (byte : UInt8) :
    bbWriteByte d.peer byte ⟨false, sda, t⟩ = ((d.take address t.device byte).1, ⟨false, false,
      if (d.take address t.device byte).1 then
        if address && byte &&& 1 ≠ 0 then Target.loaded d (d.take address t.device byte).2
        else Target.taking d (d.take address t.device byte).2
      else Target.out d (d.take address t.device byte).2⟩) := by
  obtain ⟨sda', hbits⟩ := bbWriteBits_take 7 byte sda hd h hp hpull rfl
  rw [List.nil_append, byteOf_msbBits] at hbits
  have hhold : (t.took d address byte).hold = 0 := hd _ _
  simp only [bbWriteByte, hbits, setSda_low, wait_still hhold, setScl_rise hhold, setScl_fall hhold, lines_risen,
    Bool.true_and, Bool.not_not, Target.tick_took]
  rfl

theorem bbReadBits_step (n : Nat) (value : UInt8) (h : t.hold = 0) {t' : Target δ} (htick : t.tick d (!t.pull) = t')
    (h' : t'.hold = 0) :
    bbReadBits d.peer (n + 1) value ⟨false, true, t⟩ =
      bbReadBits d.peer n (shiftIn value (!t.pull)) ⟨false, true, t'⟩ := by
  subst htick
  simp only [bbReadBits, setScl_rise h, setScl_fall h, lines_risen, Bool.true_and, wait_still h']
  rfl

theorem bbReadBits_send {n : Nat} {value v : UInt8} (hd : ∀ device phase, d.hold device phase = 0) (h : t.hold = 0)
    (hp : t.phase = .send (msbBits n (v <<< 1))) (hpull : (!t.pull) = decide (v &&& 0x80 ≠ 0)) :
    bbReadBits d.peer (n + 1) value ⟨false, true, t⟩ =
      ((msbBits (n + 1) v).foldl shiftIn value, ⟨false, true, Target.answered d t.device⟩) := by
  induction n generalizing v value t with
  | zero =>
    rw [bbReadBits_step 0 value h (Target.tick_sent_last hp) (hd t.device _), hpull]
    rfl
  | succ n ih =>
    rw [msbBits] at hp
    rw [bbReadBits_step (n + 1) value h (Target.tick_send hp) (hd t.device _), hpull]
    exact ih (v := v <<< 1) (hd t.device _) rfl (Bool.not_not _)

/-- A byte is read, and with its acknowledgement the next one is out. -/
theorem bbReadByte_loaded (hd : ∀ device phase, d.hold device phase = 0) (device : δ) (ack : Bool) :
    bbReadByte d.peer ack ⟨false, sda, Target.loaded d device⟩ = ((d.send device).1,
      ⟨false, true, if ack then Target.loaded d (d.send device).2 else Target.out d (d.send device).2⟩) := by
  have hpull : (!(Target.loaded d device).pull) = decide ((d.send device).1 &&& 0x80 ≠ 0) := by
    simp [Target.loaded]
  have hbits : bbReadBits d.peer 8 0 ⟨false, true, Target.loaded d device⟩ =
      ((d.send device).1, ⟨false, true, Target.answered d (d.send device).2⟩) := by
    rw [bbReadBits_send (n := 7) hd (hd _ _) rfl hpull]
    exact congrArg (fun v => (v, _)) (byteOf_msbBits _)
  have hset : (if ack then ⟨false, false, Target.answered d (d.send device).2⟩
      else ⟨false, true, Target.answered d (d.send device).2⟩ : Bus (Target δ)) =
      ⟨false, !ack, Target.answered d (d.send device).2⟩ := by
    cases ack <;> rfl
  have hhold : (Target.answered d (d.send device).2).hold = 0 := hd _ _
  simp only [bbReadByte, setSda_low, hbits, hset, wait_still hhold, setScl_rise hhold, setScl_fall hhold,
    Target.tick_answered]
  cases ack <;> rfl

end Bytes

section Ends

variable {δ : Type*} {d : Device δ} {t : Target δ} {device : δ} {sda : Bool}

theorem bbStart_high (h : t.hold = 0) (hpull : t.pull = false) :
    setScl d.peer ((setSda d.peer ⟨true, true, t⟩ false).wait d.peer 2) false =
      ⟨false, false, Target.addressing d t.device⟩ := by
  have hstart : setSda d.peer ⟨true, true, t⟩ false = ⟨true, false, { t with phase := .take true [] }⟩ :=
    drive_start h hpull
  have hdelay : (⟨true, false, { t with phase := .take true [] }⟩ : Bus (Target δ)).wait d.peer 2 =
      ⟨true, false, { t with phase := .take true [] }⟩ := wait_high h
  have hlow : setScl d.peer ⟨true, false, { t with phase := .take true [] }⟩ false =
      ⟨false, false, ({ t with phase := .take true [] } : Target δ).fall d⟩ := drive_fall h
  rw [hstart, hdelay, hlow]
  simp [Target.fall, Target.shift, Target.addressing, hpull]

/-- A transaction begins on an idle bus, or with the clock low and the target waiting. -/
theorem bbStart_startable {w : Bus (Target δ)} (hd : ∀ device phase, d.hold device phase = 0)
    (hw : Startable d w device) : bbStart d.peer w = ⟨false, false, Target.addressing d device⟩ := by
  rcases hw with rfl | ⟨sda, rfl⟩
  · have hsda : setSda d.peer (idleBus device) true = idleBus device := drive_same
    have hscl : setScl d.peer (idleBus device) true = idleBus device := drive_same
    have hdelay : (idleBus device).wait d.peer 2 = idleBus device := wait_high rfl
    simp only [bbStart, hsda, hscl, hdelay]
    exact bbStart_high (t := { phase := .idle, device }) rfl rfl
  · have hhold : (Target.taking d device).hold = 0 := hd device _
    simp only [bbStart, setSda_low, setScl_rise hhold]
    exact bbStart_high (Target.rise_hold.trans hhold) Target.rise_pull

theorem bbStop_low (h : t.hold = 0) (hpull : t.pull = false) :
    bbStop d.peer ⟨false, sda, t⟩ = idleBus (d.stop t.device) := by
  have hrise : setSda d.peer ⟨true, false, t.rise (false && !t.pull)⟩ true = idleBus (d.stop t.device) := by
    refine (drive_stop (Target.rise_hold.trans h) (Target.rise_pull.trans hpull)).trans ?_
    rw [idleBus]
    congr 1
    exact Target.ext rfl (congrArg d.stop Target.rise_device) (Target.rise_pull.trans hpull) (Target.rise_hold.trans h)
  simp only [bbStop, setSda_low, wait_still h, setScl_rise h, hrise]
  exact wait_high rfl

theorem bbStop_out (hd : ∀ device phase, d.hold device phase = 0) :
    bbStop d.peer ⟨false, sda, Target.out d device⟩ = idleBus (d.stop device) :=
  bbStop_low (d := d) (t := Target.out d device) (hd device _) rfl

theorem bbStop_taking (hd : ∀ device phase, d.hold device phase = 0) :
    bbStop d.peer ⟨false, sda, Target.taking d device⟩ = idleBus (d.stop device) :=
  bbStop_low (d := d) (t := Target.taking d device) (hd device _) rfl

end Ends

section Transfers

variable {δ : Type*} {d : Device δ} {sda : Bool}

theorem bbWriteBytes_taking (sda : Bool) (hd : ∀ device phase, d.hold device phase = 0) (device : δ)
    (data : List UInt8) :
    ∃ sda', bbWriteBytes d.peer data ⟨false, sda, Target.taking d device⟩ = ((d.write device data).1,
      ⟨false, sda', if (d.write device data).1 then Target.taking d (d.write device data).2
        else Target.out d (d.write device data).2⟩) := by
  induction data generalizing device sda with
  | nil => exact ⟨sda, rfl⟩
  | cons byte data ih =>
    have hbyte := bbWriteByte_take (t := Target.taking d device) false sda hd (hd device _) rfl rfl byte
    have htake : d.take false (Target.taking d device).device byte = d.receive device byte := rfl
    rw [htake] at hbyte
    rcases hreceive : d.receive device byte with ⟨_ | _, device'⟩ <;>
      simp only [hreceive, Bool.false_and, Bool.false_eq_true, if_true, if_false] at hbyte
    · simp only [bbWriteBytes, hbyte, Device.write, hreceive, Bool.false_eq_true, if_false]
      exact ⟨false, rfl⟩
    · simp only [bbWriteBytes, hbyte, Device.write, hreceive, if_true]
      exact ih false device'

theorem bbReadBytes_loaded (hd : ∀ device phase, d.hold device phase = 0) (device : δ) (n : Nat) :
    bbReadBytes d.peer (n + 1) ⟨false, sda, Target.loaded d device⟩ =
      ((d.read device (n + 1)).1, ⟨false, true, Target.out d (d.read device (n + 1)).2⟩) := by
  induction n generalizing device sda with
  | zero =>
    rw [bbReadBytes, bbReadByte_loaded hd]
    rfl
  | succ n ih =>
    rw [bbReadBytes, bbReadByte_loaded hd]
    simp only [Nat.zero_lt_succ, decide_true, if_true, ih]
    rfl

theorem bbWriteByte_address (hd : ∀ device phase, d.hold device phase = 0) (device : δ) (v : UInt8) :
    bbWriteByte d.peer v ⟨false, false, Target.addressing d device⟩ =
      match d.start device v with
      | none => (false, ⟨false, false, Target.out d device⟩)
      | some device' =>
        (true, ⟨false, false, if v &&& 1 ≠ 0 then Target.loaded d device' else Target.taking d device'⟩) := by
  have htake : d.take true (Target.addressing d device).device v =
      match d.start device v with
      | none => (false, device)
      | some device' => (true, device') := rfl
  rw [bbWriteByte_take true false hd (hd device _) rfl rfl v, htake]
  cases d.start device v with
  | none => rfl
  | some device' => simp

/-- A start, an address and bytes that are written. -/
def bbWriting {π : Type*} (p : Peer π) (addr7 : UInt8) (data : List UInt8) (w : Bus π) : Outcome × Bus π :=
  let (acked, w) := bbWriteByte p (addr7 <<< 1) (bbStart p w)
  if !acked then (.absent, w)
  else
    let (acked, w) := bbWriteBytes p data w
    (if acked then .done else .refused, w)

/-- A start, an address and bytes that are read. -/
def bbReading {π : Type*} (p : Peer π) (addr7 : UInt8) (len : Nat) (w : Bus π) : Outcome × List UInt8 × Bus π :=
  let (acked, w) := bbWriteByte p (addr7 <<< 1 ||| 1) (bbStart p w)
  if !acked then (.absent, [], w)
  else
    let (data, w) := bbReadBytes p len w
    (.done, data, w)

/-- After a write the target waits for more, or is out. -/
theorem bbWriting_startable {w : Bus (Target δ)} {device : δ} (hd : ∀ device phase, d.hold device phase = 0)
    (hw : Startable d w device) (addr7 : UInt8) (data : List UInt8) :
    (bbWriting d.peer addr7 data w).1 = (d.writing device addr7 data).1 ∧
      bbStop d.peer (bbWriting d.peer addr7 data w).2 = idleBus (d.stop (d.writing device addr7 data).2) ∧
      ((d.writing device addr7 data).1 = .done →
        Startable d (bbWriting d.peer addr7 data w).2 (d.writing device addr7 data).2) := by
  have heven := writeAddress_even addr7
  rw [UInt8.or_zero] at heven
  have hbyte := bbWriteByte_address hd device (addr7 <<< 1)
  simp only [bbWriting, bbStart_startable hd hw, Device.writing]
  rcases hstart : d.start device (addr7 <<< 1) with _ | device' <;> rw [hstart] at hbyte
  · simp only [hbyte, Bool.not_false, if_true, bbStop_out hd]
    exact ⟨trivial, trivial, fun h => absurd h (by decide)⟩
  obtain ⟨sda', hbytes⟩ := bbWriteBytes_taking false hd device' data
  rcases hwrite : d.write device' data with ⟨_ | _, device''⟩ <;>
    simp only [hwrite, Bool.false_eq_true, if_true, if_false] at hbytes
  · simp only [hbyte, heven, hwrite, ne_eq, not_true, if_false, Bool.not_true, Bool.false_eq_true, hbytes,
      bbStop_out hd]
    exact ⟨trivial, trivial, fun h => absurd h (by decide)⟩
  · simp only [hbyte, heven, hwrite, ne_eq, not_true, if_false, Bool.not_true, Bool.false_eq_true, if_true, hbytes,
      bbStop_taking hd]
    exact ⟨trivial, trivial, fun _ => .inr ⟨sda', rfl⟩⟩

theorem bbReading_startable {w : Bus (Target δ)} {device : δ} (hd : ∀ device phase, d.hold device phase = 0)
    (hw : Startable d w device) (addr7 : UInt8) (n : Nat) :
    (bbReading d.peer addr7 (n + 1) w).1 = (d.reading device addr7 (n + 1)).1 ∧
      (bbReading d.peer addr7 (n + 1) w).2.1 = (d.reading device addr7 (n + 1)).2.1 ∧
      bbStop d.peer (bbReading d.peer addr7 (n + 1) w).2.2 = idleBus (d.stop (d.reading device addr7 (n + 1)).2.2) := by
  have hbyte := bbWriteByte_address hd device (addr7 <<< 1 ||| 1)
  simp only [bbReading, bbStart_startable hd hw, Device.reading]
  rcases hstart : d.start device (addr7 <<< 1 ||| 1) with _ | device' <;> rw [hstart] at hbyte
  · simp only [hbyte, Bool.not_false, if_true, bbStop_out hd]
    exact ⟨trivial, trivial, trivial⟩
  · simp only [if_pos (readAddress_odd addr7)] at hbyte
    simp only [hbyte, Bool.not_true, Bool.false_eq_true, if_false, bbReadBytes_loaded hd, bbStop_out hd]
    exact ⟨trivial, trivial, trivial⟩

end Transfers

section Calls

variable {π : Type*} {p : Peer π} {decodes : UInt8 → Bool} {cfg : Option (List I2cDataBus)}
  {busId addr7 : UInt8} {w : Bus π}

/-- The checks of the arguments are the same as the other engine's. -/
theorem odHalI2cCall_refused (op : I2cOp) (h : (selectBus decodes cfg busId && op.Valid addr7) = false) :
    odHalI2cCall p decodes cfg busId addr7 w op = (odHalI2cEinval, [], w) := by
  cases hselect : selectBus decodes cfg busId with
  | false =>
    cases op <;> simp [odHalI2cCall, odHalI2cProbe, odHalI2cWrite, odHalI2cRead, odHalI2cWriteRead, hselect]
  | true =>
    rw [hselect, Bool.true_and] at h
    cases op with
    | probe =>
      have hbad : 0x7F < addr7 := UInt8.not_le.mp (of_decide_eq_false h)
      simp only [odHalI2cCall, odHalI2cProbe, if_pos hbad]
    | write data =>
      have hbad : 0x7F < addr7 ∨ data.length = 0 := argsOk_false h
      simp only [odHalI2cCall, odHalI2cWrite, if_pos hbad]
    | read len =>
      have hbad : 0x7F < addr7 ∨ len = 0 := argsOk_false h
      simp only [odHalI2cCall, odHalI2cRead, if_pos hbad]
    | writeRead tx rxLen =>
      have hbad : 0x7F < addr7 ∨ tx.length = 0 ∨ rxLen = 0 := by
        rcases Bool.and_eq_false_iff.mp h with h | h
        · exact (argsOk_false h).imp_right .inl
        · exact (argsOk_false h).imp_right .inr
      simp only [odHalI2cCall, odHalI2cWriteRead, if_pos hbad]

/-- What an accepted call does on the lines. -/
def bbCall (p : Peer π) (addr7 : UInt8) (w : Bus π) : I2cOp → Int × List UInt8 × Bus π
  | .probe => (outcomeStatus (bbWriting p addr7 [] w).1, [], bbStop p (bbWriting p addr7 [] w).2)
  | .write data => (outcomeStatus (bbWriting p addr7 data w).1, [], bbStop p (bbWriting p addr7 data w).2)
  | .read len => (outcomeStatus (bbReading p addr7 len w).1, (bbReading p addr7 len w).2.1,
      bbStop p (bbReading p addr7 len w).2.2)
  | .writeRead tx rxLen =>
    let (o, w) := bbWriting p addr7 tx w
    if o = .done then (outcomeStatus (bbReading p addr7 rxLen w).1, (bbReading p addr7 rxLen w).2.1,
      bbStop p (bbReading p addr7 rxLen w).2.2)
    else (outcomeStatus o, [], bbStop p w)

theorem odHalI2cCall_accepted (op : I2cOp) (h : (selectBus decodes cfg busId && op.Valid addr7) = true) :
    odHalI2cCall p decodes cfg busId addr7 w op = bbCall p addr7 w op := by
  obtain ⟨hselect, hvalid⟩ := Bool.and_eq_true_iff.mp h
  cases op with
  | probe =>
    have hgood : ¬ 0x7F < addr7 := UInt8.not_lt.mpr (of_decide_eq_true hvalid)
    simp only [odHalI2cCall, odHalI2cProbe, if_neg hgood, hselect, bbCall, bbWriting]
    rcases bbWriteByte p (addr7 <<< 1) (bbStart p w) with ⟨_ | _, w₁⟩ <;> rfl
  | write data =>
    have hgood : ¬ (0x7F < addr7 ∨ data.length = 0) := argsOk_true hvalid
    simp only [odHalI2cCall, odHalI2cWrite, if_neg hgood, hselect, bbCall, bbWriting]
    rcases bbWriteByte p (addr7 <<< 1) (bbStart p w) with ⟨_ | _, w₁⟩
    · rfl
    rcases bbWriteBytes p data w₁ with ⟨_ | _, w₂⟩ <;> simp [outcomeStatus]
  | read len =>
    have hgood : ¬ (0x7F < addr7 ∨ len = 0) := argsOk_true hvalid
    simp only [odHalI2cCall, odHalI2cRead, if_neg hgood, hselect, bbCall, bbReading]
    rcases bbWriteByte p (addr7 <<< 1 ||| 1) (bbStart p w) with ⟨_ | _, w₁⟩ <;> rfl
  | writeRead tx rxLen =>
    obtain ⟨htx, hrx⟩ := Bool.and_eq_true_iff.mp hvalid
    have hgood : ¬ (0x7F < addr7 ∨ tx.length = 0 ∨ rxLen = 0) := by
      rintro (hbad | hbad | hbad)
      · exact argsOk_true htx (.inl hbad)
      · exact argsOk_true htx (.inr hbad)
      · exact argsOk_true hrx (.inr hbad)
    simp only [odHalI2cCall, odHalI2cWriteRead, if_neg hgood, hselect, bbCall, bbWriting]
    rcases bbWriteByte p (addr7 <<< 1) (bbStart p w) with ⟨_ | _, w₁⟩
    · rfl
    rcases bbWriteBytes p tx w₁ with ⟨_ | _, w₂⟩
    · simp [outcomeStatus]
    · simp only [Bool.not_true, Bool.false_eq_true, if_false, if_true, bbReading]
      rcases bbWriteByte p (addr7 <<< 1 ||| 1) (bbStart p w₂) with ⟨_ | _, w₃⟩ <;> rfl

/-- A call is its transaction, when the target does not stretch the clock. -/
theorem odHalI2cCall_idle {δ : Type*} {d : Device δ} (hd : ∀ device phase, d.hold device phase = 0) (device : δ)
    (op : I2cOp) : odHalI2cCall d.peer decodes cfg busId addr7 (idleBus device) op =
      ((halCall d (selectBus decodes cfg busId) device addr7 op).1,
        (halCall d (selectBus decodes cfg busId) device addr7 op).2.1,
        idleBus (halCall d (selectBus decodes cfg busId) device addr7 op).2.2) := by
  have hidle : Startable d (idleBus device) device := .inl rfl
  rw [halCall]
  cases h : selectBus decodes cfg busId && op.Valid addr7 with
  | false => exact odHalI2cCall_refused op h
  | true =>
    rw [odHalI2cCall_accepted op h, if_pos rfl]
    cases op with
    | probe =>
      obtain ⟨hout, hstop, -⟩ := bbWriting_startable hd hidle addr7 []
      simp only [bbCall, transact, hout, hstop]
    | write data =>
      obtain ⟨hout, hstop, -⟩ := bbWriting_startable hd hidle addr7 data
      simp only [bbCall, transact, hout, hstop]
    | read len =>
      obtain ⟨n, rfl⟩ : ∃ n, len = n + 1 :=
        Nat.exists_eq_succ_of_ne_zero (argsOk_ne_zero (Bool.and_eq_true_iff.mp h).2)
      obtain ⟨hout, hdata, hstop⟩ := bbReading_startable hd hidle addr7 n
      simp only [bbCall, transact, hout, hdata, hstop]
    | writeRead tx rxLen =>
      obtain ⟨n, rfl⟩ : ∃ n, rxLen = n + 1 :=
        Nat.exists_eq_succ_of_ne_zero (argsOk_ne_zero (Bool.and_eq_true_iff.mp (Bool.and_eq_true_iff.mp h).2).2)
      obtain ⟨hout, hstop, hkept⟩ := bbWriting_startable hd hidle addr7 tx
      simp only [bbCall, transact, hout]
      by_cases hdone : (d.writing device addr7 tx).1 = .done
      · obtain ⟨hread, hdata, hstop⟩ := bbReading_startable hd (hkept hdone) addr7 n
        simp only [if_pos hdone, hread, hdata, hstop]
      · simp only [if_neg hdone, hstop]

end Calls

section Runs

variable {δ : Type*}

def odHalI2cRun {π : Type*} (p : Peer π) (decodes : UInt8 → Bool) (cfg : Option (List I2cDataBus)) (busId : UInt8) :
    Bus π → List (UInt8 × I2cOp) → List (Int × List UInt8) × Bus π
  | w, [] => ([], w)
  | w, (addr7, op) :: calls =>
    let (rc, data, w) := odHalI2cCall p decodes cfg busId addr7 w op
    let (answers, w) := odHalI2cRun p decodes cfg busId w calls
    ((rc, data) :: answers, w)

/-- Over every run of calls this engine too is the transactions, with a target that leaves the
clock alone. -/
theorem bbRun_transacts (d : Device δ) (hd : ∀ device phase, d.hold device phase = 0) (decodes : UInt8 → Bool)
    (cfg : Option (List I2cDataBus)) (busId : UInt8) (device : δ) (calls : List (UInt8 × I2cOp)) :
    odHalI2cRun d.peer decodes cfg busId (idleBus device) calls =
      ((halCalls d (selectBus decodes cfg busId) device calls).1,
        idleBus (halCalls d (selectBus decodes cfg busId) device calls).2) := by
  induction calls generalizing device with
  | nil => rfl
  | cons call calls ih =>
    obtain ⟨addr7, op⟩ := call
    rw [odHalI2cRun, odHalI2cCall_idle hd]
    simp only [ih]
    rfl

/-- The same memory, in no hurry. -/
def promptDevice : Device (UInt8 × List UInt8) := { memoryDevice with hold := fun _ _ => 0 }

theorem bbRun_transacts_prompt :
    (odHalI2cRun promptDevice.peer (fun _ => true)
      (some [{ instanceNumber := 0, pin1 := 1, pin2 := 2, busSpeedHz := 0 }]) 0
      (idleBus (0, [7, 8, 9, 10])) [(0x28, .writeRead [2] 2), (0x29, .probe)]).1 = [(0, [9, 10]), (-2, [])] := by
  rw [bbRun_transacts promptDevice (fun _ _ => rfl)]
  decide

end Runs

end Bg22

end OpenDisplay
