import OpenDisplay.Lib.Program
import OpenDisplay.Lib.Trace
import OpenDisplay.Touch.Model

/-! What the driver records of its interrupt handlers. A record and a handler come and go
together, as long as no attach is made on a pin that another controller has recorded. -/

namespace OpenDisplay

open Programs Traces

variable {env : TouchEnv}

section Rules

/-- A controller that takes itself for attached has its handler on the pin it recorded, and a pin
with a handler is recorded by a controller. -/
structure InterruptsOk (s : Touch) : Prop where
  attached : ∀ i, (s.rt i).intAttached → s.isr (s.rt i).intPinAttached = some i
  recorded : ∀ pin i, s.isr pin = some i → ∃ j, (s.rt j).intPinAttached = pin

/-- The controllers of a configuration have interrupt pins of their own, if any. -/
def PinsDistinct (cfg : Option TouchConfig) : Prop :=
  ∀ i j, i ≠ j → ∀ t ∈ touchCfg cfg i, ∀ u ∈ touchCfg cfg j, t.intPin = u.intPin → t.intPin = 0xFF

/-- Besides, a call that establishes the controllers again attaches on no pin that another
controller has recorded. -/
def TouchCallOk (env : TouchEnv) (s : Touch) : TouchCall → Prop
  | .init cfg _ | .service cfg _ _ => PinsDistinct cfg
  | .suspend => True
  | .resume cfg nowMs => PinsDistinct cfg ∧ (touchStep env s (.resume cfg nowMs)).taken = false
  | .reestablish cfg nowMs => PinsDistinct cfg ∧ (touchStep env s (.reestablish cfg nowMs)).taken = false
  | .forceResume cfg nowMs => PinsDistinct cfg ∧ (touchStep env s (.forceResume cfg nowMs)).taken = false

end Rules

section Frame

variable {s s' : Touch} {I : Touch → Prop} {i j : Fin 4} {t : TouchController}

/-- Nothing is attached or detached: at most, a controller stops taking itself for attached. -/
structure SameRecords (s s' : Touch) : Prop where
  isr : s'.isr = s.isr
  taken : s'.taken = s.taken
  pin : ∀ i, (s'.rt i).intPinAttached = (s.rt i).intPinAttached
  attached : ∀ i, (s'.rt i).intAttached → (s.rt i).intAttached

/-- What only depends on the handlers and their records. -/
def Framed (I : Touch → Prop) : Prop := ∀ s s', SameRecords s s' → I s → I s'

theorem Framed.setRt (h : Framed I) {f : TouchRuntime → TouchRuntime}
    (hpin : ∀ rt, (f rt).intPinAttached = rt.intPinAttached)
    (hattached : ∀ rt, (f rt).intAttached → rt.intAttached) : Preserves I (setRt i f) := by
  refine .modify fun s hs => h s _ ⟨rfl, rfl, fun j => ?_, fun j => ?_⟩ hs
  · by_cases hj : j = i
    · subst hj
      simp only [Function.update_self, hpin]
    · simp only [Function.update_of_ne hj]
  · by_cases hj : j = i
    · subst hj
      simp only [Function.update_self]
      exact hattached _
    · simp only [Function.update_of_ne hj]
      exact fun ha => ha

theorem Framed.getRt : Preserves I (getRt i) := Preserves.get.bind fun _ => .pure _

theorem Framed.seamCall (h : Framed I) : Preserves I seamCall :=
  .modifyGet fun s hs => h s _ ⟨rfl, rfl, fun _ => rfl, fun _ ha => ha⟩ hs

theorem Framed.i2c (h : Framed I) {busId addr7 : UInt8} {tx : List UInt8} {rxLen : Nat} :
    Preserves I (odHalI2c env busId addr7 tx rxLen) :=
  h.seamCall.bind fun _ => .pure _

theorem Framed.busPrepare (h : Framed I) {busId : UInt8} : Preserves I (odTouchAppBusPrepare env busId) :=
  h.seamCall.bind fun _ => .pure _

theorem Framed.gpioRead (h : Framed I) {pin : UInt8} : Preserves I (odTouchAppGpioRead env pin) :=
  h.seamCall.bind fun _ => .pure _

theorem Framed.msdWrite (h : Framed I) {index value : UInt8} : Preserves I (odTouchAppMsdWrite index value) :=
  .modify fun s hs => h s _ ⟨rfl, rfl, fun _ => rfl, fun _ ha => ha⟩ hs

theorem Framed.readOnce (h : Framed I) {busId addr7 : UInt8} {reg : UInt16} {len : Nat}
    {highFirst repeatedStart : Bool} :
    Preserves I (gt911ReadOnce env busId addr7 reg len highFirst repeatedStart) := by
  refine .ite (fun _ => h.i2c) fun _ => h.i2c.bind fun r => ?_
  cases r with
  | none => exact .pure _
  | some _ => exact h.i2c

theorem Framed.read (h : Framed I) {busId addr7 : UInt8} {reg : UInt16} {len : Nat} {highFirst : Bool} :
    Preserves I (gt911Read env busId addr7 reg len highFirst) := by
  unfold gt911Read
  generalize gt911I2cRetries = attempts
  induction attempts with
  | zero => exact .pure _
  | succ attempts ih =>
    refine h.readOnce.bind fun r => ?_
    cases r with
    | some buf => exact .pure _
    | none =>
      refine h.readOnce.bind fun r => ?_
      cases r with
      | some buf => exact .pure _
      | none => exact ih

theorem Framed.clearStatus (h : Framed I) {rt : TouchRuntime} : Preserves I (gt911ClearStatus env rt) := by
  refine Preserves.bind ?_ fun _ => .pure _
  refine .ite (fun _ => .pure _) fun _ => ?_
  generalize gt911I2cRetries = attempts
  induction attempts with
  | zero => exact .pure _
  | succ attempts ih =>
    refine h.i2c.bind fun r => ?_
    cases r with
    | some _ => exact .pure _
    | none => exact ih

theorem Framed.probe (h : Framed I) {busId addr7 : UInt8} : Preserves I (gt911Probe env busId addr7) := by
  refine h.read.bind fun id => .ite (fun _ => .pure _) fun _ => ?_
  exact h.read.bind fun id => .ite (fun _ => .pure _) fun _ => .pure _

theorem Framed.probeAt (h : Framed I) {i : Fin 4} {addr7 : UInt8} : Preserves I (gt911ProbeAt env i addr7) := by
  refine Framed.getRt.bind fun rt => h.probe.bind fun r => ?_
  cases r with
  | some highFirst =>
    refine Preserves.bind (h.setRt ?_ ?_) fun _ => .pure _
    · exact fun _ => rfl
    · exact fun _ ha => ha
  | none => exact .pure _

theorem Framed.hwReset (h : Framed I) {i : Fin 4} {t : TouchController} : Preserves I (gt911HwReset i t) :=
  .ite (fun _ => .pure _) fun _ => h.setRt (fun _ => rfl) fun _ ha => by cases ha

theorem Framed.intWake (h : Framed I) {i : Fin 4} {t : TouchController} : Preserves I (gt911IntWake i t) :=
  .ite (fun _ => .pure _) fun _ => h.setRt (fun _ => rfl) fun _ ha => by cases ha

theorem Framed.resolve (h : Framed I) {i : Fin 4} {t : TouchController} : Preserves I (gt911Resolve env i t) := by
  refine .ite (fun _ => ?_) fun _ => ?_
  · refine h.hwReset.bind fun _ => h.probeAt.bind fun found => ?_
    exact .ite (fun _ => .pure _) fun _ => .pure _
  · refine h.hwReset.bind fun _ => h.probeAt.bind fun found => .ite (fun _ => .pure _) fun _ => ?_
    refine h.hwReset.bind fun _ => h.probeAt.bind fun found => ?_
    exact .ite (fun _ => .pure _) fun _ => .pure _

theorem Framed.wakeAndAttach (h : Framed I) (hattach : Preserves I (touchAttachInt env i t)) :
    Preserves I (touchWakeAndAttach env i t) :=
  .ite (fun _ => h.intWake.bind fun _ => hattach) fun _ => .pure _

theorem Framed.bringUp (h : Framed I) {cfg : TouchConfig} {nowMs : UInt32}
    (hattach : Preserves I (touchAttachInt env i t)) : Preserves I (touchBringUp env cfg i t nowMs) := by
  refine .ite (fun _ => .pure _) fun _ => .ite (fun _ => .pure _) fun _ => ?_
  refine Preserves.bind (h.setRt (fun _ => rfl) fun _ ha => ha) fun _ => h.busPrepare.bind fun _ => ?_
  refine .ite (fun _ => .pure _) fun _ => h.resolve.bind fun addr => .ite (fun _ => ?_) fun _ => ?_
  · exact Preserves.bind (h.setRt (fun _ => rfl) fun _ ha => ha) fun _ => .pure _
  · refine Preserves.bind (h.setRt (fun _ => rfl) fun _ ha => ha) fun _ => Framed.getRt.bind fun rt => ?_
    exact h.clearStatus.bind fun _ => (h.wakeAndAttach hattach).bind fun _ => h.read.bind fun _ => .pure _

theorem Framed.lightResume (h : Framed I) (hattach : Preserves I (touchAttachInt env i t)) :
    Preserves I (touchLightResume env i t) := by
  refine Framed.getRt.bind fun rt => .ite (fun _ => .pure _) fun _ => h.busPrepare.bind fun _ => ?_
  refine .ite (fun _ => .pure _) fun _ => h.read.bind fun id => .ite (fun _ => .pure _) fun _ => ?_
  refine Preserves.bind (h.setRt (fun _ => rfl) fun _ ha => ha) fun _ => h.clearStatus.bind fun _ => ?_
  exact (h.wakeAndAttach hattach).bind fun _ => .pure _

theorem Framed.packMsd (h : Framed I) {start count trackId : UInt8} {x y : UInt16} {latched : Bool} :
    Preserves I (touchPackMsd start count trackId x y latched) := by
  refine .ite (fun _ => .pure _) fun _ => .ite (fun _ => ?_) fun _ => ?_
  · exact Preserves.bind (.forM fun _ _ => h.msdWrite) fun _ => .pure _
  · exact h.msdWrite.bind fun _ => h.msdWrite.bind fun _ => h.msdWrite.bind fun _ =>
      h.msdWrite.bind fun _ => h.msdWrite

theorem Framed.readFailed (h : Framed I) (hdisable : Preserves I (touchDisable i)) {nowMs : UInt32} {poll : Bool} :
    Preserves I (touchReadFailed i nowMs poll) := by
  refine Preserves.bind (h.setRt (fun _ => rfl) fun _ ha => ha) fun _ => Framed.getRt.bind fun rt => ?_
  exact .ite (fun _ => hdisable.bind fun _ => .pure _) fun _ => .pure _

theorem Framed.lineLow (h : Framed I) {rt : TouchRuntime} {nowMs : UInt32} :
    Preserves I (touchLineLow env rt nowMs) := by
  refine .ite (fun _ => .pure _) fun _ => h.gpioRead.bind fun _ => ?_
  exact .ite (fun _ => .pure _) fun _ => .pure _

theorem Framed.report (h : Framed I) {count trackId : UInt8} {x y : UInt16} :
    Preserves I (touchReport env i t count trackId x y) := by
  refine Framed.getRt.bind fun rt => h.clearStatus.bind fun _ => ?_
  exact Preserves.bind (h.setRt (fun _ => rfl) fun _ ha => ha) fun _ => h.packMsd.bind fun _ => .pure _

theorem Framed.serviceOne (h : Framed I) (hdisable : Preserves I (touchDisable i)) {cfg : TouchConfig}
    {nowMs : UInt32} {edge : Bool} : Preserves I (touchServiceOne env cfg i t nowMs edge) := by
  refine Framed.getRt.bind fun rt => .ite (fun _ => .pure _) fun _ => h.lineLow.bind fun low => ?_
  refine .ite (fun _ => .pure _) fun _ => h.busPrepare.bind fun _ => .ite (fun _ => .pure _) fun _ => ?_
  refine h.read.bind fun status => ?_
  cases status with
  | none => exact h.readFailed hdisable
  | some status =>
    refine Preserves.bind (h.setRt (fun _ => rfl) fun _ ha => ha) fun _ => .ite (fun _ => ?_) fun _ => ?_
    · refine .ite (fun _ => ?_) fun _ => ?_
      · exact Preserves.bind (h.setRt (fun _ => rfl) fun _ ha => ha) fun _ => .pure _
      · exact .pure _
    · refine .ite (fun _ => ?_) fun _ => ?_
      · refine h.clearStatus.bind fun _ => ?_
        exact Preserves.bind (h.setRt (fun _ => rfl) fun _ ha => ha) fun _ => .pure _
      · refine Preserves.bind (h.setRt (fun _ => rfl) fun _ ha => ha) fun _ => .ite (fun _ => ?_) fun _ => h.report
        refine h.read.bind fun point => ?_
        cases point with
        | none => exact h.readFailed hdisable
        | some p =>
          refine Preserves.bind (h.setRt (fun _ => rfl) fun _ ha => ha) fun _ => ?_
          exact h.report

end Frame

section Records

variable {s s' : Touch} {I : Touch → Prop} {i j : Fin 4} {t : TouchController} {pin : UInt8}

/-- A controller has its handler on a pin exactly when the pin is its record. -/
structure PinsRecorded (s : Touch) : Prop where
  installed : ∀ pin i, s.isr pin = some i ↔ pin ≠ 0xFF ∧ (s.rt i).intPinAttached = pin
  attached : ∀ i, (s.rt i).intAttached → (s.rt i).intPinAttached ≠ 0xFF

theorem PinsRecorded.interruptsOk (h : PinsRecorded s) : InterruptsOk s where
  attached i hi := (h.installed _ i).mpr ⟨h.attached i hi, rfl⟩
  recorded pin i hi := ⟨i, ((h.installed pin i).mp hi).2⟩

theorem PinsRecorded.same (h : PinsRecorded s) (hs : SameRecords s s') : PinsRecorded s' where
  installed pin i := by rw [hs.isr, hs.pin, h.installed]
  attached i hi := by
    rw [hs.pin]
    exact h.attached i (hs.attached i hi)

/-- No two controllers record one pin. -/
theorem PinsRecorded.unique (h : PinsRecorded s) (hi : (s.rt i).intPinAttached = pin)
    (hj : (s.rt j).intPinAttached = pin) (hpin : pin ≠ 0xFF) : i = j := by
  have hsi := (h.installed pin i).mpr ⟨hpin, hi⟩
  have hsj := (h.installed pin j).mpr ⟨hpin, hj⟩
  exact Option.some.inj (hsi.symm.trans hsj)

theorem touchDetach_run : ((touchDetach i).run s).2 = { s with
    isr := Function.update s.isr (s.rt i).intPinAttached none
    rt := Function.update s.rt i { s.rt i with intPinAttached := 0xFF, intAttached := false } } := rfl

/-- A step of one controller, which leaves the handlers of the others alone. -/
theorem PinsRecorded.only (h : PinsRecorded s) (i : Fin 4) (hrt : ∀ j, j ≠ i → s'.rt j = s.rt j)
    (hself : ∀ pin, s'.isr pin = some i ↔ pin ≠ 0xFF ∧ (s'.rt i).intPinAttached = pin)
    (hothers : ∀ pin j, j ≠ i → (s'.isr pin = some j ↔ s.isr pin = some j))
    (hattached : (s'.rt i).intAttached → (s'.rt i).intPinAttached ≠ 0xFF) : PinsRecorded s' := by
  refine ⟨fun pin j => ?_, fun j => ?_⟩
  · by_cases hj : j = i
    · subst hj
      exact hself pin
    · rw [hothers pin j hj, hrt j hj]
      exact h.installed pin j
  · by_cases hj : j = i
    · subst hj
      exact hattached
    · rw [hrt j hj]
      exact h.attached j

theorem PinsRecorded.detach (h : PinsRecorded s) (hpin : (s.rt i).intPinAttached ≠ 0xFF) :
    PinsRecorded ((touchDetach i).run s).2 := by
  rw [touchDetach_run]
  refine h.only i (fun j hj => Function.update_of_ne hj _ _) (fun pin => ?_) (fun pin j hj => ?_) ?_
  · simp only [Function.update_self]
    refine iff_of_false (fun he => ?_) fun he => he.1 he.2.symm
    by_cases hp : pin = (s.rt i).intPinAttached
    · rw [hp, Function.update_self] at he
      cases he
    · rw [Function.update_of_ne hp, h.installed] at he
      exact hp he.2.symm
  · dsimp only
    by_cases hp : pin = (s.rt i).intPinAttached
    · rw [hp, Function.update_self, h.installed]
      exact iff_of_false (fun he => by cases he) fun he => hj (h.unique he.2 rfl hpin)
    · rw [Function.update_of_ne hp]
  · simp only [Function.update_self]
    exact fun ha => by cases ha

theorem touchInstall_run : ((touchInstall env i t).run s).2 = { s with
    calls := s.calls + 1
    isr :=
      if env.attachInt s.calls i t.intPin then Function.update s.isr t.intPin (some i)
      else if env.unwinds then Function.update s.isr t.intPin none
      else s.isr
    taken := s.taken || heldByOther s i t.intPin
    rt := Function.update s.rt i { s.rt i with
      intAttached := env.attachInt s.calls i t.intPin || (s.rt i).intAttached
      intPinAttached := if env.attachInt s.calls i t.intPin then t.intPin else 0xFF } } := rfl

theorem not_heldByOther : heldByOther s i pin = false ↔ ∀ j, j ≠ i → (s.rt j).intPinAttached ≠ pin := by
  simp [heldByOther]

/-- An attach on a pin that nobody else has recorded, by a controller without another pin. -/
theorem PinsRecorded.install (h : PinsRecorded s) (hunwinds : env.unwinds) (hpin : t.intPin ≠ 0xFF)
    (hown : (s.rt i).intPinAttached = 0xFF ∨ (s.rt i).intPinAttached = t.intPin)
    (hdetached : (s.rt i).intAttached = false) (hfree : heldByOther s i t.intPin = false) :
    PinsRecorded ((touchInstall env i t).run s).2 := by
  have hothers := not_heldByOther.mp hfree
  have hnone : ∀ pin, pin ≠ t.intPin → s.isr pin ≠ some i := by
    intro pin hp he
    obtain ⟨hff, hrec⟩ := (h.installed pin i).mp he
    rcases hown with hown | hown
    · exact hff (hrec.symm.trans hown)
    · exact hp (hrec.symm.trans hown)
  rw [touchInstall_run]
  simp only [hunwinds, if_true, hdetached, Bool.or_false]
  refine h.only i (fun j hj => Function.update_of_ne hj _ _) (fun pin => ?_) (fun pin j hj => ?_) ?_
  · simp only [Function.update_self]
    by_cases hp : pin = t.intPin
    · subst hp
      split_ifs
      · simp [hpin]
      · simp [Ne.symm hpin]
    · split_ifs
      · rw [Function.update_of_ne hp]
        exact iff_of_false (hnone pin hp) fun he => hp he.2.symm
      · rw [Function.update_of_ne hp]
        exact iff_of_false (hnone pin hp) fun he => he.1 he.2.symm
  · dsimp only
    by_cases hp : pin = t.intPin
    · have hfree' : s.isr pin ≠ some j := fun he => hothers j hj (((h.installed pin j).mp he).2.trans hp)
      refine iff_of_false (fun he => ?_) hfree'
      subst hp
      split_ifs at he
      · rw [Function.update_self] at he
        exact hj (Option.some.inj he).symm
      · rw [Function.update_self] at he
        cases he
    · split_ifs
      · rw [Function.update_of_ne hp]
      · rw [Function.update_of_ne hp]
  · simp only [Function.update_self]
    intro ha
    rw [if_pos ha]
    exact hpin

theorem touchDetachStale_run : ((touchDetachStale i t).run s).2 =
    if (s.rt i).intPinAttached ≠ 0xFF ∧ (s.rt i).intPinAttached ≠ t.intPin then ((touchDetach i).run s).2 else s := by
  have hrun : (touchDetachStale i t).run s =
      (if (s.rt i).intPinAttached ≠ 0xFF ∧ (s.rt i).intPinAttached ≠ t.intPin then touchDetach i
        else pure ()).run s := rfl
  rw [hrun]
  split_ifs
  · rfl
  · rfl

/-- After the stale pin is gone, the record is the configured pin or none. -/
theorem PinsRecorded.detachStale (h : PinsRecorded s) (i : Fin 4) (t : TouchController) :
    PinsRecorded ((touchDetachStale i t).run s).2 ∧
      ((((touchDetachStale i t).run s).2.rt i).intPinAttached = 0xFF ∨
        (((touchDetachStale i t).run s).2.rt i).intPinAttached = t.intPin) := by
  rw [touchDetachStale_run]
  split_ifs with hstale
  · refine ⟨h.detach hstale.1, .inl ?_⟩
    simp only [touchDetach_run, Function.update_self]
  · exact ⟨h, Decidable.or_iff_not_not_and_not.mpr hstale⟩

theorem touchDetachStale_rest : ((touchDetachStale i t).run s).2.taken = s.taken ∧
    ∀ j, j ≠ i → ((touchDetachStale i t).run s).2.rt j = s.rt j := by
  rw [touchDetachStale_run]
  split_ifs
  · exact ⟨rfl, fun j hj => Function.update_of_ne hj _ _⟩
  · exact ⟨rfl, fun _ _ => rfl⟩

/-- An attach does nothing, or installs a handler for a controller that has none. -/
theorem touchAttachInt_run (s' : Touch) (hs' : ((touchDetachStale i t).run s).2 = s') :
    ((touchAttachInt env i t).run s).2 =
      if t.intPin = 0xFF ∨ (s'.rt i).intAttached then s' else ((touchInstall env i t).run s').2 := by
  subst hs'
  have hrun : (touchAttachInt env i t).run s =
      (if t.intPin = 0xFF ∨ (((touchDetachStale i t).run s).2.rt i).intAttached then pure ()
        else touchInstall env i t).run ((touchDetachStale i t).run s).2 := rfl
  rw [hrun]
  split_ifs
  · rfl
  · rfl

/-- As long as no pin is taken from another controller, handlers and records agree. -/
def PinsUntaken (s : Touch) : Prop := s.taken = false → PinsRecorded s

theorem pinsUntaken_framed : Framed PinsUntaken :=
  fun _ _ hs h ht => (h (hs.taken ▸ ht)).same hs

theorem pinsUntaken_attach (hunwinds : env.unwinds) : Preserves PinsUntaken (touchAttachInt env i t) := by
  intro s h
  obtain ⟨htaken, -⟩ := touchDetachStale_rest (s := s) (i := i) (t := t)
  rw [touchAttachInt_run _ rfl]
  generalize hs' : ((touchDetachStale i t).run s).2 = s' at htaken ⊢
  have hrec : s'.taken = false → PinsRecorded s' ∧
      ((s'.rt i).intPinAttached = 0xFF ∨ (s'.rt i).intPinAttached = t.intPin) := by
    intro ht
    have hd := (h (htaken ▸ ht)).detachStale i t
    rw [hs'] at hd
    exact hd
  split_ifs with hskip
  · exact fun ht => (hrec ht).1
  · intro ht
    obtain ⟨hpin, hdetached⟩ := not_or.mp hskip
    rw [touchInstall_run] at ht
    obtain ⟨ht, hfree⟩ := Bool.or_eq_false_iff.mp ht
    exact (hrec ht).1.install hunwinds hpin (hrec ht).2 (by simpa using hdetached) hfree

theorem touchDetachRecord_run : ((touchDetachRecord i).run s).2 =
    if (s.rt i).intPinAttached ≠ 0xFF then ((touchDetach i).run s).2 else s := by
  have hrun : (touchDetachRecord i).run s =
      (if (s.rt i).intPinAttached ≠ 0xFF then touchDetach i else pure ()).run s := rfl
  rw [hrun]
  split_ifs
  · rfl
  · rfl

theorem PinsRecorded.detachRecord (h : PinsRecorded s) (i : Fin 4) : PinsRecorded ((touchDetachRecord i).run s).2 := by
  rw [touchDetachRecord_run]
  split_ifs with hpin
  · exact h.detach hpin
  · exact h

theorem touchDetachRecord_rest : ((touchDetachRecord i).run s).2.taken = s.taken ∧
    ∀ j, (((touchDetachRecord i).run s).2.rt j).intPinAttached =
      if j = i then 0xFF else (s.rt j).intPinAttached := by
  rw [touchDetachRecord_run]
  split_ifs with hpin
  · refine ⟨rfl, fun j => ?_⟩
    simp only [touchDetach_run]
    split_ifs with hj
    · rw [hj, Function.update_self]
    · rw [Function.update_of_ne hj]
  · refine ⟨rfl, fun j => ?_⟩
    split_ifs with hj
    · rw [hj]
      exact not_not.mp hpin
    · rfl

theorem Framed.disable (h : Framed I) (hdetach : Preserves I (touchDetachRecord i)) : Preserves I (touchDisable i) := by
  refine Framed.getRt.bind fun rt => .ite (fun _ => .pure _) fun _ => ?_
  exact Preserves.bind (h.setRt (fun _ => rfl) fun _ ha => ha) fun _ => hdetach

end Records

section Init

variable {s : Touch} {cfg : Option TouchConfig} {c : TouchConfig} {i : Fin 4} {t : TouchController}
  {rest : List (Fin 4)} {nowMs : UInt32}

/-- While the controllers are initialised: a record is a pin of the configuration, and those of
`rest` have none yet. -/
structure InitOk (cfg : Option TouchConfig) (rest : List (Fin 4)) (s : Touch) : Prop where
  taken : s.taken = false
  recorded : PinsRecorded s
  named : ∀ j, (s.rt j).intPinAttached ≠ 0xFF → ∃ u ∈ touchCfg cfg j, (s.rt j).intPinAttached = u.intPin
  rest : ∀ j ∈ rest, (s.rt j).intPinAttached = 0xFF

theorem initOk_framed : Framed (InitOk cfg rest) := by
  intro _ _ hs h
  refine ⟨hs.taken.trans h.taken, h.recorded.same hs, fun j hj => ?_, fun j hj => ?_⟩
  · rw [hs.pin] at hj ⊢
    exact h.named j hj
  · rw [hs.pin]
    exact h.rest j hj

theorem initOk_attach (hunwinds : env.unwinds) (hdistinct : PinsDistinct cfg) (ht : t ∈ touchCfg cfg i)
    (hrest : i ∉ rest) : Preserves (InitOk cfg rest) (touchAttachInt env i t) := by
  intro s h
  obtain ⟨htaken, hothers⟩ := touchDetachStale_rest (s := s) (i := i) (t := t)
  obtain ⟨hrec, hown⟩ := h.recorded.detachStale i t
  rw [touchAttachInt_run _ rfl]
  generalize ((touchDetachStale i t).run s).2 = s' at *
  have hnamed : ∀ j, (s'.rt j).intPinAttached ≠ 0xFF → ∃ u ∈ touchCfg cfg j, (s'.rt j).intPinAttached = u.intPin := by
    intro j hj
    by_cases hji : j = i
    · subst hji
      exact ⟨t, ht, hown.resolve_left hj⟩
    · rw [hothers j hji] at hj ⊢
      exact h.named j hj
  have hrest' : ∀ j ∈ rest, (s'.rt j).intPinAttached = 0xFF := by
    intro j hj
    rw [hothers j fun he => hrest (he ▸ hj)]
    exact h.rest j hj
  split_ifs with hskip
  · exact ⟨htaken.trans h.taken, hrec, hnamed, hrest'⟩
  · obtain ⟨hpin, hdetached⟩ := not_or.mp hskip
    have hfree : heldByOther s' i t.intPin = false := by
      refine not_heldByOther.mpr fun j hj he => ?_
      obtain ⟨u, hu, hju⟩ := hnamed j (by rw [he]; exact hpin)
      exact hpin (hdistinct i j (Ne.symm hj) t ht u hu (he.symm.trans hju))
    refine ⟨?_, hrec.install hunwinds hpin hown (by simpa using hdetached) hfree, fun j hj => ?_, fun j hj => ?_⟩
    · rw [touchInstall_run]
      simp only [htaken, h.taken, hfree, Bool.or_self]
    · rw [touchInstall_run] at hj ⊢
      by_cases hji : j = i
      · subst hji
        simp only [Function.update_self] at hj ⊢
        split_ifs at hj ⊢
        · exact ⟨t, ht, rfl⟩
        · exact absurd rfl hj
      · simp only [Function.update_of_ne hji] at hj ⊢
        exact hnamed j hj
    · rw [touchInstall_run]
      have hji : j ≠ i := fun he => hrest (he ▸ hj)
      simp only [Function.update_of_ne hji]
      exact hrest' j hj

/-- A runtime without a record takes the place of another one. -/
theorem initOk_replace {rt : TouchRuntime} (hi : i ∈ rest) (hpin : rt.intPinAttached = 0xFF)
    (hdetached : rt.intAttached = false) : Preserves (InitOk cfg rest) (setRt i fun _ => rt) := by
  refine .modify fun s h => initOk_framed s _ ⟨rfl, rfl, fun j => ?_, fun j => ?_⟩ h
  · by_cases hj : j = i
    · subst hj
      simp only [Function.update_self, hpin, h.rest j hi]
    · simp only [Function.update_of_ne hj]
  · by_cases hj : j = i
    · subst hj
      simp only [Function.update_self, hdetached]
      exact fun ha => by cases ha
    · simp only [Function.update_of_ne hj]
      exact fun ha => ha

theorem InitOk.tail (h : InitOk cfg (i :: rest) s) : InitOk cfg rest s :=
  ⟨h.taken, h.recorded, h.named, fun j hj => h.rest j (List.mem_cons_of_mem i hj)⟩

/-- A controller that is not kept has no record. -/
theorem touchKeep_leads {prior : TouchRuntime} (hunwinds : env.unwinds) (hdistinct : PinsDistinct cfg)
    (ht : t ∈ touchCfg cfg i) (hrest : i ∉ rest) :
    Leads (InitOk cfg (i :: rest)) (fun kept s => if kept then InitOk cfg rest s else InitOk cfg (i :: rest) s)
      (touchKeep env c i t prior nowMs) := by
  have hattach := initOk_attach hunwinds hdistinct ht hrest
  have hfailed : Leads (InitOk cfg (i :: rest))
      (fun kept s => if kept then InitOk cfg rest s else InitOk cfg (i :: rest) s) (pure false) :=
    .pure fun s hs => hs
  refine Leads.bind (initOk_replace List.mem_cons_self rfl rfl).leads fun _ => .ite (fun _ => hfailed) fun _ => ?_
  refine Leads.bind initOk_framed.busPrepare.leads fun ok => .ite (fun _ => hfailed) fun _ => ?_
  refine Leads.bind Framed.getRt.leads fun rt => Leads.bind initOk_framed.clearStatus.leads fun _ => ?_
  have htail : ∀ s, InitOk cfg (i :: rest) s → InitOk cfg rest s := fun _ hs => hs.tail
  refine Leads.of_imp ?_ htail
  have hpoll : Preserves (InitOk cfg rest) (setRt i fun rt => { rt with lastPollMs := nowMs }) :=
    initOk_framed.setRt (fun _ => rfl) fun _ ha => ha
  refine Leads.bind (initOk_framed.wakeAndAttach hattach).leads fun _ => ?_
  exact Leads.bind hpoll.leads fun _ => .pure fun s hs => hs

theorem touchInitOne_leads {prior : TouchRuntime} (hunwinds : env.unwinds) (hdistinct : PinsDistinct cfg)
    (ht : t ∈ touchCfg cfg i) (hrest : i ∉ rest) :
    Leads (InitOk cfg (i :: rest)) (fun _ => InitOk cfg rest) (touchInitOne env c i t prior nowMs) := by
  have hbring : Leads (InitOk cfg (i :: rest)) (fun _ => InitOk cfg rest) (touchBringUp env c i t nowMs) :=
    Leads.of_imp (initOk_framed.bringUp (initOk_attach hunwinds hdistinct ht hrest)).leads fun s hs => hs.tail
  refine .ite (fun _ => ?_) fun _ => hbring
  refine (touchKeep_leads hunwinds hdistinct ht hrest).bind fun kept => ?_
  cases kept with
  | true => exact .pure fun s hs => hs
  | false => exact Leads.bind (initOk_replace List.mem_cons_self rfl rfl).leads fun _ => hbring

/-- While the records are detached: a controller that is not in `rest` has none. -/
structure DetachOk (rest : List (Fin 4)) (s : Touch) : Prop where
  taken : s.taken = false
  recorded : PinsRecorded s
  done : ∀ i, i ∉ rest → (s.rt i).intPinAttached = 0xFF

theorem touchDetachRecord_leads : Leads (DetachOk (i :: rest)) (fun _ => DetachOk rest) (touchDetachRecord i) := by
  intro s h
  obtain ⟨htaken, hpins⟩ := touchDetachRecord_rest (s := s) (i := i)
  refine ⟨htaken.trans h.taken, h.recorded.detachRecord i, fun j hj => ?_⟩
  rw [hpins]
  split_ifs with hji
  · rfl
  · exact h.done j fun hmem => (List.mem_cons.mp hmem).elim hji hj

theorem touchDetachRecorded_leads : Leads (DetachOk (List.finRange 4)) (fun _ => DetachOk []) touchDetachRecorded :=
  Leads.forM fun _ _ _ => touchDetachRecord_leads

/-- No pin was taken, and handlers and records agree. -/
structure TouchOk (s : Touch) : Prop where
  taken : s.taken = false
  recorded : PinsRecorded s

theorem InitOk.touchOk (h : InitOk cfg rest s) : TouchOk s := ⟨h.taken, h.recorded⟩

/-- The records are cleared when they are empty already. -/
theorem clear_leads (cfg : Option TouchConfig) : Leads (DetachOk []) (fun _ => InitOk cfg (List.finRange 4))
    (modify fun s => { s with rt := fun _ => {} }) := by
  intro s h
  have hisr : ∀ pin i, s.isr pin ≠ some i := by
    intro pin i hi
    obtain ⟨hpin, hi⟩ := (h.recorded.installed pin i).mp hi
    exact hpin (hi.symm.trans (h.done i List.not_mem_nil))
  refine ⟨h.taken, ⟨fun pin i => ?_, fun i ha => by cases ha⟩, fun i hi => absurd rfl hi, fun i _ => rfl⟩
  exact iff_of_false (hisr pin i) fun he => he.1 he.2.symm

theorem odTouchGt911Init_keeps (hunwinds : env.unwinds) (hdistinct : PinsDistinct cfg) :
    Preserves TouchOk (odTouchGt911Init env cfg nowMs) := by
  have hdetach : Leads TouchOk (fun _ => DetachOk []) touchDetachRecorded :=
    touchDetachRecorded_leads.of_imp fun s h => ⟨h.taken, h.recorded, fun i hi => absurd (List.mem_finRange i) hi⟩
  have hinit : Leads TouchOk (fun _ => TouchOk) (odTouchGt911Init env cfg nowMs) := by
    refine Leads.bind Preserves.get.leads fun s => hdetach.bind fun _ => (clear_leads cfg).bind fun _ => ?_
    cases cfg with
    | none => exact .pure fun _ h => InitOk.touchOk h
    | some c =>
      refine .ite (fun _ => .pure fun _ h => InitOk.touchOk h) fun _ => ?_
      refine Leads.bind (Leads.foldlM (fun up i rest hrest => ?_) false) fun _ => .pure fun _ h => InitOk.touchOk h
      have hmem : i ∉ rest := (List.nodup_cons.mp ((List.nodup_finRange 4).sublist hrest.sublist)).1
      cases ht : touchCfg (some c) i with
      | none => exact .pure fun _ h => h.tail
      | some t => exact (touchInitOne_leads hunwinds hdistinct ht hmem).bind fun _ => .pure fun _ h => h
  exact hinit

end Init

section Runs

variable {s : Touch} {cfg : Option TouchConfig} {i : Fin 4} {t : TouchController} {nowMs : UInt32} {irqMask : UInt8}

theorem touchOk_framed : Framed TouchOk := fun _ _ hs h => ⟨hs.taken.trans h.taken, h.recorded.same hs⟩

theorem touchOk_disable : Preserves TouchOk (touchDisable i) :=
  touchOk_framed.disable fun _ h => ⟨touchDetachRecord_rest.1.trans h.taken, h.recorded.detachRecord i⟩

theorem odTouchGt911Service_keeps : Preserves TouchOk (odTouchGt911Service env cfg nowMs irqMask) := by
  cases cfg with
  | none => exact .pure _
  | some c =>
    refine Preserves.get.bind fun s => .ite (fun _ => .pure _) fun _ => .foldlM (fun next i _ => ?_) _
    cases touchCfg (some c) i with
    | none => exact .pure _
    | some t =>
      refine Framed.getRt.bind fun rt => .ite (fun _ => .pure _) fun _ => ?_
      exact (touchOk_framed.serviceOne touchOk_disable).bind fun _ => .pure _

/-- Whoever is established again, nobody loses a pin without its being noticed. -/
theorem pinsUntaken_reestablish (hunwinds : env.unwinds) :
    Preserves PinsUntaken (odTouchGt911Reestablish env cfg nowMs) := by
  cases cfg with
  | none => exact .pure _
  | some c =>
    refine .ite (fun _ => .pure _) fun _ => Preserves.bind (.forM fun i _ => ?_) fun _ => .pure _
    cases touchCfg (some c) i with
    | none => exact .pure _
    | some t =>
      have hattach : Preserves PinsUntaken (touchAttachInt env i t) := pinsUntaken_attach hunwinds
      refine Framed.getRt.bind fun rt => .ite (fun _ => .pure _) fun _ => ?_
      refine (pinsUntaken_framed.lightResume hattach).bind fun _ => .ite (fun _ => .pure _) fun _ => ?_
      exact (pinsUntaken_framed.bringUp hattach).bind fun _ => .pure _

theorem pinsUntaken_suspend (f : Touch → UInt8) : Preserves PinsUntaken (modify fun s => { s with suspend := f s }) :=
  .modify fun s h => pinsUntaken_framed s _ ⟨rfl, rfl, fun _ => rfl, fun _ ha => ha⟩ h

theorem pinsUntaken_resume (hunwinds : env.unwinds) : Preserves PinsUntaken (odTouchGt911Resume env cfg nowMs) := by
  refine Preserves.get.bind fun s => .ite (fun _ => .pure _) fun _ => ?_
  refine (pinsUntaken_suspend fun s => s.suspend - 1).bind fun _ => ?_
  exact Preserves.get.bind fun s => .ite (fun _ => .pure _) fun _ => pinsUntaken_reestablish hunwinds

theorem pinsUntaken_forceResume (hunwinds : env.unwinds) :
    Preserves PinsUntaken (odTouchGt911ForceResume env cfg nowMs) := by
  refine Preserves.get.bind fun s => .ite (fun _ => .pure _) fun _ => ?_
  exact (pinsUntaken_suspend fun _ => 1).bind fun _ => pinsUntaken_resume hunwinds

theorem touchStep_keeps (hunwinds : env.unwinds) {call : TouchCall} (h : TouchOk s) (hok : TouchCallOk env s call) :
    TouchOk (touchStep env s call) := by
  cases call with
  | init cfg nowMs => exact odTouchGt911Init_keeps hunwinds hok s h
  | service cfg nowMs irqMask => exact odTouchGt911Service_keeps s h
  | suspend => exact touchOk_framed s _ ⟨rfl, rfl, fun _ => rfl, fun _ ha => ha⟩ h
  | resume cfg nowMs => exact ⟨hok.2, pinsUntaken_resume hunwinds s (fun _ => h.recorded) hok.2⟩
  | reestablish cfg nowMs => exact ⟨hok.2, pinsUntaken_reestablish hunwinds s (fun _ => h.recorded) hok.2⟩
  | forceResume cfg nowMs => exact ⟨hok.2, pinsUntaken_forceResume hunwinds s (fun _ => h.recorded) hok.2⟩

theorem touchOk_start : TouchOk {} := by
  refine ⟨rfl, ⟨fun pin i => ?_, fun i ha => by cases ha⟩⟩
  exact iff_of_false (fun h => by cases h) fun h => h.1 h.2.symm

/-- Where an attach that fails leaves nothing on its pin, and no call attaches on a pin that another
controller has recorded, handlers and records agree after every call. -/
theorem touch_interrupts (env : TouchEnv) (hunwinds : env.unwinds) (calls : List TouchCall)
    (h : Each (touchStep env) (TouchCallOk env) {} calls) : InterruptsOk (touchRun env {} calls) := by
  have hrun : TouchOk (touchRun env {} calls) :=
    h.keeps (fun s call hs hok => touchStep_keeps hunwinds hs hok) touchOk_start
  exact hrun.recorded.interruptsOk

/-- Every controller is there, and every attach succeeds. -/
def touchEnvUp : TouchEnv where
  i2c _ _ _ _ _ := some [0x39, 0x31, 0x31, 0x00]
  busPrepare _ _ := true
  gpioRead _ _ := 1
  attachInt _ _ _ := true
  unwinds := true

/-- Two controllers on one bus, with these interrupt pins. -/
def touchPair (pin pin' : UInt8) : TouchConfig where
  touchControllerCount := 2
  touchControllers i := { busId := 0, intPin := if i.val = 0 then pin else pin' }
  dataBuses := [{ instanceNumber := 0, pin1 := 1, pin2 := 2 }]

theorem touchPair_distinct {pin pin' : UInt8} (h : pin ≠ pin') : PinsDistinct (some (touchPair pin pin')) := by
  have hpair :
      ∀ i, ∀ t ∈ touchCfg (some (touchPair pin pin')) i, i.val < 2 ∧ t.intPin = if i.val = 0 then pin else pin' := by
    intro i t ht
    have hcfg : touchCfg (some (touchPair pin pin')) i =
        if 2 ≤ i.val then none else some ((touchPair pin pin').touchControllers i) := rfl
    rw [hcfg] at ht
    split_ifs at ht with hi
    · cases ht
    · exact ⟨Nat.not_le.mp hi, congrArg TouchController.intPin (Option.mem_some_iff.mp ht).symm⟩
  intro i j hij t ht u hu he
  obtain ⟨hi, hti⟩ := hpair i t ht
  obtain ⟨hj, huj⟩ := hpair j u hu
  rw [hti, huj] at he
  split_ifs at he with hi0 hj0 hj0
  · exact absurd (Fin.ext (hi0.trans hj0.symm)) hij
  · exact absurd he h
  · exact absurd he.symm h
  · omega

theorem touch_interrupts_kept :
    InterruptsOk (touchRun touchEnvUp {} [.init (some (touchPair 5 6)) 0, .reestablish (some (touchPair 5 7)) 10]) := by
  have hdistinct : PinsDistinct (some (touchPair 5 6)) := touchPair_distinct (by decide)
  have hdistinct' : PinsDistinct (some (touchPair 5 7)) := touchPair_distinct (by decide)
  exact touch_interrupts touchEnvUp rfl _ ⟨hdistinct, ⟨hdistinct', by decide +kernel⟩, trivial⟩

/-- When two controllers swap their pins, the second one detaches what the first one has just attached. -/
theorem touch_loses_interrupt :
    let calls := [.init (some (touchPair 5 6)) 0, .reestablish (some (touchPair 6 5)) 10]
    PinsDistinct (some (touchPair 5 6)) ∧ PinsDistinct (some (touchPair 6 5)) ∧
      ((touchRun touchEnvUp {} calls).rt 0).intAttached = true ∧
      ((touchRun touchEnvUp {} calls).rt 0).intPinAttached = 6 ∧ (touchRun touchEnvUp {} calls).isr 6 = none ∧
      ¬ InterruptsOk (touchRun touchEnvUp {} calls) := by
  intro calls
  have hattached : ((touchRun touchEnvUp {} calls).rt 0).intAttached = true := by decide +kernel
  have hpin : ((touchRun touchEnvUp {} calls).rt 0).intPinAttached = 6 := by decide +kernel
  have hisr : (touchRun touchEnvUp {} calls).isr 6 = none := by decide +kernel
  refine ⟨touchPair_distinct (by decide), touchPair_distinct (by decide), hattached, hpin, hisr, fun h => ?_⟩
  have hinstalled := h.attached 0 hattached
  rw [hpin, hisr] at hinstalled
  cases hinstalled

end Runs

end OpenDisplay
