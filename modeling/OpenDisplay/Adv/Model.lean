import Mathlib.Data.List.Basic

/-! The advertising controller: what the application wants and what the radio stack reports
are kept apart, and one pass at a time reconciles them. -/

namespace OpenDisplay

/-- The payload, the bytes after the company id. -/
abbrev Msd := Vector UInt8 16

inductive HalAdvResult where
  | ok | already | notActive | retry | error
deriving DecidableEq

inductive HalAdvCall where
  | program (msd : Msd)
  | start
  | stop
deriving DecidableEq

inductive AdvProcessResult where
  | reconciled | acted | busy | faulted
deriving DecidableEq

structure AdvControl where
  stackReady : Bool := false
  active : Bool := false
  connectionCount : UInt8 := 0
  desired : Bool := false
  payloadValid : Bool := false
  payloadDirty : Bool := false
  msd : Msd := Vector.replicate 16 0
  desiredRevision : UInt32 := 0
  appliedRevision : UInt32 := 0
  faulted : Bool := false
deriving DecidableEq

def odAdvControlInit : AdvControl := {}

def odAdvSetPayload (msd : Msd) (s : AdvControl) : AdvControl :=
  if s.payloadValid ∧ s.msd = msd then s
  else
    { s with
      msd := msd, payloadValid := true, payloadDirty := true, desiredRevision := s.desiredRevision + 1 }

def odAdvRequestStart (s : AdvControl) : AdvControl := { s with desired := true }

def odAdvRequestStop (s : AdvControl) : AdvControl := { s with desired := false }

def odAdvStackReady (s : AdvControl) : AdvControl := { s with stackReady := true }

def odAdvStackReset (s : AdvControl) : AdvControl :=
  { s with
    stackReady := false, active := false, faulted := false
    payloadDirty := if s.payloadValid then true else s.payloadDirty
    appliedRevision := s.desiredRevision - 1 }

def odAdvSetConnectionCount (count : UInt8) (s : AdvControl) : AdvControl := { s with connectionCount := count }

def odAdvObserveEnded (s : AdvControl) : AdvControl := { s with active := false }

def odAdvIsQuiescent (s : AdvControl) : Bool := !s.active && !s.desired

def classify : HalAdvResult → AdvProcessResult
  | .ok => .acted
  | .already => .acted
  | .notActive => .acted
  | .retry => .busy
  | .error => .faulted

/-- What a result does to the controller: an advance, nothing, or a latched fault. -/
def advFold (advance : AdvControl → AdvControl) (r : AdvProcessResult) (s : AdvControl) : AdvControl :=
  match r with
  | .acted => advance s
  | .faulted => { s with faulted := true }
  | _ => s

section Process

variable {η : Type}

/-- One pass, with the radio's `hal` and its state. -/
def odAdvProcess (hal : HalAdvCall → η → HalAdvResult × η) (startAllowed : Bool) (s : AdvControl) (h : η) :
    AdvProcessResult × AdvControl × η :=
  if ¬ s.stackReady then (.reconciled, s, h)
  else if s.active ∧ (¬ s.desired ∨ s.connectionCount > 0 ∨ s.payloadDirty) then
    let (answer, h) := hal .stop h
    (classify answer, advFold ({ · with active := false }) (classify answer) s, h)
  else if s.faulted then (.faulted, s, h)
  else if ¬ s.active ∧ s.payloadDirty ∧ s.payloadValid then
    let (answer, h) := hal (.program s.msd) h
    (classify answer,
      advFold (fun s => { s with appliedRevision := s.desiredRevision, payloadDirty := false }) (classify answer) s, h)
  else if ¬ s.active ∧ s.desired ∧ s.connectionCount = 0 ∧ s.payloadValid ∧ ¬ s.payloadDirty ∧ startAllowed then
    let (answer, h) := hal .start h
    (classify answer, advFold ({ · with active := true }) (classify answer) s, h)
  else (.reconciled, s, h)

/-- Everything that a pass can do. -/
inductive AdvPass (hal : HalAdvCall → η → HalAdvResult × η) (allowed : Bool) (s : AdvControl) (h : η) :
    AdvProcessResult × AdvControl × η → Prop where
  | rest (r : AdvProcessResult) : r = .reconciled ∨ r = .faulted ∧ s.faulted = true →
      (s.stackReady = true → s.faulted = false → (s.active = true ∨ s.payloadDirty = false ∨ s.payloadValid = false) ∧
        (s.active = true → s.desired = true ∧ s.connectionCount = 0 ∧ s.payloadDirty = false) ∧
        (s.active = false → s.desired = true → s.connectionCount = 0 → s.payloadValid = true → allowed = false)) →
      AdvPass hal allowed s h (r, s, h)
  | stop : s.stackReady = true → s.active = true →
      s.desired = false ∨ s.connectionCount ≠ 0 ∨ s.payloadDirty = true →
      AdvPass hal allowed s h (classify (hal .stop h).1,
        advFold ({ · with active := false }) (classify (hal .stop h).1) s, (hal .stop h).2)
  | program : s.stackReady = true → s.active = false → s.faulted = false → s.payloadDirty = true →
      s.payloadValid = true → AdvPass hal allowed s h (classify (hal (.program s.msd) h).1,
        advFold (fun s => { s with appliedRevision := s.desiredRevision, payloadDirty := false })
          (classify (hal (.program s.msd) h).1) s, (hal (.program s.msd) h).2)
  | start : s.stackReady = true → s.active = false → s.faulted = false → s.desired = true → s.connectionCount = 0 →
      s.payloadValid = true → s.payloadDirty = false → allowed = true →
      AdvPass hal allowed s h (classify (hal .start h).1,
        advFold ({ · with active := true }) (classify (hal .start h).1) s, (hal .start h).2)

theorem odAdvProcess_pass (hal : HalAdvCall → η → HalAdvResult × η) (allowed : Bool) (s : AdvControl) (h : η) :
    AdvPass hal allowed s h (odAdvProcess hal allowed s h) := by
  unfold odAdvProcess
  by_cases hready : s.stackReady = true
  swap
  · rw [if_pos hready]
    exact .rest _ (.inl rfl) fun hr => absurd hr hready
  rw [if_neg (not_not.mpr hready)]
  by_cases hstop : s.active = true ∧ (¬ s.desired = true ∨ s.connectionCount > 0 ∨ s.payloadDirty = true)
  · rw [if_pos hstop]
    refine .stop hready hstop.1 ?_
    rcases hstop.2 with hd | hc | hp
    · exact .inl (Bool.eq_false_iff.mpr hd)
    · exact .inr (.inl (by rintro hzero; rw [hzero] at hc; exact absurd hc (by decide)))
    · exact .inr (.inr hp)
  rw [if_neg hstop]
  by_cases hfault : s.faulted = true
  · rw [if_pos hfault]
    exact .rest _ (.inr ⟨rfl, hfault⟩) fun _ hf => absurd hfault (by rw [hf]; nofun)
  rw [if_neg hfault]
  have hclean : s.faulted = false := Bool.eq_false_iff.mpr hfault
  by_cases hprogram : ¬ s.active = true ∧ s.payloadDirty = true ∧ s.payloadValid = true
  · rw [if_pos hprogram]
    exact .program hready (Bool.eq_false_iff.mpr hprogram.1) hclean hprogram.2.1 hprogram.2.2
  rw [if_neg hprogram]
  by_cases hstart : ¬ s.active = true ∧ s.desired = true ∧ s.connectionCount = 0 ∧ s.payloadValid = true ∧
      ¬ s.payloadDirty = true ∧ allowed = true
  · rw [if_pos hstart]
    obtain ⟨ha, hd, hc, hv, hp, hallowed⟩ := hstart
    exact .start hready (Bool.eq_false_iff.mpr ha) hclean hd hc hv (Bool.eq_false_iff.mpr hp) hallowed
  rw [if_neg hstart]
  refine .rest _ (.inl rfl) fun _ _ => ⟨?_, ?_, ?_⟩
  · cases ha : s.active <;> cases hp : s.payloadDirty <;> cases hv : s.payloadValid <;> simp_all
  · intro ha
    refine ⟨?_, ?_, ?_⟩
    · by_contra hd
      exact hstop ⟨ha, .inl hd⟩
    · by_contra hc
      exact hstop ⟨ha, .inr (.inl (UInt8.pos_iff_ne_zero.mpr hc))⟩
    · by_contra hp
      exact hstop ⟨ha, .inr (.inr (Bool.not_eq_false _ ▸ hp))⟩
  · intro ha hd hc hv
    cases hp : s.payloadDirty <;> cases hallowed : allowed <;> simp_all

end Process

end OpenDisplay
