import OpenDisplay.Buzzer.Model

/-! A melody as patterns of steps: which payloads are one, and the runner as a machine that
plays it. -/

namespace OpenDisplay

open Loops Schedules

section Format

structure BuzzerStep where
  index : UInt8
  units : UInt8
deriving DecidableEq

def stepBytes (steps : List BuzzerStep) : List UInt8 := steps.flatMap fun step => [step.index, step.units]

def patternBytes (steps : List BuzzerStep) : List UInt8 := UInt8.ofNat steps.length :: stepBytes steps

structure Melody where
  buzzerInstance : UInt8
  outer : UInt8
  patterns : List (List BuzzerStep)
  nonempty : patterns ≠ []
  count : patterns.length < 256
  counts : ∀ steps ∈ patterns, steps.length < 256

def Melody.bytes (m : Melody) : List UInt8 :=
  m.buzzerInstance :: m.outer :: UInt8.ofNat m.patterns.length :: m.patterns.flatMap patternBytes

theorem stepBytes_length (steps : List BuzzerStep) : (stepBytes steps).length = 2 * steps.length := by
  induction steps with
  | nil => rfl
  | cons step steps ih =>
    show (stepBytes steps).length + 2 = 2 * (steps.length + 1)
    omega

theorem patternBytes_length (steps : List BuzzerStep) : (patternBytes steps).length = 1 + 2 * steps.length := by
  rw [patternBytes, List.length_cons, stepBytes_length, Nat.add_comm]

/-- Any two bytes are a step. -/
theorem exists_stepBytes {count : Nat} {bytes : List UInt8} (h : 2 * count ≤ bytes.length) :
    ∃ steps, steps.length = count ∧ bytes = stepBytes steps ++ bytes.drop (2 * count) := by
  induction count generalizing bytes with
  | zero => exact ⟨[], rfl, rfl⟩
  | succ count ih =>
    cases bytes with
    | nil => simp at h
    | cons index bytes =>
      cases bytes with
      | nil => simp at h; omega
      | cons units bytes =>
        obtain ⟨steps, hcount, hbytes⟩ := @ih bytes (by simp only [List.length_cons] at h; omega)
        refine ⟨⟨index, units⟩ :: steps, congrArg (· + 1) hcount, ?_⟩
        rw [show 2 * (count + 1) = 2 * count + 1 + 1 by omega, List.drop_succ_cons, List.drop_succ_cons]
        exact congrArg (index :: units :: ·) hbytes

/-- The scan ends where that many patterns do. -/
theorem buzzerScan_ok {payload : List UInt8} {patterns scan k : Nat} (hscan : scan ≤ payload.length) :
    buzzerScan payload patterns scan = .ok k ↔
      ∃ (ps : List (List BuzzerStep)) (tail : List UInt8), ps.length = patterns ∧ (∀ steps ∈ ps, steps.length < 256) ∧
        payload.drop scan = ps.flatMap patternBytes ++ tail ∧ k = scan + (ps.flatMap patternBytes).length := by
  induction patterns generalizing scan with
  | zero =>
    rw [buzzerScan]
    constructor
    · intro h
      exact ⟨[], payload.drop scan, rfl, fun _ h => absurd h List.not_mem_nil, rfl, (Except.ok.inj h).symm⟩
    · rintro ⟨ps, tail, hps, -, -, rfl⟩
      rw [List.eq_nil_of_length_eq_zero hps]
      rfl
  | succ patterns ih =>
    rw [buzzerScan]
    by_cases h : scan < payload.length
    · rw [dif_pos h]
      have hdrop : payload.drop scan = payload.get ⟨scan, h⟩ :: payload.drop (scan + 1) := List.drop_eq_getElem_cons h
      generalize payload.get ⟨scan, h⟩ = count at hdrop
      dsimp only
      rw [hdrop]
      constructor
      · intro hok
        split_ifs at hok with hlong
        obtain ⟨ps, tail, hps, hcounts, hrest, hk⟩ := (ih (by omega)).mp hok
        have hroom : 2 * count.toNat ≤ (payload.drop (scan + 1)).length := by
          rw [List.length_drop]
          omega
        obtain ⟨steps, hcount, hbytes⟩ := exists_stepBytes hroom
        rw [List.drop_drop, Nat.mul_comm 2, hrest] at hbytes
        have hlt := count.toNat_lt
        refine ⟨steps :: ps, tail, congrArg (· + 1) hps, ?_, ?_, ?_⟩
        · intro steps' hmem
          rcases List.mem_cons.mp hmem with rfl | hmem
          · omega
          · exact hcounts steps' hmem
        · rw [hbytes, List.flatMap_cons, patternBytes, hcount, UInt8.ofNat_toNat, List.cons_append, List.cons_append,
            List.append_assoc]
        · rw [hk, List.flatMap_cons, List.length_append, patternBytes_length, hcount]
          omega
      · rintro ⟨ps, tail, hps, hcounts, hrest, hk⟩
        cases ps with
        | nil => simp at hps
        | cons steps ps =>
          have hlt := hcounts steps List.mem_cons_self
          rw [List.flatMap_cons, patternBytes, List.cons_append, List.cons_append, List.append_assoc] at hrest
          obtain ⟨hcount, hrest⟩ := List.cons.inj hrest
          have hcount : count.toNat = steps.length := by
            rw [hcount]
            exact UInt8.toNat_ofNat_of_lt' hlt
          have hlength := congrArg List.length hrest
          rw [List.length_drop, List.length_append, stepBytes_length] at hlength
          rw [if_neg (by omega), ih (by omega)]
          refine ⟨ps, tail, Nat.succ_inj.mp hps, fun p hp => hcounts p (List.mem_cons_of_mem _ hp), ?_, ?_⟩
          · rw [← List.drop_drop, hrest, hcount, List.drop_left' (by rw [stepBytes_length, Nat.mul_comm])]
          · rw [hk, List.flatMap_cons, List.length_append, patternBytes_length, hcount]
            omega
    · rw [dif_neg h]
      refine ⟨fun h => (by cases h), ?_⟩
      rintro ⟨ps, tail, hps, -, hrest, -⟩
      rw [List.drop_eq_nil_of_le (by omega)] at hrest
      cases ps with
      | nil => simp at hps
      | cons steps ps => simp [patternBytes] at hrest

theorem buzzerScan_error {payload : List UInt8} {patterns scan e : Nat}
    (h : buzzerScan payload patterns scan = .error e) :
    e = 5 := by
  induction patterns generalizing scan with
  | zero => cases h
  | succ patterns ih =>
    rw [buzzerScan] at h
    dsimp only at h
    split_ifs at h with hscan hlong
    · exact (Except.error.inj h).symm
    · exact ih h
    · exact (Except.error.inj h).symm

/-- What is set for a melody when it is accepted. -/
def Melody.body (m : Melody) (config : BuzzerConfig) (startedMs : UInt32) : BuzzerBody where
  config := config
  payload := m.bytes
  outer := if m.outer = 0 then 1 else m.outer
  patternCount := UInt8.ofNat m.patterns.length
  startedMs := startedMs

variable {config : BuzzerConfig} {payload : BuzzerPayload} {nowMs : UInt32} {s : BuzzerRun} {m : Melody}

theorem Melody.count_toNat (m : Melody) : (UInt8.ofNat m.patterns.length).toNat = m.patterns.length :=
  UInt8.toNat_ofNat_of_lt' m.count

theorem Melody.count_ne_zero (m : Melody) : UInt8.ofNat m.patterns.length ≠ 0 := by
  intro h
  have hzero := m.count_toNat
  rw [h] at hzero
  exact m.nonempty (List.eq_nil_of_length_eq_zero hzero.symm)

theorem odBuzzerActivate_melody (hbytes : payload.bytes = m.bytes) (hshort : m.bytes.length ≤ 256) :
    odBuzzerActivate (some config) (some payload) nowMs s =
      (0, (buzzerFinish s).1,
        { active := true, body := m.body config nowMs, offset := 4, stepCount := m.bytes.getD 3 0, deadlineMs := nowMs
          reads := [3] }) := by
  have hscan : buzzerScan m.bytes m.patterns.length 3 = .ok m.bytes.length := by
    rw [buzzerScan_ok (by simp [Melody.bytes])]
    refine ⟨m.patterns, [], rfl, m.counts, (List.append_nil _).symm, ?_⟩
    simp only [Melody.bytes, List.length_cons]
    omega
  obtain ⟨bytes, hlt⟩ := payload
  obtain rfl : bytes = m.bytes := hbytes
  have hlong : ¬ m.bytes.length > odBuzzerPayloadMax := Nat.not_lt.mpr hshort
  unfold odBuzzerActivate
  simp only [Melody.bytes] at hscan hlong ⊢
  rw [if_neg m.count_ne_zero, m.count_toNat, hscan]
  simp only [ne_eq, not_true_eq_false, if_false]
  exact if_neg hlong

/-- A payload is accepted if it is a melody of no more than 256 bytes. -/
theorem odBuzzerActivate_accepts :
    (odBuzzerActivate (some config) (some payload) nowMs s).1 = 0 ↔
      payload.bytes.length ≤ 256 ∧ ∃ m : Melody, payload.bytes = m.bytes := by
  constructor
  · intro h
    unfold odBuzzerActivate at h
    dsimp only at h
    split at h
    · next inst outer count rest hbytes =>
      by_cases hcount : count = 0
      · rw [if_pos hcount] at h
        cases h
      rw [if_neg hcount] at h
      cases hok : buzzerScan payload.bytes count.toNat 3 with
      | error e =>
        rw [hok] at h
        cases (buzzerScan_error hok).symm.trans h
      | ok scan =>
        rw [hok] at h
        dsimp only at h
        by_cases hend : scan ≠ payload.bytes.length
        · rw [if_pos hend] at h
          cases h
        rw [if_neg hend] at h
        by_cases hlong : payload.bytes.length > odBuzzerPayloadMax
        · rw [if_pos hlong] at h
          cases h
        rw [buzzerScan_ok (by rw [hbytes]; simp)] at hok
        obtain ⟨ps, tail, hps, hcounts, hrest, hscan⟩ := hok
        have hlength := congrArg List.length hrest
        rw [List.length_drop, List.length_append] at hlength
        obtain rfl : tail = [] := List.eq_nil_of_length_eq_zero (by omega)
        have hlt := count.toNat_lt
        have hsome : ps ≠ [] := by
          rintro rfl
          exact hcount (UInt8.toNat_inj.mp hps.symm)
        have hmelody : payload.bytes = inst :: outer :: UInt8.ofNat ps.length :: ps.flatMap patternBytes := by
          rw [List.append_nil, hbytes] at hrest
          rw [hbytes, hps, UInt8.ofNat_toNat, ← hrest]
          rfl
        exact ⟨Nat.not_lt.mp hlong, ⟨inst, outer, ps, hsome, by omega, hcounts⟩, hmelody⟩
    · cases h
  · rintro ⟨hshort, m, hbytes⟩
    rw [odBuzzerActivate_melody hbytes (hbytes ▸ hshort)]

theorem odBuzzerActivate_refuses {config : Option BuzzerConfig} {payload : Option BuzzerPayload}
    (h : (odBuzzerActivate config payload nowMs s).1 ≠ 0) : (odBuzzerActivate config payload nowMs s).2 = ([], s) := by
  revert h
  unfold odBuzzerActivate
  split
  · next config payload =>
    split
    · next inst outer count rest hbytes =>
      by_cases hcount : count = 0
      · rw [if_pos hcount]
        exact fun _ => rfl
      rw [if_neg hcount]
      cases buzzerScan payload.bytes count.toNat 3 with
      | error e => exact fun _ => rfl
      | ok scan =>
        dsimp only
        by_cases hend : scan ≠ payload.bytes.length
        · rw [if_pos hend]
          exact fun _ => rfl
        rw [if_neg hend]
        by_cases hlong : payload.bytes.length > odBuzzerPayloadMax
        · rw [if_pos hlong]
          exact fun _ => rfl
        · rw [if_neg hlong]
          exact fun h => absurd rfl h
    · exact fun _ => rfl
  · exact fun _ => rfl

end Format

section Items

/-- What takes time: a step, or the gap between two patterns. -/
inductive BuzzerItem where
  | step (index units : UInt8)
  | gap
deriving DecidableEq

/-- A step of no length is passed over. -/
def stepItems (steps : List BuzzerStep) : List BuzzerItem :=
  (steps.filter fun step => step.units ≠ 0).map fun step => .step step.index step.units

/-- Patterns, with a gap before each of them. -/
def gapItems (patterns : List (List BuzzerStep)) : List BuzzerItem :=
  patterns.flatMap fun steps => .gap :: stepItems steps

/-- The patterns once, with a gap between any two. -/
def Melody.round (m : Melody) : List BuzzerItem := (gapItems m.patterns).tail

def Melody.rounds (m : Melody) : Nat := max m.outer.toNat 1

def BuzzerItem.acts (config : BuzzerConfig) : BuzzerItem → List BuzzerAct
  | .step index _ =>
    setEnable config true ++
      if odBuzzerIndexCentihz index ≠ 0 then
        [.toneStart config.drivePin (odBuzzerIndexCentihz index) config.dutyPercent]
      else [.toneStop config.drivePin]
  | .gap => []

/-- How long an item takes: a step is cut short at the end of the time. -/
def BuzzerItem.wait (elapsed : Nat) : BuzzerItem → Nat
  | .step _ units => min (units.toNat * 5) (30000 - elapsed)
  | .gap => 20

/-- Whether there is a tone after it, if the hardware answers so. -/
def BuzzerItem.tone (on : Bool) : BuzzerItem → Bool
  | .step index _ => odBuzzerIndexCentihz index ≠ 0 && on
  | .gap => false

def offActs (config : BuzzerConfig) : List BuzzerAct := .toneStop config.drivePin :: setEnable config false

end Items

section Position

/-- Where the runner is in the melody: the patterns and steps that are done, and those that are left. -/
structure Played (m : Melody) (body : BuzzerBody) (s : BuzzerRun) (front : List (List BuzzerStep))
    (played todo : List BuzzerStep) (back : List (List BuzzerStep)) : Prop where
  patterns : m.patterns = front ++ (played ++ todo) :: back
  active : s.active = true
  same : s.body = body
  repeats : s.repeats < body.outer
  pattern : s.pattern.toNat = front.length
  stepCount : s.stepCount.toNat = played.length + todo.length
  step : s.step.toNat = played.length
  offset : s.offset = 3 + (front.flatMap patternBytes).length + 1 + 2 * played.length
  gap : s.phase = .gap → todo = [] ∧ back ≠ []
  reads : ∀ i ∈ s.reads, i < m.bytes.length

/-- The items from there to the end. -/
def leftItems (m : Melody) (s : BuzzerRun) (todo : List BuzzerStep) (back : List (List BuzzerStep)) : List BuzzerItem :=
  (if s.phase = .gap then (gapItems back).tail else stepItems todo ++ gapItems back) ++
    (List.replicate (s.body.outer.toNat - s.repeats.toNat - 1) m.round).flatten

variable {m : Melody} {body : BuzzerBody} {s : BuzzerRun} {front back : List (List BuzzerStep)}
  {played todo : List BuzzerStep}

theorem bytes_split (h : m.patterns = front ++ (played ++ todo) :: back) :
    ∃ head, head.length = 3 + (front.flatMap patternBytes).length + 1 + 2 * played.length ∧
      m.bytes = head ++ (stepBytes todo ++ back.flatMap patternBytes) := by
  refine ⟨m.buzzerInstance :: m.outer :: UInt8.ofNat m.patterns.length ::
    (front.flatMap patternBytes ++ UInt8.ofNat (played ++ todo).length :: stepBytes played), ?_, ?_⟩
  · simp only [List.length_cons, List.length_append, stepBytes_length]
    omega
  · rw [Melody.bytes, h]
    simp [patternBytes, stepBytes]

theorem getD_append (head : List UInt8) (b : UInt8) (rest : List UInt8) :
    (head ++ b :: rest).getD head.length 0 = b := by
  simp

/-- The step that is read is the next one of the melody. -/
theorem Played.read_step {step : BuzzerStep} (h : Played m body s front played (step :: todo) back)
    (hpayload : body.payload = m.bytes) :
    s.read s.offset = step.index ∧ s.read (s.offset + 1) = step.units ∧ s.offset + 1 < m.bytes.length := by
  obtain ⟨head, hhead, hbytes⟩ := bytes_split h.patterns
  have hbytes : m.bytes = head ++ step.index :: step.units :: (stepBytes todo ++ back.flatMap patternBytes) := hbytes
  simp only [BuzzerRun.read, h.same, hpayload]
  rw [h.offset, ← hhead, hbytes]
  refine ⟨getD_append _ _ _, ?_, ?_⟩
  · have hnext := getD_append (head ++ [step.index]) step.units (stepBytes todo ++ back.flatMap patternBytes)
    rwa [List.append_assoc, List.length_append] at hnext
  · simp only [List.length_append, List.length_cons]
    omega

/-- The count that is read after a gap is that of the next pattern. -/
theorem Played.read_count {next : List BuzzerStep} (h : Played m body s front played [] (next :: back))
    (hpayload : body.payload = m.bytes) : s.read s.offset = UInt8.ofNat next.length ∧ s.offset < m.bytes.length := by
  obtain ⟨head, hhead, hbytes⟩ := bytes_split h.patterns
  have hbytes : m.bytes = head ++ UInt8.ofNat next.length :: (stepBytes next ++ back.flatMap patternBytes) := hbytes
  simp only [BuzzerRun.read, h.same, hpayload]
  rw [h.offset, ← hhead, hbytes]
  refine ⟨getD_append _ _ _, ?_⟩
  simp only [List.length_append, List.length_cons]
  omega

theorem read_first {first : List BuzzerStep} (h : m.patterns = first :: back) :
    m.bytes.getD 3 0 = UInt8.ofNat first.length ∧ 3 < m.bytes.length := by
  rw [Melody.bytes, h]
  refine ⟨rfl, ?_⟩
  show 3 < (_ :: _ :: _ :: (_ :: stepBytes first ++ _)).length
  simp

end Position

section Pass

variable {m : Melody} {body : BuzzerBody} {on : UInt32 → Bool} {nowMs : UInt32} {s : BuzzerRun}
  {items : List BuzzerItem} {front back : List (List BuzzerStep)} {played todo : List BuzzerStep}

def BuzzerBody.elapsed (body : BuzzerBody) (nowMs : UInt32) : Nat := (nowMs - body.startedMs).toNat

/-- These items are left. -/
def Left (m : Melody) (body : BuzzerBody) (s : BuzzerRun) (items : List BuzzerItem) : Prop :=
  ∃ front played todo back, Played m body s front played todo back ∧ items = leftItems m s todo back

/-- An item has been done, and the next one is due when it has taken its time. -/
structure Itemed (m : Melody) (body : BuzzerBody) (on : UInt32 → Bool) (nowMs : UInt32) (i : BuzzerItem)
    (items : List BuzzerItem) (out : UInt32 × List BuzzerAct × BuzzerRun) : Prop where
  elapsed : body.elapsed nowMs < 30000
  wait : 0 < i.wait (body.elapsed nowMs)
  returned : out.1 = UInt32.ofNat (i.wait (body.elapsed nowMs))
  acts : out.2.1 = i.acts body.config
  left : Left m body out.2.2 items
  waiting : out.2.2.waiting = true
  deadline : out.2.2.deadlineMs = nowMs + UInt32.ofNat (i.wait (body.elapsed nowMs))
  tone : out.2.2.toneOn = i.tone (on nowMs)

/-- The time is up or nothing is left, and the run has been closed. -/
structure Ended (m : Melody) (body : BuzzerBody) (nowMs : UInt32) (items : List BuzzerItem)
    (out : UInt32 × List BuzzerAct × BuzzerRun) : Prop where
  finished : 30000 ≤ body.elapsed nowMs ∨ items = []
  out : ∃ reads, out = (odBuzzerIdle, offActs body.config, { reads := reads }) ∧ ∀ i ∈ reads, i < m.bytes.length

/-- A pass goes on with the same items left, does the next one, or ends the run. -/
inductive BuzzerPassSpec (m : Melody) (body : BuzzerBody) (on : UInt32 → Bool) (nowMs : UInt32)
    (items : List BuzzerItem) : Iter BuzzerRun (UInt32 × List BuzzerAct × BuzzerRun) → Prop where
  | next {s' : BuzzerRun} : Left m body s' items → s'.toneOn = false → BuzzerPassSpec m body on nowMs items (.next s')
  | item {i : BuzzerItem} {items' : List BuzzerItem} {out : UInt32 × List BuzzerAct × BuzzerRun} : items = i :: items' →
      Itemed m body on nowMs i items' out → BuzzerPassSpec m body on nowMs items (.stop out)
  | ended {out : UInt32 × List BuzzerAct × BuzzerRun} : Ended m body nowMs items out →
      BuzzerPassSpec m body on nowMs items (.stop out)

theorem buzzerOver_spec (hactive : s.active = true) (hbody : s.body = body) (hreads : ∀ i ∈ s.reads, i < m.bytes.length)
    (hover : 30000 ≤ body.elapsed nowMs ∨ items = []) : BuzzerPassSpec m body on nowMs items (buzzerOver s) := by
  refine .ended ⟨hover, s.reads, ?_, hreads⟩
  simp only [buzzerFinish, hactive, if_true, stopTone, hbody]
  rfl

theorem mem_reads_append {reads more : List Nat} {n : Nat} (h : ∀ i ∈ reads, i < n) (h' : ∀ i ∈ more, i < n) :
    ∀ i ∈ reads ++ more, i < n := by
  intro i hi
  rcases List.mem_append.mp hi with hi | hi
  · exact h i hi
  · exact h' i hi

/-- After a gap comes the next pattern. -/
theorem Played.gap_spec (h : Played m body s front played todo back) (hpayload : body.payload = m.bytes)
    (htone : s.toneOn = false) (hgap : s.phase = .gap) :
    BuzzerPassSpec m body on nowMs (leftItems m s todo back)
      (.next { s with
        pattern := s.pattern + 1, stepCount := s.read s.offset, offset := s.offset + 1, step := 0, phase := .step
        reads := s.reads ++ [s.offset] }) := by
  obtain ⟨rfl, hback⟩ := h.gap hgap
  obtain ⟨next, back, rfl⟩ := List.exists_cons_of_ne_nil hback
  obtain ⟨hread, hbound⟩ := h.read_count hpayload
  have hcount := m.count
  have hsplit : m.patterns = (front ++ [played]) ++ ([] ++ next) :: back := by
    rw [h.patterns]
    simp
  have hlength := congrArg List.length hsplit
  simp only [List.length_append, List.length_cons, List.length_nil] at hlength
  refine .next ⟨front ++ [played], [], next, back, ⟨hsplit, h.active, h.same, h.repeats, ?_, ?_, rfl, ?_, ?_,
    ?_⟩, ?_⟩ htone
  · show (s.pattern + 1).toNat = _
    rw [UInt8.toNat_add, h.pattern, List.length_append]
    show (front.length + 1) % 256 = front.length + 1
    omega
  · show (s.read s.offset).toNat = 0 + next.length
    rw [hread, UInt8.toNat_ofNat_of_lt' (m.counts next (by rw [hsplit]; simp)), Nat.zero_add]
  · show s.offset + 1 = _
    rw [h.offset, List.flatMap_append, List.length_append, List.flatMap_singleton, patternBytes_length]
    simp only [List.length_nil]
    omega
  · exact fun hgap => by cases hgap
  · exact mem_reads_append h.reads (fun i hi => List.mem_singleton.mp hi ▸ hbound)
  · rw [leftItems, if_pos hgap, leftItems, if_neg (by simp)]
    rfl

theorem elapsed_le (hover : ¬ nowMs - s.body.startedMs ≥ odBuzzerMaxTotalMs) (hbody : s.body = body) :
    body.elapsed nowMs < 30000 := by
  rw [← hbody]
  exact UInt32.lt_iff_toNat_lt.mp (UInt32.not_le.mp hover)

/-- The duration of a step is cut short at the end of the time. -/
theorem duration_toNat (elapsed : UInt32) (units : UInt8) (h : elapsed.toNat < 30000) :
    (min (units.toUInt32 * odBuzzerDurationUnitMs) (odBuzzerMaxTotalMs - elapsed)).toNat =
      min (units.toNat * 5) (30000 - elapsed.toNat) := by
  have hunits := units.toNat_lt
  have hduration : (units.toUInt32 * odBuzzerDurationUnitMs).toNat = units.toNat * 5 := by
    rw [UInt32.toNat_mul, UInt8.toNat_toUInt32]
    show units.toNat * 5 % 2 ^ 32 = _
    omega
  have hremaining : (odBuzzerMaxTotalMs - elapsed).toNat = 30000 - elapsed.toNat :=
    UInt32.toNat_sub_of_le _ _ (UInt32.le_iff_toNat_le.mpr h.le)
  rw [← hduration, ← hremaining]
  show (if units.toUInt32 * odBuzzerDurationUnitMs ≤ odBuzzerMaxTotalMs - elapsed then _ else _ : UInt32).toNat = _
  by_cases hle : units.toUInt32 * odBuzzerDurationUnitMs ≤ odBuzzerMaxTotalMs - elapsed
  · rw [if_pos hle, Nat.min_eq_left (UInt32.le_iff_toNat_le.mp hle)]
  · rw [if_neg hle, Nat.min_eq_right (UInt32.lt_iff_toNat_lt.mp (UInt32.not_le.mp hle)).le]

/-- The position after a step that has been read. -/
theorem Played.stepped {step : BuzzerStep} {s' : BuzzerRun} (h : Played m body s front played (step :: todo) back)
    (hpayload : body.payload = m.bytes) (hactive : s'.active = true) (hbody : s'.body = s.body)
    (hrepeats : s'.repeats = s.repeats) (hpattern : s'.pattern = s.pattern) (hcount : s'.stepCount = s.stepCount)
    (hstep : s'.step = s.step + 1) (hoffset : s'.offset = s.offset + 2) (hphase : s'.phase = .step)
    (hreads : s'.reads = s.reads ++ [s.offset, s.offset + 1]) : Played m body s' front (played ++ [step])
    todo back := by
  obtain ⟨-, -, hbound⟩ := h.read_step hpayload
  have hlt := s.stepCount.toNat_lt
  have hsum := h.stepCount
  rw [List.length_cons] at hsum
  refine ⟨?_, hactive, hbody.trans h.same, hrepeats ▸ h.repeats, ?_, ?_, ?_, ?_, ?_, ?_⟩
  · rw [h.patterns, List.append_assoc, List.singleton_append]
  · rw [hpattern, h.pattern]
  · rw [hcount, hsum, List.length_append, List.length_singleton, Nat.add_assoc, Nat.add_comm 1]
  · rw [hstep, UInt8.toNat_add, h.step, List.length_append]
    show (played.length + 1) % 256 = played.length + 1
    omega
  · rw [hoffset, h.offset, List.length_append, List.length_singleton]
    omega
  · intro hgap
    rw [hphase] at hgap
    cases hgap
  · rw [hreads]
    refine mem_reads_append h.reads fun i hi => ?_
    simp only [List.mem_cons, List.not_mem_nil, or_false] at hi
    omega

/-- A step of some length takes its time, and one of none is passed over. -/
theorem Played.step_spec {step : BuzzerStep} (h : Played m body s front played (step :: todo) back)
    (hpayload : body.payload = m.bytes) (helapsed : body.elapsed nowMs < 30000) (htone : s.toneOn = false)
    (hphase : s.phase = .step) (hover : ¬ nowMs - s.body.startedMs ≥ odBuzzerMaxTotalMs) :
    BuzzerPassSpec m body on nowMs (leftItems m s (step :: todo) back) (buzzerPass on nowMs s) := by
  obtain ⟨hindex, hunits, -⟩ := h.read_step hpayload
  have hlt : s.step < s.stepCount := by
    rw [UInt8.lt_iff_toNat_lt, h.step, h.stepCount, List.length_cons]
    omega
  have hduration := duration_toNat (nowMs - s.body.startedMs) step.units (by rw [h.same]; exact helapsed)
  have hgap : s.phase ≠ .gap := by rw [hphase]; exact BuzzerPhase.noConfusion
  have hleft : ∀ s' : BuzzerRun, s'.phase = .step → s'.body = s.body → s'.repeats = s.repeats →
      leftItems m s' todo back = (stepItems todo ++ gapItems back) ++
        (List.replicate (s.body.outer.toNat - s.repeats.toNat - 1) m.round).flatten := by
    intro s' hphase' hbody hrepeats
    rw [leftItems, hphase', hbody, hrepeats, if_neg BuzzerPhase.noConfusion]
  unfold buzzerPass
  dsimp only
  rw [if_neg hover, if_neg hgap, if_pos hlt, hindex, hunits]
  generalize hms : min (step.units.toUInt32 * odBuzzerDurationUnitMs)
    (odBuzzerMaxTotalMs - (nowMs - s.body.startedMs)) = durationMs at hduration ⊢
  rw [h.same] at hduration
  have hduration : durationMs.toNat = min (step.units.toNat * 5) (30000 - body.elapsed nowMs) := hduration
  by_cases hzero : step.units = 0
  · have hnone : durationMs = 0 := by
      apply UInt32.toNat_inj.mp
      rw [hduration, hzero]
      exact Nat.zero_min _
    rw [if_pos hnone]
    refine .next ⟨front, played ++ [step], todo, back,
      h.stepped hpayload h.active rfl rfl rfl rfl rfl rfl hphase rfl, ?_⟩ htone
    refine Eq.trans ?_ (hleft _ hphase rfl rfl).symm
    rw [leftItems, if_neg hgap, stepItems, List.filter_cons_of_neg (by simpa using hzero)]
    rfl
  · have hsome : step.units.toNat ≠ 0 := fun h => hzero (UInt8.toNat_inj.mp h)
    have hpos : durationMs ≠ 0 := by
      rintro rfl
      have hduration : 0 = min (step.units.toNat * 5) (30000 - body.elapsed nowMs) := hduration
      omega
    have hitems :
      leftItems m s (step :: todo) back = .step step.index step.units :: ((stepItems todo ++ gapItems back) ++
        (List.replicate (s.body.outer.toNat - s.repeats.toNat - 1) m.round).flatten) := by
      rw [leftItems, if_neg hgap, stepItems, List.filter_cons_of_pos (by simpa using hzero)]
      rfl
    have hwait : durationMs = UInt32.ofNat ((BuzzerItem.step step.index step.units).wait (body.elapsed nowMs)) := by
      rw [BuzzerItem.wait, ← hduration, UInt32.ofNat_toNat]
    have hpositive : 0 < (BuzzerItem.step step.index step.units).wait (body.elapsed nowMs) := by
      show 0 < min _ _
      omega
    rw [if_neg hpos]
    by_cases htoned : odBuzzerIndexCentihz step.index ≠ 0
    · rw [if_pos htoned]
      refine .item hitems ⟨helapsed, hpositive, hwait, ?_, ⟨front, played ++ [step], todo, back,
        h.stepped hpayload h.active rfl rfl rfl rfl rfl rfl hphase rfl, ?_⟩, rfl, congrArg (nowMs + ·) hwait, ?_⟩
      · rw [BuzzerItem.acts, if_pos htoned, h.same]
      · exact (hleft _ hphase rfl rfl).symm
      · show on nowMs = (decide _ && on nowMs)
        rw [decide_eq_true htoned, Bool.true_and]
    · rw [if_neg htoned]
      refine .item hitems ⟨helapsed, hpositive, hwait, ?_, ⟨front, played ++ [step], todo, back,
        h.stepped hpayload h.active rfl rfl rfl rfl rfl rfl hphase rfl, ?_⟩, rfl, congrArg (nowMs + ·) hwait, ?_⟩
      · rw [BuzzerItem.acts, if_neg htoned, h.same]
        rfl
      · exact (hleft _ hphase rfl rfl).symm
      · show false = (decide _ && on nowMs)
        rw [decide_eq_false htoned, Bool.false_and]

/-- At the end of a pattern comes a gap, or the next round, or the end. -/
theorem Played.turn_spec (h : Played m body s front played [] back) (hpayload : body.payload = m.bytes)
    (hcount : body.patternCount.toNat = m.patterns.length) (helapsed : body.elapsed nowMs < 30000)
    (htone : s.toneOn = false) (hphase : s.phase = .step) (hover : ¬ nowMs - s.body.startedMs ≥ odBuzzerMaxTotalMs) :
    BuzzerPassSpec m body on nowMs (leftItems m s [] back) (buzzerPass on nowMs s) := by
  have hend : ¬ s.step < s.stepCount := by
    rw [UInt8.lt_iff_toNat_lt, h.step, h.stepCount, List.length_nil]
    omega
  have hgap : s.phase ≠ .gap := by rw [hphase]; exact BuzzerPhase.noConfusion
  have hpatterns := m.count
  have hlength := congrArg List.length h.patterns
  rw [List.length_append, List.length_cons] at hlength
  have hpattern : (s.pattern + 1).toNat = front.length + 1 := by
    rw [UInt8.toNat_add, h.pattern]
    show (front.length + 1) % 256 = _
    omega
  have hlast : s.pattern + 1 < s.body.patternCount ↔ back ≠ [] := by
    rw [UInt8.lt_iff_toNat_lt, hpattern, h.same, hcount, hlength, ← List.length_pos_iff]
    omega
  have hrepeats := UInt8.lt_iff_toNat_lt.mp h.repeats
  have houter := body.outer.toNat_lt
  have hsucc : (s.repeats + 1).toNat = s.repeats.toNat + 1 := by
    rw [UInt8.toNat_add]
    show (s.repeats.toNat + 1) % 256 = _
    omega
  unfold buzzerPass
  dsimp only
  rw [if_neg hover, if_neg hgap, if_neg hend]
  by_cases hback : back = []
  · rw [if_neg (fun hlt => hlast.mp hlt hback)]
    subst hback
    have hleft : leftItems m s [] [] =
        (List.replicate (s.body.outer.toNat - s.repeats.toNat - 1) m.round).flatten := by
      rw [leftItems, if_neg hgap]
      rfl
    by_cases hdone : s.repeats + 1 ≥ s.body.outer
    · rw [if_pos hdone]
      have hnone : s.body.outer.toNat - s.repeats.toNat - 1 = 0 := by
        have hdone := UInt8.le_iff_toNat_le.mp hdone
        omega
      rw [hleft, hnone]
      exact buzzerOver_spec h.active h.same h.reads (.inr rfl)
    · rw [if_neg hdone]
      have hmore := UInt8.lt_iff_toNat_lt.mp (UInt8.not_le.mp hdone)
      obtain ⟨first, others, hfirst⟩ := List.exists_cons_of_ne_nil m.nonempty
      obtain ⟨hread, hbound⟩ := read_first hfirst
      refine .next ⟨[], [], first, others, ⟨hfirst, h.active, h.same, ?_, rfl, ?_, rfl, rfl, ?_, ?_⟩, ?_⟩ htone
      · show s.repeats + 1 < body.outer
        rw [← h.same]
        exact UInt8.not_le.mp hdone
      · show (s.body.payload.getD 3 0).toNat = 0 + first.length
        rw [h.same, hpayload, hread, UInt8.toNat_ofNat_of_lt' (m.counts first (by rw [hfirst]; simp)), Nat.zero_add]
      · exact fun hgap' => absurd hgap' hgap
      · exact mem_reads_append h.reads (fun i hi => List.mem_singleton.mp hi ▸ hbound)
      · obtain ⟨k, hk⟩ : ∃ k, s.body.outer.toNat - s.repeats.toNat - 1 = k + 1 :=
          ⟨s.body.outer.toNat - (s.repeats.toNat + 1) - 1, by omega⟩
        have hk' : s.body.outer.toNat - (s.repeats + 1).toNat - 1 = k := by omega
        rw [hleft, hk, leftItems, if_neg hgap]
        show _ = _ ++ (List.replicate (s.body.outer.toNat - (s.repeats + 1).toNat - 1) m.round).flatten
        rw [hk', List.replicate_succ, List.flatten_cons, Melody.round, hfirst]
        rfl
  · rw [if_pos (hlast.mpr hback)]
    obtain ⟨next, back, rfl⟩ := List.exists_cons_of_ne_nil hback
    have hitems : leftItems m s [] (next :: back) = .gap :: leftItems m { s with phase := .gap } [] (next :: back) := by
      rw [leftItems, if_neg hgap, leftItems, if_pos rfl]
      rfl
    exact .item hitems ⟨helapsed, show 0 < 20 by decide, rfl, rfl,
      ⟨front, played, [], next :: back, ⟨h.patterns, h.active, h.same,
      h.repeats, h.pattern, h.stepCount, h.step, h.offset, fun _ => ⟨rfl, hback⟩, h.reads⟩, rfl⟩, rfl, rfl, htone⟩

/-- Every pass, by where the runner is. -/
theorem buzzerPass_spec (on : UInt32 → Bool) (nowMs : UInt32) (hpayload : body.payload = m.bytes)
    (hcount : body.patternCount.toNat = m.patterns.length) (h : Left m body s items) (htone : s.toneOn = false) :
    BuzzerPassSpec m body on nowMs items (buzzerPass on nowMs s) := by
  obtain ⟨front, played, todo, back, hplayed, rfl⟩ := h
  by_cases hover : nowMs - s.body.startedMs ≥ odBuzzerMaxTotalMs
  · rw [buzzerPass, if_pos hover]
    refine buzzerOver_spec hplayed.active hplayed.same hplayed.reads (.inl ?_)
    rw [hplayed.same] at hover
    exact UInt32.le_iff_toNat_le.mp hover
  have helapsed := elapsed_le hover hplayed.same
  cases hphase : s.phase with
  | gap =>
    rw [buzzerPass, if_neg hover, if_pos hphase]
    exact hplayed.gap_spec hpayload htone hphase
  | step =>
    cases todo with
    | nil => exact hplayed.turn_spec hpayload hcount helapsed htone hphase hover
    | cons step todo => exact hplayed.step_spec hpayload helapsed htone hphase hover

/-- The passes of a call lead to the next item or to the end. -/
theorem buzzerLoop_spec (on : UInt32 → Bool) (nowMs : UInt32) (hpayload : body.payload = m.bytes)
    (hcount : body.patternCount.toNat = m.patterns.length) (h : Left m body s items) (htone : s.toneOn = false) :
    let out := loop (buzzerPass on nowMs) BuzzerRun.passes (buzzerPass_dec on nowMs) s
    (∃ i items', items = i :: items' ∧ Itemed m body on nowMs i items' out) ∨ Ended m body nowMs items out := by
  refine loop_rule (P := fun (s : BuzzerRun) (out : UInt32 × List BuzzerAct × BuzzerRun) =>
    Left m body s items → s.toneOn = false →
      (∃ i items', items = i :: items' ∧ Itemed m body on nowMs i items' out) ∨ Ended m body nowMs items out)
    ?_ ?_ s h htone
  · intro s out hstop hs htone
    have hspec := buzzerPass_spec on nowMs hpayload hcount hs htone
    rw [hstop] at hspec
    cases hspec with
    | item hitems hitem => exact .inl ⟨_, _, hitems, hitem⟩
    | ended hended => exact .inr hended
  · intro s s' out hnext hrest hs htone
    have hspec := buzzerPass_spec on nowMs hpayload hcount hs htone
    rw [hnext] at hspec
    cases hspec with
    | next hs' htone' => exact hrest hs' htone'

end Pass

section Follow

variable {m : Melody} {config : BuzzerConfig} {on : UInt32 → Bool} {start t due : Nat} {s : BuzzerRun}
  {items : List BuzzerItem}

/-- What is left of a melody, and whether a tone sounds. -/
structure BuzzerPlan where
  items : List BuzzerItem
  toneOn : Bool

def stopActs (config : BuzzerConfig) (toneOn : Bool) : List BuzzerAct :=
  if toneOn then [.toneStop config.drivePin] else []

/-- An item comes with whether a tone is stopped before it. -/
def buzzerPlan (config : BuzzerConfig) (on : UInt32 → Bool) (start : Nat) :
    Plan BuzzerPlan (Bool × BuzzerItem) BuzzerAct where
  next t p :=
    if start + 30000 ≤ t then none
    else
      match p.items with
      | [] => none
      | i :: items => some ((p.toneOn, i), ⟨items, i.tone (on (UInt32.ofNat t))⟩)
  acts d := stopActs config d.1 ++ d.2.acts config
  wait t d := d.2.wait (t - start)
  final p := stopActs config p.toneOn ++ offActs config
  idle := odBuzzerIdle

def BuzzerRun.timer (s : BuzzerRun) : Option UInt32 := if s.waiting then some s.deadlineMs else none

/-- This is left of the melody, and the time is not yet up by more than a gap. -/
structure BuzzerSim (m : Melody) (config : BuzzerConfig) (start due : Nat) (s : BuzzerRun) (p : BuzzerPlan) : Prop where
  left : Left m (m.body config (UInt32.ofNat start)) s p.items
  tone : s.toneOn = p.toneOn
  quiet : s.waiting = false → s.toneOn = false
  begun : start ≤ due
  bound : due ≤ start + 30020

/-- No run is under way, and what was read is part of the melody. -/
structure BuzzerIdle (m : Melody) (s : BuzzerRun) : Prop where
  active : s.active = false
  reads : ∀ i ∈ s.reads, i < m.bytes.length

theorem Left.active {body : BuzzerBody} (h : Left m body s items) : s.active = true := by
  obtain ⟨_, _, _, _, hplayed, -⟩ := h
  exact hplayed.active

/-- The timer and the tone are no part of the position. -/
theorem Left.quiet {body : BuzzerBody} (h : Left m body s items) :
    Left m body { s with waiting := false, toneOn := false } items := by
  obtain ⟨front, played, todo, back, hplayed, hitems⟩ := h
  exact ⟨front, played, todo, back, ⟨hplayed.patterns, hplayed.active, hplayed.same, hplayed.repeats, hplayed.pattern,
    hplayed.stepCount, hplayed.step, hplayed.offset, hplayed.gap, hplayed.reads⟩, hitems⟩

/-- A call when the timer has run out stops the tone and goes on. -/
theorem odBuzzerService_late (on : UInt32 → Bool) (nowMs : UInt32) (hactive : s.active = true)
    (hreached : ∀ d, s.timer = some d → reached nowMs d = true) (hquiet : s.waiting = false → s.toneOn = false) :
    let out := loop (buzzerPass on nowMs) BuzzerRun.passes (buzzerPass_dec on nowMs)
      { s with waiting := false, toneOn := false }
    odBuzzerService on nowMs s = (out.1, stopActs s.body.config s.toneOn ++ out.2.1, out.2.2) := by
  have hlate : ¬ (s.waiting = true ∧ ¬ reached nowMs s.deadlineMs = true) := by
    rintro ⟨hwaiting, hearly⟩
    exact hearly (hreached _ (if_pos hwaiting))
  have hstop : (if s.waiting ∧ s.toneOn then stopTone s else ([], s)) =
      (stopActs s.body.config s.toneOn, { s with toneOn := false }) := by
    cases htone : s.toneOn with
    | false =>
      rw [if_neg (by simp), stopActs, if_neg (by decide), ← htone]
    | true =>
      have hwaiting : s.waiting = true := by
        cases hwaiting : s.waiting with
        | false => cases htone.symm.trans (hquiet hwaiting)
        | true => rfl
      rw [if_pos ⟨hwaiting, rfl⟩]
      rfl
  rw [odBuzzerService, if_neg (not_not.mpr hactive), if_neg hlate, hstop]

theorem body_elapsed (m : Melody) (config : BuzzerConfig) (hle : start ≤ t) (hlt : t < start + 2 ^ 32) :
    (m.body config (UInt32.ofNat start)).elapsed (UInt32.ofNat t) = t - start := sub_toNat hle hlt

theorem buzzerPlan_next {p : BuzzerPlan} :
    ((buzzerPlan config on start).next t p = none ↔ start + 30000 ≤ t ∨ p.items = []) ∧
      ∀ d p', (buzzerPlan config on start).next t p = some (d, p') → t < start + 30000 ∧ p.items = d.2 :: p'.items ∧
        d.1 = p.toneOn ∧ p'.toneOn = d.2.tone (on (UInt32.ofNat t)) := by
  simp only [buzzerPlan]
  by_cases hover : start + 30000 ≤ t
  · rw [if_pos hover]
    exact ⟨⟨fun _ => .inl hover, fun _ => rfl⟩, fun d p' h => (by cases h)⟩
  · rw [if_neg hover]
    cases hitems : p.items with
    | nil => exact ⟨⟨fun _ => .inr rfl, fun _ => rfl⟩, fun d p' h => (by cases h)⟩
    | cons i items =>
      refine ⟨⟨fun h => (by cases h), fun h => ?_⟩, fun d p' h => ?_⟩
      · rcases h with h | h
        · exact absurd h hover
        · cases h
      · obtain ⟨rfl, rfl⟩ := Prod.mk.inj (Option.some.inj h)
        exact ⟨Nat.not_le.mp hover, rfl, rfl, rfl⟩

theorem wait_le (i : BuzzerItem) (elapsed : Nat) : i.wait elapsed ≤ max 20 (30000 - elapsed) := by
  cases i with
  | step index units => exact (Nat.min_le_right _ _).trans (le_max_right _ _)
  | gap => exact le_max_left _ _

theorem odBuzzerService_follows (m : Melody) (config : BuzzerConfig) (on : UInt32 → Bool) (start : Nat) :
    Obeys (odBuzzerService on) (buzzerPlan config on start) (BuzzerSim m config start) BuzzerRun.timer
      (BuzzerIdle m) where
  idle now s h := by
    rw [odBuzzerService, if_pos (by simp [h.active])]
    rfl
  early now s p due d hsim htimer hearly := by
    have hwaiting : s.waiting = true := by
      cases hwaiting : s.waiting with
      | true => rfl
      | false =>
        rw [BuzzerRun.timer, hwaiting] at htimer
        cases htimer
    rw [BuzzerRun.timer, if_pos hwaiting] at htimer
    obtain rfl := Option.some.inj htimer
    rw [odBuzzerService, if_neg (not_not.mpr hsim.left.active), if_pos ⟨hwaiting, by rw [hearly]; decide⟩]
  finish t s p due hsim hle hlt hreached hnone := by
    have helapsed := body_elapsed m config (hsim.begun.trans hle) (show t < start + 2 ^ 32 by have := hsim.bound; omega)
    rcases buzzerLoop_spec on (UInt32.ofNat t) rfl m.count_toNat hsim.left.quiet rfl with ⟨i, items, hitems,
      hitem⟩ | hended
    · rcases buzzerPlan_next.1.mp hnone with hover | hempty
      · have := hitem.elapsed
        omega
      · cases hempty.symm.trans hitems
    · obtain ⟨reads, hout, hreads⟩ := hended.out
      refine ⟨{ reads := reads }, ?_, rfl, hreads⟩
      rw [odBuzzerService_late on _ hsim.left.active hreached hsim.quiet, hout, hsim.tone]
      obtain ⟨_, _, _, _, hplayed, -⟩ := hsim.left
      rw [hplayed.same]
      rfl
  next t s p due d p' hsim hle hlt hreached hsome := by
    have hbegun := hsim.begun
    have hbound := hsim.bound
    have helapsed := body_elapsed m config (hbegun.trans hle) (show t < start + 2 ^ 32 by omega)
    obtain ⟨hlate, hitems, hstop, htone⟩ := buzzerPlan_next.2 d p' hsome
    rcases buzzerLoop_spec on (UInt32.ofNat t) rfl m.count_toNat hsim.left.quiet rfl with ⟨i, items, hitems',
      hitem⟩ | hended
    · obtain ⟨rfl, rfl⟩ := List.cons.inj (hitems.symm.trans hitems')
      have hwait := hitem.wait
      have hle' := wait_le d.2 (t - start)
      have hreturned := hitem.returned
      have hdeadline := hitem.deadline
      rw [helapsed] at hwait hreturned hdeadline
      refine ⟨hwait, show d.2.wait (t - start) < 2 ^ 31 by omega, _, ?_, ?_, hitem.left, hitem.tone.trans htone.symm,
        fun hwaiting => (by cases hwaiting.symm.trans hitem.waiting), by omega,
        show t + d.2.wait (t - start) ≤ start + 30020 by omega⟩
      · rw [odBuzzerService_late on _ hsim.left.active hreached hsim.quiet]
        refine Prod.ext hreturned (Prod.ext ?_ rfl)
        obtain ⟨_, _, _, _, hplayed, -⟩ := hsim.left
        show stopActs s.body.config s.toneOn ++ _ = stopActs config d.1 ++ d.2.acts config
        rw [hitem.acts, hplayed.same, hsim.tone, hstop]
        rfl
      · rw [BuzzerRun.timer, if_pos hitem.waiting, hdeadline, ← UInt32.ofNat_add]
        rfl
    · rcases hended.finished with hover | hempty
      · omega
      · cases hempty.symm.trans hitems
  nonzero := show odBuzzerIdle ≠ 0 by decide

end Follow

section Order

variable {m : Melody} {config : BuzzerConfig} {on : UInt32 → Bool} {start : Nat}

/-- The step that sounds, or rests, as an item. -/
def BuzzerItem.sounded : BuzzerItem → Option BuzzerStep
  | .step index units => some ⟨index, units⟩
  | .gap => none

/-- The steps of some length, as often as the melody is played. -/
def Melody.sounded (m : Melody) : List BuzzerStep :=
  (List.replicate m.rounds (m.patterns.flatten.filter fun step => step.units ≠ 0)).flatten

def Melody.items (m : Melody) : List BuzzerItem := (List.replicate m.rounds m.round).flatten

theorem stepItems_sounded (steps : List BuzzerStep) :
    (stepItems steps).filterMap BuzzerItem.sounded = steps.filter fun step => step.units ≠ 0 := by
  rw [stepItems, List.filterMap_map]
  exact List.filterMap_some

theorem gapItems_sounded (patterns : List (List BuzzerStep)) :
    (gapItems patterns).filterMap BuzzerItem.sounded = patterns.flatten.filter fun step => step.units ≠ 0 := by
  induction patterns with
  | nil => rfl
  | cons steps patterns ih =>
    have hcons : gapItems (steps :: patterns) = .gap :: (stepItems steps ++ gapItems patterns) := rfl
    rw [hcons, List.filterMap_cons_none rfl, List.filterMap_append, stepItems_sounded, ih, List.flatten_cons,
      List.filter_append]

theorem items_sounded (m : Melody) : m.items.filterMap BuzzerItem.sounded = m.sounded := by
  obtain ⟨first, others, hfirst⟩ := List.exists_cons_of_ne_nil m.nonempty
  have hround : m.round.filterMap BuzzerItem.sounded = m.patterns.flatten.filter fun step => step.units ≠ 0 := by
    rw [← gapItems_sounded, Melody.round, hfirst]
    rfl
  rw [Melody.items, List.filterMap_flatten, List.map_replicate, hround]
  rfl

/-- What has been done and what is left is the melody. -/
theorem does_items {p q : BuzzerPlan} {done : List (Nat × Bool × BuzzerItem)}
    (h : (buzzerPlan config on start).Does p done q) :
    p.items = done.map (fun d => d.2.2) ++ q.items ∧ ∀ d ∈ done, d.1 < start + 30000 := by
  induction h with
  | nil => exact ⟨rfl, fun d hd => absurd hd List.not_mem_nil⟩
  | cons hnext _ ih =>
    obtain ⟨hlate, hitems, -, -⟩ := buzzerPlan_next.2 _ _ hnext
    refine ⟨?_, fun d hd => ?_⟩
    · rw [hitems, ih.1]
      rfl
    · rcases List.mem_cons.mp hd with rfl | hd
      · exact hlate
      · exact ih.2 d hd

end Order

section Run

variable {config : BuzzerConfig} {payload : BuzzerPayload} {m : Melody}

/-- An accepted melody is to be played from its first pattern on. -/
theorem melody_stands (config : BuzzerConfig) (hbytes : payload.bytes = m.bytes) (hshort : m.bytes.length ≤ 256)
    (s₀ : BuzzerRun) (start : Nat) :
    Awaits (BuzzerSim m config start) BuzzerRun.timer (BuzzerIdle m) start
      (odBuzzerActivate (some config) (some payload) (UInt32.ofNat start) s₀).2.2 (some (⟨m.items, false⟩, start)) := by
  obtain ⟨first, others, hfirst⟩ := List.exists_cons_of_ne_nil m.nonempty
  obtain ⟨hread, hbound⟩ := read_first hfirst
  have houter : (m.body config (UInt32.ofNat start)).outer.toNat = m.rounds := by
    show (if m.outer = 0 then (1 : UInt8) else m.outer).toNat = max m.outer.toNat 1
    by_cases hzero : m.outer = 0
    · rw [if_pos hzero, hzero]
      rfl
    · have hne : m.outer.toNat ≠ 0 := fun h => hzero (UInt8.toNat_inj.mp h)
      rw [if_neg hzero]
      omega
  have hpos : 0 < m.rounds := Nat.le_max_right _ _
  rw [odBuzzerActivate_melody hbytes hshort]
  refine ⟨⟨⟨[], [], first, others, ⟨hfirst, rfl, rfl, ?_, rfl, ?_, rfl, rfl, fun h => (by cases h), ?_⟩, ?_⟩,
    rfl, fun _ => rfl, le_rfl, by omega⟩, le_rfl, by omega, .inr ⟨rfl, rfl⟩⟩
  · rw [UInt8.lt_iff_toNat_lt, houter]
    exact hpos
  · show (m.bytes.getD 3 0).toNat = 0 + first.length
    rw [hread, UInt8.toNat_ofNat_of_lt' (m.counts first (by rw [hfirst]; simp)), Nat.zero_add]
  · exact fun i hi => List.mem_singleton.mp hi ▸ hbound
  · obtain ⟨k, hk⟩ : ∃ k, m.rounds = k + 1 := ⟨m.rounds - 1, by omega⟩
    show m.items = (stepItems first ++ gapItems others) ++
      (List.replicate ((m.body config (UInt32.ofNat start)).outer.toNat - 0 - 1) m.round).flatten
    rw [houter, hk, Melody.items, hk, List.replicate_succ, List.flatten_cons, Melody.round, hfirst]
    rfl

/-- What the calls at these times did: steps of the melody in their order, none after the time is
up, and the tone and the enable pin off at the end. -/
structure MelodyOrder (m : Melody) (config : BuzzerConfig) (start : Nat) (times : List Nat)
    (out : List (Call BuzzerAct) × BuzzerRun) (done : List (Nat × Bool × BuzzerItem)) : Prop where
  items : done.map (fun d => d.2.2) <+: m.items
  order : done.filterMap (fun d => d.2.2.sounded) <+: m.sounded
  started : ∀ d ∈ done, d.1 < start + 30000 ∧
    ∀ step, d.2.2.sounded = some step → d.1 + d.2.2.wait (d.1 - start) ≤ start + 30000
  spaced : done.IsChain fun d d' => d.1 + d.2.2.wait (d.1 - start) ≤ d'.1
  called : (done.map fun d => Call.mk d.1 (UInt32.ofNat (d.2.2.wait (d.1 - start)))
    (stopActs config d.2.1 ++ d.2.2.acts config)).Sublist out.1
  acts : ∃ toneOn, out.1.flatMap Call.acts = done.flatMap (fun d => stopActs config d.2.1 ++ d.2.2.acts config) ++
    if out.2.active then [] else stopActs config toneOn ++ offActs config
  idle : out.2.active = false →
    done.filterMap (fun d => d.2.2.sounded) = m.sounded ∨ ∃ t ∈ times, start + 30000 ≤ t

/-- When the item after these is due: when the last one is over. -/
def melodyDue (start : Nat) (done : List (Nat × Bool × BuzzerItem)) : Nat :=
  (done.getLast?.map fun d => d.1 + d.2.2.wait (d.1 - start)).getD start

/-- After these items a call sounds the step or begins the gap that comes next in the melody, or ends the run if
there is none or the time is up. -/
inductive MelodyGoesOn (m : Melody) (config : BuzzerConfig) (start : Nat) (items : List BuzzerItem) (t : Nat)
    (c : Call BuzzerAct) (s : BuzzerRun) : Prop where
  | next (i : BuzzerItem) (toneOn : Bool) : t < start + 30000 → items ++ [i] <+: m.items →
      c = ⟨t, UInt32.ofNat (i.wait (t - start)), stopActs config toneOn ++ i.acts config⟩ → s.active = true →
      MelodyGoesOn m config start items t c s
  | finish (toneOn : Bool) : start + 30000 ≤ t ∨ items = m.items →
      c = ⟨t, odBuzzerIdle, stopActs config toneOn ++ offActs config⟩ → s.active = false →
      MelodyGoesOn m config start items t c s

theorem step_wait_le {d : Nat × Bool × BuzzerItem} {start : Nat} {step : BuzzerStep} (h : d.2.2.sounded = some step)
    (hlt : d.1 < start + 30000) : d.1 + d.2.2.wait (d.1 - start) ≤ start + 30000 := by
  obtain ⟨t, stop, i⟩ := d
  cases i with
  | step index units =>
    have hle : (BuzzerItem.step index units).wait (t - start) ≤ 30000 - (t - start) := Nat.min_le_right _ _
    simp only at hlt ⊢
    omega
  | gap => cases h

/-- Where the runner stands after the calls: the reads so far, and the pins of the melody. -/
theorem stands_melody {last : Nat} {s : BuzzerRun} {start : Nat} {a : Option (BuzzerPlan × Nat)}
    (h : Awaits (BuzzerSim m config start) BuzzerRun.timer (BuzzerIdle m) last s a) :
    (∀ i ∈ s.reads, i < m.bytes.length) ∧ s.active = a.isSome ∧ (s.active = true → s.body.config = config) := by
  cases a with
  | none =>
    have hidle : BuzzerIdle m s := h
    exact ⟨hidle.reads, hidle.active, fun hactive => (by cases hactive.symm.trans hidle.active)⟩
  | some a =>
    obtain ⟨p, due⟩ := a
    obtain ⟨_, _, _, _, hplayed, -⟩ := h.1.left
    exact ⟨hplayed.reads, hplayed.active, fun _ => congrArg BuzzerBody.config hplayed.same⟩

/-- A call that is not early goes on, from wherever the calls before it have come. -/
theorem performs_melody {last start t : Nat} {cs : List (Call BuzzerAct)} {a : Option (BuzzerPlan × Nat)}
    {done : List (Nat × Bool × BuzzerItem)} {on : UInt32 → Bool} {s : BuzzerRun}
    (h : (buzzerPlan config on start).Performs ⟨m.items, false⟩ start cs a done)
    (hstands : Awaits (BuzzerSim m config start) BuzzerRun.timer (BuzzerIdle m) last s a) (hactive : s.active = true)
    (hle : last ≤ t) (hlt : t < last + 2 ^ 31) (hdue : melodyDue start done ≤ t) :
    MelodyGoesOn m config start (done.map fun d => d.2.2) t (call (odBuzzerService on) s t).1
      (call (odBuzzerService on) s t).2 := by
  cases a with
  | none =>
    have hidle : BuzzerIdle m s := hstands
    cases hactive.symm.trans hidle.active
  | some a =>
    obtain ⟨p, due⟩ := a
    obtain ⟨q, hdoes, hleft, -, -⟩ := h.does
    obtain rfl : p = q := hleft p due rfl
    obtain ⟨hitems, -⟩ := does_items hdoes
    have hreached : due ≤ t := (h.dueNext p due rfl).trans_le hdue
    rcases hstands.due (odBuzzerService_follows m config on start) hle hlt hreached with
      ⟨hnone, hcall, hidle⟩ | ⟨d, p', hnext, hcall, hawaits⟩
    · refine .finish p.toneOn ((buzzerPlan_next.1.mp hnone).imp_right fun hempty => ?_) hcall hidle.active
      rw [hempty, List.append_nil] at hitems
      exact hitems.symm
    · obtain ⟨hearly, hp, -, -⟩ := buzzerPlan_next.2 d p' hnext
      refine .next d.2 d.1 hearly ⟨p'.items, ?_⟩ hcall hawaits.1.left.active
      rw [show m.items = _ from hitems, hp, List.append_assoc]
      rfl

theorem melody_order (on : UInt32 → Bool) (config : BuzzerConfig) (hbytes : payload.bytes = m.bytes)
    (hshort : m.bytes.length ≤ 256) (s₀ : BuzzerRun) {start : Nat} {times : List Nat} (hgaps : Gapped start times) :
    let s := (odBuzzerActivate (some config) (some payload) (UInt32.ofNat start) s₀).2.2
    let out := calls (odBuzzerService on) s times
    ∃ done, MelodyOrder m config start times out done ∧
      ∀ t, Gapped start (times ++ [t]) → out.2.active = true → melodyDue start done ≤ t →
        MelodyGoesOn m config start (done.map fun d => d.2.2) t (call (odBuzzerService on) out.2 t).1
          (call (odBuzzerService on) out.2 t).2 := by
  intro s out
  obtain ⟨hcalls, hstands, -⟩ := (melody_stands config hbytes hshort s₀ start).calls
    (odBuzzerService_follows m config on start) hgaps
  obtain ⟨done, hperforms⟩ := (buzzerPlan config on start).calls_performs ⟨m.items, false⟩ start times
  have htimes := calls_time (odBuzzerService on) s times
  obtain ⟨-, hactive, -⟩ := stands_melody hstands
  generalize (buzzerPlan config on start).calls (some (⟨m.items, false⟩, start)) times = planned at *
  have hcalls : out.1 = planned.1 := hcalls
  have hactive : out.2.active = planned.2.isSome := hactive
  obtain ⟨q, hdoes, -, hover, hacts⟩ := hperforms.does
  obtain ⟨hitems, hlate⟩ := does_items hdoes
  have hsounded : done.filterMap (fun d => d.2.2.sounded) ++ q.items.filterMap BuzzerItem.sounded = m.sounded := by
    rw [← items_sounded, show m.items = _ from hitems, List.filterMap_append, List.filterMap_map]
    rfl
  refine ⟨done, ⟨⟨q.items, hitems.symm⟩, ⟨_, hsounded⟩,
    fun d hd => ⟨hlate d hd, fun step hstep => step_wait_le hstep (hlate d hd)⟩, hperforms.spaced,
    hcalls ▸ hperforms.called, ⟨q.toneOn, ?_⟩, fun hidle => ?_⟩, fun t hlater hgoing hdue => ?_⟩
  · rw [hcalls, hacts, hactive]
    cases planned.2 <;> rfl
  · rw [hactive] at hidle
    obtain ⟨c, hc, hnone⟩ := hover (Option.not_isSome_iff_eq_none.mp (by rw [hidle]; exact Bool.false_ne_true))
    rcases buzzerPlan_next.1.mp hnone with htime | hempty
    · rw [← hcalls] at hc
      exact .inr ⟨c.time, htimes ▸ List.mem_map_of_mem hc, htime⟩
    · rw [hempty] at hsounded
      exact .inl ((List.append_nil _).symm.trans hsounded)
  · obtain ⟨-, -, hle, hlt⟩ := hlater.snoc
    exact performs_melody hperforms hstands hgoing hle hlt hdue

/-- A payload is accepted if it is a melody of no more than 256 bytes, and then, however the runner
is called, it plays the steps of the patterns in their order, as often as they repeat, each at the
first call after the one before is over, and reads nothing outside the payload; no step starts when
the time is up or runs past it, and when it is idle or has been stopped it has switched the tone and
the enable pin off last. -/
theorem odBuzzerService_melody (on : UInt32 → Bool) (config : BuzzerConfig) (payload : BuzzerPayload)
    (s₀ : BuzzerRun) (start : Nat) (times : List Nat) (hgaps : Gapped start times) :
    let activated := odBuzzerActivate (some config) (some payload) (UInt32.ofNat start) s₀
    let out := calls (odBuzzerService on) activated.2.2 times
    (activated.1 = 0 ↔ payload.bytes.length ≤ 256 ∧ ∃ m : Melody, payload.bytes = m.bytes) ∧
    (∀ config payload nowMs s, (odBuzzerActivate config payload nowMs s).1 ≠ 0 →
      (odBuzzerActivate config payload nowMs s).2 = ([], s)) ∧
    (∀ m : Melody, payload.bytes = m.bytes → payload.bytes.length ≤ 256 →
      (∀ i ∈ out.2.reads, i < payload.bytes.length) ∧
      (∃ done, MelodyOrder m config start times out done ∧
        ∀ t, Gapped start (times ++ [t]) → out.2.active = true → melodyDue start done ≤ t →
          MelodyGoesOn m config start (done.map fun d => d.2.2) t (call (odBuzzerService on) out.2 t).1
            (call (odBuzzerService on) out.2 t).2) ∧
      (out.2.active = false → offActs config <:+ out.1.flatMap Call.acts) ∧
      (offActs config <:+ out.1.flatMap Call.acts ++ (odBuzzerStop out.2).1)) ∧
    ∀ nowMs s, ∃ n ≤ 131072, Stops (buzzerPass on nowMs) n s
      (loop (buzzerPass on nowMs) BuzzerRun.passes (buzzerPass_dec on nowMs) s) := by
  intro activated out
  refine ⟨odBuzzerActivate_accepts, fun _ _ _ _ => odBuzzerActivate_refuses, fun m hbytes hshort => ?_,
    fun nowMs s => ?_⟩
  · rw [hbytes] at hshort
    obtain ⟨-, hstands, -⟩ := (melody_stands config hbytes hshort s₀ start).calls
      (odBuzzerService_follows m config on start) hgaps
    obtain ⟨hreads, -, hconfig⟩ := stands_melody hstands
    obtain ⟨done, horder, hgoes⟩ := melody_order on config hbytes hshort s₀ hgaps
    have hidle : out.2.active = false → offActs config <:+ out.1.flatMap Call.acts := by
      intro hidle
      obtain ⟨toneOn, hacts⟩ := horder.acts
      have hacts :
        out.1.flatMap Call.acts = _ ++ if out.2.active then [] else stopActs config toneOn ++ offActs config := hacts
      rw [hacts, hidle, if_neg Bool.false_ne_true, ← List.append_assoc]
      exact List.suffix_append _ _
    refine ⟨fun i hi => hbytes ▸ hreads i hi, ⟨done, horder, hgoes⟩, hidle, ?_⟩
    cases hactive : out.2.active with
    | false =>
      rw [odBuzzerStop, buzzerFinish, hactive, if_neg Bool.false_ne_true, List.append_nil]
      exact hidle hactive
    | true =>
      have hconfig : out.2.body.config = config := hconfig hactive
      rw [odBuzzerStop, buzzerFinish, hactive, if_pos rfl, stopTone, hconfig]
      exact List.suffix_append _ _
  · obtain ⟨n, hn, hstops⟩ := loop_stops (d := buzzerPass_dec on nowMs) s
    have houter := s.body.outer.toNat_lt
    have hcount := s.stepCount.toNat_lt
    have hpasses : s.passes ≤ 131071 := by
      rw [BuzzerRun.passes]
      split <;> omega
    exact ⟨n, by omega, hstops⟩

/-- Two patterns, twice over, with a step of no length in the first: the tone and the rest are sounded twice, and
then the runner is idle and has switched everything off. -/
theorem odBuzzerService_melody_two_patterns :
    let out := calls (odBuzzerService fun _ => true) (odBuzzerActivate (some {}) (some
      ⟨[0, 2, 2, 2, 120, 10, 0, 0, 1, 0, 4], by decide⟩) (UInt32.ofNat 7) {}).2.2 [7, 57, 77, 97, 147, 200, 220]
    out.2.active = false ∧ offActs {} <:+ out.1.flatMap Call.acts ∧
      ∃ (m : Melody) (done : List (Nat × Bool × BuzzerItem)),
        MelodyOrder m {} 7 [7, 57, 77, 97, 147, 200, 220] out done ∧
        done.filterMap (fun d => d.2.2.sounded) = [⟨120, 10⟩, ⟨0, 4⟩, ⟨120, 10⟩, ⟨0, 4⟩] := by
  intro out
  have hidle : out.2.active = false := by decide +kernel
  obtain ⟨-, ⟨done, horder, -⟩, hoff, -⟩ := (odBuzzerService_melody (fun _ => true) {}
    ⟨[0, 2, 2, 2, 120, 10, 0, 0, 1, 0, 4], by decide⟩ {} 7 [7, 57, 77, 97, 147, 200, 220] (by simp [Gapped])).2.2.1
    ⟨0, 2, [[⟨120, 10⟩, ⟨0, 0⟩], [⟨0, 4⟩]], by simp, by simp, by simp⟩ (by decide) (by decide)
  refine ⟨hidle, hoff hidle, _, done, horder, ?_⟩
  rcases horder.idle hidle with hwhole | ⟨t, ht, hlate⟩
  · exact hwhole.trans (by decide)
  · have hbound : ∀ t ∈ [7, 57, 77, 97, 147, 200, 220], t < 30007 := by decide
    exact absurd (hbound t ht) (Nat.not_lt.mpr hlate)

end Run

end OpenDisplay
