import OpenDisplay.Lib.Loop
import OpenDisplay.Lib.Schedule
import OpenDisplay.Wire

/-! The runner of a melody: patterns of steps, each a pitch and a duration, with a gap between
patterns, the whole repeated; one timed item for each call. The payload is checked once and
then read by offset. -/

namespace OpenDisplay

open Loops Schedules

def odBuzzerIdle : UInt32 := 0xFFFFFFFF
def odBuzzerPayloadMax : Nat := 256
def odBuzzerMaxTotalMs : UInt32 := 30000
def odBuzzerDurationUnitMs : UInt32 := 5
def odBuzzerInterPatternMs : UInt32 := 20
def odBuzzerFlagEnableActiveHigh : UInt8 := 0x01
def odPinUnused : UInt8 := 0xFF

section Pitch

set_option maxRecDepth 2000 in
/-- Quarter tones in hundredths of a Hertz; the first is the rest. -/
def sCentihz : Vector UInt32 256 := #v[
  0, 1415, 1457, 1499, 1543, 1589, 1635, 1683, 1732, 1783, 1835, 1889, 1945, 2002, 2060, 2121,
  2183, 2247, 2312, 2380, 2450, 2522, 2596, 2672, 2750, 2831, 2914, 2999, 3087, 3177, 3270, 3366,
  3465, 3566, 3671, 3778, 3889, 4003, 4120, 4241, 4365, 4493, 4625, 4760, 4900, 5044, 5191, 5343,
  5500, 5661, 5827, 5998, 6174, 6354, 6541, 6732, 6930, 7133, 7342, 7557, 7778, 8006, 8241, 8482,
  8731, 8987, 9250, 9521, 9800, 10087, 10383, 10687, 11000, 11322, 11654, 11996, 12347, 12709, 13081, 13465,
  13859, 14265, 14683, 15113, 15556, 16012, 16481, 16964, 17461, 17973, 18500, 19042, 19600, 20174, 20765, 21374,
  22000, 22645, 23308, 23991, 24694, 25418, 26163, 26929, 27718, 28530, 29366, 30227, 31113, 32024, 32963, 33929,
  34923, 35946, 36999, 38084, 39200, 40348, 41530, 42747, 44000, 45289, 46616, 47982, 49388, 50836, 52325, 53858,
  55437, 57061, 58733, 60454, 62225, 64049, 65926, 67857, 69846, 71892, 73999, 76167, 78399, 80696, 83061, 85495,
  88000, 90579, 93233, 95965, 98777, 101671, 104650, 107717,
  110873, 114122, 117466, 120908, 124451, 128097, 131851, 135715,
  139691, 143785, 147998, 152334, 156798, 161393, 166122, 170990,
  176000, 181157, 186466, 191929, 197553, 203342, 209300, 215433,
  221746, 228244, 234932, 241816, 248902, 256195, 263702, 271429,
  279383, 287569, 295996, 304669, 313596, 322785, 332244, 341979,
  352000, 362314, 372931, 383859, 395107, 406684, 418601, 430867,
  443492, 456488, 469864, 483632, 497803, 512390, 527404, 542858,
  558765, 575138, 591991, 609338, 627193, 645571, 664488, 683958,
  704000, 724629, 745862, 767717, 790213, 813368, 837202, 861734,
  886984, 912975, 939727, 967263, 995606, 1024780, 1054808, 1085716,
  1117530, 1150276, 1183982, 1218675, 1254385, 1291142, 1328975, 1367917,
  1408000, 1449258, 1491724, 1535435, 1580427, 1626737, 1674404, 1723467,
  1773969, 1825950, 1879455, 1934527, 1991213, 2049560, 2109616, 2171433]

def odBuzzerMinIndex : Nat := 117
def odBuzzerMaxIndex : Nat := 234

def foldUp (folded : Nat) : Nat := if folded < odBuzzerMinIndex then foldUp (folded + 24) else folded
termination_by odBuzzerMinIndex - folded

def foldDown (folded : Nat) : Nat := if folded > odBuzzerMaxIndex then foldDown (folded - 24) else folded
termination_by folded
decreasing_by simp only [odBuzzerMaxIndex] at *; omega

def foldIndex (index : UInt8) : UInt8 := if index = 0 then 0 else UInt8.ofNat (foldDown (foldUp index.toNat))

def odBuzzerIndexCentihz (index : UInt8) : UInt32 := sCentihz.get ⟨(foldIndex index).toNat, (foldIndex index).toNat_lt⟩

end Pitch

structure BuzzerConfig where
  drivePin : UInt8 := 0
  enablePin : UInt8 := 0
  flags : UInt8 := 0
  dutyPercent : UInt8 := 0
deriving DecidableEq

/-- What goes to the hardware. -/
inductive BuzzerAct where
  | toneStart (drivePin : UInt8) (centihz : UInt32) (dutyPercent : UInt8)
  | toneStop (drivePin : UInt8)
  | enableWrite (enablePin : UInt8) (levelHigh : Bool)
deriving DecidableEq

inductive BuzzerPhase where
  | step | gap
deriving DecidableEq

/-- What an accepted melody sets, and nothing changes until the next one. -/
structure BuzzerBody where
  config : BuzzerConfig := {}
  payload : List UInt8 := []
  outer : UInt8 := 0
  patternCount : UInt8 := 0
  startedMs : UInt32 := 0
deriving DecidableEq

/-- `reads` is not a field of the source: it lists the offsets of the payload that the runner
has read since the melody was accepted. -/
structure BuzzerRun where
  active : Bool := false
  waiting : Bool := false
  toneOn : Bool := false
  body : BuzzerBody := {}
  repeats : UInt8 := 0
  pattern : UInt8 := 0
  offset : Nat := 0
  stepCount : UInt8 := 0
  step : UInt8 := 0
  phase : BuzzerPhase := .step
  deadlineMs : UInt32 := 0
  reads : List Nat := []
deriving DecidableEq

section Model

def setEnable (config : BuzzerConfig) (on : Bool) : List BuzzerAct :=
  if config.enablePin = odPinUnused then []
  else if config.flags &&& odBuzzerFlagEnableActiveHigh = 0 then [.enableWrite config.enablePin !on]
  else [.enableWrite config.enablePin on]

def stopTone (s : BuzzerRun) : List BuzzerAct × BuzzerRun :=
  ([.toneStop s.body.config.drivePin], { s with toneOn := false })

def buzzerFinish (s : BuzzerRun) : List BuzzerAct × BuzzerRun :=
  (if s.active then (stopTone s).1 ++ setEnable s.body.config false else [], { reads := s.reads })

def odBuzzerStop (s : BuzzerRun) : List BuzzerAct × BuzzerRun := buzzerFinish s

/-- The lengths of so many patterns are followed from `scan` on; where they end, or the error. -/
def buzzerScan (payload : List UInt8) : Nat → Nat → Except Nat Nat
  | 0, scan => .ok scan
  | patterns + 1, scan =>
    if h : scan < payload.length then
      let needed := (payload.get ⟨scan, h⟩).toNat * 2
      if scan + 1 + needed > payload.length then .error 5 else buzzerScan payload patterns (scan + 1 + needed)
    else .error 5

/-- The length of the payload is a 16-bit word. -/
structure BuzzerPayload where
  bytes : List UInt8
  short : bytes.length < 2 ^ 16

def odBuzzerActivate (config : Option BuzzerConfig) (payload : Option BuzzerPayload) (nowMs : UInt32) (s : BuzzerRun) :
    Nat × List BuzzerAct × BuzzerRun :=
  match config, payload with
  | some config, some payload =>
    match payload.bytes with
    | _ :: outer :: count :: _ =>
      if count = 0 then (4, [], s)
      else
        match buzzerScan payload.bytes count.toNat 3 with
        | .error e => (e, [], s)
        | .ok scan =>
          if scan ≠ payload.bytes.length then (6, [], s)
          else if payload.bytes.length > odBuzzerPayloadMax then (5, [], s)
          else
            (0, (buzzerFinish s).1,
              { active := true
                body :=
                  { config := config, payload := payload.bytes, outer := if outer = 0 then 1 else outer
                    patternCount := count, startedMs := nowMs }
                offset := 4, stepCount := payload.bytes.getD 3 0, deadlineMs := nowMs, reads := [3] })
    | _ => (1, [], s)
  | _, _ => (1, [], s)

/-- The byte of the payload at an offset, which nothing checks here. -/
def BuzzerRun.read (s : BuzzerRun) (offset : Nat) : UInt8 := s.body.payload.getD offset 0

def buzzerSchedule (nowMs delayMs : UInt32) (acts : List BuzzerAct) (s : BuzzerRun) :
    Iter BuzzerRun (UInt32 × List BuzzerAct × BuzzerRun) :=
  .stop (delayMs, acts, { s with waiting := true, deadlineMs := nowMs + delayMs })

def buzzerOver (s : BuzzerRun) : Iter BuzzerRun (UInt32 × List BuzzerAct × BuzzerRun) :=
  .stop (odBuzzerIdle, (buzzerFinish s).1, (buzzerFinish s).2)

/-- A call starts one tone at most: `on` is what the hardware answers to it, by the time of the call. -/
def buzzerPass (on : UInt32 → Bool) (nowMs : UInt32) (s : BuzzerRun) :
    Iter BuzzerRun (UInt32 × List BuzzerAct × BuzzerRun) :=
  let elapsed := nowMs - s.body.startedMs
  if elapsed ≥ odBuzzerMaxTotalMs then buzzerOver s
  else if s.phase = .gap then
    .next { s with
      pattern := s.pattern + 1, stepCount := s.read s.offset, offset := s.offset + 1, step := 0, phase := .step
      reads := s.reads ++ [s.offset] }
  else if s.step < s.stepCount then
    let index := s.read s.offset
    let units := s.read (s.offset + 1)
    let remainingMs := odBuzzerMaxTotalMs - elapsed
    let durationMs := min (units.toUInt32 * odBuzzerDurationUnitMs) remainingMs
    let s := { s with offset := s.offset + 2, step := s.step + 1, reads := s.reads ++ [s.offset, s.offset + 1] }
    if durationMs = 0 then .next s
    else
      let enable := setEnable s.body.config true
      let centihz := odBuzzerIndexCentihz index
      if centihz ≠ 0 then
        buzzerSchedule nowMs durationMs
          (enable ++ [.toneStart s.body.config.drivePin centihz s.body.config.dutyPercent])
          { s with toneOn := on nowMs }
      else buzzerSchedule nowMs durationMs (enable ++ (stopTone s).1) (stopTone s).2
  else if s.pattern + 1 < s.body.patternCount then
    buzzerSchedule nowMs odBuzzerInterPatternMs [] { s with phase := .gap }
  else
    let s := { s with repeats := s.repeats + 1 }
    if s.repeats ≥ s.body.outer then buzzerOver s
    else
      .next { s with pattern := 0, offset := 4, stepCount := s.read 3, step := 0, reads := s.reads ++ [3] }

/-- What a call can still pass through: repetitions, then a gap, then the steps of a pattern. -/
def BuzzerRun.passes (s : BuzzerRun) : Nat :=
  (s.body.outer.toNat - (s.repeats + 1).toNat) * 512 + (if s.phase = .gap then 256 else 0) +
    (s.stepCount.toNat - s.step.toNat)

theorem buzzerPass_dec (on : UInt32 → Bool) (nowMs : UInt32) (s s' : BuzzerRun) (h : buzzerPass on nowMs s = .next s') :
    s'.passes < s.passes := by
  have hsucc : ∀ n : UInt8, (n + 1).toNat = (n.toNat + 1) % 256 := fun n => UInt8.toNat_add n 1
  have hcount := s.stepCount.toNat_lt
  simp only [buzzerPass, buzzerOver, buzzerSchedule] at h
  split_ifs at h with hover hgap hstep hzero htone hpattern hrepeats
  · have hread := (s.read s.offset).toNat_lt
    obtain rfl := Iter.next.inj h
    simp only [BuzzerRun.passes, if_pos hgap, reduceCtorEq, if_false]
    show _ + 0 + ((s.read s.offset).toNat - 0) < _
    omega
  · have hstep := UInt8.lt_iff_toNat_lt.mp hstep
    obtain rfl := Iter.next.inj h
    simp only [BuzzerRun.passes, if_neg hgap, hsucc]
    omega
  · have hrepeats := UInt8.lt_iff_toNat_lt.mp (UInt8.not_le.mp hrepeats)
    have hread := (s.read 3).toNat_lt
    have houter := s.body.outer.toNat_lt
    rw [hsucc] at hrepeats
    obtain rfl := Iter.next.inj h
    simp only [BuzzerRun.passes, if_neg hgap, hsucc]
    show _ + 0 + ((BuzzerRun.read _ 3).toNat - 0) < _
    simp only [BuzzerRun.read] at *
    omega

def odBuzzerService (on : UInt32 → Bool) (nowMs : UInt32) (s : BuzzerRun) : UInt32 × List BuzzerAct × BuzzerRun :=
  if ¬ s.active then (odBuzzerIdle, [], s)
  else if s.waiting ∧ ¬ reached nowMs s.deadlineMs then (s.deadlineMs - nowMs, [], s)
  else
    let (stop, s) := if s.waiting ∧ s.toneOn then stopTone s else ([], s)
    let (returned, acts, s) :=
      loop (buzzerPass on nowMs) BuzzerRun.passes (buzzerPass_dec on nowMs) { s with waiting := false }
    (returned, stop ++ acts, s)

end Model

end OpenDisplay
