import OpenDisplay.Watchdog.Model

/-! Strikes over any history of boots: the byte always holds the count and the last phase. -/

namespace OpenDisplay

section Byte

theorem forall_uint8_lt {P : UInt8 → Prop} {n : Nat} (h : ∀ i : Fin n, P (UInt8.ofNat i)) {x : UInt8}
    (hx : x.toNat < n) : P x := by
  have hi := h ⟨x.toNat, hx⟩
  rwa [UInt8.ofNat_toNat] at hi

variable {strikes phase : UInt8}

theorem retainedPack_fields (hs : strikes.toNat < 4) (hp : phase.toNat < 16) :
    odWatchdogRetainedValid (odWatchdogRetainedPack strikes phase) = true ∧
      odWatchdogRetainedStrikes (odWatchdogRetainedPack strikes phase) = strikes ∧
      odWatchdogRetainedPhase (odWatchdogRetainedPack strikes phase) = phase := by
  revert hp
  revert phase
  apply forall_uint8_lt (x := strikes) (n := 4) _ hs
  intro i phase hp
  apply forall_uint8_lt (x := phase) (n := 16) _ hp
  revert i
  decide

theorem retained_unpack {byte : UInt8} (h : odWatchdogRetainedValid byte = true) :
    odWatchdogRetainedPack (odWatchdogRetainedStrikes byte) (odWatchdogRetainedPhase byte) = byte ∧
      (odWatchdogRetainedStrikes byte).toNat < 4 ∧ (odWatchdogRetainedPhase byte).toNat < 16 := by
  revert h
  apply forall_uint8_lt (x := byte) (n := 256) _ byte.toNat_lt
  decide +kernel

theorem retainedPack_set_strikes {n : UInt8} (hn : n.toNat < 4) (hs : strikes.toNat < 4) (hp : phase.toNat < 16) :
    (odWatchdogRetainedPack strikes phase &&& ~~~odWdtRetainedCntMask) |||
      ((n <<< odWdtRetainedCntShift) &&& odWdtRetainedCntMask) = odWatchdogRetainedPack n phase := by
  revert hp hs
  revert phase strikes
  apply forall_uint8_lt (x := n) (n := 4) _ hn
  intro i strikes phase hs hp
  revert hp
  revert phase
  apply forall_uint8_lt (x := strikes) (n := 4) _ hs
  intro j phase hp
  apply forall_uint8_lt (x := phase) (n := 16) _ hp
  revert i j
  decide +kernel

theorem retainedPack_set_phase {q : UInt8} (hs : strikes.toNat < 4) (hp : phase.toNat < 16) (hq : q.toNat < 16) :
    (odWatchdogRetainedPack strikes phase &&& ~~~odWdtRetainedPhaseMask) ||| (q &&& odWdtRetainedPhaseMask) =
      odWatchdogRetainedPack strikes q := by
  revert hp hq
  revert phase q
  apply forall_uint8_lt (x := strikes) (n := 4) _ hs
  intro i phase q hp hq
  revert hq
  revert q
  apply forall_uint8_lt (x := phase) (n := 16) _ hp
  intro j q hq
  apply forall_uint8_lt (x := q) (n := 16) _ hq
  revert i j
  decide +kernel

theorem phase_lt (phase : UInt8) : (phase &&& odWdtRetainedPhaseMask).toNat < 16 := by
  rw [UInt8.toNat_and]
  exact Nat.lt_succ_of_le Nat.and_le_right

end Byte

section History

/-- A store that works. -/
def keptByte : HalWdt UInt8 where
  read h := some h
  write value _ := (true, value)

/-- A reset has a cause, and may have cost the byte: what is found then is not ours. -/
structure Boot where
  reason : UInt32
  nowMs : UInt32
  lost : Option { byte : UInt8 // odWatchdogRetainedValid byte = false } := none

inductive WdtOp where
  | boot (boot : Boot)
  | breadcrumb (phase : UInt8)
  | feed (nowMs : UInt32)
  | arm (rc : HalWdtArmResult)

structure WdtWorld where
  dog : Watchdog
  byte : UInt8
  report : WatchdogBootReport

def Boot.found (boot : Boot) (byte : UInt8) : UInt8 := (boot.lost.map (·.val)).getD byte

def bootOver (byte : UInt8) (boot : Boot) : WdtWorld :=
  let (dog, report, byte) := odWatchdogBootInit keptByte boot.reason boot.nowMs (boot.found byte)
  ⟨dog, byte, report⟩

def wdtStep (w : WdtWorld) : WdtOp → WdtWorld
  | .boot boot => bootOver w.byte boot
  | .breadcrumb phase =>
    let (dog, byte) := odWatchdogBreadcrumb keptByte w.dog phase w.byte
    { w with dog := dog, byte := byte }
  | .feed nowMs =>
    let (dog, byte) := odWatchdogFeed keptByte w.dog nowMs w.byte
    { w with dog := dog, byte := byte }
  | .arm rc => { w with dog := odWatchdogArm rc w.dog }

/-- A device's history, from its first boot over whatever the byte was. -/
def wdtRun (byte : UInt8) (first : Boot) (ops : List WdtOp) : WdtWorld := ops.foldl wdtStep (bootOver byte first)

def Boot.byWatchdog (boot : Boot) : Bool := boot.reason &&& odHalWdtResetWatchdog ≠ 0

/-- What the history says: the watchdog resets in a row, now and at the last boot, that boot's time, the last phase
that was stamped, now and before that boot. -/
structure WdtPast where
  resets : Nat
  stamped : Option UInt8
  atBoot : Nat := 0
  bootMs : UInt32 := 0
  before : Option UInt8 := none

/-- A byte of ours tells what was before the history. -/
def pastOf (byte : UInt8) : WdtPast :=
  if odWatchdogRetainedValid byte then
    { resets := (odWatchdogRetainedStrikes byte).toNat, stamped := some (odWatchdogRetainedPhase byte) }
  else { resets := 0, stamped := none }

/-- A lost byte is where a count starts again. -/
def WdtPast.found (g : WdtPast) (boot : Boot) : WdtPast :=
  if boot.lost.isSome then { g with resets := 0, stamped := none } else g

def WdtPast.boot (g : WdtPast) (boot : Boot) : WdtPast :=
  let g := g.found boot
  let resets := if boot.byWatchdog then g.resets + 1 else 0
  { resets := resets, atBoot := resets, bootMs := boot.nowMs, before := g.stamped, stamped := some odWdtPhaseIdle }

def pastStep (g : WdtPast) : WdtOp → WdtPast
  | .boot boot => g.boot boot
  | .breadcrumb phase => { g with stamped := some (phase &&& odWdtRetainedPhaseMask) }
  | .feed nowMs => if odWdtHealthyMs ≤ nowMs - g.bootMs then { g with resets := 0 } else g
  | .arm _ => g

def wdtPast (byte : UInt8) (first : Boot) (ops : List WdtOp) : WdtPast := ops.foldl pastStep ((pastOf byte).boot first)

/-- The byte holds what the past says, or is not ours. -/
def Remembered (byte : UInt8) (g : WdtPast) : Prop :=
  odWatchdogRetainedValid byte = true ∧ (odWatchdogRetainedStrikes byte).toNat = min 3 g.resets ∧
      g.stamped = some (odWatchdogRetainedPhase byte) ∨
    odWatchdogRetainedValid byte = false ∧ g.resets = 0 ∧ g.stamped = none

structure WdtSound (w : WdtWorld) (g : WdtPast) : Prop where
  usable : w.dog.retainedUsable = true
  strikes : w.dog.strikes.toNat = min 3 g.resets
  stamped : g.stamped = some w.dog.lastPhase
  phase : w.dog.lastPhase.toNat < 16
  byte : w.byte = odWatchdogRetainedPack w.dog.strikes w.dog.lastPhase
  clear : w.dog.strikesToClear = true ↔ w.dog.strikes ≠ 0
  bootMs : w.dog.bootMs = g.bootMs
  safe : w.dog.safeMode = true ↔ 3 ≤ g.atBoot
  report : w.report.strikes.toNat = min 3 g.atBoot ∧ w.report.breadcrumbValid = g.before.isSome ∧
    w.report.prevPhase = g.before.getD 0

theorem pastOf_remembered (byte : UInt8) : Remembered byte (pastOf byte) := by
  unfold pastOf
  by_cases h : odWatchdogRetainedValid byte = true
  · rw [if_pos h]
    have hlt := (retained_unpack h).2.1
    exact .inl ⟨h, by dsimp only; omega, rfl⟩
  · rw [if_neg h]
    exact .inr ⟨Bool.eq_false_iff.mpr h, rfl, rfl⟩

theorem WdtSound.strikes_lt {w : WdtWorld} {g : WdtPast} (h : WdtSound w g) : w.dog.strikes.toNat < 4 := by
  rw [h.strikes]
  omega

theorem WdtSound.remembered {w : WdtWorld} {g : WdtPast} (h : WdtSound w g) : Remembered w.byte g := by
  obtain ⟨hvalid, hstrikes, hphase⟩ := retainedPack_fields h.strikes_lt h.phase
  rw [← h.byte] at hvalid hstrikes hphase
  exact .inl ⟨hvalid, by rw [hstrikes, h.strikes], by rw [hphase, h.stamped]⟩

theorem Remembered.found {byte : UInt8} {g : WdtPast} (h : Remembered byte g) (boot : Boot) :
    Remembered (boot.found byte) (g.found boot) := by
  obtain ⟨reason, nowMs, lost⟩ := boot
  cases lost with
  | none => exact h
  | some lost => exact .inr ⟨lost.2, rfl, rfl⟩

section Fields

variable {s : Watchdog} {k p : UInt8}

theorem strikesStore_saturates (n byte : UInt8) :
    strikesStore keptByte s n byte = strikesStore keptByte s (if n > 3 then 3 else n) byte := by
  unfold strikesStore
  by_cases hbig : n > 3
  · rw [if_pos hbig]
    rfl
  · rw [if_neg hbig]
    dsimp only
    rw [if_neg hbig]

theorem strikesStore_pack (hs : s.retainedUsable = true) {n : UInt8} (hn : n.toNat < 4) (hk : k.toNat < 4)
    (hp : p.toNat < 16) :
    strikesStore keptByte s n (odWatchdogRetainedPack k p) = odWatchdogRetainedPack n p := by
  have hvalid := (retainedPack_fields hk hp).1
  have hle : ¬ n > 3 := by
    rw [gt_iff_lt, UInt8.lt_iff_toNat_lt]
    exact Nat.not_lt.mpr (Nat.lt_succ_iff.mp hn)
  rw [strikesStore, if_neg hle, retainedUpdate, if_neg (not_not.mpr hs)]
  show ((if odWatchdogRetainedValid _ = true then _ else _) &&& _) ||| _ = _
  rw [if_pos hvalid, retainedPack_set_strikes hn hk hp]

theorem odWatchdogBreadcrumb_pack (hs : s.retainedUsable = true) (hk : k.toNat < 4) (hp : p.toNat < 16)
    (hcache : s.lastPhase = p ∨ ∀ q, q.toNat < 16 → q ≠ s.lastPhase) (phase : UInt8) :
    odWatchdogBreadcrumb keptByte s phase (odWatchdogRetainedPack k p) =
      ({ s with lastPhase := phase &&& odWdtRetainedPhaseMask },
        odWatchdogRetainedPack k (phase &&& odWdtRetainedPhaseMask)) := by
  have hq := phase_lt phase
  have hvalid := (retainedPack_fields hk hp).1
  unfold odWatchdogBreadcrumb
  generalize phase &&& odWdtRetainedPhaseMask = q at hq ⊢
  dsimp only
  by_cases hsame : q = s.lastPhase
  · rw [if_pos hsame]
    rcases hcache with hcache | hne
    · rw [hsame, ← hcache]
    · exact absurd hsame (hne q hq)
  · have hwrite : retainedUpdate keptByte s odWdtRetainedPhaseMask q (odWatchdogRetainedPack k p) =
        (true, odWatchdogRetainedPack k q) := by
      rw [retainedUpdate, if_neg (not_not.mpr hs)]
      show (true, ((if odWatchdogRetainedValid _ = true then _ else _) &&& _) ||| _) = _
      rw [if_pos hvalid, retainedPack_set_phase hk hp hq]
    rw [if_neg hsame, hwrite]

/-- The count after a reset for that reason. -/
def struck (reason : UInt32) (strikes : UInt8) : UInt8 :=
  if reason &&& odHalWdtResetWatchdog ≠ 0 then if strikes < 3 then strikes + 1 else strikes else 0

theorem struck_toNat (reason : UInt32) (hk : k.toNat < 4) :
    (struck reason k).toNat = if reason &&& odHalWdtResetWatchdog ≠ 0 then min 3 (k.toNat + 1) else 0 := by
  unfold struck
  by_cases hwas : reason &&& odHalWdtResetWatchdog ≠ 0
  · rw [if_pos hwas, if_pos hwas]
    revert hk
    clear hwas
    intro hk
    apply forall_uint8_lt (P := fun k => (if k < 3 then k + 1 else k).toNat = min 3 (k.toNat + 1)) (n := 4) _ hk
    decide
  · rw [if_neg hwas, if_neg hwas]
    rfl

/-- A boot over a byte of ours, or over another that it replaces by a bare tag. -/
theorem odWatchdogBootInit_pack {byte : UInt8} (hk : k.toNat < 4) (hp : p.toNat < 16)
    (hbyte : odWatchdogRetainedValid byte = true ∧ byte = odWatchdogRetainedPack k p ∨
      odWatchdogRetainedValid byte = false ∧ k = 0 ∧ p = 0) (reason nowMs : UInt32) :
    let out := odWatchdogBootInit keptByte reason nowMs byte
    out.1 =
        { safeMode := struck reason k ≥ odWdtSafeModeStrikes, strikesToClear := struck reason k ≠ 0
          retainedUsable := true, bootMs := nowMs, strikes := struck reason k, lastPhase := odWdtPhaseIdle } ∧
      out.2.1.strikes = struck reason k ∧ out.2.1.breadcrumbValid = odWatchdogRetainedValid byte ∧
      out.2.1.prevPhase = p ∧ out.2.2 = odWatchdogRetainedPack (struck reason k) odWdtPhaseIdle := by
  have htag : (if (keptByte.read byte).isSome = true ∧ ¬ (keptByte.read byte).any odWatchdogRetainedValid = true then
      keptByte.write odWdtRetainedTagValue byte else ((keptByte.read byte).isSome, byte)) =
      (true, odWatchdogRetainedPack k p) := by
    rcases hbyte with ⟨hv, rfl⟩ | ⟨hv, rfl, rfl⟩
    · exact if_neg fun h => h.2 hv
    · exact if_pos ⟨rfl, by rw [show (keptByte.read byte).any odWatchdogRetainedValid = false from hv]; nofun⟩
  have hfound : (if (keptByte.read byte).any odWatchdogRetainedValid = true then
      odWatchdogRetainedStrikes ((keptByte.read byte).getD 0) else 0) = k := by
    rcases hbyte with ⟨hv, rfl⟩ | ⟨hv, rfl, rfl⟩
    · exact (if_pos hv).trans (retainedPack_fields hk hp).2.1
    · exact if_neg (Bool.eq_false_iff.mp hv)
  have hprev : (if (keptByte.read byte).any odWatchdogRetainedValid = true then
      odWatchdogRetainedPhase ((keptByte.read byte).getD 0) else 0) = p := by
    rcases hbyte with ⟨hv, rfl⟩ | ⟨hv, rfl, rfl⟩
    · exact (if_pos hv).trans (retainedPack_fields hk hp).2.2
    · exact if_neg (Bool.eq_false_iff.mp hv)
  have hlt : (struck reason k).toNat < 4 := by
    rw [struck_toNat reason hk]
    split <;> omega
  unfold odWatchdogBootInit
  dsimp only
  rw [htag, hfound, hprev]
  dsimp only
  have hcount : ∀ s : Watchdog, s.retainedUsable = true →
      (if reason &&& odHalWdtResetWatchdog ≠ 0 then
        ((if k < 3 then k + 1 else k), strikesStore keptByte s (if k < 3 then k + 1 else k)
          (odWatchdogRetainedPack k p))
      else if k ≠ 0 then (0, strikesStore keptByte s 0 (odWatchdogRetainedPack k p))
      else (k, odWatchdogRetainedPack k p)) =
        (struck reason k, odWatchdogRetainedPack (struck reason k) p) := by
    intro s hs
    unfold struck at hlt ⊢
    by_cases hwas : reason &&& odHalWdtResetWatchdog ≠ 0
    · rw [if_pos hwas] at hlt
      rw [if_pos hwas, if_pos hwas, strikesStore_pack hs hlt hk hp]
    · rw [if_neg hwas, if_neg hwas]
      by_cases hk0 : k ≠ 0
      · rw [if_pos hk0, strikesStore_pack hs (by decide) hk hp]
      · rw [if_neg hk0, not_not.mp hk0]
  rw [hcount { retainedUsable := true, bootMs := nowMs, lastPhase := 0xFF } rfl]
  dsimp only
  -- nothing is stamped yet: the cache holds no phase
  have hcold : ∀ q : UInt8, q.toNat < 16 → q ≠ 0xFF := by
    rintro q hq rfl
    exact absurd hq (by decide)
  rw [odWatchdogBreadcrumb_pack rfl hlt hp (.inr hcold) odWdtPhaseIdle]
  exact ⟨rfl, rfl, rfl, rfl, rfl⟩

end Fields

theorem bootOver_sound {byte : UInt8} {g : WdtPast} (h : Remembered byte g) (boot : Boot) :
    WdtSound (bootOver byte boot) (g.boot boot) := by
  have hfound := h.found boot
  unfold bootOver WdtPast.boot
  generalize boot.found byte = found at hfound
  generalize g.found boot = past at hfound
  obtain ⟨k, p, hk, hp, hbyte, hresets, hphase, hvalid⟩ : ∃ k p : UInt8, k.toNat < 4 ∧ p.toNat < 16 ∧
      (odWatchdogRetainedValid found = true ∧ found = odWatchdogRetainedPack k p ∨
        odWatchdogRetainedValid found = false ∧ k = 0 ∧ p = 0) ∧
      k.toNat = min 3 past.resets ∧ past.stamped.getD 0 = p ∧ odWatchdogRetainedValid found = past.stamped.isSome := by
    rcases hfound with ⟨hv, hs, hp⟩ | ⟨hv, hs, hp⟩
    · obtain ⟨hpack, hlt, hlt'⟩ := retained_unpack hv
      exact ⟨_, _, hlt, hlt', .inl ⟨hv, hpack.symm⟩, hs, by rw [hp]; rfl, by rw [hv, hp]; rfl⟩
    · exact ⟨0, 0, by decide, by decide, .inr ⟨hv, rfl, rfl⟩, by rw [hs]; rfl, by rw [hp]; rfl, by rw [hv, hp]; rfl⟩
  obtain ⟨hdog, hstrikes, hcrumb, hprev, hout⟩ := odWatchdogBootInit_pack hk hp hbyte boot.reason boot.nowMs
  have hcount : (struck boot.reason k).toNat = min 3 (if boot.byWatchdog = true then past.resets + 1 else 0) := by
    rw [struck_toNat boot.reason hk, hresets, Boot.byWatchdog]
    by_cases hwas : boot.reason &&& odHalWdtResetWatchdog ≠ 0
    · rw [if_pos hwas, if_pos (decide_eq_true hwas)]
      omega
    · rw [if_neg hwas, if_neg (by rw [decide_eq_true_iff]; exact hwas)]
      rfl
  generalize odWatchdogBootInit keptByte boot.reason boot.nowMs found = out at hdog hstrikes hcrumb hprev hout
  obtain ⟨dog, report, byte'⟩ := out
  dsimp only at hdog hstrikes hcrumb hprev hout ⊢
  subst hdog hout
  refine ⟨rfl, hcount, rfl, (by decide : odWdtPhaseIdle.toNat < 16), rfl, by simp, rfl, ?_, ?_⟩
  · show decide (struck boot.reason k ≥ odWdtSafeModeStrikes) = true ↔
      3 ≤ if boot.byWatchdog = true then past.resets + 1 else 0
    rw [decide_eq_true_iff, ge_iff_le, UInt8.le_iff_toNat_le, hcount, show odWdtSafeModeStrikes.toNat = 3 from rfl]
    omega
  · exact ⟨by rw [hstrikes, hcount], by rw [hcrumb, hvalid], by rw [hprev, hphase]⟩

/-- A feed clears the count once the device has lived long enough, and touches no phase. -/
theorem WdtSound.feed {w : WdtWorld} {g : WdtPast} (h : WdtSound w g) (nowMs : UInt32) :
    odWatchdogFeed keptByte w.dog nowMs w.byte =
      if odWdtHealthyMs ≤ nowMs - g.bootMs then
        ({ w.dog with strikesToClear := false, strikes := 0 }, odWatchdogRetainedPack 0 w.dog.lastPhase)
      else (w.dog, w.byte) := by
  unfold odWatchdogFeed strikesClearIfHealthy
  rw [← h.bootMs]
  by_cases hsoon : nowMs - w.dog.bootMs < odWdtHealthyMs
  · rw [if_neg (UInt32.not_le.mpr hsoon), if_pos hsoon, ite_self]
  · rw [if_pos (UInt32.not_lt.mp hsoon), if_neg hsoon]
    by_cases hclear : w.dog.strikesToClear = true
    · rw [if_neg (not_not.mpr hclear), h.byte]
      dsimp only
      rw [strikesStore_pack _ (by decide) h.strikes_lt h.phase]
      exact h.usable
    · -- nothing to clear: the count is zero already
      have hzero : w.dog.strikes = 0 := not_not.mp (mt h.clear.mpr hclear)
      have hbyte := h.byte
      rw [hzero] at hbyte
      rw [if_pos hclear, hbyte]
      obtain ⟨dog, byte, report⟩ := w
      obtain ⟨armed, safe, clear, usable, boot, strikes, last, failed⟩ := dog
      dsimp only at hclear hzero ⊢
      rw [Bool.eq_false_iff.mpr hclear, hzero]

theorem WdtSound.step {w : WdtWorld} {g : WdtPast} (h : WdtSound w g) (o : WdtOp) :
    WdtSound (wdtStep w o) (pastStep g o) := by
  cases o with
  | boot boot => exact bootOver_sound h.remembered boot
  | breadcrumb phase =>
    have hcrumb := odWatchdogBreadcrumb_pack h.usable h.strikes_lt h.phase (.inl rfl) phase
    rw [← h.byte] at hcrumb
    unfold wdtStep
    dsimp only
    rw [hcrumb]
    exact ⟨h.usable, h.strikes, rfl, phase_lt phase, rfl, h.clear, h.bootMs, h.safe, h.report⟩
  | feed nowMs =>
    unfold wdtStep pastStep
    dsimp only
    rw [h.feed nowMs]
    by_cases hhealthy : odWdtHealthyMs ≤ nowMs - g.bootMs
    · rw [if_pos hhealthy, if_pos hhealthy]
      exact ⟨h.usable, rfl, h.stamped, h.phase, rfl, by simp, h.bootMs, h.safe, h.report⟩
    · rw [if_neg hhealthy, if_neg hhealthy]
      exact h
  | arm rc => exact ⟨h.usable, h.strikes, h.stamped, h.phase, h.byte, h.clear, h.bootMs, h.safe, h.report⟩

theorem wdtRun_sound (byte : UInt8) (first : Boot) (ops : List WdtOp) :
    WdtSound (wdtRun byte first ops) (wdtPast byte first ops) := by
  induction ops using List.reverseRecOn with
  | nil => exact bootOver_sound (pastOf_remembered byte) first
  | append_singleton ops o ih =>
    rw [wdtRun, wdtPast, List.foldl_append, List.foldl_append]
    exact ih.step o

/-- Over any history the strikes are the watchdog resets in a row, three at most, and the byte holds them with the
last phase; a boot is in safe mode with three, and reports the phase stamped last before it. -/
theorem odWatchdog_accounting (byte : UInt8) (first : Boot) (ops : List WdtOp) :
    let w := wdtRun byte first ops
    let g := wdtPast byte first ops
    w.dog.strikes.toNat = min 3 g.resets ∧
    (∃ phase, g.stamped = some phase ∧ odWatchdogRetainedValid w.byte = true ∧
      w.byte = odWatchdogRetainedPack w.dog.strikes phase) ∧
    (∀ phase, odWatchdogRetainedStrikes (wdtStep w (.breadcrumb phase)).byte = odWatchdogRetainedStrikes w.byte) ∧
    (∀ n, odWatchdogRetainedPhase (strikesStore keptByte w.dog n w.byte) = odWatchdogRetainedPhase w.byte) ∧
    (w.dog.safeMode = true ↔ odWdtSafeModeStrikes.toNat ≤ min 3 g.atBoot) ∧ w.report.strikes.toNat = min 3 g.atBoot ∧
    w.report.breadcrumbValid = g.before.isSome ∧ w.report.prevPhase = g.before.getD 0 := by
  have h := wdtRun_sound byte first ops
  have hlt := h.strikes_lt
  obtain ⟨hvalid, hstrikes, hphase⟩ := retainedPack_fields hlt h.phase
  refine ⟨h.strikes, ⟨_, h.stamped, by rw [h.byte, hvalid], h.byte⟩, fun phase => ?_, fun n => ?_, ?_, h.report⟩
  · have hcrumb := odWatchdogBreadcrumb_pack h.usable hlt h.phase (.inl rfl) phase
    show odWatchdogRetainedStrikes (odWatchdogBreadcrumb keptByte _ phase _).2 = _
    rw [h.byte, hcrumb, hstrikes]
    exact (retainedPack_fields hlt (phase_lt phase)).2.1
  · have hn : (if n > 3 then 3 else n).toNat < 4 := by
      by_cases hbig : n > 3
      · rw [if_pos hbig]
        decide
      · rw [if_neg hbig]
        exact Nat.lt_succ_iff.mpr (UInt8.le_iff_toNat_le.mp (UInt8.not_lt.mp hbig))
    rw [h.byte, strikesStore_saturates, strikesStore_pack h.usable hn hlt h.phase, hphase]
    exact (retainedPack_fields hn h.phase).2.2
  · rw [h.safe, show odWdtSafeModeStrikes.toNat = 3 from rfl]
    omega

-- three watchdog resets over a garbage byte, then one that comes after a healthy feed
example : (wdtRun 0 ⟨2, 0, none⟩ [.boot ⟨2, 0, none⟩, .boot ⟨2, 0, none⟩]).dog.safeMode = true := by decide

example : (wdtRun 0 ⟨2, 0, none⟩ [.boot ⟨2, 5, none⟩, .feed 600005, .boot ⟨2, 0, none⟩]).dog.strikes = 1 := by decide

end History

end OpenDisplay
