import Mathlib.Algebra.GroupWithZero.Nat
import Mathlib.Data.List.Forall2
import OpenDisplay.Lib.Trace
import OpenDisplay.Link.Model

/-! The idle clock of the owner. The baseline and the word that says whose it is are written by
the host task in a claim and by the loop task in a stamp, without a lock, and a step is one
access of a word or one reading of the clock. -/

namespace OpenDisplay

open Traces

section Words

/-- The two transports. -/
def LinkWord.claimable : LinkWord → Bool
  | .ble _ | .lan _ => true
  | .unowned | .terminal => false

/-- A claim that won, and a silence that was returned, with the time of each. -/
inductive ClockEvent where
  | won (id : LinkWord) (time : Nat)
  | read (owner : LinkWord) (silence : UInt32) (time : Nat)
deriving DecidableEq

/-- Where the host task is in `linkClaim`. -/
inductive ClaimPc where
  | idle
  | exchange (id : LinkWord)
  | uptime (id : LinkWord)
  | storeBaseline (id : LinkWord) (ms : UInt32)
  | storeTag (id : LinkWord)
deriving DecidableEq

/-- Where the loop task is: in a stamp, in a release, or in `linkMsSinceOwnerCommand`. -/
inductive ClockPc where
  | idle
  | stampUptime
  | stampBaseline (ms : UInt32)
  | stampOwner
  | stampTag (owner : LinkWord)
  | release (id : LinkWord)
  | loadOwner
  | loadTag (owner : LinkWord)
  | loadBaseline (owner : LinkWord)
  | reloadOwner (owner : LinkWord) (base : UInt32)
  | uptime (owner : LinkWord) (base : UInt32)
deriving DecidableEq

/-- `now` is the time in milliseconds since the start, which the clock shows modulo `2 ^ 32`. -/
structure LinkClock where
  now : Nat
  ownerWord : LinkWord := .unowned
  baselineMs : UInt32 := 0
  baselineOwner : LinkWord := .unowned
  host : ClaimPc := .idle
  loop : ClockPc := .idle
  log : List ClockEvent := []

def odHalUptimeMs (s : LinkClock) : UInt32 := UInt32.ofNat s.now

def clockStart (now : Nat) : LinkClock := { now }

end Words

section Steps

def claimCall (id : LinkWord) (s : LinkClock) : LinkClock :=
  if s.host ≠ .idle ∨ ¬ id.claimable then s else { s with host := .exchange id }

/-- A step of `linkClaim`. -/
def claimStep (s : LinkClock) : LinkClock :=
  match s.host with
  | .idle => s
  | .exchange id =>
    if s.ownerWord = .unowned then
      { s with ownerWord := id, host := .uptime id, log := s.log ++ [.won id s.now] }
    else { s with host := .idle }
  | .uptime id => { s with host := .storeBaseline id (odHalUptimeMs s) }
  | .storeBaseline id ms => { s with baselineMs := ms, host := .storeTag id }
  | .storeTag id => { s with baselineOwner := id, host := .idle }

inductive ClockCall where
  | stampOwnerCommand
  | stampRefreshEnd
  | release (id : LinkWord)
  | msSinceOwnerCommand
deriving DecidableEq

def clockCall (c : ClockCall) (s : LinkClock) : LinkClock :=
  if s.loop ≠ .idle then s
  else
    match c with
    | .stampOwnerCommand => { s with loop := .stampUptime }
    | .stampRefreshEnd => { s with loop := .stampUptime }
    | .release id => if ¬ id.claimable then s else { s with loop := .release id }
    | .msSinceOwnerCommand => { s with loop := .loadOwner }

/-- `linkMsSinceOwnerCommand` returns. -/
def LinkClock.silent (s : LinkClock) (owner : LinkWord) (silence : UInt32) : LinkClock :=
  { s with loop := .idle, log := s.log ++ [.read owner silence s.now] }

def clockLoop (s : LinkClock) : LinkClock :=
  match s.loop with
  | .idle => s
  | .stampUptime => { s with loop := .stampBaseline (odHalUptimeMs s) }
  | .stampBaseline ms => { s with baselineMs := ms, loop := .stampOwner }
  | .stampOwner => { s with loop := .stampTag s.ownerWord }
  | .stampTag owner => { s with baselineOwner := owner, loop := .idle }
  | .release id => { s with ownerWord := if s.ownerWord = id then .unowned else s.ownerWord, loop := .idle }
  | .loadOwner =>
    if ¬ s.ownerWord.claimable then s.silent s.ownerWord 0 else { s with loop := .loadTag s.ownerWord }
  -- the claim is still in flight, and the baseline is not that owner's
  | .loadTag owner => if s.baselineOwner ≠ owner then s.silent owner 0 else { s with loop := .loadBaseline owner }
  | .loadBaseline owner => { s with loop := .reloadOwner owner s.baselineMs }
  | .reloadOwner owner base =>
    if s.ownerWord ≠ owner then s.silent owner 0 else { s with loop := .uptime owner base }
  | .uptime owner base => s.silent owner (odHalUptimeMs s - base)

inductive ClockAct where
  | tick (ms : Nat)
  | claim (id : LinkWord)
  | host
  | call (c : ClockCall)
  | loop
deriving DecidableEq

def clockStep (s : LinkClock) : ClockAct → LinkClock
  | .tick ms => { s with now := s.now + ms }
  | .claim id => claimCall id s
  | .host => claimStep s
  | .call c => clockCall c s
  | .loop => clockLoop s

def clockRun (s : LinkClock) (acts : List ClockAct) : LinkClock := acts.foldl clockStep s

@[simp] theorem clockRun_nil (s : LinkClock) : clockRun s [] = s := rfl

@[simp] theorem clockRun_cons (s : LinkClock) (a : ClockAct) (acts : List ClockAct) :
    clockRun s (a :: acts) = clockRun (clockStep s a) acts := rfl

theorem clockRun_append (s : LinkClock) (acts acts' : List ClockAct) :
    clockRun s (acts ++ acts') = clockRun (clockRun s acts) acts' :=
  List.foldl_append

end Steps

section Rules

def admissionStep (last : LinkWord × Nat) : ClockEvent → LinkWord × Nat
  | .won id time => (id, time)
  | .read _ _ _ => last

/-- The last claim that won, and when. -/
def admission (log : List ClockEvent) : LinkWord × Nat := log.foldl admissionStep (.unowned, 0)

/-- A silence that is not zero is one of the admitted owner, and not longer than its session. -/
def ClockRule (pre : List ClockEvent) : ClockEvent → Prop
  | .won _ _ => True
  | .read owner silence time =>
    silence = 0 ∨ (admission pre).1 = owner ∧ silence.toNat ≤ time - (admission pre).2

def ClockEvent.silence : ClockEvent → Option (LinkWord × UInt32)
  | .won _ _ => none
  | .read owner silence _ => some (owner, silence)

/-- The silences that were returned, in order. -/
def silences (log : List ClockEvent) : List (LinkWord × UInt32) := log.filterMap ClockEvent.silence

/-- One silence of an owner beside another one of the same owner. -/
def NotLonger (r r' : LinkWord × UInt32) : Prop := r.1 = r'.1 ∧ r.2 ≤ r'.2

def ClockCall.isStamp : ClockCall → Bool
  | .stampOwnerCommand | .stampRefreshEnd => true
  | .release _ | .msSinceOwnerCommand => false

/-- How many steps a call has at most. -/
def ClockCall.steps : ClockCall → Nat
  | .stampOwnerCommand | .stampRefreshEnd => 4
  | .release _ => 1
  | .msSinceOwnerCommand => 5

/-- With `k` steps of the loop task still to come, each call gets all of its steps before the
next one and before the end. -/
def Spaced : Nat → List ClockAct → Prop
  | k, [] => k = 0
  | k, .call c :: acts => k = 0 ∧ Spaced c.steps acts
  | k, .loop :: acts => Spaced (k - 1) acts
  | k, _ :: acts => Spaced k acts

/-- No silence is longer than the session it is about, and a run without one of its stamps has
no later silence that is shorter. -/
structure IdleClockOk (now : Nat) (acts : List ClockAct) : Prop where
  charged : Always ClockRule (clockRun (clockStart now) acts).log
  delayed : ∀ pre c rest, acts = pre ++ .call c :: rest → c.isStamp →
    (clockRun (clockStart now) pre).loop = .idle → Spaced 4 rest →
    List.Forall₂ NotLonger (silences (clockRun (clockStart now) acts).log)
      (silences (clockRun (clockStart now) (pre ++ rest)).log)

/-- A session lasts less than the clock takes to wrap. -/
def SessionShort (s : LinkClock) : ClockAct → Prop
  | .tick ms => s.ownerWord ≠ .unowned → s.now + ms < (admission s.log).2 + 2 ^ 32
  | _ => True

/-- The claim that the next step of the host task wins. -/
def LinkClock.winner (s : LinkClock) : Option LinkWord :=
  match s.host with
  | .exchange id => if s.ownerWord = .unowned then some id else none
  | _ => none

/-- A claim that won and has not returned. -/
def ClaimPc.inFlight : ClaimPc → Bool
  | .idle | .exchange _ => false
  | .uptime _ | .storeBaseline _ _ | .storeTag _ => true

/-- Between a stamp's reading of the clock and its load of the owner. -/
def ClockPc.stamping : ClockPc → Bool
  | .stampBaseline _ | .stampOwner => true
  | _ => false

/-- No claim wins inside a stamp or with an identity that the tag has already, and a stamp reads
the clock for an owner whose claim has returned and whose tag stands, or for none. -/
def StampApart (s : LinkClock) : ClockAct → Prop
  | .host => ∀ id ∈ s.winner, s.loop.stamping = false ∧ s.baselineOwner ≠ id
  | .loop => s.loop = .stampUptime → s.ownerWord ≠ .unowned →
    s.host.inFlight = false ∧ s.baselineOwner = s.ownerWord
  | _ => True

/-- What a run may do: sessions are short, and claims and stamps keep apart. -/
def ClockStepOk (s : LinkClock) (a : ClockAct) : Prop := SessionShort s a ∧ StampApart s a

instance (s : LinkClock) : (a : ClockAct) → Decidable (SessionShort s a)
  | .tick ms => inferInstanceAs (Decidable (s.ownerWord ≠ .unowned → s.now + ms < _))
  | .claim _ | .call _ | .host | .loop => inferInstanceAs (Decidable True)

instance (s : LinkClock) : (a : ClockAct) → Decidable (StampApart s a)
  | .host => inferInstanceAs (Decidable (∀ id ∈ s.winner, _ ∧ s.baselineOwner ≠ id))
  | .loop => inferInstanceAs (Decidable (s.loop = .stampUptime → s.ownerWord ≠ .unowned → _ ∧ _))
  | .tick _ | .claim _ | .call _ => inferInstanceAs (Decidable True)

instance (s : LinkClock) (a : ClockAct) : Decidable (ClockStepOk s a) := inferInstanceAs (Decidable (_ ∧ _))

end Rules

section Owner

variable {s : LinkClock} {ms ms' : UInt32}

@[simp] theorem admission_concat (log : List ClockEvent) (e : ClockEvent) :
    admission (log ++ [e]) = admissionStep (admission log) e := by
  simp [admission]

/-- A reading of the clock from the session of the owner. -/
def Since (s : LinkClock) (ms : UInt32) : Prop :=
  ∃ t, ms = UInt32.ofNat t ∧ (admission s.log).2 ≤ t ∧ t ≤ s.now

/-- What the claim that runs has stored or will store. -/
def ClaimOk (s : LinkClock) : Prop :=
  match s.host with
  | .idle => True
  | .exchange id => id ≠ .unowned
  | .uptime id => id ≠ .unowned ∧ (s.ownerWord = id ∨ s.ownerWord = .unowned)
  | .storeBaseline id ms =>
    id ≠ .unowned ∧ (s.ownerWord = id ∨ s.ownerWord = .unowned) ∧ (s.ownerWord = id → Since s ms)
  | .storeTag id =>
    id ≠ .unowned ∧ (s.ownerWord = id ∨ s.ownerWord = .unowned) ∧ (s.ownerWord = id → Since s s.baselineMs)

/-- What the loop task has read is of the owner's session. -/
def StampOk (s : LinkClock) : Prop :=
  match s.loop with
  | .stampBaseline ms => s.ownerWord ≠ .unowned → Since s ms
  | .stampOwner => s.ownerWord ≠ .unowned → Since s s.baselineMs
  | .stampTag owner => owner = .unowned ∨ s.ownerWord = owner ∧ Since s s.baselineMs
  | .loadTag owner => owner ≠ .unowned ∧ s.ownerWord = owner
  | .loadBaseline owner =>
    owner ≠ .unowned ∧ s.ownerWord = owner ∧ s.baselineOwner = owner ∧ Since s s.baselineMs
  | .reloadOwner owner base | .uptime owner base => owner ≠ .unowned ∧ s.ownerWord = owner ∧ Since s base
  | _ => True

structure ClockOk (s : LinkClock) : Prop where
  owner : s.ownerWord ≠ .unowned → (admission s.log).1 = s.ownerWord ∧
    (admission s.log).2 ≤ s.now ∧ s.now < (admission s.log).2 + 2 ^ 32
  tag : s.ownerWord ≠ .unowned → s.baselineOwner = s.ownerWord → Since s s.baselineMs
  claim : ClaimOk s
  stamp : StampOk s
  rule : Always ClockRule s.log

/-- One unsigned subtraction is the time since a reading. -/
theorem toNat_sub_ofNat {now t : Nat} (ht : t ≤ now) (hnow : now < t + 2 ^ 32) :
    (UInt32.ofNat now - UInt32.ofNat t).toNat = now - t := by
  simp only [UInt32.toNat_sub, UInt32.toNat_ofNat']
  omega

theorem ClockOk.since_now (h : ClockOk s) (howner : s.ownerWord ≠ .unowned) : Since s (odHalUptimeMs s) :=
  ⟨s.now, rfl, (h.owner howner).2.1, le_rfl⟩

theorem clockOk_start (now : Nat) : ClockOk (clockStart now) where
  owner h := absurd rfl h
  tag h := absurd rfl h
  claim := trivial
  stamp := trivial
  rule := Always.nil

theorem Since.later {s' : LinkClock} (h : Since s ms) (hlog : admission s'.log = admission s.log)
    (hnow : s.now ≤ s'.now) : Since s' ms := by
  obtain ⟨t, rfl, hle, hge⟩ := h
  exact ⟨t, rfl, by rw [hlog]; exact hle, by omega⟩

/-- What the loop task relies on when it does not move. -/
theorem ClockOk.stamp_of (h : ClockOk s) {s' : LinkClock} (hloop : s'.loop = s.loop)
    (hlog : admission s'.log = admission s.log) (hnow : s.now ≤ s'.now) (howner : s'.ownerWord = s.ownerWord)
    (hbase : s.ownerWord ≠ .unowned → Since s s.baselineMs → Since s s'.baselineMs)
    (htag : s.ownerWord ≠ .unowned → s.baselineOwner = s.ownerWord → s'.baselineOwner = s.ownerWord) :
    StampOk s' := by
  have later : ∀ {ms}, Since s ms → Since s' ms := fun hs => hs.later hlog hnow
  have hl := h.stamp
  unfold StampOk at hl ⊢
  rw [hloop]
  cases hpc : s.loop with
  | idle | stampUptime | release id | loadOwner => simp only
  | stampBaseline ms =>
    simp only [hpc, howner] at hl ⊢
    exact fun hne => later (hl hne)
  | stampOwner =>
    simp only [hpc, howner] at hl ⊢
    exact fun hne => later (hbase hne (hl hne))
  | stampTag owner =>
    simp only [hpc, howner] at hl ⊢
    rcases hl with hl | ⟨he, hs⟩
    · exact .inl hl
    · by_cases hne : owner = .unowned
      · exact .inl hne
      · exact .inr ⟨he, later (hbase (by rw [he]; exact hne) hs)⟩
  | loadTag owner =>
    simp only [hpc, howner] at hl ⊢
    exact hl
  | loadBaseline owner =>
    simp only [hpc, howner] at hl ⊢
    obtain ⟨hne, he, ht, hs⟩ := hl
    have hown : s.ownerWord ≠ .unowned := by rw [he]; exact hne
    exact ⟨hne, he, (htag hown (ht.trans he.symm)).trans he, later (hbase hown hs)⟩
  | reloadOwner owner base =>
    simp only [hpc, howner] at hl ⊢
    exact ⟨hl.1, hl.2.1, later hl.2.2⟩
  | uptime owner base =>
    simp only [hpc, howner] at hl ⊢
    exact ⟨hl.1, hl.2.1, later hl.2.2⟩

/-- What the host task relies on when it does not move. -/
theorem ClockOk.claim_of (h : ClockOk s) {s' : LinkClock} (hhost : s'.host = s.host)
    (hlog : admission s'.log = admission s.log) (hnow : s.now ≤ s'.now)
    (howner : s'.ownerWord = s.ownerWord ∨ s'.ownerWord = .unowned)
    (hbase : s.ownerWord ≠ .unowned → Since s s.baselineMs → Since s s'.baselineMs) : ClaimOk s' := by
  have later : ∀ {ms}, Since s ms → Since s' ms := fun hs => hs.later hlog hnow
  have hc := h.claim
  unfold ClaimOk at hc ⊢
  rw [hhost]
  have hold : ∀ {id : LinkWord}, s.ownerWord = id ∨ s.ownerWord = .unowned →
      s'.ownerWord = id ∨ s'.ownerWord = .unowned := by
    intro id hid
    rcases howner with he | he
    · rw [he]; exact hid
    · exact .inr he
  have hback : ∀ {id : LinkWord}, id ≠ .unowned → s'.ownerWord = id → s.ownerWord = id := by
    intro id hne hid
    rcases howner with he | he
    · exact he.symm.trans hid
    · exact absurd (hid.symm.trans he) hne
  cases hpc : s.host with
  | idle => simp only
  | exchange id => simpa only [hpc] using hc
  | uptime id =>
    simp only [hpc] at hc ⊢
    exact ⟨hc.1, hold hc.2⟩
  | storeBaseline id ms =>
    simp only [hpc] at hc ⊢
    exact ⟨hc.1, hold hc.2.1, fun he => later (hc.2.2 (hback hc.1 he))⟩
  | storeTag id =>
    simp only [hpc] at hc ⊢
    obtain ⟨hne, hown, hs⟩ := hc
    refine ⟨hne, hold hown, fun he => later (hbase ?_ (hs (hback hne he)))⟩
    rw [hback hne he]
    exact hne

theorem ClockOk.tick (h : ClockOk s) {d : Nat} (hshort : SessionShort s (.tick d)) :
    ClockOk { s with now := s.now + d } where
  owner howner := by
    obtain ⟨hid, hle, -⟩ := h.owner howner
    exact ⟨hid, Nat.le_add_right_of_le hle, hshort howner⟩
  tag howner htag := (h.tag howner htag).later rfl (Nat.le_add_right _ _)
  claim := h.claim_of rfl rfl (Nat.le_add_right _ _) (.inl rfl) fun _ hs => hs
  stamp := h.stamp_of rfl rfl (Nat.le_add_right _ _) rfl (fun _ hs => hs) fun _ ht => ht
  rule := h.rule

theorem LinkWord.ne_unowned {id : LinkWord} (h : id.claimable) : id ≠ .unowned := by
  rintro rfl
  cases h

theorem ClockOk.claimCall (h : ClockOk s) (id : LinkWord) : ClockOk (claimCall id s) := by
  unfold OpenDisplay.claimCall
  split_ifs with hbusy
  · exact h
  · have hid : id ≠ .unowned := LinkWord.ne_unowned (by simpa using (not_or.mp hbusy).2)
    exact ⟨h.owner, h.tag, hid, h.stamp, h.rule⟩

theorem ClockOk.claimStep (h : ClockOk s) (hapart : StampApart s .host) : ClockOk (claimStep s) := by
  have hc := h.claim
  unfold ClaimOk at hc
  unfold OpenDisplay.claimStep
  cases hpc : s.host with
  | idle => exact h
  | exchange id =>
    simp only [hpc] at hc ⊢
    split_ifs with hfree
    · -- the claim wins, and nothing of an earlier session can pass for its own
      obtain ⟨hstamp, htag⟩ := hapart id (by simp [LinkClock.winner, hpc, hfree])
      refine ⟨fun _ => ?_, fun _ ht => absurd ht htag, ⟨hc, .inl rfl⟩, ?_, always_concat.mpr ⟨h.rule, trivial⟩⟩
      · rw [admission_concat]
        exact ⟨rfl, le_rfl, Nat.lt_add_of_pos_right (by decide)⟩
      · have hl := h.stamp
        unfold StampOk at hl ⊢
        cases hpl : s.loop with
        | idle | stampUptime | release id | loadOwner => simp only
        | stampBaseline ms =>
          rw [hpl] at hstamp
          cases hstamp
        | stampOwner =>
          rw [hpl] at hstamp
          cases hstamp
        | stampTag owner =>
          simp only [hpl, hfree] at hl ⊢
          exact .inl (hl.elim (fun he => he) fun he => he.1.symm)
        | loadTag owner =>
          simp only [hpl, hfree] at hl
          exact absurd hl.2.symm hl.1
        | loadBaseline owner | reloadOwner owner base | uptime owner base =>
          simp only [hpl, hfree] at hl
          exact absurd hl.2.1.symm hl.1
    · exact ⟨h.owner, h.tag, trivial, h.stamp, h.rule⟩
  | uptime id =>
    simp only [hpc] at hc ⊢
    refine ⟨h.owner, h.tag, ⟨hc.1, hc.2, fun he => h.since_now ?_⟩, h.stamp, h.rule⟩
    rw [he]
    exact hc.1
  | storeBaseline id ms =>
    simp only [hpc] at hc ⊢
    obtain ⟨hne, hown, hs⟩ := hc
    have hms : s.ownerWord ≠ .unowned → Since s ms := fun ho => hs (hown.resolve_right ho)
    exact ⟨h.owner, fun ho _ => hms ho, ⟨hne, hown, hs⟩,
      h.stamp_of rfl rfl le_rfl rfl (fun ho _ => hms ho) fun _ ht => ht, h.rule⟩
  | storeTag id =>
    simp only [hpc] at hc ⊢
    obtain ⟨hne, hown, hs⟩ := hc
    exact ⟨h.owner, fun _ ht => hs ht.symm, trivial,
      h.stamp_of rfl rfl le_rfl rfl (fun _ hb => hb) fun ho _ => (hown.resolve_right ho).symm, h.rule⟩

/-- What is returned for an owner is not longer than its session. -/
theorem ClockOk.silent (h : ClockOk s) {owner : LinkWord} {silence : UInt32}
    (hrule : ClockRule s.log (.read owner silence s.now)) : ClockOk (s.silent owner silence) := by
  have hlog : admission (s.silent owner silence).log = admission s.log := by
    simp only [LinkClock.silent, admission_concat, admissionStep]
  refine ⟨fun ho => ?_, fun ho ht => (h.tag ho ht).later hlog le_rfl,
    h.claim_of rfl hlog le_rfl (.inl rfl) fun _ hs => hs, trivial, always_concat.mpr ⟨h.rule, hrule⟩⟩
  rw [hlog]
  exact h.owner ho

theorem ClockOk.clockLoop (h : ClockOk s) : ClockOk (clockLoop s) := by
  have hl := h.stamp
  unfold StampOk at hl
  unfold OpenDisplay.clockLoop
  cases hpc : s.loop with
  | idle => exact h
  | stampUptime => exact ⟨h.owner, h.tag, h.claim, fun ho => h.since_now ho, h.rule⟩
  | stampBaseline ms =>
    simp only [hpc] at hl ⊢
    exact ⟨h.owner, fun ho _ => hl ho, h.claim_of rfl rfl le_rfl (.inl rfl) fun ho _ => hl ho, hl, h.rule⟩
  | stampOwner =>
    simp only [hpc] at hl ⊢
    refine ⟨h.owner, h.tag, h.claim, ?_, h.rule⟩
    by_cases ho : s.ownerWord = .unowned
    · exact .inl ho
    · exact .inr ⟨rfl, hl ho⟩
  | stampTag owner =>
    simp only [hpc] at hl ⊢
    refine ⟨h.owner, fun ho ht => ?_, h.claim, trivial, h.rule⟩
    rcases hl with hl | hl
    · exact absurd (ht.symm.trans hl) ho
    · exact hl.2
  | release id =>
    simp only
    by_cases hid : s.ownerWord = id
    · rw [if_pos hid]
      exact ⟨fun ho => absurd rfl ho, fun ho => absurd rfl ho,
        h.claim_of rfl rfl le_rfl (.inr rfl) fun _ hs => hs, trivial, h.rule⟩
    · rw [if_neg hid]
      exact ⟨h.owner, h.tag, h.claim, trivial, h.rule⟩
  | loadOwner =>
    simp only
    by_cases hc : s.ownerWord.claimable
    · rw [if_neg (not_not.mpr hc)]
      exact ⟨h.owner, h.tag, h.claim, ⟨LinkWord.ne_unowned hc, rfl⟩, h.rule⟩
    · rw [if_pos hc]
      exact h.silent (.inl rfl)
  | loadTag owner =>
    simp only [hpc] at hl ⊢
    split_ifs with ht
    · exact h.silent (.inl rfl)
    · have ht := not_not.mp ht
      refine ⟨h.owner, h.tag, h.claim, ⟨hl.1, hl.2, ht, ?_⟩, h.rule⟩
      exact h.tag (by rw [hl.2]; exact hl.1) (ht.trans hl.2.symm)
  | loadBaseline owner =>
    simp only [hpc] at hl ⊢
    exact ⟨h.owner, h.tag, h.claim, ⟨hl.1, hl.2.1, hl.2.2.2⟩, h.rule⟩
  | reloadOwner owner base =>
    simp only [hpc] at hl ⊢
    split_ifs with ho
    · exact h.silent (.inl rfl)
    · exact ⟨h.owner, h.tag, h.claim, hl, h.rule⟩
  | uptime owner base =>
    simp only [hpc] at hl ⊢
    obtain ⟨hne, ho, t, rfl, hle, hge⟩ := hl
    obtain ⟨hid, -, hshort⟩ := h.owner (by rw [ho]; exact hne)
    refine h.silent (.inr ⟨hid.trans ho, ?_⟩)
    rw [odHalUptimeMs, toNat_sub_ofNat hge (by omega)]
    omega

theorem ClockOk.clockCall (h : ClockOk s) (c : ClockCall) : ClockOk (clockCall c s) := by
  unfold OpenDisplay.clockCall
  split_ifs with hbusy
  · exact h
  · cases c with
    | stampOwnerCommand | stampRefreshEnd | msSinceOwnerCommand =>
      exact ⟨h.owner, h.tag, h.claim, trivial, h.rule⟩
    | release id =>
      simp only
      split_ifs
      · exact ⟨h.owner, h.tag, h.claim, trivial, h.rule⟩
      · exact h

theorem ClockOk.step (h : ClockOk s) {a : ClockAct} (hshort : SessionShort s a) (hapart : StampApart s a) :
    ClockOk (clockStep s a) := by
  cases a with
  | tick ms => exact h.tick hshort
  | claim id => exact h.claimCall id
  | host => exact h.claimStep hapart
  | call c => exact h.clockCall c
  | loop => exact h.clockLoop

end Owner

end OpenDisplay
