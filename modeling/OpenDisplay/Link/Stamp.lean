import OpenDisplay.Link.Clock

/-! A stamp only delays. The run with a stamp is compared step by step with the run that leaves
it out: whenever the tag lets a baseline through, the other run has an older one. -/

namespace OpenDisplay

open Traces

section Delays

variable {s s' r r' : LinkClock} {ms ms' : UInt32} {k : Nat} {owed : List (LinkWord × UInt32)}
  {pc pc' : ClockPc}

/-- Two readings of the clock from the session of the owner, the first one not the later. -/
def Earlier (s : LinkClock) (ms' ms : UInt32) : Prop :=
  ∃ t' t, ms' = UInt32.ofNat t' ∧ ms = UInt32.ofNat t ∧ (admission s.log).2 ≤ t' ∧ t' ≤ t ∧ t ≤ s.now

theorem Since.earlier (h : Since s ms) : Earlier s ms ms := by
  obtain ⟨t, rfl, hle, hge⟩ := h
  exact ⟨t, t, rfl, rfl, hle, le_rfl, hge⟩

theorem Earlier.later (h : Earlier s ms' ms) (hlog : admission r.log = admission s.log)
    (hnow : s.now ≤ r.now) : Earlier r ms' ms := by
  obtain ⟨t', t, rfl, rfl, hle, htt, hge⟩ := h
  exact ⟨t', t, rfl, rfl, by rw [hlog]; exact hle, htt, by omega⟩

theorem Earlier.now (h : Earlier s ms' ms) : Earlier s ms' (odHalUptimeMs s) := by
  obtain ⟨t', t, rfl, -, hle, htt, hge⟩ := h
  exact ⟨t', s.now, rfl, rfl, hle, by omega, le_rfl⟩

/-- The steps that a call of the loop task still has at most. -/
def ClockPc.left : ClockPc → Nat
  | .idle => 0
  | .stampUptime | .loadTag _ => 4
  | .stampBaseline _ | .loadBaseline _ => 3
  | .stampOwner | .reloadOwner _ _ => 2
  | .stampTag _ | .release _ | .uptime _ _ => 1
  | .loadOwner => 5

/-- The loop tasks of the run with the stamp and of the run without it. Both are in the same call,
or the first one is in the stamp, or it has returned a zero (`owed`) that the second one is still
reading for. -/
inductive PcDelays (s s' : LinkClock) : List (LinkWord × UInt32) → ClockPc → ClockPc → Prop where
  | idle : PcDelays s s' [] .idle .idle
  | stampUptime : PcDelays s s' [] .stampUptime .stampUptime
  | stampBaseline (ms : UInt32) : PcDelays s s' [] (.stampBaseline ms) (.stampBaseline ms)
  | stampOwner (h : s.ownerWord ≠ .unowned → Earlier s s'.baselineMs s.baselineMs) :
    PcDelays s s' [] .stampOwner .stampOwner
  | stampTag (owner : LinkWord)
    (h : s.ownerWord ≠ .unowned → s.ownerWord = owner → Earlier s s'.baselineMs s.baselineMs) :
    PcDelays s s' [] (.stampTag owner) (.stampTag owner)
  | release (id : LinkWord) : PcDelays s s' [] (.release id) (.release id)
  | loadOwner : PcDelays s s' [] .loadOwner .loadOwner
  | loadTag (owner : LinkWord) : PcDelays s s' [] (.loadTag owner) (.loadTag owner)
  | loadBaseline (owner : LinkWord) (h : s.ownerWord ≠ .unowned → Earlier s s'.baselineMs s.baselineMs) :
    PcDelays s s' [] (.loadBaseline owner) (.loadBaseline owner)
  | reloadOwner (owner : LinkWord) {base base' : UInt32} (h : Earlier s base' base) :
    PcDelays s s' [] (.reloadOwner owner base) (.reloadOwner owner base')
  | uptime (owner : LinkWord) {base base' : UInt32} (h : Earlier s base' base) :
    PcDelays s s' [] (.uptime owner base) (.uptime owner base')
  | leftUptime : PcDelays s s' [] .stampUptime .idle
  | leftBaseline (ms : UInt32)
    (h : s.ownerWord ≠ .unowned →
      s.host.inFlight = false ∧ s.baselineOwner = s.ownerWord ∧ Earlier s s'.baselineMs ms) :
    PcDelays s s' [] (.stampBaseline ms) .idle
  | leftOwner (h : s.ownerWord ≠ .unowned → s.baselineOwner = s.ownerWord) :
    PcDelays s s' [] .stampOwner .idle
  | leftTag (owner : LinkWord)
    (h : s.ownerWord ≠ .unowned → s.ownerWord = owner → s.baselineOwner = s.ownerWord) :
    PcDelays s s' [] (.stampTag owner) .idle
  | owesBaseline (owner : LinkWord) : PcDelays s s' [(owner, 0)] .idle (.loadBaseline owner)
  | owesOwner (owner : LinkWord) (base : UInt32) : PcDelays s s' [(owner, 0)] .idle (.reloadOwner owner base)
  | owesUptime (owner : LinkWord) (base : UInt32) : PcDelays s s' [(owner, 0)] .idle (.uptime owner base)

/-- The silences that were returned in the two runs, short of the one that is owed. -/
def Answered (s s' : LinkClock) (owed : List (LinkWord × UInt32)) : Prop :=
  ∃ rs, silences s.log = rs ++ owed ∧ List.Forall₂ NotLonger rs (silences s'.log)

/-- `s` is in the run with the stamp, `s'` in the one without it, and no call has more than `k`
steps to go. -/
structure Delays (k : Nat) (s s' : LinkClock) : Prop where
  now : s'.now = s.now
  owner : s'.ownerWord = s.ownerWord
  host : s'.host = s.host
  tag : s.ownerWord ≠ .unowned → s.baselineOwner = s.ownerWord →
    s'.baselineOwner = s.ownerWord ∧ Earlier s s'.baselineMs s.baselineMs
  claim : ∀ id, s.host = .storeTag id → s.ownerWord = id → Earlier s s'.baselineMs s.baselineMs
  left : s.loop.left ≤ k ∧ s'.loop.left ≤ k
  loops : ∃ owed, PcDelays s s' owed s.loop s'.loop ∧ Answered s s' owed

theorem silences_append (log : List ClockEvent) (e : ClockEvent) :
    silences (log ++ [e]) = silences log ++ e.silence.toList := by
  cases e <;> simp [silences, ClockEvent.silence]

theorem Answered.both (h : Answered s s' []) (owner : LinkWord) {silence silence' : UInt32}
    (hle : silence ≤ silence') : Answered (s.silent owner silence) (s'.silent owner silence') [] := by
  obtain ⟨rs, heq, hrs⟩ := h
  refine ⟨silences (s.silent owner silence).log, (List.append_nil _).symm, ?_⟩
  simp only [LinkClock.silent, silences_append, heq, List.append_nil]
  exact List.rel_append hrs (.cons ⟨rfl, hle⟩ .nil)

theorem Answered.owe (h : Answered s s' []) (owner : LinkWord) :
    Answered (s.silent owner 0) s' [(owner, 0)] := by
  obtain ⟨rs, heq, hrs⟩ := h
  refine ⟨rs, ?_, hrs⟩
  simp [LinkClock.silent, silences_append, heq, ClockEvent.silence]

theorem Answered.pay {owner : LinkWord} (h : Answered s s' [(owner, 0)]) (silence : UInt32) :
    Answered s (s'.silent owner silence) [] := by
  obtain ⟨rs, heq, hrs⟩ := h
  refine ⟨silences s.log, (List.append_nil _).symm, ?_⟩
  simp only [LinkClock.silent, silences_append, heq]
  exact List.rel_append hrs (.cons ⟨rfl, by simp⟩ .nil)

/-- A step that is not one of the loop tasks keeps what they rely on. -/
theorem PcDelays.keep (h : PcDelays s s' owed pc pc') (hlog : admission r.log = admission s.log)
    (hnow : s.now ≤ r.now) (howner : r.ownerWord = s.ownerWord)
    (hbase : s.ownerWord ≠ .unowned → Earlier s s'.baselineMs s.baselineMs → Earlier s r'.baselineMs r.baselineMs)
    (hkeep : s.host.inFlight = false → r.host.inFlight = false ∧ r'.baselineMs = s'.baselineMs)
    (htag : s.ownerWord ≠ .unowned → s.baselineOwner = s.ownerWord → r.baselineOwner = s.ownerWord) :
    PcDelays r r' owed pc pc' := by
  have later : ∀ {ms' ms}, Earlier s ms' ms → Earlier r ms' ms := fun he => he.later hlog hnow
  cases h with
  | idle => exact .idle
  | stampUptime => exact .stampUptime
  | stampBaseline ms => exact .stampBaseline ms
  | stampOwner h =>
    refine .stampOwner ?_
    rw [howner]
    exact fun ho => later (hbase ho (h ho))
  | stampTag owner h =>
    refine .stampTag owner ?_
    rw [howner]
    exact fun ho he => later (hbase ho (h ho he))
  | release id => exact .release id
  | loadOwner => exact .loadOwner
  | loadTag owner => exact .loadTag owner
  | loadBaseline owner h =>
    refine .loadBaseline owner ?_
    rw [howner]
    exact fun ho => later (hbase ho (h ho))
  | reloadOwner owner h => exact .reloadOwner owner (later h)
  | uptime owner h => exact .uptime owner (later h)
  | leftUptime => exact .leftUptime
  | leftBaseline ms h =>
    refine .leftBaseline ms ?_
    rw [howner]
    intro ho
    obtain ⟨hidle, ht, he⟩ := h ho
    obtain ⟨hidle', hms⟩ := hkeep hidle
    exact ⟨hidle', htag ho ht, by rw [hms]; exact later he⟩
  | leftOwner h =>
    refine .leftOwner ?_
    rw [howner]
    exact fun ho => htag ho (h ho)
  | leftTag owner h =>
    refine .leftTag owner ?_
    rw [howner]
    exact fun ho he => htag ho (h ho he)
  | owesBaseline owner => exact .owesBaseline owner
  | owesOwner owner base => exact .owesOwner owner base
  | owesUptime owner base => exact .owesUptime owner base

theorem Delays.tick (h : Delays k s s') (d : Nat) :
    Delays k { s with now := s.now + d } { s' with now := s'.now + d } := by
  have later : ∀ {ms' ms}, Earlier s ms' ms → Earlier { s with now := s.now + d } ms' ms :=
    fun he => he.later rfl (Nat.le_add_right _ _)
  obtain ⟨owed, hpc, hans⟩ := h.loops
  exact ⟨congrArg (· + d) h.now, h.owner, h.host, fun ho ht => (h.tag ho ht).imp_right later,
    fun id hid he => later (h.claim id hid he), h.left, owed,
    hpc.keep rfl (Nat.le_add_right _ _) rfl (fun _ he => he) (fun hf => ⟨hf, rfl⟩) fun _ ht => ht, hans⟩

theorem Delays.claimCall (h : Delays k s s') (id : LinkWord) : Delays k (claimCall id s) (claimCall id s') := by
  unfold OpenDisplay.claimCall
  rw [h.host]
  obtain ⟨owed, hpc, hans⟩ := h.loops
  by_cases hbusy : s.host ≠ .idle ∨ ¬ id.claimable
  · rw [if_pos hbusy, if_pos hbusy]
    exact h
  · rw [if_neg hbusy, if_neg hbusy]
    exact ⟨h.now, h.owner, rfl, h.tag, (by rintro _ ⟨⟩), h.left, owed,
      hpc.keep rfl le_rfl rfl (fun _ he => he) (fun _ => ⟨rfl, rfl⟩) fun _ ht => ht, hans⟩

/-- A claim that wins finds nothing half done that could be taken for its own. -/
theorem PcDelays.won (h : PcDelays s s' owed pc pc') (hpc : s.loop = pc) (hok : ClockOk s)
    (hfree : s.ownerWord = .unowned) (hstamp : s.loop.stamping = false)
    (hr : r.ownerWord ≠ .unowned) : PcDelays r r' owed pc pc' := by
  have hl := hok.stamp
  unfold StampOk at hl
  cases h with
  | idle => exact .idle
  | stampUptime => exact .stampUptime
  | stampBaseline ms | stampOwner h | leftBaseline ms h | leftOwner h =>
    rw [hpc] at hstamp
    cases hstamp
  | stampTag owner h =>
    simp only [hpc, hfree] at hl
    have hnone : owner = .unowned := hl.elim (fun he => he) fun he => he.1.symm
    exact .stampTag owner fun _ he => absurd (he.trans hnone) hr
  | release id => exact .release id
  | loadOwner => exact .loadOwner
  | loadTag owner => exact .loadTag owner
  | loadBaseline owner h | reloadOwner owner h | uptime owner h =>
    simp only [hpc, hfree] at hl
    exact absurd hl.2.1.symm hl.1
  | leftUptime => exact .leftUptime
  | leftTag owner h =>
    simp only [hpc, hfree] at hl
    have hnone : owner = .unowned := hl.elim (fun he => he) fun he => he.1.symm
    exact .leftTag owner fun _ he => absurd (he.trans hnone) hr
  | owesBaseline owner => exact .owesBaseline owner
  | owesOwner owner base => exact .owesOwner owner base
  | owesUptime owner base => exact .owesUptime owner base

theorem Delays.claimStep (h : Delays k s s') (hok : ClockOk s) (hapart : StampApart s .host) :
    Delays k (claimStep s) (claimStep s') := by
  have hc := hok.claim
  unfold ClaimOk at hc
  obtain ⟨owed, hpcs, hans⟩ := h.loops
  unfold OpenDisplay.claimStep
  rw [h.host]
  cases hpc : s.host with
  | idle => exact h
  | exchange id =>
    simp only [hpc] at hc ⊢
    rw [h.owner]
    by_cases hfree : s.ownerWord = .unowned
    · obtain ⟨hstamp, htag⟩ := hapart id (by simp [LinkClock.winner, hpc, hfree])
      rw [if_pos hfree, if_pos hfree]
      refine ⟨h.now, rfl, rfl, fun _ ht => absurd ht htag, (by rintro _ ⟨⟩), h.left, owed,
        hpcs.won rfl hok hfree hstamp hc, ?_⟩
      unfold Answered at hans ⊢
      simpa only [silences_append, ClockEvent.silence, Option.toList_none, List.append_nil] using hans
    · rw [if_neg hfree, if_neg hfree]
      exact ⟨h.now, rfl, rfl, h.tag, (by rintro _ ⟨⟩), h.left, owed,
        hpcs.keep rfl le_rfl rfl (fun _ he => he) (fun _ => ⟨rfl, rfl⟩) fun _ ht => ht, hans⟩
  | uptime id =>
    simp only [odHalUptimeMs, h.now]
    exact ⟨rfl, h.owner, rfl, h.tag, (by rintro _ ⟨⟩), h.left, owed,
      hpcs.keep rfl le_rfl rfl (fun _ he => he) (fun hf => by simp [hpc, ClaimPc.inFlight] at hf)
        fun _ ht => ht, hans⟩
  | storeBaseline id ms =>
    simp only [hpc] at hc ⊢
    obtain ⟨hne, hown, hs⟩ := hc
    have hms : s.ownerWord ≠ .unowned → Earlier s ms ms := fun ho => (hs (hown.resolve_right ho)).earlier
    refine ⟨h.now, h.owner, rfl, fun ho ht => ⟨(h.tag ho ht).1, hms ho⟩, ?_, h.left, owed, ?_, hans⟩
    · rintro _ ⟨⟩ he
      exact (hs he).earlier
    · exact hpcs.keep rfl le_rfl rfl (fun ho _ => hms ho) (fun hf => by simp [hpc, ClaimPc.inFlight] at hf)
        fun _ ht => ht
  | storeTag id =>
    simp only [hpc] at hc ⊢
    obtain ⟨hne, hown, -⟩ := hc
    exact ⟨h.now, h.owner, rfl, fun _ ht => ⟨ht, h.claim id hpc ht.symm⟩, (by rintro _ ⟨⟩), h.left, owed,
      hpcs.keep rfl le_rfl rfl (fun _ he => he) (fun hf => by simp [hpc, ClaimPc.inFlight] at hf)
        fun ho _ => (hown.resolve_right ho).symm, hans⟩

/-- The older of two baselines gives the longer silence. -/
theorem Earlier.sub_le {base base' : UInt32} (h : Earlier s base' base)
    (hshort : s.now < (admission s.log).2 + 2 ^ 32) : odHalUptimeMs s - base ≤ odHalUptimeMs s - base' := by
  obtain ⟨t', t, rfl, rfl, hle, htt, hge⟩ := h
  rw [UInt32.le_iff_toNat_le, odHalUptimeMs, toNat_sub_ofNat hge (by omega),
    toNat_sub_ofNat (htt.trans hge) (by omega)]
  omega

theorem ClockOk.tagging (h : ClockOk s) {id : LinkWord} (hid : s.host = .storeTag id) : id ≠ .unowned := by
  have hc := h.claim
  unfold ClaimOk at hc
  simp only [hid] at hc
  exact hc.1

/-- A step of the loop tasks that leaves the shared words alone. -/
theorem Delays.move (h : Delays k s s') (hr : r = { s with loop := pc }) (hr' : r' = { s' with loop := pc' })
    (hleft : pc.left ≤ s.loop.left - 1 ∧ pc'.left ≤ s'.loop.left - 1) (hpcs : PcDelays s s' owed pc pc')
    (hans : Answered s s' owed) : Delays (k - 1) r r' := by
  subst hr hr'
  have hk := h.left
  refine ⟨h.now, h.owner, h.host, h.tag, h.claim, ⟨?_, ?_⟩, owed, ?_, hans⟩
  · exact hleft.1.trans (Nat.sub_le_sub_right hk.1 1)
  · exact hleft.2.trans (Nat.sub_le_sub_right hk.2 1)
  · cases hpcs <;> constructor <;> assumption

/-- Both calls return. -/
theorem Delays.silent (h : Delays k s s') (hans : Answered s s' []) (owner : LinkWord)
    {silence silence' : UInt32} (hle : silence ≤ silence') :
    Delays (k - 1) (s.silent owner silence) (s'.silent owner silence') := by
  have hlog : admission (s.silent owner silence).log = admission s.log := by
    simp only [LinkClock.silent, admission_concat, admissionStep]
  have later : ∀ {ms' ms}, Earlier s ms' ms → Earlier (s.silent owner silence) ms' ms :=
    fun he => he.later hlog le_rfl
  exact ⟨h.now, h.owner, h.host, fun ho ht => (h.tag ho ht).imp_right later,
    fun id hid he => later (h.claim id hid he), ⟨Nat.zero_le _, Nat.zero_le _⟩, [], .idle, hans.both owner hle⟩

/-- The call of the run with the stamp returns a zero, and the other one reads on. -/
theorem Delays.owe (h : Delays k s s') (hans : Answered s s' []) (owner : LinkWord)
    (hk : (ClockPc.loadBaseline owner).left ≤ k - 1) :
    Delays (k - 1) (s.silent owner 0) { s' with loop := .loadBaseline owner } := by
  have hlog : admission (s.silent owner 0).log = admission s.log := by
    simp only [LinkClock.silent, admission_concat, admissionStep]
  have later : ∀ {ms' ms}, Earlier s ms' ms → Earlier (s.silent owner 0) ms' ms :=
    fun he => he.later hlog le_rfl
  exact ⟨h.now, h.owner, h.host, fun ho ht => (h.tag ho ht).imp_right later,
    fun id hid he => later (h.claim id hid he), ⟨Nat.zero_le _, hk⟩, _, .owesBaseline owner, hans.owe owner⟩

/-- The call of the run without the stamp returns after the other one did. -/
theorem Delays.pay (h : Delays k s s') {owner : LinkWord} (hpc : s.loop = .idle)
    (hans : Answered s s' [(owner, 0)]) (silence : UInt32) : Delays (k - 1) s (s'.silent owner silence) :=
  ⟨h.now, h.owner, h.host, h.tag, h.claim, ⟨by simp [hpc, ClockPc.left], Nat.zero_le _⟩, [],
    by rw [hpc]; exact .idle, hans.pay silence⟩

theorem LinkClock.eq_of_idle (hpc : s.loop = .idle) : s = { s with loop := .idle } := by
  rw [← hpc]

section LoopSteps

variable {owner : LinkWord} {base base' : UInt32}

theorem Delays.rest (h : Delays k s s') (hans : Answered s s' []) (hpc : s.loop = .idle) (hpc' : s'.loop = .idle) :
    Delays (k - 1) (clockLoop s) (clockLoop s') := by
  simp only [clockLoop, hpc, hpc']
  exact h.move (LinkClock.eq_of_idle hpc) (LinkClock.eq_of_idle hpc') ⟨Nat.zero_le _, Nat.zero_le _⟩ .idle hans

theorem Delays.stampUptime (h : Delays k s s') (hans : Answered s s' []) (hpc : s.loop = .stampUptime)
    (hpc' : s'.loop = .stampUptime) : Delays (k - 1) (clockLoop s) (clockLoop s') := by
  simp only [clockLoop, hpc, hpc']
  refine h.move rfl rfl (by rw [hpc, hpc']; exact ⟨le_rfl, le_rfl⟩) ?_ hans
  simp only [odHalUptimeMs, h.now]
  exact .stampBaseline _

theorem Delays.stampBaseline (h : Delays k s s') (hok : ClockOk s) (hans : Answered s s' [])
    (hpc : s.loop = .stampBaseline ms) (hpc' : s'.loop = .stampBaseline ms) :
    Delays (k - 1) (clockLoop s) (clockLoop s') := by
  have hl := hok.stamp
  simp only [StampOk, hpc] at hl
  have hms : s.ownerWord ≠ .unowned → Earlier s ms ms := fun ho => (hl ho).earlier
  have hk := h.left
  rw [hpc, hpc'] at hk
  simp only [clockLoop, hpc, hpc']
  exact ⟨h.now, h.owner, h.host, fun ho ht => ⟨(h.tag ho ht).1, hms ho⟩,
    fun id hid he => hms (he ▸ hok.tagging hid), ⟨Nat.sub_le_sub_right hk.1 1, Nat.sub_le_sub_right hk.2 1⟩,
    [], .stampOwner hms, hans⟩

theorem Delays.stampOwner (h : Delays k s s') (hans : Answered s s' [])
    (he : s.ownerWord ≠ .unowned → Earlier s s'.baselineMs s.baselineMs) (hpc : s.loop = .stampOwner)
    (hpc' : s'.loop = .stampOwner) : Delays (k - 1) (clockLoop s) (clockLoop s') := by
  simp only [clockLoop, hpc, hpc']
  refine h.move rfl rfl (by rw [hpc, hpc']; exact ⟨le_rfl, le_rfl⟩) ?_ hans
  simp only [h.owner]
  exact .stampTag _ fun ho _ => he ho

theorem Delays.stampTag (h : Delays k s s') (hans : Answered s s' [])
    (he : s.ownerWord ≠ .unowned → s.ownerWord = owner → Earlier s s'.baselineMs s.baselineMs)
    (hpc : s.loop = .stampTag owner) (hpc' : s'.loop = .stampTag owner) :
    Delays (k - 1) (clockLoop s) (clockLoop s') := by
  simp only [clockLoop, hpc, hpc']
  exact ⟨h.now, h.owner, h.host, fun ho ht => ⟨ht, he ho ht.symm⟩, h.claim, ⟨Nat.zero_le _, Nat.zero_le _⟩,
    [], .idle, hans⟩

theorem Delays.release (h : Delays k s s') (hok : ClockOk s) (hans : Answered s s' []) {id : LinkWord}
    (hpc : s.loop = .release id) (hpc' : s'.loop = .release id) :
    Delays (k - 1) (clockLoop s) (clockLoop s') := by
  simp only [clockLoop, hpc, hpc']
  simp only [h.owner]
  by_cases hid : s.ownerWord = id
  · rw [if_pos hid]
    exact ⟨h.now, rfl, h.host, fun ho => absurd rfl ho, fun _ hid' he => absurd he.symm (hok.tagging hid'),
      ⟨Nat.zero_le _, Nat.zero_le _⟩, [], .idle, hans⟩
  · rw [if_neg hid]
    exact ⟨h.now, rfl, h.host, h.tag, h.claim, ⟨Nat.zero_le _, Nat.zero_le _⟩, [], .idle, hans⟩

theorem Delays.loadOwner (h : Delays k s s') (hans : Answered s s' []) (hpc : s.loop = .loadOwner)
    (hpc' : s'.loop = .loadOwner) : Delays (k - 1) (clockLoop s) (clockLoop s') := by
  simp only [clockLoop, hpc, hpc']
  simp only [h.owner]
  by_cases hc : s.ownerWord.claimable
  · rw [if_neg (not_not.mpr hc), if_neg (not_not.mpr hc)]
    refine h.move rfl ?_ (by rw [hpc, hpc']; exact ⟨le_rfl, le_rfl⟩) (.loadTag s.ownerWord) hans
    rw [← h.owner]
  · rw [if_pos hc, if_pos hc]
    exact h.silent hans s.ownerWord (UInt32.le_refl 0)

theorem Delays.loadTag (h : Delays k s s') (hok : ClockOk s) (hans : Answered s s' [])
    (hpc : s.loop = .loadTag owner) (hpc' : s'.loop = .loadTag owner) :
    Delays (k - 1) (clockLoop s) (clockLoop s') := by
  have hl := hok.stamp
  simp only [StampOk, hpc] at hl
  obtain ⟨hne, hown⟩ := hl
  have hso : s.ownerWord ≠ .unowned := by rw [hown]; exact hne
  have hk := h.left
  rw [hpc, hpc'] at hk
  simp only [clockLoop, hpc, hpc']
  by_cases ht : s.baselineOwner = owner
  · obtain ⟨ht', he⟩ := h.tag hso (ht.trans hown.symm)
    rw [if_neg (not_not.mpr ht), if_neg (not_not.mpr (ht'.trans hown))]
    exact h.move rfl rfl (by rw [hpc, hpc']; exact ⟨le_rfl, le_rfl⟩) (.loadBaseline owner fun _ => he) hans
  · rw [if_pos ht]
    -- the tag of the run without the stamp may be the owner's already
    by_cases ht' : s'.baselineOwner = owner
    · rw [if_neg (not_not.mpr ht')]
      exact h.owe hans owner (Nat.sub_le_sub_right hk.2 1)
    · rw [if_pos ht']
      exact h.silent hans owner (UInt32.le_refl 0)

theorem Delays.loadBaseline (h : Delays k s s') (hok : ClockOk s) (hans : Answered s s' [])
    (he : s.ownerWord ≠ .unowned → Earlier s s'.baselineMs s.baselineMs) (hpc : s.loop = .loadBaseline owner)
    (hpc' : s'.loop = .loadBaseline owner) : Delays (k - 1) (clockLoop s) (clockLoop s') := by
  have hl := hok.stamp
  simp only [StampOk, hpc] at hl
  have hso : s.ownerWord ≠ .unowned := by rw [hl.2.1]; exact hl.1
  simp only [clockLoop, hpc, hpc']
  exact h.move rfl rfl (by rw [hpc, hpc']; exact ⟨le_rfl, le_rfl⟩) (.reloadOwner owner (he hso)) hans

theorem Delays.reloadOwner (h : Delays k s s') (hans : Answered s s' []) (he : Earlier s base' base)
    (hpc : s.loop = .reloadOwner owner base) (hpc' : s'.loop = .reloadOwner owner base') :
    Delays (k - 1) (clockLoop s) (clockLoop s') := by
  simp only [clockLoop, hpc, hpc']
  simp only [h.owner]
  by_cases ho : s.ownerWord = owner
  · rw [if_neg (not_not.mpr ho), if_neg (not_not.mpr ho)]
    refine h.move rfl ?_ (by rw [hpc, hpc']; exact ⟨le_rfl, le_rfl⟩) (.uptime owner he) hans
    rw [← h.owner]
  · rw [if_pos ho, if_pos ho]
    exact h.silent hans owner (UInt32.le_refl 0)

theorem Delays.uptime (h : Delays k s s') (hok : ClockOk s) (hans : Answered s s' []) (he : Earlier s base' base)
    (hpc : s.loop = .uptime owner base) (hpc' : s'.loop = .uptime owner base') :
    Delays (k - 1) (clockLoop s) (clockLoop s') := by
  have hl := hok.stamp
  simp only [StampOk, hpc] at hl
  obtain ⟨-, -, hshort⟩ := hok.owner (by rw [hl.2.1]; exact hl.1)
  simp only [clockLoop, hpc, hpc']
  rw [show odHalUptimeMs s' = odHalUptimeMs s from congrArg UInt32.ofNat h.now]
  exact h.silent hans owner (he.sub_le hshort)

theorem Delays.leftUptime (h : Delays k s s') (hapart : StampApart s .loop) (hans : Answered s s' [])
    (hpc : s.loop = .stampUptime) (hpc' : s'.loop = .idle) : Delays (k - 1) (clockLoop s) (clockLoop s') := by
  simp only [clockLoop, hpc, hpc']
  refine h.move rfl (LinkClock.eq_of_idle hpc') (by rw [hpc]; exact ⟨le_rfl, Nat.zero_le _⟩)
    (.leftBaseline _ fun ho => ?_) hans
  obtain ⟨hidle, ht⟩ := hapart hpc ho
  exact ⟨hidle, ht, (h.tag ho ht).2.now⟩

theorem Delays.leftBaseline (h : Delays k s s') (hok : ClockOk s) (hans : Answered s s' [])
    (he : s.ownerWord ≠ .unowned →
      s.host.inFlight = false ∧ s.baselineOwner = s.ownerWord ∧ Earlier s s'.baselineMs ms)
    (hpc : s.loop = .stampBaseline ms) (hpc' : s'.loop = .idle) : Delays (k - 1) (clockLoop s) (clockLoop s') := by
  have hk := h.left
  rw [hpc, hpc'] at hk
  simp only [clockLoop, hpc, hpc']
  refine ⟨h.now, h.owner, h.host, fun ho ht => ⟨(h.tag ho ht).1, (he ho).2.2⟩, fun id hid hown => ?_,
    ⟨Nat.sub_le_sub_right hk.1 1, by rw [hpc']; exact Nat.zero_le _⟩, [], ?_, hans⟩
  · have hidle := (he (hown ▸ hok.tagging hid)).1
    rw [show s.host = .storeTag id from hid] at hidle
    cases hidle
  · rw [hpc']
    exact .leftOwner fun ho => (he ho).2.1

theorem Delays.leftOwner (h : Delays k s s') (hans : Answered s s' [])
    (he : s.ownerWord ≠ .unowned → s.baselineOwner = s.ownerWord) (hpc : s.loop = .stampOwner)
    (hpc' : s'.loop = .idle) : Delays (k - 1) (clockLoop s) (clockLoop s') := by
  simp only [clockLoop, hpc, hpc']
  exact h.move rfl (LinkClock.eq_of_idle hpc') (by rw [hpc]; exact ⟨le_rfl, Nat.zero_le _⟩)
    (.leftTag _ fun ho _ => he ho) hans

theorem Delays.leftTag (h : Delays k s s') (hans : Answered s s' [])
    (he : s.ownerWord ≠ .unowned → s.ownerWord = owner → s.baselineOwner = s.ownerWord)
    (hpc : s.loop = .stampTag owner) (hpc' : s'.loop = .idle) : Delays (k - 1) (clockLoop s) (clockLoop s') := by
  simp only [clockLoop, hpc, hpc']
  refine ⟨h.now, h.owner, h.host, fun ho ht => h.tag ho (he ho ht.symm), h.claim,
    ⟨Nat.zero_le _, by rw [hpc']; exact Nat.zero_le _⟩, [], ?_, hans⟩
  rw [hpc']
  exact .idle

theorem Delays.owesBaseline (h : Delays k s s') (hans : Answered s s' [(owner, 0)]) (hpc : s.loop = .idle)
    (hpc' : s'.loop = .loadBaseline owner) : Delays (k - 1) (clockLoop s) (clockLoop s') := by
  simp only [clockLoop, hpc, hpc']
  exact h.move (LinkClock.eq_of_idle hpc) rfl (by rw [hpc']; exact ⟨Nat.zero_le _, le_rfl⟩) (.owesOwner owner _) hans

theorem Delays.owesOwner (h : Delays k s s') (hans : Answered s s' [(owner, 0)]) (hpc : s.loop = .idle)
    (hpc' : s'.loop = .reloadOwner owner base) : Delays (k - 1) (clockLoop s) (clockLoop s') := by
  simp only [clockLoop, hpc, hpc']
  by_cases ho : s'.ownerWord = owner
  · rw [if_neg (not_not.mpr ho)]
    exact h.move (LinkClock.eq_of_idle hpc) rfl (by rw [hpc']; exact ⟨Nat.zero_le _, le_rfl⟩)
      (.owesUptime owner base) hans
  · rw [if_pos ho]
    exact h.pay hpc hans 0

theorem Delays.owesUptime (h : Delays k s s') (hans : Answered s s' [(owner, 0)]) (hpc : s.loop = .idle)
    (hpc' : s'.loop = .uptime owner base) : Delays (k - 1) (clockLoop s) (clockLoop s') := by
  simp only [clockLoop, hpc, hpc']
  exact h.pay hpc hans _

end LoopSteps

theorem Delays.clockLoop (h : Delays k s s') (hok : ClockOk s) (hapart : StampApart s .loop) :
    Delays (k - 1) (clockLoop s) (clockLoop s') := by
  obtain ⟨owed, hpcs, hans⟩ := h.loops
  generalize hpc : s.loop = pc at hpcs
  generalize hpc' : s'.loop = pc' at hpcs
  cases hpcs with
  | idle => exact h.rest hans hpc hpc'
  | stampUptime => exact h.stampUptime hans hpc hpc'
  | stampBaseline ms => exact h.stampBaseline hok hans hpc hpc'
  | stampOwner he => exact h.stampOwner hans he hpc hpc'
  | stampTag owner he => exact h.stampTag hans he hpc hpc'
  | release id => exact h.release hok hans hpc hpc'
  | loadOwner => exact h.loadOwner hans hpc hpc'
  | loadTag owner => exact h.loadTag hok hans hpc hpc'
  | loadBaseline owner he => exact h.loadBaseline hok hans he hpc hpc'
  | reloadOwner owner he => exact h.reloadOwner hans he hpc hpc'
  | uptime owner he => exact h.uptime hok hans he hpc hpc'
  | leftUptime => exact h.leftUptime hapart hans hpc hpc'
  | leftBaseline ms he => exact h.leftBaseline hok hans he hpc hpc'
  | leftOwner he => exact h.leftOwner hans he hpc hpc'
  | leftTag owner he => exact h.leftTag hans he hpc hpc'
  | owesBaseline owner => exact h.owesBaseline hans hpc hpc'
  | owesOwner owner base => exact h.owesOwner hans hpc hpc'
  | owesUptime owner base => exact h.owesUptime hans hpc hpc'

theorem Delays.idle (h : Delays 0 s s') : s.loop = .idle ∧ s'.loop = .idle := by
  obtain ⟨hl, hl'⟩ := h.left
  constructor
  · cases hpc : s.loop <;> simp [hpc, ClockPc.left] at hl ⊢
  · cases hpc : s'.loop <;> simp [hpc, ClockPc.left] at hl' ⊢

/-- With both loop tasks idle nothing is owed. -/
theorem Delays.answered (h : Delays 0 s s') : List.Forall₂ NotLonger (silences s.log) (silences s'.log) := by
  obtain ⟨owed, hpcs, rs, heq, hrs⟩ := h.loops
  rw [h.idle.1, h.idle.2] at hpcs
  cases hpcs
  rw [heq, List.append_nil]
  exact hrs

theorem Delays.clockCall (h : Delays 0 s s') (c : ClockCall) :
    Delays c.steps (clockCall c s) (clockCall c s') := by
  obtain ⟨hidle, hidle'⟩ := h.idle
  obtain ⟨owed, hpcs, hans⟩ := h.loops
  rw [hidle, hidle'] at hpcs
  cases hpcs
  unfold OpenDisplay.clockCall
  rw [if_neg (not_not.mpr hidle), if_neg (not_not.mpr hidle')]
  cases c with
  | stampOwnerCommand | stampRefreshEnd =>
    exact ⟨h.now, h.owner, h.host, h.tag, h.claim, ⟨le_rfl, le_rfl⟩, [], .stampUptime, hans⟩
  | release id =>
    simp only
    by_cases hid : id.claimable
    · rw [if_neg (not_not.mpr hid), if_neg (not_not.mpr hid)]
      exact ⟨h.now, h.owner, h.host, h.tag, h.claim, ⟨le_rfl, le_rfl⟩, [], .release id, hans⟩
    · rw [if_pos hid, if_pos hid]
      exact ⟨h.now, h.owner, h.host, h.tag, h.claim, by simp [hidle, hidle', ClockPc.left], [],
        by rw [hidle, hidle']; exact .idle, hans⟩
  | msSinceOwnerCommand =>
    exact ⟨h.now, h.owner, h.host, h.tag, h.claim, ⟨le_rfl, le_rfl⟩, [], .loadOwner, hans⟩

/-- A stamp begins in one run and is left out in the other. -/
theorem ClockOk.delays (h : ClockOk s) {c : ClockCall} (hc : c.isStamp) (hidle : s.loop = .idle) :
    Delays 4 (OpenDisplay.clockCall c s) s := by
  have hcall : OpenDisplay.clockCall c s = { s with loop := .stampUptime } := by
    unfold OpenDisplay.clockCall
    rw [if_neg (not_not.mpr hidle)]
    cases c with
    | stampOwnerCommand | stampRefreshEnd => rfl
    | release id | msSinceOwnerCommand => cases hc
  rw [hcall]
  have hclaim : ∀ id, s.host = .storeTag id → s.ownerWord = id → Earlier s s.baselineMs s.baselineMs := by
    intro id hid he
    have hok := h.claim
    unfold ClaimOk at hok
    simp only [hid] at hok
    exact (hok.2.2 he).earlier
  refine ⟨rfl, rfl, rfl, fun ho ht => ⟨ht, (h.tag ho ht).earlier⟩, hclaim,
    ⟨le_rfl, by rw [hidle]; exact Nat.zero_le _⟩, [], ?_, silences s.log, (List.append_nil _).symm, ?_⟩
  · rw [hidle]
    exact .leftUptime
  · exact List.forall₂_same.mpr fun _ _ => ⟨rfl, UInt32.le_refl _⟩

end Delays

section Runs

variable {s s' : LinkClock}

theorem Delays.run {k : Nat} (h : Delays k s s') (hok : ClockOk s) {acts : List ClockAct}
    (hspaced : Spaced k acts) (hacts : Each clockStep ClockStepOk s acts) :
    Delays 0 (clockRun s acts) (clockRun s' acts) := by
  induction acts generalizing s s' k with
  | nil =>
    cases hspaced
    exact h
  | cons a acts ih =>
    obtain ⟨⟨hshort, hapart⟩, hacts⟩ := hacts
    have hok' := hok.step hshort hapart
    cases a with
    | tick ms => exact ih (h.tick ms) hok' hspaced hacts
    | claim id => exact ih (h.claimCall id) hok' hspaced hacts
    | host => exact ih (h.claimStep hok hapart) hok' hspaced hacts
    | call c =>
      obtain ⟨rfl, hspaced⟩ := hspaced
      exact ih (h.clockCall c) hok' hspaced hacts
    | loop => exact ih (h.clockLoop hok hapart) hok' hspaced hacts

/-- As long as no claim wins inside a stamp, the idle clock charges an owner for its own session
only, and a stamp makes no later silence longer. -/
theorem linkMsSinceOwnerCommand_idle (now : Nat) (acts : List ClockAct)
    (h : Each clockStep ClockStepOk (clockStart now) acts) : IdleClockOk now acts := by
  have hkeeps : ∀ s a, ClockOk s → ClockStepOk s a → ClockOk (clockStep s a) :=
    fun s a hok ha => hok.step ha.1 ha.2
  refine ⟨(h.keeps hkeeps (clockOk_start now)).rule, ?_⟩
  rintro pre c rest rfl hc hidle hspaced
  obtain ⟨hpre, -, hrest⟩ := each_append.mp h
  have hok : ClockOk (clockRun (clockStart now) pre) := hpre.keeps hkeeps (clockOk_start now)
  have hrun := (hok.delays hc hidle).run (hok.clockCall c) hspaced hrest
  rw [clockRun_append, clockRun_append, clockRun_cons]
  exact hrun.answered

/-- A claim, 100 ms, a stamp, 50 ms, and the silence is 50. -/
theorem linkMsSinceOwnerCommand_idle_stamped :
    IdleClockOk 4294967200 [.claim (.ble ⟨1, 1⟩), .host, .host, .host, .host, .tick 100,
      .call .stampOwnerCommand, .loop, .loop, .loop, .loop, .tick 50,
      .call .msSinceOwnerCommand, .loop, .loop, .loop, .loop, .loop] ∧
    silences (clockRun (clockStart 4294967200) [.claim (.ble ⟨1, 1⟩), .host, .host, .host, .host, .tick 100,
      .call .stampOwnerCommand, .loop, .loop, .loop, .loop, .tick 50,
      .call .msSinceOwnerCommand, .loop, .loop, .loop, .loop, .loop]).log = [(.ble ⟨1, 1⟩, 50)] :=
  ⟨linkMsSinceOwnerCommand_idle _ _ (by decide), by decide⟩

/-- A claim that wins 10 ms after a stamp has read the clock is charged those 10 ms, and a stamp
inside a claim ends the zeros that the claim's own missing tag would have given. -/
theorem linkMsSinceOwnerCommand_overlap :
    (Each clockStep SessionShort (clockStart 0) [.call .stampRefreshEnd, .loop, .tick 10, .claim (.ble ⟨1, 1⟩), .host,
        .host, .loop, .loop, .loop, .call .msSinceOwnerCommand, .loop, .loop, .loop, .loop, .loop] ∧
      ¬ IdleClockOk 0 [.call .stampRefreshEnd, .loop, .tick 10, .claim (.ble ⟨1, 1⟩), .host,
        .host, .loop, .loop, .loop, .call .msSinceOwnerCommand, .loop, .loop, .loop, .loop, .loop]) ∧
    (Each clockStep SessionShort (clockStart 0) [.claim (.ble ⟨1, 1⟩), .host, .host, .call .stampRefreshEnd, .loop,
        .loop, .loop, .loop, .tick 5, .call .msSinceOwnerCommand, .loop, .loop, .loop, .loop, .loop] ∧
      ¬ IdleClockOk 0 [.claim (.ble ⟨1, 1⟩), .host, .host, .call .stampRefreshEnd, .loop, .loop,
        .loop, .loop, .tick 5, .call .msSinceOwnerCommand, .loop, .loop, .loop, .loop, .loop]) := by
  refine ⟨⟨by decide, fun h => ?_⟩, by decide, fun h => ?_⟩
  · have hrule := h.charged [.won (.ble ⟨1, 1⟩) 10] (.read (.ble ⟨1, 1⟩) 10 10) [] (by decide)
    rcases hrule with hzero | ⟨-, hle⟩
    · exact absurd hzero (by decide)
    · exact absurd hle (by decide)
  · have hle := h.delayed [.claim (.ble ⟨1, 1⟩), .host, .host] .stampRefreshEnd [.loop, .loop, .loop, .loop,
      .tick 5, .call .msSinceOwnerCommand, .loop, .loop, .loop, .loop, .loop] rfl rfl rfl
      ⟨rfl, rfl⟩
    have hread : NotLonger (.ble ⟨1, 1⟩, 5) (.ble ⟨1, 1⟩, 0) := (List.forall₂_cons.mp hle).1
    exact absurd hread.2 (by decide)

end Runs

end OpenDisplay
