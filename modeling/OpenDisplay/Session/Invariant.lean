import OpenDisplay.Session.Step

/-! What holds of every run of the session: a session is open exactly while its key
is loaded, it was opened by the one answer to the latest challenge, and no outbound
counter is used twice. -/

namespace OpenDisplay

section Handshake

/-- The request, if it is one, was refused before it was examined. -/
def Entry.Passes (e : Entry) : Prop := ∀ r, e.auth = some r → r.unexamined = true

/-- The latest challenge, with no request examined since. -/
def Outstanding (log : List Entry) (nonce : Block) (ms : UInt32) : Prop :=
  ∃ before ch mid, log = before ++ ch :: mid ∧ ch.Issues nonce ms ∧ ∀ m ∈ mid, m.Passes

/-- Whatever establishes a session answers the latest challenge. -/
def Answers (pre : List Entry) (e : Entry) : Prop :=
  e.auth = some .established →
    ∃ a nonce ms, e.call = .authenticate a ∧ Outstanding pre nonce ms ∧ Proved nonce ms a

structure SessionSound (r : Session × List Entry) : Prop where
  loaded : r.1.keyLoaded = r.1.authenticated
  opened : r.1.authenticated = true → r.1.challengePending = false ∧ r.1.sessionId ≠ .replicate 8 0
  pending : r.1.challengePending = true → Outstanding r.2 r.1.pendingServerNonce r.1.challengeMs
  answers : Traces.Always Answers r.2

variable {r : Session × List Entry} {log : List Entry} {e : Entry} {nonce : Block} {ms : UInt32}

theorem Outstanding.pass (h : Outstanding log nonce ms) (he : e.Passes) :
    Outstanding (log ++ [e]) nonce ms := by
  obtain ⟨before, ch, mid, rfl, hch, hmid⟩ := h
  refine ⟨before, ch, mid ++ [e], by simp, hch, ?_⟩
  intro m hm
  rcases List.mem_append.mp hm with hm | hm
  · exact hmid m hm
  · rw [List.mem_singleton.mp hm]
    exact he

theorem Outstanding.issue (h : e.Issues nonce ms) : Outstanding (log ++ [e]) nonce ms :=
  ⟨log, e, [], rfl, h, by simp⟩

theorem Entry.Issues.auth (h : e.Issues nonce ms) : e.auth = some .challenge := by
  obtain ⟨a, hcall, hresult, -⟩ := h
  rw [Entry.auth, hcall]
  exact congrArg some hresult

theorem Entry.Passes.of_none (h : e.auth = none) : e.Passes := by
  intro r hr
  simp [h] at hr

theorem answers_of_ne {pre : List Entry} (h : e.auth ≠ some .established) : Answers pre e :=
  fun he => absurd he h

theorem Entry.Passes.ne_established (h : e.Passes) : e.auth ≠ some .established := by
  intro he
  simpa [AuthResult.unexamined] using h _ he

theorem SessionSound.init (slot : UInt8) : SessionSound (odSessionInit slot, []) :=
  ⟨rfl, fun h => by simp [odSessionInit] at h, fun h => by simp [odSessionInit] at h, .nil⟩

/-- A call that keeps the key and the challenge, such as an envelope in either
direction. -/
theorem SessionSound.pass (h : SessionSound r) {s' : Session} (hauth : e.Passes)
    (hsame : r.1.authenticated = s'.authenticated ∧ r.1.keyLoaded = s'.keyLoaded ∧
      r.1.sessionId = s'.sessionId ∧ r.1.challengePending = s'.challengePending ∧
      r.1.challengeMs = s'.challengeMs ∧ r.1.pendingServerNonce = s'.pendingServerNonce) :
    SessionSound (s', r.2 ++ [e]) := by
  obtain ⟨hloaded, hopened, hpending, hanswers⟩ := h
  obtain ⟨ha, hk, hid, hp, hms, hnonce⟩ := hsame
  refine ⟨?_, ?_, ?_, Traces.always_concat.mpr ⟨hanswers, answers_of_ne hauth.ne_established⟩⟩
  · rw [← hk, ← ha, hloaded]
  · rw [← hp, ← hid, ← ha]
    exact hopened
  · rw [← hp, ← hms, ← hnonce]
    exact fun hyes => (hpending hyes).pass hauth

theorem SessionSound.step (h : SessionSound r) (c : Call) : SessionSound (sessionStep r c) := by
  have hanswers : ∀ {e : Entry}, Answers r.2 e → Traces.Always Answers (r.2 ++ [e]) :=
    fun he => Traces.always_concat.mpr ⟨h.answers, he⟩
  rcases call_effect r.1 c with
    ⟨hsame, hauth, -, -⟩ | ⟨hsame, hnone, hid, hauth, -, -⟩ | ⟨heq, hauth, -, -⟩ |
    @⟨nonce, ms, hissues, hunauth, hkey, hyes, hms, hnonce, -, -⟩ |
    @⟨a, hcall, hauth, hwas, hproved, hyes, hkey, hid, -, -, hnone, -, -⟩ |
    ⟨-, -, -, hsame, -, hauth, -⟩ | ⟨-, -, -, hsame, -, hauth, -⟩
  · exact h.pass hauth ⟨hsame.authenticated.symm, hsame.keyLoaded.symm, hsame.sessionId.symm,
      hsame.challengePending.symm, hsame.challengeMs.symm, hsame.pendingServerNonce.symm⟩
  · -- a challenge is pending only while the session is closed, so the id of an open one stays
    have ha : (r.1.call c).authenticated = r.1.authenticated := hsame.authenticated
    refine ⟨hsame.keyLoaded.trans (h.loaded.trans ha.symm), ?_, ?_, hanswers (answers_of_ne hauth)⟩
    · intro hlive
      obtain ⟨hp, hne⟩ := h.opened (ha.symm.trans hlive)
      refine ⟨hnone, ?_⟩
      rw [sessionStep, hid hp]
      exact hne
    · intro hp
      rw [sessionStep, hnone] at hp
      exact absurd hp (by decide)
  · refine ⟨?_, ?_, ?_, hanswers (answers_of_ne hauth)⟩ <;> rw [sessionStep, heq]
    · rfl
    · exact fun hlive => absurd hlive (by simp [odSessionClear])
    · exact fun hp => absurd hp (by simp [odSessionClear])
  · refine ⟨?_, ?_, ?_, hanswers (answers_of_ne (by rw [hissues.auth]; decide))⟩
    · exact (hkey h.loaded).trans hunauth.symm
    · intro hlive
      rw [sessionStep, hunauth] at hlive
      exact absurd hlive (by decide)
    · intro _
      rw [sessionStep, hms, hnonce]
      exact .issue hissues
  · refine ⟨hkey.trans hyes.symm, fun _ => ⟨hnone, hid⟩, ?_, hanswers fun _ => ?_⟩
    · intro hp
      rw [sessionStep, hnone] at hp
      exact absurd hp (by decide)
    · exact ⟨a, _, _, hcall, h.pending hwas, hproved⟩
  · exact h.pass (.of_none hauth) ⟨hsame.authenticated.symm, hsame.keyLoaded.symm, hsame.sessionId.symm,
      hsame.challengePending.symm, hsame.challengeMs.symm, hsame.pendingServerNonce.symm⟩
  · exact h.pass (.of_none hauth) ⟨hsame.authenticated.symm, hsame.keyLoaded.symm, hsame.sessionId.symm,
      hsame.challengePending.symm, hsame.challengeMs.symm, hsame.pendingServerNonce.symm⟩

theorem sessionRun_sound (slot : UInt8) (calls : List Call) : SessionSound (sessionRun slot calls) := by
  induction calls using List.reverseRecOn with
  | nil => exact SessionSound.init slot
  | append_singleton calls c ih =>
    rw [sessionRun_append]
    exact ih.step c

/-- Between two sessions there is a challenge. -/
theorem challenge_between {pre mid post : List Entry} {e e' : Entry} (h : Traces.Always Answers log)
    (hlog : log = pre ++ e :: (mid ++ e' :: post)) (he : e.auth = some .established)
    (he' : e'.auth = some .established) : ∃ m ∈ mid, m.auth = some .challenge := by
  obtain ⟨-, nonce, ms, -, ⟨before, ch, rest, hsplit, hissues, hrest⟩, -⟩ :=
    h (pre ++ e :: mid) e' post (by simp [hlog]) he'
  have hch := hissues.auth
  -- the challenge is not before the first of the two sessions, which is an examined request
  rcases List.append_eq_append_iff.mp hsplit with ⟨l, rfl, hl⟩ | ⟨l, rfl, hl⟩
  · cases l with
    | nil =>
      obtain ⟨rfl, -⟩ := List.cons.inj (by simpa using hl)
      simp [he] at hch
    | cons x l =>
      obtain ⟨rfl, rfl⟩ := List.cons.inj hl
      exact ⟨ch, by simp, hch⟩
  · cases l with
    | nil =>
      obtain ⟨rfl, -⟩ := List.cons.inj (by simpa using hl)
      simp [he] at hch
    | cons x l =>
      obtain ⟨rfl, rfl⟩ := List.cons.inj hl
      exact absurd he (hrest e (by simp)).ne_established

end Handshake

/-- The session's invariants. Between the latest challenge and the answer that
opens a session no request was examined, so that a challenge has one answer. -/
theorem session_invariant (slot : UInt8) (calls : List Call) :
    let s := (sessionRun slot calls).1
    let log := (sessionRun slot calls).2
    (s.authenticated = true ↔ s.keyLoaded = true) ∧
    (s.authenticated = true → s.challengePending = false ∧ s.sessionId ≠ .replicate 8 0) ∧
    (∀ pre e post, log = pre ++ e :: post → e.auth = some .established →
      ∃ a nonce ms before ch mid, e.call = .authenticate a ∧ Proved nonce ms a ∧
        pre = before ++ ch :: mid ∧ ch.Issues nonce ms ∧ ∀ m ∈ mid, m.Passes) ∧
    ∀ pre e mid e' post, log = pre ++ e :: (mid ++ e' :: post) → e.auth = some .established →
      e'.auth = some .established → ∃ m ∈ mid, m.auth = some .challenge := by
  have h := sessionRun_sound slot calls
  refine ⟨by rw [h.loaded], h.opened, ?_, ?_⟩
  · intro pre e post hlog he
    obtain ⟨a, nonce, ms, hcall, ⟨before, ch, mid, hpre, hissues, hmid⟩, hproved⟩ :=
      h.answers pre e post hlog he
    exact ⟨a, nonce, ms, before, ch, mid, hcall, hproved, hpre, hissues, hmid⟩
  · intro pre e mid e' post hlog he he'
    exact challenge_between h.answers hlog he he'

section Outbound

/-- The first `k` counters of a session. -/
def counters (k : Nat) : List UInt64 := (List.range k).map UInt64.ofNat

theorem counters_succ (k : Nat) : counters (k + 1) = counters k ++ [UInt64.ofNat k] := by
  simp [counters, List.range_succ]

/-- Since a session was established its calls of the cipher used the counters from 0
on, and while it is open the next one is the count. -/
def Counts (r : Session × List Entry) : Prop :=
  ∀ pre e seg, r.2 = pre ++ e :: seg → e.auth = some .established →
    (∀ m ∈ seg, m.auth ≠ some .established) →
    ∃ k < 2 ^ 64, seg.filterMap Entry.drawn = counters k ∧
      (r.1.authenticated = true → r.1.txCounter.toNat = k)

variable {r : Session × List Entry} {e : Entry}

/-- The same of one session, as the rule for runs has it. -/
def CountsSince (s : Session) (seg : List Entry) : Prop :=
  ∃ k < 2 ^ 64, seg.filterMap Entry.drawn = counters k ∧
    (s.authenticated = true → s.txCounter.toNat = k)

theorem CountsSince.quiet {s s' : Session} {seg : List Entry} (hdrawn : e.drawn = none)
    (hsame : s'.authenticated = true → s.authenticated = true ∧ s'.txCounter = s.txCounter)
    (h : CountsSince s seg) : CountsSince s' (seg ++ [e]) := by
  obtain ⟨k, hk, hseg, htx⟩ := h
  refine ⟨k, hk, by simp [hdrawn, hseg], ?_⟩
  intro hlive
  obtain ⟨hold, hcounter⟩ := hsame hlive
  rw [hcounter]
  exact htx hold

theorem CountsSince.step {seg : List Entry} (hest : e.auth ≠ some .established)
    (h : CountsSince e.before seg) : CountsSince e.after (seg ++ [e]) := by
  rcases call_effect e.before e.call with
    ⟨hsame, hauth, hdrawn, -⟩ | ⟨hsame, -, -, hauth, hdrawn, -⟩ | ⟨heq, hauth, hdrawn, -⟩ |
    @⟨nonce, ms, hissues, hunauth, -, -, -, -, hdrawn, -⟩ |
    @⟨a, -, hauth, -, -, -, -, -, htx, -, -, hdrawn, -⟩ |
    ⟨hlive, hdrawn, hroom, hsame, htx, hauth, -⟩ | ⟨-, -, -, hsame, -, hauth, hdrawn⟩
  · exact h.quiet hdrawn fun hlive => ⟨hsame.authenticated.symm.trans hlive, hsame.txCounter⟩
  · exact h.quiet hdrawn fun hlive => ⟨hsame.authenticated.symm.trans hlive, hsame.txCounter⟩
  · refine h.quiet hdrawn fun hlive => ?_
    rw [Entry.after, heq] at hlive
    exact absurd hlive (by simp [odSessionClear])
  · refine h.quiet hdrawn fun hlive => ?_
    rw [Entry.after, hunauth] at hlive
    exact absurd hlive (by decide)
  · exact absurd hauth hest
  · obtain ⟨k, -, hseg, hk⟩ := h
    have hcount : e.before.txCounter.toNat = k := hk hlive
    refine ⟨k + 1, by dsimp only at hroom; omega, ?_, fun _ => ?_⟩
    · rw [List.filterMap_append, hseg, counters_succ, ← hcount, UInt64.ofNat_toNat]
      simp [hdrawn]
    · rw [Entry.after, htx, UInt64.toNat_add, ← hcount]
      dsimp only at hroom ⊢
      exact Nat.mod_eq_of_lt (by change _ + 1 < _; omega)
  · exact h.quiet hdrawn fun hlive => ⟨hsame.authenticated.symm.trans hlive, hsame.txCounter⟩

theorem established_txCounter {e : Entry} (h : e.auth = some .established) : e.after.txCounter = 0 := by
  rcases call_effect e.before e.call with
    ⟨-, hauth, -, -⟩ | ⟨-, -, -, hauth, -, -⟩ | ⟨-, hauth, -, -⟩ |
    @⟨nonce, ms, hissues, -, -, -, -, -, -, -⟩ | @⟨a, -, -, -, -, -, -, -, htx, -, -, -, -⟩ |
    ⟨-, -, -, -, -, hauth, -⟩ | ⟨-, -, -, -, -, hauth, -⟩
  · exact absurd h (Entry.Passes.ne_established hauth)
  · exact absurd h hauth
  · exact absurd h hauth
  · exact absurd (hissues.auth.symm.trans h) (by decide)
  · exact htx
  · exact absurd (hauth.symm.trans h) (by decide)
  · exact absurd (hauth.symm.trans h) (by decide)

theorem sessionRun_counts (slot : UInt8) (calls : List Call) : Counts (sessionRun slot calls) := by
  have hsince : SinceEstablished CountsSince (sessionRun slot calls) := by
    apply sessionRun_since
    · intro e h
      exact ⟨0, by decide, rfl, fun _ => by rw [established_txCounter h]; rfl⟩
    · intro e seg hest h
      exact h.step hest
  exact hsince

theorem txCounter_le {s : Session} {log : List Entry} (h : SessionSound (s, log)) (c : Call)
    (hlive : s.authenticated = true) (hafter : (s.call c).authenticated = true) :
    s.txCounter ≤ (s.call c).txCounter := by
  rcases call_effect s c with
    ⟨hsame, -, -, -⟩ | ⟨hsame, -, -, -, -, -⟩ | ⟨heq, -, -, -⟩ |
    @⟨nonce, ms, -, hunauth, -, -, -, -, -, -⟩ | @⟨a, -, -, hwas, -, -, -, -, -, -, -, -, -⟩ |
    ⟨-, -, hroom, -, htx, -, -⟩ | ⟨-, -, -, hsame, -, -, -⟩
  · exact UInt64.le_of_eq hsame.txCounter.symm
  · exact UInt64.le_of_eq hsame.txCounter.symm
  · rw [heq] at hafter
    exact absurd hafter (by simp [odSessionClear])
  · exact absurd (hunauth.symm.trans hafter) (by decide)
  · exact absurd (hwas.symm.trans (h.opened hlive).1) (by decide)
  · rw [htx, UInt64.le_iff_toNat_le, UInt64.toNat_add]
    dsimp only at hroom ⊢
    rw [Nat.mod_eq_of_lt (by change _ + 1 < _; omega)]
    exact Nat.le_succ _
  · exact UInt64.le_of_eq hsame.txCounter.symm

theorem refused_session {s : Session} {c : SealCall} (h : (odSessionSeal s c).result.refused = true) :
    (odSessionSeal s c).session = s ∨
      (odSessionSeal s c).result = .noSession ∧ s.authenticated = true ∧
        (odSessionAlive s c.nowMs).1 = false ∧ (odSessionSeal s c).session = odSessionClear s := by
  rcases odSessionSeal_cases s c with ⟨result, -, heq⟩ | ⟨hdead, heq⟩ | ⟨frame, -, -, -, -, heq⟩
  · exact .inl (by rw [heq])
  · rw [heq]
    rcases odSessionAlive_cases s c.nowMs with ⟨ha, -⟩ | ⟨ha, -⟩ | ⟨ha, hauth⟩
    · simp [ha] at hdead
    · exact .inl (by rw [ha])
    · exact .inr ⟨rfl, hauth, hdead, by rw [ha]⟩
  · rw [heq, (sealFrame_spends s frame c).1] at h
    exact absurd h (by decide)

end Outbound

/-- The calls of the cipher that a session makes use the counters 0, 1, 2 and so on.
A refused frame uses none, and ends the session if it finds it expired. -/
theorem outbound_counters (slot : UInt8) (calls : List Call) :
    let log := (sessionRun slot calls).2
    (∀ pre e seg post, log = pre ++ e :: (seg ++ post) → e.auth = some .established →
      (∀ m ∈ seg, m.auth ≠ some .established) → ∃ k < 2 ^ 64, seg.filterMap Entry.drawn = counters k) ∧
    (∀ e ∈ log, ∀ c, e.call = .sealFrame c →
      if (odSessionSeal e.before c).result.refused then
        e.drawn = none ∧ (e.after.txCounter = e.before.txCounter ∨
          (odSessionSeal e.before c).result = .noSession ∧ (odSessionAlive e.before c.nowMs).1 = false ∧
            e.before.authenticated = true ∧ e.after = odSessionClear e.before)
      else e.drawn = some e.before.txCounter) ∧
    ∀ e ∈ log, e.before.authenticated = true → e.after.authenticated = true →
      e.before.txCounter ≤ e.after.txCounter := by
  refine ⟨?_, ?_, ?_⟩
  · intro pre e seg post hlog hest hseg
    have hrun : ∃ calls', (sessionRun slot calls').2 = pre ++ e :: seg := by
      cases post with
      | nil => exact ⟨calls, by simpa using hlog⟩
      | cons x post =>
        obtain ⟨calls', hrun⟩ := @sessionRun_split slot calls (pre ++ e :: seg) post x (by simpa using hlog)
        exact ⟨calls', by rw [hrun]⟩
    obtain ⟨calls', hrun⟩ := hrun
    obtain ⟨k, hk, hdrawn, -⟩ := sessionRun_counts slot calls' pre e seg hrun hest hseg
    exact ⟨k, hk, hdrawn⟩
  · rintro ⟨s, call⟩ he c rfl
    have hafter : (Entry.mk s (.sealFrame c)).after = (odSessionSeal s c).session := rfl
    rw [drawn_eq, hafter]
    split_ifs with hrefused
    · refine ⟨?_, ?_⟩
      · rcases odSessionSeal_cases s c with ⟨result, -, heq⟩ | ⟨-, heq⟩ | ⟨frame, -, -, -, -, heq⟩
        · rw [heq]
        · rw [heq]
        · rw [heq, (sealFrame_spends s frame c).1] at hrefused
          exact absurd hrefused (by decide)
      · rcases refused_session hrefused with hsame | ⟨hresult, hauth, hdead, hclear⟩
        · exact .inl (by rw [hsame])
        · exact .inr ⟨hresult, hdead, hauth, hclear⟩
    · rcases odSessionSeal_cases s c with ⟨result, hr, heq⟩ | ⟨-, heq⟩ | ⟨frame, -, -, -, -, heq⟩
      · rw [heq] at hrefused
        exact absurd hr hrefused
      · rw [heq] at hrefused
        exact absurd rfl hrefused
      · rw [heq]
        exact (sealFrame_spends s frame c).2.1
  · intro e he hlive hafter
    obtain ⟨pre, post, hlog⟩ := List.append_of_mem he
    obtain ⟨calls', hrun⟩ := sessionRun_split hlog
    have hsound := sessionRun_sound slot calls'
    rw [hrun] at hsound
    exact txCounter_le hsound e.call hlive hafter

section Bench

/-- An engine whose every answer is a success and every byte a 1. -/
def oneHal : Hal where
  cmac _ _ _ := (.ok, .replicate 16 1)
  aesEcb _ _ := (.ok, .replicate 16 1)
  random := (.ok, .replicate 16 1)
  keySet _ _ := .ok
  ccmEncrypt _ _ _ plain := (.ok, .replicate (plain.length + odHalCryptoTagLen) 1)
  ccmDecrypt _ _ _ ct := (.ok, .replicate (ct.length - odHalCryptoTagLen) 1)

/-- A key of ones and a lifetime of one second. -/
def oneSecurity : SecurityConfig :=
  { encryptionEnabled := 1, encryptionKey := .replicate 16 1, sessionTimeoutSeconds := 1 }

def authAt (body : Bytes) (nowMs : UInt32) : Call :=
  .authenticate
    { sec := some oneSecurity, deviceId := some (.replicate 4 1), body := some body, nowMs := nowMs
      rspCap := some odSessionReplyMax, hal := oneHal }

def sealAt (nowMs : UInt32) : SealCall :=
  { plainFrame := some [0x00, 0x44], outCap := some odSessionSealedMax, nowMs := nowMs, hal := oneHal }

/-- A handshake at time 0 and one sealed frame. -/
def oneSealed : List Call :=
  [authAt [0x00] 0, authAt (List.replicate 32 1) 0, .sealFrame (sealAt 0)]

end Bench

/-- A frame that finds the session expired is refused, and the counter falls to 0 with
the session. -/
theorem refused_drops_counter :
    ¬ ∀ slot calls c, (odSessionSeal (sessionRun slot calls).1 c).result.refused = true →
      (odSessionSeal (sessionRun slot calls).1 c).session.txCounter = (sessionRun slot calls).1.txCounter := by
  intro h
  have hsame := h 0 oneSealed (sealAt 1000) (by decide)
  exact absurd hsame (by decide)

end OpenDisplay
