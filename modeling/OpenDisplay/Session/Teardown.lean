import OpenDisplay.Session.Step

/-! What ends a session, as a condition on the session and the call, and what a call
that does not end it leaves alone. -/

namespace OpenDisplay

section Ends

/-- The session is open and its lifetime is over. -/
def Session.Expired (s : Session) (nowMs : UInt32) : Prop :=
  s.authenticated = true ∧ s.timeoutMs ≠ 0 ∧ s.timeoutMs ≤ nowMs - s.sessionStartMs

/-- The request replaces an open session, or proves the key to an engine that then
fails to load it. -/
def Session.Replaced (s : Session) (a : AuthCall) : Prop :=
  ∃ sec deviceId, s.Examines a sec deviceId ∧
    (isStep1 a.body = true ∧ s.authenticated = true ∨
      ∃ body, a.body = some body ∧ isStep2 (some body) = true ∧ s.challengePending = true ∧
        a.nowMs - s.challengeMs ≤ odSessionChallengeWindowMs ∧
        KeyFault s sec deviceId (body.take odSessionNonceLen) (body.drop odSessionNonceLen) a)

/-- The envelope is a third strike. -/
def Session.StruckOut (s : Session) (c : OpenCall) : Prop :=
  ∃ envelope outCap, c.envelope = some envelope ∧ c.outCap = some outCap ∧
    (odSessionAlive s c.nowMs).1 = true ∧
    (odSessionEnvelopeMin.toNat ≤ envelope.length ∧ envelope.length ≤ odSessionEnvelopeMax) ∧
    s.Asks envelope outCap ∧ (envelopeDecrypt s c.cmd envelope c.hal).1 = .authFailed ∧
    odSessionIntegrityStrikes.toNat ≤ s.integrityFailures.toNat + 1

/-- The calls that clear the session they find. -/
def Session.Ends (s : Session) : Call → Prop
  | .authenticate a => s.Replaced a
  | .openFrame c => c.outCap ≠ none ∧ c.envelope ≠ none ∧ s.Expired c.nowMs ∨ s.StruckOut c
  | .sealFrame c => c.outCap ≠ none ∧ c.plainFrame ≠ none ∧ s.Expired c.nowMs
  | .alive nowMs => s.Expired nowMs
  | .touch _ => False
  | .clear => True

end Ends

section Calls

variable {s : Session}

theorem expired_of_dead {nowMs : UInt32} (h : (odSessionAlive s nowMs).1 = false)
    (hauth : s.authenticated = true) : s.Expired nowMs := by
  unfold odSessionAlive at h
  simp only [hauth, not_true_eq_false, if_false] at h
  by_cases hnone : s.timeoutMs = 0
  · simp [hnone] at h
  by_cases hage : s.timeoutMs ≤ nowMs - s.sessionStartMs
  · exact ⟨hauth, hnone, hage⟩
  · simp [hnone, hage] at h

theorem strike_eq (s : Session) : strike s =
    if odSessionIntegrityStrikes.toNat ≤ s.integrityFailures.toNat + 1 then odSessionClear s
    else { s with integrityFailures := s.integrityFailures + 1 } := by
  have hmax := s.integrityFailures.toNat_lt
  unfold strike
  dsimp only
  by_cases hlast : s.integrityFailures < 0xff
  · have hnat : s.integrityFailures.toNat < 255 := UInt8.lt_iff_toNat_lt.mp hlast
    rw [if_pos hlast]
    refine if_congr ?_ rfl rfl
    rw [UInt8.le_iff_toNat_le, UInt8.toNat_add, show (1 : UInt8).toNat = 1 from rfl, Nat.mod_eq_of_lt (by omega)]
  · have hnat : 255 ≤ s.integrityFailures.toNat := UInt8.le_iff_toNat_le.mp (UInt8.not_lt.mp hlast)
    have hfew : odSessionIntegrityStrikes.toNat ≤ s.integrityFailures.toNat := Nat.le_trans (by decide) hnat
    rw [if_neg hlast, if_pos (UInt8.le_iff_toNat_le.mpr hfew), if_pos (Nat.le_succ_of_le hfew)]

/-- What a request can do, in full but for the challenge. -/
inductive Requested (s : Session) (a : AuthCall) (out : AuthOutcome) : Prop where
  | refused (session : out.session = s) (unexamined : out.result.unexamined = true)
  | handled {sessionId : SessionId} {pending : Bool} {ms : UInt32} {nonce : Block}
      (session : out.session = { countAttempt s a.nowMs with
        sessionId := sessionId, challengePending := pending, challengeMs := ms, pendingServerNonce := nonce })
      (limit : rateLimited s a.nowMs = false)
      (examined : out.result.unexamined = false) (result : out.result ≠ .established)
  | ended (replaced : s.Replaced a) (authenticated : out.session.authenticated = false)
      (examined : out.result.unexamined = false) (result : out.result ≠ .established)
  | established (result : out.result = .established) (authenticated : out.session.authenticated = true)
      (failures : out.session.integrityFailures = 0)

theorem authStep1_requested {a : AuthCall} {sec : SecurityConfig} {deviceId : DeviceId}
    (h : s.Examines a sec deviceId) (hstep : isStep1 a.body = true) :
    Requested s a (authStep1 (countAttempt s a.nowMs) deviceId a) := by
  have hauth : (countAttempt s a.nowMs).authenticated = s.authenticated := rfl
  unfold authStep1
  dsimp only
  rw [hauth]
  by_cases hlive : s.authenticated = true
  · have hreplaced : s.Replaced a := ⟨sec, deviceId, h, .inl ⟨hstep, hlive⟩⟩
    rw [if_pos hlive]
    split
    · exact .ended hreplaced rfl rfl (by simp)
    · exact .ended hreplaced rfl rfl (by simp [authCryptoFail, authFail])
  · rw [if_neg hlive]
    split
    · exact .handled rfl h.limit rfl (by simp)
    · exact .handled rfl h.limit rfl (by simp [authCryptoFail, authFail])

theorem authStep2_requested {a : AuthCall} {sec : SecurityConfig} {deviceId : DeviceId} {body : Bytes}
    (h : s.Examines a sec deviceId) (hbody : a.body = some body) (hstep : isStep2 (some body) = true) :
    Requested s a (authStep2 (countAttempt s a.nowMs) sec deviceId body a) := by
  unfold authStep2
  by_cases hpending : ¬ (countAttempt s a.nowMs).challengePending = true
  · rw [if_pos hpending]
    exact .handled rfl h.limit rfl (by simp [authFail])
  rw [if_neg hpending]
  by_cases hlate : odSessionChallengeWindowMs < a.nowMs - (countAttempt s a.nowMs).challengeMs
  · rw [if_pos hlate]
    exact .handled rfl h.limit rfl (by simp [authFail])
  rw [if_neg hlate]
  dsimp only
  rcases authVerify_checked (countAttempt s a.nowMs) sec deviceId (body.take odSessionNonceLen)
      (body.drop odSessionNonceLen) a with
    @⟨sessionId, hs, hr, hx⟩ | ⟨hs, hr, hx, hfault⟩ | @⟨mac, hr, -, -, hauth, -, -, -, -, hfailures⟩
  · exact .handled (by rw [hs]; rfl) h.limit hx hr
  · exact .ended ⟨sec, deviceId, h, .inr ⟨body, hbody, hstep, not_not.mp hpending, UInt32.not_lt.mp hlate, hfault⟩⟩
      (by rw [hs]; rfl) hx hr
  · exact .established hr hauth hfailures

theorem odSessionAuthenticate_requested (s : Session) (a : AuthCall) :
    Requested s a (odSessionAuthenticate s a) := by
  rcases odSessionAuthenticate_cases s a with ⟨hs, hr⟩ | ⟨sec, deviceId, hexamines, hauth⟩
  · exact .refused hs hr
  rw [hauth]
  split_ifs with hstep1 hstep2
  · exact authStep1_requested hexamines hstep1
  · rcases hbody : a.body with - | body
    · simp [hbody, isStep2] at hstep2
    · rw [hbody] at hstep2
      exact authStep2_requested hexamines hbody hstep2
  · exact .handled rfl hexamines.limit rfl (by simp [authFail])

/-- The session is as open as it was, and as many attempts and failures are counted. -/
structure Session.Rests (s s' : Session) : Prop where
  authenticated : s'.authenticated = s.authenticated
  authAttempts : s'.authAttempts = s.authAttempts
  lastAuthMs : s'.lastAuthMs = s.lastAuthMs
  integrityFailures : s'.integrityFailures = s.integrityFailures

theorem Session.Rests.refl (s : Session) : s.Rests s := ⟨rfl, rfl, rfl, rfl⟩

theorem alive_rests {nowMs : UInt32} (h : ¬ s.Expired nowMs) : (odSessionAlive s nowMs).2 = s := by
  rcases odSessionAlive_cases s nowMs with ⟨ha, -⟩ | ⟨ha, -⟩ | ⟨ha, hauth⟩
  · rw [ha]
  · rw [ha]
  · exact absurd (expired_of_dead (by rw [ha]) hauth) h

theorem sealFrame_rests (s : Session) (frame : Bytes) (c : SealCall) :
    s.Rests (sealFrame s frame c).session := by
  unfold sealFrame
  dsimp only
  split
  · exact ⟨rfl, rfl, rfl, rfl⟩
  · exact ⟨rfl, rfl, rfl, rfl⟩

theorem seal_rests {c : SealCall} (h : ¬ s.Ends (.sealFrame c)) : s.Rests (odSessionSeal s c).session := by
  rcases odSessionSeal_cases s c with ⟨result, -, heq⟩ | ⟨-, heq⟩ | ⟨frame, -, -, -, -, heq⟩
  · rw [heq]
    exact .refl s
  · have hgiven : c.outCap ≠ none ∧ c.plainFrame ≠ none := by
      constructor
      · intro hcap
        unfold odSessionSeal at heq
        simp [hcap] at heq
      · intro hframe
        unfold odSessionSeal at heq
        simp [hframe] at heq
    rw [heq]
    dsimp only
    rw [alive_rests fun hexpired => h ⟨hgiven.1, hgiven.2, hexpired⟩]
    exact .refl s
  · rw [heq]
    exact sealFrame_rests s frame c

/-- The count of failures after an envelope with this result. -/
def OpenResult.failures (n : UInt8) : OpenResult → UInt8
  | .ok => 0
  | .badTag => n + 1
  | _ => n

theorem OpenResult.failures_of_inert {result : OpenResult} (h : result.inert = true) (n : UInt8) :
    result.failures n = n := by
  cases result with
  | ok => exact absurd h (by decide)
  | badTag => exact absurd h (by decide)
  | _ => rfl

theorem open_rests {c : OpenCall} (h : ¬ s.Ends (.openFrame c)) :
    { s with integrityFailures := (odSessionOpen s c).result.failures s.integrityFailures }.Rests
      (odSessionOpen s c).session := by
  have hopening := odSessionOpen_opening s c
  generalize odSessionOpen s c = out at hopening
  cases hopening with
  | refused hinert _ => exact ⟨rfl, rfl, rfl, (OpenResult.failures_of_inert hinert _).symm⟩
  | expired hgiven hauth hdead => exact absurd (.inl ⟨hgiven.1, hgiven.2, expired_of_dead hdead hauth⟩) h
  | read henv hcap halive _ hlegal hread =>
    cases hread with
    | refused hinert _ => exact ⟨rfl, rfl, rfl, (OpenResult.failures_of_inert hinert _).symm⟩
    | badTag hasks hdecrypt =>
      have hfew : ¬ odSessionIntegrityStrikes.toNat ≤ s.integrityFailures.toNat + 1 := fun hstrikes =>
        h (.inr ⟨_, _, henv, hcap, halive, hlegal, hasks, hdecrypt, hstrikes⟩)
      rw [strike_eq, if_neg hfew]
      exact ⟨rfl, rfl, rfl, rfl⟩
    | badLength => exact ⟨rfl, rfl, rfl, rfl⟩
    | opened => exact ⟨rfl, rfl, rfl, rfl⟩

end Calls

end OpenDisplay
