import OpenDisplay.Session.Model
import OpenDisplay.Lib.Trace

/-! Runs of the session: any calls in any order, each with its own arguments, clock
and answers of the engine. What one call can do to the session is said once. -/

namespace OpenDisplay

inductive Call where
  | authenticate (a : AuthCall)
  | openFrame (c : OpenCall)
  | sealFrame (c : SealCall)
  | alive (nowMs : UInt32)
  | touch (nowMs : UInt32)
  | clear

def Session.call (s : Session) : Call → Session
  | .authenticate a => (odSessionAuthenticate s a).session
  | .openFrame c => (odSessionOpen s c).session
  | .sealFrame c => (odSessionSeal s c).session
  | .alive nowMs => (odSessionAlive s nowMs).2
  | .touch nowMs => odSessionTouch s nowMs
  | .clear => odSessionClear s

/-- One call of a run, and the session it found. -/
structure Entry where
  before : Session
  call : Call

def Entry.after (e : Entry) : Session := e.before.call e.call

def sessionStep (r : Session × List Entry) (c : Call) : Session × List Entry :=
  (r.1.call c, r.2 ++ [⟨r.1, c⟩])

def sessionRun (slot : UInt8) (calls : List Call) : Session × List Entry :=
  calls.foldl sessionStep (odSessionInit slot, [])

theorem sessionRun_append (slot : UInt8) (calls : List Call) (c : Call) :
    sessionRun slot (calls ++ [c]) = sessionStep (sessionRun slot calls) c := by
  simp [sessionRun]

/-- The entries that a run adds to its log. -/
def entries : Session → List Call → List Entry
  | _, [] => []
  | s, c :: calls => ⟨s, c⟩ :: entries (s.call c) calls

theorem foldl_sessionStep (calls : List Call) (s : Session) (log : List Entry) :
    calls.foldl sessionStep (s, log) = (calls.foldl Session.call s, log ++ entries s calls) := by
  induction calls generalizing s log with
  | nil => simp [entries]
  | cons c calls ih => simp [sessionStep, ih, entries]

theorem entries_split {calls : List Call} {s : Session} {pre post : List Entry} {e : Entry}
    (h : entries s calls = pre ++ e :: post) :
    ∃ calls', entries s calls' = pre ∧ calls'.foldl Session.call s = e.before := by
  induction pre generalizing calls s with
  | nil =>
    cases calls with
    | nil => simp [entries] at h
    | cons c calls =>
      obtain ⟨rfl, -⟩ := List.cons.inj h
      exact ⟨[], rfl, rfl⟩
  | cons x pre ih =>
    cases calls with
    | nil => simp [entries] at h
    | cons c calls =>
      obtain ⟨rfl, htail⟩ := List.cons.inj h
      obtain ⟨calls', hpre, hbefore⟩ := ih htail
      exact ⟨c :: calls', by rw [entries, hpre], hbefore⟩

theorem sessionRun_split {slot : UInt8} {calls : List Call} {pre post : List Entry} {e : Entry}
    (h : (sessionRun slot calls).2 = pre ++ e :: post) :
    ∃ calls', sessionRun slot calls' = (e.before, pre) := by
  rw [sessionRun, foldl_sessionStep] at h
  obtain ⟨calls', hpre, hbefore⟩ := entries_split h
  refine ⟨calls', ?_⟩
  rw [sessionRun, foldl_sessionStep, hpre, hbefore]
  rfl

section Outcomes

/-- The result of a handshake request. -/
def Entry.auth (e : Entry) : Option AuthResult :=
  match e.call with
  | .authenticate a => some (odSessionAuthenticate e.before a).result
  | _ => none

/-- The counter that the call handed to the cipher. -/
def Entry.drawn (e : Entry) : Option UInt64 :=
  match e.call with
  | .sealFrame c => (odSessionSeal e.before c).drawn
  | _ => none

/-- The counter that the call recorded as consumed: the tag of its envelope was
right. -/
def Entry.consumed (e : Entry) : Option UInt64 :=
  match e.call with
  | .openFrame c =>
    match (odSessionOpen e.before c).result with
    | .ok | .badLength => c.envelope.map envelopeCounter
    | _ => none
  | _ => none

/-- The results of requests that were refused before they were examined. -/
def AuthResult.unexamined : AuthResult → Bool
  | .noRoom | .rateLimited | .badArgument | .notConfigured => true
  | _ => false

/-- The call returned a challenge, with this nonce in its reply. -/
def Entry.Issues (e : Entry) (nonce : Block) (ms : UInt32) : Prop :=
  ∃ a, e.call = .authenticate a ∧ (odSessionAuthenticate e.before a).result = .challenge ∧
    ((odSessionAuthenticate e.before a).rsp.drop 3).take 16 = nonce.toList ∧ a.nowMs = ms

/-- `P` holds of the session and of the calls since the one that established it. -/
def SinceEstablished (P : Session → List Entry → Prop) (r : Session × List Entry) : Prop :=
  ∀ pre e seg, r.2 = pre ++ e :: seg → e.auth = some .established →
    (∀ m ∈ seg, m.auth ≠ some .established) → P r.1 seg

/-- A log that ends with a call: the session was established by the call, or by an
earlier one. -/
theorem SinceEstablished.concat {P : Session → List Entry → Prop} {r : Session × List Entry} {e : Entry}
    {s' : Session} (hnew : e.auth = some .established → P s' [])
    (hstep : ∀ seg, e.auth ≠ some .established → P r.1 seg → P s' (seg ++ [e]))
    (h : SinceEstablished P r) : SinceEstablished P (s', r.2 ++ [e]) := by
  intro pre est seg hlog hest hseg
  rcases List.eq_nil_or_concat seg with rfl | ⟨seg, last, rfl⟩
  · obtain ⟨-, hlast⟩ := List.append_inj' hlog rfl
    obtain rfl := List.singleton_inj.mp hlast
    exact hnew hest
  · rw [List.concat_eq_append] at hlog hseg ⊢
    rw [← List.cons_append, ← List.append_assoc] at hlog
    obtain ⟨hpre, hlast⟩ := List.append_inj' hlog rfl
    obtain rfl := List.singleton_inj.mp hlast
    exact hstep seg (hseg e (by simp)) (h pre est seg hpre hest fun m hm => hseg m (by simp [hm]))

theorem sessionRun_since {P : Session → List Entry → Prop}
    (hnew : ∀ e : Entry, e.auth = some .established → P e.after [])
    (hstep : ∀ (e : Entry) seg, e.auth ≠ some .established → P e.before seg → P e.after (seg ++ [e]))
    (slot : UInt8) (calls : List Call) : SinceEstablished P (sessionRun slot calls) := by
  induction calls using List.reverseRecOn with
  | nil =>
    intro pre e seg h
    simp [sessionRun] at h
  | append_singleton calls c ih =>
    rw [sessionRun_append]
    exact ih.concat (hnew _) (hstep _)

end Outcomes

section Effects

/-- A step 2 in time for the pending challenge, whose proof is the CMAC under the
master key of the server's nonce, the client's nonce and the device id. -/
structure Proved (nonce : Block) (ms : UInt32) (a : AuthCall) : Prop where
  proof : ∃ sec deviceId clientNonce clientProof, ∃ mac : Block,
    a.sec = some sec ∧ a.deviceId = some deviceId ∧ a.body = some (clientNonce ++ clientProof) ∧
      clientNonce.length = 16 ∧ clientProof = mac.toList ∧
      a.hal.cmac .clientProof sec.encryptionKey (nonce.toList ++ clientNonce ++ deviceId.toList) = (.ok, mac)
  intime : a.nowMs - ms ≤ odSessionChallengeWindowMs

/-- The two sessions have the same key, the same counters and the same challenge. -/
structure Session.Same (s s' : Session) : Prop where
  authenticated : s'.authenticated = s.authenticated
  keyLoaded : s'.keyLoaded = s.keyLoaded
  sessionId : s'.sessionId = s.sessionId
  txCounter : s'.txCounter = s.txCounter
  rx : s'.rx = s.rx
  challengePending : s'.challengePending = s.challengePending
  challengeMs : s'.challengeMs = s.challengeMs
  pendingServerNonce : s'.pendingServerNonce = s.pendingServerNonce

theorem Session.Same.refl (s : Session) : s.Same s := ⟨rfl, rfl, rfl, rfl, rfl, rfl, rfl, rfl⟩

/-- Everything that one call can do to the session. -/
inductive Effect (e : Entry) (s' : Session) : Prop where
  | kept (same : e.before.Same s') (auth : ∀ r, e.auth = some r → r.unexamined = true)
      (drawn : e.drawn = none) (consumed : e.consumed = none)
  /-- The challenge is gone; the key and the counters are as they were. -/
  | spent (same : e.before.Same
        { s' with sessionId := e.before.sessionId, challengePending := e.before.challengePending
                  challengeMs := e.before.challengeMs, pendingServerNonce := e.before.pendingServerNonce })
      (pending : s'.challengePending = false)
      (sessionId : e.before.challengePending = false → s'.sessionId = e.before.sessionId)
      (auth : e.auth ≠ some .established) (drawn : e.drawn = none) (consumed : e.consumed = none)
  | cleared (eq : s' = odSessionClear e.before) (auth : e.auth ≠ some .established)
      (drawn : e.drawn = none) (consumed : e.consumed = none)
  | challenged {nonce : Block} {ms : UInt32} (issues : e.Issues nonce ms)
      (authenticated : s'.authenticated = false)
      (keyLoaded : e.before.keyLoaded = e.before.authenticated → s'.keyLoaded = false)
      (pending : s'.challengePending = true) (challengeMs : s'.challengeMs = ms)
      (serverNonce : s'.pendingServerNonce = nonce) (drawn : e.drawn = none) (consumed : e.consumed = none)
  | established {a : AuthCall} (call : e.call = .authenticate a)
      (auth : e.auth = some .established) (was : e.before.challengePending = true)
      (proved : Proved e.before.pendingServerNonce e.before.challengeMs a)
      (authenticated : s'.authenticated = true) (keyLoaded : s'.keyLoaded = true)
      (sessionId : s'.sessionId ≠ .replicate 8 0) (txCounter : s'.txCounter = 0) (rx : s'.rx = {})
      (pending : s'.challengePending = false) (drawn : e.drawn = none) (consumed : e.consumed = none)
  | sealed (authenticated : e.before.authenticated = true) (drawn : e.drawn = some e.before.txCounter)
      (room : e.before.txCounter.toNat < 2 ^ 64 - 1)
      (same : e.before.Same { s' with txCounter := e.before.txCounter })
      (txCounter : s'.txCounter = e.before.txCounter + 1) (auth : e.auth = none)
      (consumed : e.consumed = none)
  | opened {counter : UInt64} (authenticated : e.before.authenticated = true)
      (consumed : e.consumed = some counter) (check : odNonceCheck e.before.rx counter = .ok)
      (same : e.before.Same { s' with rx := e.before.rx })
      (rx : s'.rx = odNonceCommit e.before.rx counter) (auth : e.auth = none) (drawn : e.drawn = none)

/-- The request passes its preflight and the rate limiter, and is acted on. -/
structure Session.Examines (s : Session) (a : AuthCall) (sec : SecurityConfig) (deviceId : DeviceId) : Prop where
  device : a.deviceId = some deviceId
  enabled : odSessionSecurityEnabled (some sec) = true
  configured : a.sec = some sec
  room : ∃ rspCap, a.rspCap = some rspCap ∧ 3 ≤ rspCap ∧
    (isStep1 a.body = true → odSessionStep1ReplyLen ≤ rspCap) ∧
    (isStep2 a.body = true → odSessionStep2ReplyLen ≤ rspCap)
  limit : rateLimited s a.nowMs = false

end Effects

section Calls

variable {s : Session}

theorem odCtEqual_iff {a b : Bytes} (h : a.length = b.length) : odCtEqual a b = true ↔ a = b := by
  have hfold : ∀ (a b : Bytes) (d : UInt8), a.length = b.length →
      ((List.zip a b).foldl (fun diff p => diff ||| (p.1 ^^^ p.2)) d = 0 ↔ d = 0 ∧ a = b) := by
    intro a
    induction a with
    | nil =>
      intro b d h
      simp [List.length_eq_zero_iff.mp h.symm]
    | cons x a ih =>
      intro b d h
      obtain ⟨y, b, rfl⟩ := List.exists_cons_of_length_eq_add_one h.symm
      have hor : d ||| (x ^^^ y) = 0 ↔ d = 0 ∧ x = y := by
        simp
      rw [List.zip_cons_cons, List.foldl_cons, ih b _ (by simpa using h), hor, List.cons.injEq, and_assoc]
  simpa [odCtEqual] using hfold a b 0 h

theorem odSessionAlive_cases (s : Session) (nowMs : UInt32) :
    odSessionAlive s nowMs = (true, s) ∧ s.authenticated = true ∨
      odSessionAlive s nowMs = (false, s) ∧ s.authenticated = false ∨
      odSessionAlive s nowMs = (false, odSessionClear s) ∧ s.authenticated = true := by
  unfold odSessionAlive
  cases hauth : s.authenticated with
  | false => simp
  | true =>
    by_cases hnone : s.timeoutMs = 0
    · simp [hnone]
    · by_cases hage : s.timeoutMs ≤ nowMs - s.sessionStartMs
      · simp [hnone, hage]
      · simp [hnone, hage]

theorem alive_effect (s : Session) (nowMs : UInt32) : Effect ⟨s, .alive nowMs⟩ (odSessionAlive s nowMs).2 := by
  rcases odSessionAlive_cases s nowMs with ⟨h, -⟩ | ⟨h, -⟩ | ⟨h, -⟩ <;> rw [h]
  · exact .kept (.refl s) (by simp [Entry.auth]) rfl rfl
  · exact .kept (.refl s) (by simp [Entry.auth]) rfl rfl
  · exact .cleared rfl (by simp [Entry.auth]) rfl rfl

/-- What a call that starts by asking whether the session is alive does when it is
not. -/
theorem dead_effect {e : Entry} {nowMs : UInt32} (h : (odSessionAlive e.before nowMs).1 = false)
    (hauth : e.auth = none) (hdrawn : e.drawn = none) (hconsumed : e.consumed = none) :
    Effect e (odSessionAlive e.before nowMs).2 := by
  rcases odSessionAlive_cases e.before nowMs with ⟨ha, -⟩ | ⟨ha, -⟩ | ⟨ha, -⟩
  · simp [ha] at h
  · rw [ha]
    exact .kept (.refl _) (by simp [hauth]) hdrawn hconsumed
  · rw [ha]
    exact .cleared rfl (by simp [hauth]) hdrawn hconsumed

theorem alive_of_true {nowMs : UInt32} (h : (odSessionAlive s nowMs).1 = true) :
    odSessionAlive s nowMs = (true, s) ∧ s.authenticated = true := by
  rcases odSessionAlive_cases s nowMs with ha | ⟨ha, -⟩ | ⟨ha, -⟩
  · exact ha
  · simp [ha] at h
  · simp [ha] at h

/-- The results of a preflight that refused the frame. -/
def SealResult.refused : SealResult → Bool
  | .ok | .cryptoError => false
  | _ => true

theorem odSessionSeal_cases (s : Session) (c : SealCall) :
    (∃ result, result.refused = true ∧ odSessionSeal s c = { session := s, result := result }) ∨
      ((odSessionAlive s c.nowMs).1 = false ∧
        odSessionSeal s c = { session := (odSessionAlive s c.nowMs).2, result := .noSession }) ∨
      ∃ frame, c.plainFrame = some frame ∧ 2 ≤ frame.length ∧ s.authenticated = true ∧
        s.txCounter.toNat < 2 ^ 64 - 1 ∧ odSessionSeal s c = sealFrame s frame c := by
  rcases hcap : c.outCap with - | outCap
  · exact .inl ⟨.noRoom, rfl, by unfold odSessionSeal; rw [hcap]⟩
  rcases hframe : c.plainFrame with - | frame
  · exact .inl ⟨.noRoom, rfl, by unfold odSessionSeal; rw [hcap, hframe]⟩
  by_cases halive : (odSessionAlive s c.nowMs).1 = true
  · obtain ⟨ha, hauth⟩ := alive_of_true halive
    have hseal : odSessionSeal s c =
        if frame.length < 2 then { session := s, result := .tooShort }
        else if odSessionPlainFrameMax < frame.length then { session := s, result := .tooLong }
        else if outCap < frame.length + odSessionNonceLen + 1 + odHalCryptoTagLen then
          { session := s, result := .noRoom }
        else if s.txCounter = UInt64.ofNat (2 ^ 64 - 1) then { session := s, result := .counterExhausted }
        else sealFrame s frame c := by
      unfold odSessionSeal
      rw [hcap, hframe]
      simp [ha]
    split_ifs at hseal with hshort hlong hroom hmax
    · exact .inl ⟨.tooShort, rfl, hseal⟩
    · exact .inl ⟨.tooLong, rfl, hseal⟩
    · exact .inl ⟨.noRoom, rfl, hseal⟩
    · exact .inl ⟨.counterExhausted, rfl, hseal⟩
    · have hlt : s.txCounter.toNat < 2 ^ 64 - 1 := by
        have hle := s.txCounter.toNat_lt
        have hne : s.txCounter.toNat ≠ 2 ^ 64 - 1 := by
          intro h
          exact hmax (UInt64.toNat_inj.mp (by simpa using h))
        omega
      exact .inr (.inr ⟨frame, rfl, by omega, hauth, hlt, hseal⟩)
  · have hdead : (odSessionAlive s c.nowMs).1 = false := by simpa using halive
    refine .inr (.inl ⟨hdead, ?_⟩)
    unfold odSessionSeal
    rw [hcap, hframe]
    simp [hdead]

theorem drawn_eq (s : Session) (c : SealCall) :
    (Entry.mk s (.sealFrame c)).drawn = (odSessionSeal s c).drawn := rfl

theorem sealFrame_spends (s : Session) (frame : Bytes) (c : SealCall) :
    (sealFrame s frame c).result.refused = false ∧ (sealFrame s frame c).drawn = some s.txCounter ∧
      s.Same { (sealFrame s frame c).session with txCounter := s.txCounter } ∧
      (sealFrame s frame c).session.txCounter = s.txCounter + 1 := by
  unfold sealFrame
  dsimp only
  split
  · exact ⟨rfl, rfl, ⟨rfl, rfl, rfl, rfl, rfl, rfl, rfl, rfl⟩, rfl⟩
  · exact ⟨rfl, rfl, ⟨rfl, rfl, rfl, rfl, rfl, rfl, rfl, rfl⟩, rfl⟩

theorem seal_effect (s : Session) (c : SealCall) : Effect ⟨s, .sealFrame c⟩ (odSessionSeal s c).session := by
  rcases odSessionSeal_cases s c with ⟨result, -, h⟩ | ⟨hdead, h⟩ | ⟨frame, -, -, hauth, hroom, h⟩
  · rw [h]
    exact .kept (.refl s) (by simp [Entry.auth]) (by rw [drawn_eq, h]) rfl
  · rw [h]
    exact dead_effect hdead rfl (by rw [drawn_eq, h]) rfl
  · obtain ⟨-, hdrawn, hsame, htx⟩ := sealFrame_spends s frame c
    rw [h]
    exact .sealed hauth (by rw [drawn_eq, h, hdrawn]) hroom hsame htx rfl rfl

/-- The results of an envelope whose tag was right. -/
def OpenResult.authentic : OpenResult → Bool
  | .ok | .badLength => true
  | _ => false

/-- The results that leave the session as the call found it. -/
def OpenResult.inert : OpenResult → Bool
  | .ok | .badLength | .badTag => false
  | _ => true

/-- The cipher is asked about the envelope: it names the session, its counter passes
the window, and there is room for what it holds. -/
structure Session.Asks (s : Session) (envelope : Bytes) (outCap : Nat) : Prop where
  id : odCtEqual ((envelopeNonce envelope).take odSessionIdLen) s.sessionId.toList = true
  check : odNonceCheck s.rx (envelopeCounter envelope) = .ok
  room : envelope.length - odSessionNonceLen - odHalCryptoTagLen ≤ outCap

/-- What becomes of an envelope of a legal length in an open session. -/
inductive EnvelopeRead (s : Session) (envelope : Bytes) (outCap : Nat) (c : OpenCall) : OpenOutcome → Prop where
  | refused {result : OpenResult} {reason : NonceResult} (inert : result.inert = true) (live : result ≠ .noSession) :
      EnvelopeRead s envelope outCap c { session := s, result := result, nonceReason := reason }
  | badTag (asks : s.Asks envelope outCap)
      (decrypt : (envelopeDecrypt s c.cmd envelope c.hal).1 = .authFailed) :
      EnvelopeRead s envelope outCap c { session := strike s, result := .badTag }
  | badLength (asks : s.Asks envelope outCap) :
      EnvelopeRead s envelope outCap c
        { session := { s with rx := odNonceCommit s.rx (envelopeCounter envelope) }, result := .badLength }
  | opened {len : UInt8} {payload : Bytes} (asks : s.Asks envelope outCap)
      (decrypt : envelopeDecrypt s c.cmd envelope c.hal = (.ok, len :: payload))
      (length : len.toNat = payload.length) :
      EnvelopeRead s envelope outCap c
        { session := { s with rx := odNonceCommit s.rx (envelopeCounter envelope), integrityFailures := 0
                              lastActivityMs := c.nowMs }
          result := .ok, out := payload }

theorem openEnvelope_read (s : Session) (envelope : Bytes) (outCap : Nat) (c : OpenCall) :
    EnvelopeRead s envelope outCap c (openEnvelope s envelope outCap c) := by
  unfold openEnvelope
  dsimp only
  by_cases hid : ¬ odCtEqual ((envelopeNonce envelope).take odSessionIdLen) s.sessionId.toList = true
  · rw [if_pos hid]
    exact .refused rfl (by simp)
  rw [if_neg hid]
  by_cases hcheck : odNonceCheck s.rx (envelopeCounter envelope) = .ok
  swap
  · rw [if_pos hcheck]
    exact .refused rfl (by simp)
  rw [if_neg (not_not_intro hcheck)]
  by_cases hroom : outCap < envelope.length - odSessionNonceLen - odHalCryptoTagLen
  · rw [if_pos hroom]
    exact .refused rfl (by simp)
  rw [if_neg hroom]
  have hasks : s.Asks envelope outCap := ⟨not_not.mp hid, hcheck, Nat.not_lt.mp hroom⟩
  split
  case h_1 hdecrypt => exact .badTag hasks (by rw [hdecrypt])
  case h_2 plain hdecrypt =>
    split
    case h_1 => exact .badLength hasks
    case h_2 len payload =>
      split_ifs with hlen
      · exact .badLength hasks
      · exact .opened hasks hdecrypt (not_not.mp hlen)
  case h_3 => exact .refused rfl (by simp)

theorem strike_cases (s : Session) : s.Same (strike s) ∨ strike s = odSessionClear s := by
  unfold strike
  dsimp only
  generalize (if s.integrityFailures < 0xff then s.integrityFailures + 1 else s.integrityFailures) = failures
  split_ifs
  · exact .inr rfl
  · exact .inl ⟨rfl, rfl, rfl, rfl, rfl, rfl, rfl, rfl⟩

theorem consumed_eq_none {c : OpenCall} (h : (odSessionOpen s c).result.authentic = false) :
    (Entry.mk s (.openFrame c)).consumed = none := by
  cases hr : (odSessionOpen s c).result <;> simp_all [Entry.consumed, OpenResult.authentic]

theorem consumed_eq_some {c : OpenCall} (h : (odSessionOpen s c).result.authentic = true) :
    (Entry.mk s (.openFrame c)).consumed = c.envelope.map envelopeCounter := by
  cases hr : (odSessionOpen s c).result <;> simp_all [Entry.consumed, OpenResult.authentic]

/-- What an attempt to open an envelope can come to. -/
inductive Opening (s : Session) (c : OpenCall) : OpenOutcome → Prop where
  | refused {result : OpenResult} {reason : NonceResult} (inert : result.inert = true)
      (dead : result = .noSession → s.authenticated = false) :
      Opening s c { session := s, result := result, nonceReason := reason }
  | expired (given : c.outCap ≠ none ∧ c.envelope ≠ none) (authenticated : s.authenticated = true)
      (dead : (odSessionAlive s c.nowMs).1 = false) :
      Opening s c { session := odSessionClear s, result := .noSession }
  | read {envelope : Bytes} {outCap : Nat} {out : OpenOutcome} (envelope_eq : c.envelope = some envelope)
      (outCap_eq : c.outCap = some outCap) (alive : (odSessionAlive s c.nowMs).1 = true)
      (authenticated : s.authenticated = true)
      (legal : odSessionEnvelopeMin.toNat ≤ envelope.length ∧ envelope.length ≤ odSessionEnvelopeMax)
      (read : EnvelopeRead s envelope outCap c out) : Opening s c out

theorem odSessionOpen_opening (s : Session) (c : OpenCall) : Opening s c (odSessionOpen s c) := by
  rcases hcap : c.outCap with - | outCap
  · unfold odSessionOpen
    rw [hcap]
    exact .refused rfl (by simp)
  rcases henv : c.envelope with - | envelope
  · unfold odSessionOpen
    rw [hcap, henv]
    exact .refused rfl (by simp)
  have hopen : odSessionOpen s c =
      if ¬ (odSessionAlive s c.nowMs).1 then { session := (odSessionAlive s c.nowMs).2, result := .noSession }
      else if envelope.length < odSessionEnvelopeMin.toNat then
        { session := (odSessionAlive s c.nowMs).2, result := .short }
      else if odSessionEnvelopeMax < envelope.length then
        { session := (odSessionAlive s c.nowMs).2, result := .tooLong }
      else openEnvelope (odSessionAlive s c.nowMs).2 envelope outCap c := by
    unfold odSessionOpen
    rw [hcap, henv]
  rw [hopen]
  rcases odSessionAlive_cases s c.nowMs with ⟨ha, hauth⟩ | ⟨ha, hauth⟩ | ⟨ha, hauth⟩
  · rw [ha, if_neg (by simp)]
    split_ifs with hshort hlong
    · exact .refused rfl (by simp)
    · exact .refused rfl (by simp)
    · exact .read henv hcap (by rw [ha]) hauth ⟨Nat.not_lt.mp hshort, Nat.not_lt.mp hlong⟩
        (openEnvelope_read s envelope outCap c)
  · rw [ha, if_pos (by simp)]
    exact .refused rfl fun _ => hauth
  · rw [ha, if_pos (by simp)]
    exact .expired (by simp [hcap, henv]) hauth (by rw [ha])

theorem OpenResult.inert.not_authentic {result : OpenResult} (h : result.inert = true) :
    result.authentic = false := by
  revert h
  cases result <;> decide

theorem open_effect (s : Session) (c : OpenCall) : Effect ⟨s, .openFrame c⟩ (odSessionOpen s c).session := by
  generalize hout : odSessionOpen s c = out
  have hopening := odSessionOpen_opening s c
  rw [hout] at hopening
  have hnone : out.result.authentic = false → (Entry.mk s (.openFrame c)).consumed = none := by
    intro h
    exact consumed_eq_none (by rw [hout, h])
  have hsome : out.result.authentic = true →
      (Entry.mk s (.openFrame c)).consumed = c.envelope.map envelopeCounter := by
    intro h
    exact consumed_eq_some (by rw [hout, h])
  cases hopening with
  | refused hinert _ => exact .kept (.refl s) (by simp [Entry.auth]) rfl (hnone (OpenResult.inert.not_authentic hinert))
  | expired => exact .cleared rfl (by simp [Entry.auth]) rfl (hnone rfl)
  | read henv _ _ hauth _ hread =>
    rw [henv] at hsome
    cases hread with
    | refused hinert _ =>
      exact .kept (.refl s) (by simp [Entry.auth]) rfl (hnone (OpenResult.inert.not_authentic hinert))
    | badTag =>
      rcases strike_cases s with hstrike | hstrike
      · exact .kept hstrike (by simp [Entry.auth]) rfl (hnone rfl)
      · exact .cleared hstrike (by simp [Entry.auth]) rfl (hnone rfl)
    | badLength hasks =>
      exact .opened hauth (hsome rfl) hasks.check ⟨rfl, rfl, rfl, rfl, rfl, rfl, rfl, rfl⟩ rfl rfl rfl
    | opened hasks _ _ =>
      exact .opened hauth (hsome rfl) hasks.check ⟨rfl, rfl, rfl, rfl, rfl, rfl, rfl, rfl⟩ rfl rfl rfl

theorem open_decrypts {c : OpenCall} {envelope : Bytes} (h : (odSessionOpen s c).result = .ok)
    (henv : c.envelope = some envelope) :
    ∃ len, envelopeDecrypt s c.cmd envelope c.hal = (.ok, len :: (odSessionOpen s c).out) := by
  generalize hout : odSessionOpen s c = out at h
  have hopening := odSessionOpen_opening s c
  rw [hout] at hopening
  cases hopening with
  | refused hinert _ =>
    dsimp only at h
    rw [h] at hinert
    exact absurd hinert (by decide)
  | expired => exact absurd h (by simp)
  | read henv' _ _ _ _ hread =>
    obtain rfl : envelope = _ := Option.some.inj (henv.symm.trans henv')
    cases hread with
    | refused hinert _ =>
      dsimp only at h
      rw [h] at hinert
      exact absurd hinert (by decide)
    | badTag => exact absurd h (by simp)
    | badLength => exact absurd h (by simp)
    | opened _ hdecrypt _ => exact ⟨_, hdecrypt⟩

/-- The proof is right and the keys are derived, and then the engine fails. -/
def KeyFault (s : Session) (sec : SecurityConfig) (deviceId : DeviceId) (clientNonce clientProof : Bytes)
    (a : AuthCall) : Prop :=
  ∃ (mac sessionKey : Block) (sessionId : SessionId),
    deriveProof a.hal .clientProof sec.encryptionKey s.pendingServerNonce clientNonce deviceId = (.ok, mac) ∧
      odCtEqual clientProof mac.toList = true ∧
      deriveSessionKey a.hal sec.encryptionKey clientNonce s.pendingServerNonce deviceId = (.ok, sessionKey) ∧
      deriveSessionId a.hal sessionKey clientNonce s.pendingServerNonce = (.ok, sessionId) ∧
      sessionId.toList.all (· = 0) = false ∧
      ((deriveProof a.hal .serverProof sessionKey s.pendingServerNonce clientNonce deviceId).1 ≠ .ok ∨
        a.hal.keySet s.slot sessionKey ≠ .ok)

/-- What the handshake of a step 2 can leave before its cleanup. -/
inductive ProofChecked (s : Session) (sec : SecurityConfig) (deviceId : DeviceId) (clientNonce clientProof : Bytes)
    (a : AuthCall) (out : AuthOutcome) : Prop where
  | failed {sessionId : SessionId} (eq : out.session = { s with sessionId := sessionId })
      (result : out.result ≠ .established) (examined : out.result.unexamined = false)
  | cleared (eq : out.session = odSessionClear s) (result : out.result ≠ .established)
      (examined : out.result.unexamined = false)
      (fault : KeyFault s sec deviceId clientNonce clientProof a)
  | established {mac : Block} (result : out.result = .established)
      (proof : a.hal.cmac .clientProof sec.encryptionKey
        (s.pendingServerNonce.toList ++ clientNonce ++ deviceId.toList) = (.ok, mac))
      (equal : odCtEqual clientProof mac.toList = true)
      (authenticated : out.session.authenticated = true) (keyLoaded : out.session.keyLoaded = true)
      (sessionId : out.session.sessionId ≠ .replicate 8 0) (txCounter : out.session.txCounter = 0)
      (rx : out.session.rx = {}) (failures : out.session.integrityFailures = 0)

theorem authVerify_checked (s : Session) (sec : SecurityConfig) (deviceId : DeviceId)
    (clientNonce clientProof : Bytes) (a : AuthCall) :
    ProofChecked s sec deviceId clientNonce clientProof a
      (authVerify s sec deviceId clientNonce clientProof a) := by
  generalize hout : authVerify s sec deviceId clientNonce clientProof a = out
  unfold authVerify at hout
  split at hout
  case h_2 =>
    subst hout
    exact .failed rfl (by simp [authCryptoFail, authFail]) rfl
  case h_1 expected hproof =>
    by_cases hequal : ¬ odCtEqual clientProof expected.toList = true
    · rw [if_pos hequal] at hout
      subst hout
      exact .failed rfl (by simp [authFail]) rfl
    rw [if_neg hequal] at hout
    split at hout
    case h_2 =>
      subst hout
      exact .failed rfl (by simp [authCryptoFail, authFail]) rfl
    case h_1 sessionKey hkey =>
      dsimp only at hout
      split_ifs at hout with hcs hzero
      · subst hout
        exact .failed rfl (by simp [authCryptoFail, authFail]) rfl
      · subst hout
        exact .failed rfl (by simp [authCryptoFail, authFail]) rfl
      · have hfault : ∀ h, KeyFault s sec deviceId clientNonce clientProof a := fun h =>
          ⟨expected, sessionKey, _, hproof, not_not.mp hequal, hkey, Prod.ext (not_not.mp hcs) rfl,
            by simpa using hzero, h⟩
        split at hout
        case h_2 hserver =>
          subst hout
          exact .cleared rfl (by simp [authCryptoFail, authFail]) rfl
            (hfault (.inl fun h => hserver _ (Prod.ext h rfl)))
        case h_1 proof hserver =>
          split at hout
          case h_2 hset =>
            subst hout
            exact .cleared rfl (by simp [authCryptoFail, authFail]) rfl (hfault (.inr hset))
          case h_1 =>
            subst hout
            refine .established rfl hproof (by simpa using hequal) rfl rfl ?_ rfl rfl rfl
            intro hid
            refine hzero ?_
            change (deriveSessionId a.hal sessionKey clientNonce s.pendingServerNonce).2 = _ at hid
            rw [hid]
            decide

theorem countAttempt_same (s : Session) (nowMs : UInt32) : s.Same (countAttempt s nowMs) :=
  ⟨rfl, rfl, rfl, rfl, rfl, rfl, rfl, rfl⟩

theorem auth_eq (s : Session) (a : AuthCall) :
    (Entry.mk s (.authenticate a)).auth = some (odSessionAuthenticate s a).result := rfl

theorem step1_effect {a : AuthCall} {deviceId : DeviceId}
    (h : odSessionAuthenticate s a = authStep1 (countAttempt s a.nowMs) deviceId a) :
    Effect ⟨s, .authenticate a⟩ (odSessionAuthenticate s a).session := by
  have hfresh : ∀ s' : Session, s' = (if (countAttempt s a.nowMs).authenticated = true then
      odSessionClear (countAttempt s a.nowMs) else countAttempt s a.nowMs) →
      s'.authenticated = false ∧ (s.keyLoaded = s.authenticated → s'.keyLoaded = false) ∧
        (s' = odSessionClear s ∨ s.Same s') := by
    intro s' hs'
    split_ifs at hs' with hauth <;> subst hs'
    · exact ⟨rfl, fun _ => rfl, .inl rfl⟩
    · have hauth : s.authenticated = false := by
        rw [← (countAttempt_same s a.nowMs).authenticated]
        simpa using hauth
      exact ⟨hauth, fun hk => by rw [← hauth, ← hk]; rfl, .inr (countAttempt_same s a.nowMs)⟩
  unfold authStep1 at h
  dsimp only at h
  generalize hs' : (if (countAttempt s a.nowMs).authenticated = true then
      odSessionClear (countAttempt s a.nowMs) else countAttempt s a.nowMs) = s' at h
  obtain ⟨hauth, hkey, hsame⟩ := hfresh s' hs'.symm
  split at h
  case h_1 nonce hrandom =>
    have hissues : (Entry.mk s (.authenticate a)).Issues nonce a.nowMs := by
      refine ⟨a, rfl, by rw [h], ?_, rfl⟩
      rw [h]
      simp
    rw [h]
    exact .challenged hissues hauth hkey rfl rfl rfl rfl rfl
  case h_2 =>
    have hresult : (Entry.mk s (.authenticate a)).auth ≠ some .established := by
      rw [auth_eq, h]
      simp [authCryptoFail, authFail]
    rw [h]
    rcases hsame with rfl | hsame
    · exact .cleared rfl hresult rfl rfl
    · refine .spent ⟨hsame.authenticated, hsame.keyLoaded, rfl, hsame.txCounter, hsame.rx, rfl, rfl, rfl⟩
        rfl (fun _ => hsame.sessionId) hresult rfl rfl

theorem step2_effect {a : AuthCall} {sec : SecurityConfig} {deviceId : DeviceId} {body : Bytes}
    (h : odSessionAuthenticate s a = authStep2 (countAttempt s a.nowMs) sec deviceId body a)
    (hsec : a.sec = some sec) (hdevice : a.deviceId = some deviceId) (hbody : a.body = some body)
    (hlen : body.length = 32) : Effect ⟨s, .authenticate a⟩ (odSessionAuthenticate s a).session := by
  have hsame := countAttempt_same s a.nowMs
  generalize hs' : countAttempt s a.nowMs = s' at h hsame
  have hspent : ∀ out, odSessionAuthenticate s a = out → out.result ≠ .established →
      (∃ sessionId, out.session = { challengeConsume s' with sessionId := sessionId }) →
      s.challengePending = true → Effect ⟨s, .authenticate a⟩ (odSessionAuthenticate s a).session := by
    rintro out hout hr ⟨sessionId, hid⟩ hp
    rw [hout, hid]
    refine .spent ⟨hsame.authenticated, hsame.keyLoaded, rfl, hsame.txCounter, hsame.rx, rfl, rfl, rfl⟩
      rfl (fun hno => ?_) (by rw [auth_eq, hout]; simpa using hr) rfl rfl
    simp [hp] at hno
  unfold authStep2 at h
  by_cases hpending : ¬ s'.challengePending = true
  · rw [if_pos hpending] at h
    have hpending : s'.challengePending = false := by simpa using hpending
    rw [h]
    refine .spent ⟨hsame.authenticated, hsame.keyLoaded, rfl, hsame.txCounter, hsame.rx, rfl, rfl, rfl⟩
      hpending (fun _ => hsame.sessionId) (by rw [auth_eq, h]; simp [authFail]) rfl rfl
  rw [if_neg hpending] at h
  have hwas : s.challengePending = true := by
    rw [← hsame.challengePending]
    simpa using hpending
  split_ifs at h with hlate
  · exact hspent _ h (by simp [authFail]) ⟨s'.sessionId, rfl⟩ hwas
  · rcases authVerify_checked s' sec deviceId (body.take odSessionNonceLen) (body.drop odSessionNonceLen) a
      with ⟨hs, hr, -⟩ | ⟨hs, hr, -, -⟩ | @⟨mac, hr, hproof, hequal, hauth, hkey, hid, htx, hrx, -⟩
    · exact hspent _ h hr ⟨_, by dsimp only; rw [hs]; rfl⟩ hwas
    · have hslot : s'.slot = s.slot := by rw [← hs']; rfl
      have hclear : challengeConsume (odSessionClear s') = odSessionClear s := by
        simp [challengeConsume, odSessionClear, hslot]
      rw [h]
      refine .cleared (by dsimp only; rw [hs, hclear]) (by rw [auth_eq, h]; simpa using hr) rfl rfl
    · rw [h]
      refine .established rfl (by rw [auth_eq, h, hr]) hwas ⟨?_, ?_⟩ hauth hkey hid htx hrx rfl rfl rfl
      · refine ⟨sec, deviceId, body.take 16, body.drop 16, mac, hsec, hdevice, ?_, ?_, ?_, ?_⟩
        · rw [List.take_append_drop, hbody]
        · simp [hlen]
        · exact (odCtEqual_iff (by simp [hlen])).mp hequal
        · rw [hsame.pendingServerNonce] at hproof
          exact hproof
      · rw [hsame.challengeMs] at hlate
        exact UInt32.not_lt.mp hlate

theorem odSessionAuthenticate_cases (s : Session) (a : AuthCall) :
    ((odSessionAuthenticate s a).session = s ∧ (odSessionAuthenticate s a).result.unexamined = true) ∨
      ∃ sec deviceId, s.Examines a sec deviceId ∧
        odSessionAuthenticate s a =
          if isStep1 a.body then authStep1 (countAttempt s a.nowMs) deviceId a
          else if isStep2 a.body then authStep2 (countAttempt s a.nowMs) sec deviceId (a.body.getD []) a
          else authFail (challengeConsume (countAttempt s a.nowMs)) authStatusError .malformed := by
  have hkept : ∀ out, odSessionAuthenticate s a = out → out.session = s → out.result.unexamined = true →
      (odSessionAuthenticate s a).session = s ∧ (odSessionAuthenticate s a).result.unexamined = true := by
    intro out h hs hr
    rw [h]
    exact ⟨hs, hr⟩
  rcases hdevice : a.deviceId with - | deviceId
  · exact .inl (hkept _ (by unfold odSessionAuthenticate; rw [hdevice]) rfl rfl)
  rcases hcap : a.rspCap with - | rspCap
  · exact .inl (hkept _ (by unfold odSessionAuthenticate; rw [hdevice, hcap]) rfl rfl)
  by_cases hfloor : rspCap < 3
  · exact .inl (hkept { session := s, result := .noRoom }
      (by unfold odSessionAuthenticate; rw [hdevice, hcap]; simp [hfloor]) rfl rfl)
  rcases hsec : a.sec with - | sec
  · exact .inl (hkept (authFail s authStatusNotConfig .notConfigured)
      (by unfold odSessionAuthenticate; rw [hdevice, hcap, hsec]; simp [hfloor]) rfl rfl)
  have hauth : odSessionAuthenticate s a =
      if ¬ odSessionSecurityEnabled (some sec) then authFail s authStatusNotConfig .notConfigured
      else if isStep1 a.body ∧ rspCap < odSessionStep1ReplyLen then { session := s, result := .noRoom }
      else if isStep2 a.body ∧ rspCap < odSessionStep2ReplyLen then { session := s, result := .noRoom }
      else if rateLimited s a.nowMs then authFail s authStatusRateLimit .rateLimited
      else if isStep1 a.body then authStep1 (countAttempt s a.nowMs) deviceId a
      else if isStep2 a.body then authStep2 (countAttempt s a.nowMs) sec deviceId (a.body.getD []) a
      else authFail (challengeConsume (countAttempt s a.nowMs)) authStatusError .malformed := by
    unfold odSessionAuthenticate
    rw [hdevice, hcap, hsec]
    simp only [hfloor, if_false]
  by_cases henabled : ¬ odSessionSecurityEnabled (some sec) = true
  · exact .inl (hkept _ (hauth.trans (if_pos henabled)) rfl rfl)
  rw [if_neg henabled] at hauth
  by_cases hroom1 : isStep1 a.body = true ∧ rspCap < odSessionStep1ReplyLen
  · exact .inl (hkept _ (hauth.trans (if_pos hroom1)) rfl rfl)
  rw [if_neg hroom1] at hauth
  by_cases hroom2 : isStep2 a.body = true ∧ rspCap < odSessionStep2ReplyLen
  · exact .inl (hkept _ (hauth.trans (if_pos hroom2)) rfl rfl)
  rw [if_neg hroom2] at hauth
  by_cases hrate : rateLimited s a.nowMs = true
  · exact .inl (hkept _ (hauth.trans (if_pos hrate)) rfl rfl)
  rw [if_neg hrate] at hauth
  refine .inr ⟨sec, deviceId, ⟨hdevice, not_not.mp henabled, hsec, ⟨rspCap, hcap, by omega, ?_, ?_⟩,
    by simpa using hrate⟩, hauth⟩
  · exact fun h => Nat.not_lt.mp fun hlt => hroom1 ⟨h, hlt⟩
  · exact fun h => Nat.not_lt.mp fun hlt => hroom2 ⟨h, hlt⟩

theorem authenticate_effect (s : Session) (a : AuthCall) :
    Effect ⟨s, .authenticate a⟩ (odSessionAuthenticate s a).session := by
  rcases odSessionAuthenticate_cases s a with ⟨hs, hr⟩ | ⟨sec, deviceId, hexamines, hauth⟩
  · rw [hs]
    refine .kept (.refl s) (fun r h => ?_) rfl rfl
    rw [auth_eq, Option.some.injEq] at h
    rw [← h, hr]
  by_cases hstep1 : isStep1 a.body = true
  · rw [if_pos hstep1] at hauth
    exact step1_effect hauth
  rw [if_neg hstep1] at hauth
  by_cases hstep2 : isStep2 a.body = true
  · rw [if_pos hstep2] at hauth
    rcases hbody : a.body with - | body
    · simp [hbody, isStep2] at hstep2
    · rw [hbody] at hauth hstep2
      exact step2_effect hauth hexamines.configured hexamines.device hbody (of_decide_eq_true hstep2)
  · rw [if_neg hstep2] at hauth
    have hsame := countAttempt_same s a.nowMs
    rw [hauth]
    refine .spent ⟨hsame.authenticated, hsame.keyLoaded, rfl, hsame.txCounter, hsame.rx, rfl, rfl, rfl⟩
      rfl (fun _ => hsame.sessionId) (by rw [auth_eq, hauth]; simp [authFail]) rfl rfl

theorem call_effect (s : Session) (c : Call) : Effect ⟨s, c⟩ (s.call c) := by
  cases c with
  | authenticate a => exact authenticate_effect s a
  | openFrame c => exact open_effect s c
  | sealFrame c => exact seal_effect s c
  | alive nowMs => exact alive_effect s nowMs
  | touch nowMs =>
    exact .kept ⟨rfl, rfl, rfl, rfl, rfl, rfl, rfl, rfl⟩ (by simp [Entry.auth]) rfl rfl
  | clear => exact .cleared rfl (by simp [Entry.auth]) rfl rfl

end Calls

end OpenDisplay
