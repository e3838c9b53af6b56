import OpenDisplay.Wire
import OpenDisplay.Session.Nonce

/-! The session: the two-step handshake, the envelope in both directions, and the
one teardown. The cryptographic engine is a record of its answers during one call,
and nothing is assumed about them but the lengths it documents. -/

namespace OpenDisplay

def respAuthenticate : UInt8 := 0x50
def respAuthRequired : UInt8 := 0xfe

def authStatusChallenge : UInt8 := 0x00
def authStatusSuccess : UInt8 := authStatusChallenge
def authStatusFailed : UInt8 := 0x01
def authStatusNotConfig : UInt8 := 0x03
def authStatusRateLimit : UInt8 := 0x04
def authStatusError : UInt8 := 0xff

def odSessionNonceLen : Nat := 16
def odSessionIdLen : Nat := 8
def odSessionStep1ReplyLen : Nat := 23
def odSessionStep2ReplyLen : Nat := 19
def odSessionReplyMax : Nat := odSessionStep1ReplyLen
def odSessionStep2BodyLen : Nat := 32
def odHalCryptoTagLen : Nat := 12
def odSessionSealedMax : Nat := 253
def odSessionEnvelopeMax : Nat := odSessionSealedMax - 2
def odSessionPlainMax : Nat := odSessionEnvelopeMax - odSessionNonceLen - odHalCryptoTagLen
def odSessionPayloadMax : Nat := odSessionPlainMax - 1
def odSessionPlainFrameMax : Nat := 2 + odSessionPayloadMax
def odSessionChallengeWindowMs : UInt32 := 30000
def odSessionRateWindowMs : UInt32 := 60000
def odSessionRateMaxAttempts : UInt8 := 10
def odSessionIntegrityStrikes : UInt8 := 3

abbrev Block := Vector UInt8 16
abbrev DeviceId := Vector UInt8 4
abbrev SessionId := Vector UInt8 8

/-- A span, `none` if it has a length but no bytes. -/
abbrev Span := Option Bytes

inductive CryptoStatus where
  | ok | authFailed | unsupported | error
deriving DecidableEq

/-- The four calls of the CMAC that a handshake makes. -/
inductive CmacUse where
  | clientProof | sessionKey | sessionId | serverProof
deriving DecidableEq

/-- What the engine answers during one call of the session. -/
structure Hal where
  cmac : CmacUse → Block → Bytes → CryptoStatus × Block
  aesEcb : Block → Bytes → CryptoStatus × Block
  random : CryptoStatus × Block
  keySet : UInt8 → Block → CryptoStatus
  ccmEncrypt : UInt8 → Bytes → Bytes → (plain : Bytes) → CryptoStatus × Vector UInt8 (plain.length + odHalCryptoTagLen)
  ccmDecrypt : UInt8 → Bytes → Bytes → (ct : Bytes) → CryptoStatus × Vector UInt8 (ct.length - odHalCryptoTagLen)

structure SecurityConfig where
  encryptionEnabled : UInt8
  encryptionKey : Block
  sessionTimeoutSeconds : UInt16

structure Session where
  authenticated : Bool := false
  sessionId : SessionId := .replicate 8 0
  slot : UInt8
  keyLoaded : Bool := false
  txCounter : UInt64 := 0
  rx : NonceWindow := {}
  sessionStartMs : UInt32 := 0
  lastActivityMs : UInt32 := 0
  timeoutMs : UInt32 := 0
  challengeMs : UInt32 := 0
  challengePending : Bool := false
  lastAuthMs : UInt32 := 0
  authAttempts : UInt8 := 0
  integrityFailures : UInt8 := 0
  pendingServerNonce : Block := .replicate 16 0

inductive AuthResult where
  | challenge | established | rejected | rateLimited | notConfigured | malformed | expired
  | cryptoError | noRoom | badArgument
deriving DecidableEq

inductive OpenResult where
  | ok | noSession | short | tooLong | wrongSession | replay | badTag | badLength | noRoom
  | cryptoError
deriving DecidableEq

inductive SealResult where
  | ok | noSession | tooShort | tooLong | noRoom | cryptoError | counterExhausted
deriving DecidableEq

def odCtEqual (a b : Bytes) : Bool :=
  (List.zip a b).foldl (fun diff (x, y) => diff ||| (x ^^^ y)) 0 = 0

def odBe64 (v : UInt64) : Bytes :=
  (List.range 8).map fun i => ((v >>> UInt64.ofNat (56 - i * 8)) &&& 0xff).toUInt8

def odRdBe64 (b : Bytes) : UInt64 := b.foldl (fun v x => (v <<< 8) ||| x.toUInt64) 0

section Derivations

variable (hal : Hal)

/-- The bytes of the label `OpenDisplay session`. -/
def odKdfLabel : Bytes :=
  [0x4f, 0x70, 0x65, 0x6e, 0x44, 0x69, 0x73, 0x70, 0x6c, 0x61, 0x79, 0x20, 0x73, 0x65, 0x73, 0x73,
    0x69, 0x6f, 0x6e]

def deriveSessionKey (master : Block) (clientNonce : Bytes) (serverNonce : Block) (deviceId : DeviceId) :
    CryptoStatus × Block :=
  match hal.cmac .sessionKey master
      (odKdfLabel ++ [0x00] ++ deviceId.toList ++ clientNonce ++ serverNonce.toList ++ [0x00, 0x80]) with
  | (.ok, intermediate) => hal.aesEcb master (odBe64 1 ++ intermediate.toList.take 8)
  | failed => failed

def deriveSessionId (sessionKey : Block) (clientNonce : Bytes) (serverNonce : Block) :
    CryptoStatus × SessionId :=
  match hal.cmac .sessionId sessionKey (clientNonce ++ serverNonce.toList) with
  | (.ok, mac) => (.ok, mac.take 8)
  | (cs, _) => (cs, .replicate 8 0)

def deriveProof (use : CmacUse) (key : Block) (nonceA : Block) (nonceB : Bytes) (deviceId : DeviceId) :
    CryptoStatus × Block :=
  hal.cmac use key (nonceA.toList ++ nonceB ++ deviceId.toList)

end Derivations

section Lifecycle

def odSessionInit (slot : UInt8) : Session := { slot := slot }

def odSessionClear (s : Session) : Session := { slot := s.slot }

def resetNonceState (s : Session) : Session :=
  { s with txCounter := 0, rx := {}, integrityFailures := 0 }

def odConfigSecurityKeySet (sec : SecurityConfig) : Bool := sec.encryptionKey.toList.any (· ≠ 0)

def odSessionSecurityEnabled : Option SecurityConfig → Bool
  | none => false
  | some sec => sec.encryptionEnabled ≠ 0 && odConfigSecurityKeySet sec

def odSessionAlive (s : Session) (nowMs : UInt32) : Bool × Session :=
  if ¬ s.authenticated then (false, s)
  else if s.timeoutMs = 0 then (true, s)
  else if s.timeoutMs ≤ nowMs - s.sessionStartMs then (false, odSessionClear s)
  else (true, s)

def odSessionTouch (s : Session) (nowMs : UInt32) : Session := { s with lastActivityMs := nowMs }

end Lifecycle

section Handshake

/-- The session afterwards, what the call returned, and the reply to send. -/
structure AuthOutcome where
  session : Session
  result : AuthResult
  rsp : Bytes := []

def authFail (s : Session) (status : UInt8) (result : AuthResult) : AuthOutcome :=
  { session := s, result := result, rsp := [respAck, respAuthenticate, status] }

def authCryptoFail (s : Session) : AuthOutcome := authFail s authStatusError .cryptoError

def challengeConsume (s : Session) : Session :=
  { s with challengePending := false, challengeMs := 0, pendingServerNonce := .replicate 16 0 }

/-- The arguments of one request, `none` for a null pointer. -/
structure AuthCall where
  sec : Option SecurityConfig
  deviceId : Option DeviceId
  body : Span
  nowMs : UInt32
  rspCap : Option Nat
  hal : Hal

def isStep1 (body : Span) : Bool := body = some [0x00]

def isStep2 : Span → Bool
  | none => false
  | some body => body.length = odSessionStep2BodyLen

def rateLimited (s : Session) (nowMs : UInt32) : Bool :=
  s.authAttempts ≠ 0 && nowMs - s.lastAuthMs < odSessionRateWindowMs &&
    odSessionRateMaxAttempts ≤ s.authAttempts

def countAttempt (s : Session) (nowMs : UInt32) : Session :=
  let attempts :=
    if s.authAttempts ≠ 0 ∧ ¬ nowMs - s.lastAuthMs < odSessionRateWindowMs then 0 else s.authAttempts
  { s with authAttempts := if attempts < 0xff then attempts + 1 else attempts, lastAuthMs := nowMs }

def authStep1 (s : Session) (deviceId : DeviceId) (a : AuthCall) : AuthOutcome :=
  let s := if s.authenticated then odSessionClear s else s
  match a.hal.random with
  | (.ok, nonce) =>
    { session := { s with pendingServerNonce := nonce, challengeMs := a.nowMs, challengePending := true }
      result := .challenge
      rsp := [respAck, respAuthenticate, authStatusChallenge] ++ nonce.toList ++ deviceId.toList }
  | _ => authCryptoFail (challengeConsume s)

/-- What a verified proof opens. -/
def authEstablish (s : Session) (sec : SecurityConfig) (nowMs : UInt32) (proof : Block) : AuthOutcome :=
  let s := resetNonceState { s with keyLoaded := true, authenticated := true }
  let s := { s with
    timeoutMs := sec.sessionTimeoutSeconds.toUInt32 * 1000, sessionStartMs := nowMs, lastActivityMs := nowMs }
  { session := { challengeConsume s with authAttempts := 0 }
    result := .established
    rsp := [respAck, respAuthenticate, authStatusSuccess] ++ proof.toList }

/-- The body of step 2 once a challenge is known to be pending and in time, up to
the cleanup. -/
def authVerify (s : Session) (sec : SecurityConfig) (deviceId : DeviceId) (clientNonce clientProof : Bytes)
    (a : AuthCall) : AuthOutcome :=
  match deriveProof a.hal .clientProof sec.encryptionKey s.pendingServerNonce clientNonce deviceId with
  | (.ok, expected) =>
    if ¬ odCtEqual clientProof expected.toList then authFail s authStatusFailed .rejected
    else
      match deriveSessionKey a.hal sec.encryptionKey clientNonce s.pendingServerNonce deviceId with
      | (.ok, sessionKey) =>
        let (cs, sessionId) := deriveSessionId a.hal sessionKey clientNonce s.pendingServerNonce
        let s := { s with sessionId := sessionId }
        if cs ≠ .ok then authCryptoFail s
        else if sessionId.toList.all (· = 0) then authCryptoFail s
        else
          match deriveProof a.hal .serverProof sessionKey s.pendingServerNonce clientNonce deviceId with
          | (.ok, proof) =>
            match a.hal.keySet s.slot sessionKey with
            | .ok => authEstablish s sec a.nowMs proof
            | _ => authCryptoFail (odSessionClear s)
          | _ => authCryptoFail (odSessionClear s)
      | _ => authCryptoFail s
  | _ => authCryptoFail s

def authStep2 (s : Session) (sec : SecurityConfig) (deviceId : DeviceId) (body : Bytes) (a : AuthCall) :
    AuthOutcome :=
  if ¬ s.challengePending then authFail s authStatusError .malformed
  else if odSessionChallengeWindowMs < a.nowMs - s.challengeMs then
    authFail (challengeConsume s) authStatusError .expired
  else
    let out := authVerify s sec deviceId (body.take odSessionNonceLen) (body.drop odSessionNonceLen) a
    { out with session := challengeConsume out.session }

def odSessionAuthenticate (s : Session) (a : AuthCall) : AuthOutcome :=
  match a.deviceId, a.rspCap with
  | some deviceId, some rspCap =>
    if rspCap < 3 then { session := s, result := .noRoom }
    else
      match a.sec with
      | none => authFail s authStatusNotConfig .notConfigured
      | some sec =>
        if ¬ odSessionSecurityEnabled (some sec) then authFail s authStatusNotConfig .notConfigured
        else if isStep1 a.body ∧ rspCap < odSessionStep1ReplyLen then { session := s, result := .noRoom }
        else if isStep2 a.body ∧ rspCap < odSessionStep2ReplyLen then { session := s, result := .noRoom }
        else if rateLimited s a.nowMs then authFail s authStatusRateLimit .rateLimited
        else
          let s := countAttempt s a.nowMs
          if isStep1 a.body then authStep1 s deviceId a
          else if isStep2 a.body then authStep2 s sec deviceId (a.body.getD []) a
          else authFail (challengeConsume s) authStatusError .malformed
  | _, _ => { session := s, result := .badArgument }

end Handshake

section Envelope

def buildNonce (s : Session) (counter : UInt64) : Bytes := s.sessionId.toList ++ odBe64 counter

def strike (s : Session) : Session :=
  let s := { s with
    integrityFailures := if s.integrityFailures < 0xff then s.integrityFailures + 1 else s.integrityFailures }
  if odSessionIntegrityStrikes ≤ s.integrityFailures then odSessionClear s else s

structure OpenCall where
  cmd : UInt16
  envelope : Span
  outCap : Option Nat
  nowMs : UInt32
  hal : Hal

structure OpenOutcome where
  session : Session
  result : OpenResult
  out : Bytes := []
  nonceReason : NonceResult := .ok

def envelopeNonce (envelope : Bytes) : Bytes := envelope.take odSessionNonceLen

/-- The counter that an envelope carries. -/
def envelopeCounter (envelope : Bytes) : UInt64 := odRdBe64 ((envelopeNonce envelope).drop odSessionIdLen)

def cmdBytes (cmd : UInt16) : Bytes := [(cmd >>> 8).toUInt8, cmd.toUInt8]

/-- What the cipher makes of an envelope under the session's key. -/
def envelopeDecrypt (s : Session) (cmd : UInt16) (envelope : Bytes) (hal : Hal) : CryptoStatus × Bytes :=
  let ct := envelope.drop odSessionNonceLen
  let (cs, plain) := hal.ccmDecrypt s.slot ((envelopeNonce envelope).drop 3) (cmdBytes cmd) ct
  (cs, plain.toList)

/-- The call once the session is alive and the envelope has a legal length. -/
def openEnvelope (s : Session) (envelope : Bytes) (outCap : Nat) (c : OpenCall) : OpenOutcome :=
  let counter := envelopeCounter envelope
  if ¬ odCtEqual ((envelopeNonce envelope).take odSessionIdLen) s.sessionId.toList then
    { session := s, result := .wrongSession, nonceReason := .badSession }
  else
    let nr := odNonceCheck s.rx counter
    if nr ≠ .ok then { session := s, result := .replay, nonceReason := nr }
    else if outCap < envelope.length - odSessionNonceLen - odHalCryptoTagLen then
      { session := s, result := .noRoom }
    else
      match envelopeDecrypt s c.cmd envelope c.hal with
      | (.authFailed, _) => { session := strike s, result := .badTag }
      | (.ok, plain) =>
        -- an authentic frame is recorded before its inner length is looked at
        let s := { s with rx := odNonceCommit s.rx counter }
        match plain with
        | [] => { session := s, result := .badLength }
        | len :: payload =>
          if len.toNat ≠ payload.length then { session := s, result := .badLength }
          else
            { session := { s with integrityFailures := 0, lastActivityMs := c.nowMs }
              result := .ok, out := payload }
      | _ => { session := s, result := .cryptoError }

def odSessionOpen (s : Session) (c : OpenCall) : OpenOutcome :=
  match c.outCap, c.envelope with
  | some outCap, some envelope =>
    let (alive, s) := odSessionAlive s c.nowMs
    if ¬ alive then { session := s, result := .noSession }
    else if envelope.length < odSessionEnvelopeMin.toNat then { session := s, result := .short }
    else if odSessionEnvelopeMax < envelope.length then { session := s, result := .tooLong }
    else openEnvelope s envelope outCap c
  | _, _ => { session := s, result := .short }

structure SealCall where
  plainFrame : Span
  outCap : Option Nat
  nowMs : UInt32
  hal : Hal

/-- `drawn` is the counter of the nonce that the cipher was called with, if it was. -/
structure SealOutcome where
  session : Session
  result : SealResult
  out : Bytes := []
  drawn : Option UInt64 := none

/-- The call past its preflight: the counter is spent whatever the cipher answers. -/
def sealFrame (s : Session) (plainFrame : Bytes) (c : SealCall) : SealOutcome :=
  let counter := s.txCounter
  let nonce := buildNonce s counter
  let s := { s with txCounter := s.txCounter + 1 }
  let cmd := plainFrame.take 2
  let payload := plainFrame.drop 2
  let inner := UInt8.ofNat payload.length :: payload
  match c.hal.ccmEncrypt s.slot (nonce.drop 3) cmd inner with
  | (.ok, ct) =>
    { session := { s with lastActivityMs := c.nowMs }, result := .ok
      out := cmd ++ nonce ++ ct.toList, drawn := some counter }
  | _ => { session := s, result := .cryptoError, drawn := some counter }

def odSessionSeal (s : Session) (c : SealCall) : SealOutcome :=
  match c.outCap, c.plainFrame with
  | some outCap, some plainFrame =>
    let (alive, s) := odSessionAlive s c.nowMs
    if ¬ alive then { session := s, result := .noSession }
    else if plainFrame.length < 2 then { session := s, result := .tooShort }
    else if odSessionPlainFrameMax < plainFrame.length then { session := s, result := .tooLong }
    else if outCap < plainFrame.length + odSessionNonceLen + 1 + odHalCryptoTagLen then
      { session := s, result := .noRoom }
    else if s.txCounter = UInt64.ofNat (2 ^ 64 - 1) then { session := s, result := .counterExhausted }
    else sealFrame s plainFrame c
  | _, _ => { session := s, result := .noRoom }

end Envelope

end OpenDisplay
