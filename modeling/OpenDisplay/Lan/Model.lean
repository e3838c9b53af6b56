import OpenDisplay.Lib.Loop
import OpenDisplay.Dispatch.Model

/-! The LAN service: one accepted socket, an optional TLS session on it, and a receive
buffer that is parsed into length-prefixed frames. -/

namespace OpenDisplay

open Loops

section State

def odLanRxBufferSize : Nat := 16384

def odLanMaxPayload : Nat := 4094

/-- An accepted socket. Its number is never used again, and `tls` is the mode of the
listener that accepted it. -/
structure LanSocket where
  id : Nat
  tls : Bool
deriving DecidableEq

/-- Which call a byte was returned by: a TLS read, with the socket that the TLS session
was started for, or a raw read of a socket. -/
inductive ByteSource where
  | ssl (session : Option Nat)
  | raw (socket : Option LanSocket)
deriving DecidableEq

structure LanByte where
  value : UInt8
  source : ByteSource
deriving DecidableEq

structure LanConfig where
  securityEnabled : Bool
  commModeWifi : Bool
  wifiConfigured : Bool
  wifiSsid : Bytes
deriving DecidableEq

/-- `globalConfig` after `od_config_reset`, and no WiFi credentials. -/
def LanConfig.reset : LanConfig := ⟨false, false, false, []⟩

inductive LanClose where
  | request | ownedDrop | wifiLost | gone | claimLost | sessionFailed | handshakeFailed
  | peerClosed | readError | invalidLength
deriving DecidableEq

inductive LanEvent where
  | opened (socket : LanSocket)
  | closed (why : LanClose)
  | read (bytes : List LanByte)
  | rxFull
  | offer (client : Option LanSocket) (origin : Origin) (wire : List LanByte) (outcome : FrameOutcome)
deriving DecidableEq

/-- The statics of the service. `accepted` numbers the sockets and `log` is what was done. -/
structure Lan where
  config : LanConfig
  rxBuffer : Bool
  tlsMode : Bool := false
  client : Option LanSocket := none
  tlsSession : Option Nat := none
  tlsHandshakeDone : Bool := false
  wifiServerConnected : Bool := false
  wifiInitialized : Bool := false
  wifiConnected : Bool := false
  buf : List LanByte := []
  accepted : Nat := 0
  log : List LanEvent := []
deriving DecidableEq

def Lan.note (s : Lan) (e : LanEvent) : Lan := { s with log := s.log ++ [e] }

end State

section Session

def startLanServer (s : Lan) : Lan :=
  if ¬ s.rxBuffer then s else { s with tlsMode := s.config.securityEnabled }

def tlsCloseSession (s : Lan) : Lan := { s with tlsSession := none, tlsHandshakeDone := false }

def tlsBeginSession (starts : Bool) (s : Lan) : Bool × Lan :=
  if ¬ starts then (false, s)
  else (true, { s with tlsSession := s.client.map LanSocket.id, tlsHandshakeDone := false })

/-- What both teardowns do to this state. -/
def dropSession (why : LanClose) (s : Lan) : Lan :=
  { tlsCloseSession s with client := none, wifiServerConnected := false, buf := [] }.note (.closed why)

def disconnectWiFiServer (why : LanClose) (s : Lan) : Lan := dropSession why s

def wifiLanDropOwnedSocket (s : Lan) : Lan := dropSession .ownedDrop s

/-- A failed write closes the socket and leaves the rest to a later pass. -/
def lanAbandonSession (s : Lan) : Lan := { s with client := none }

def lanClientConnected (alive : Bool) (s : Lan) : Bool := s.client.isSome && alive

def wifiLanReapClosedSession (alive : Bool) (s : Lan) : Lan :=
  if s.wifiServerConnected ∧ ¬ lanClientConnected alive s then disconnectWiFiServer .gone s else s

def restartWiFiLanAfterReconnect (assoc : Bool) (s : Lan) : Lan :=
  if ¬ s.wifiConnected ∨ ¬ assoc then s else startLanServer (disconnectWiFiServer .request s)

/-- The periodic link check of the main loop. -/
def wifiLinkCheck (linkUp : Bool) (s : Lan) : Lan :=
  if ¬ s.wifiInitialized then s
  else if ¬ linkUp ∧ s.wifiConnected then
    let s := { s with wifiConnected := false }
    if s.wifiServerConnected then disconnectWiFiServer .wifiLost s else s
  else if linkUp ∧ ¬ s.wifiConnected then
    restartWiFiLanAfterReconnect linkUp { s with wifiConnected := true }
  else s

/-- `initWiFi(false)`: the association is started, and a session that is open stays open. -/
def initWiFi (s : Lan) : Lan :=
  if ¬ s.config.commModeWifi ∨ ¬ s.config.wifiConfigured ∨ s.config.wifiSsid = [] then
    { s with wifiInitialized := false }
  else { s with wifiConnected := false, wifiInitialized := true }

/-- What a load of the stored configuration meets: one that is parsed to its end, none
that can be read, or one that breaks off, of which the packets before the break count but
not the WiFi credentials. -/
inductive ConfigLoad where
  | loaded (config : LanConfig)
  | unreadable
  | brokenOff (securityEnabled commModeWifi : Bool)
deriving DecidableEq

def loadGlobalConfig (load : ConfigLoad) (s : Lan) : Bool × Lan :=
  match load with
  | .loaded config => (true, { s with config := config })
  | .unreadable => (false, { s with config := .reset })
  | .brokenOff security wifi => (false, { s with config := ⟨security, wifi, false, []⟩ })

def reloadConfigAfterSave (load : ConfigLoad) (s : Lan) : Lan :=
  match loadGlobalConfig load s with
  | (false, s) => s
  | (true, s) => initWiFi s

def clearStoredConfig (s : Lan) : Lan := { s with config := .reset }

theorem initWiFi_only (s : Lan) : ∃ initialized connected,
    initWiFi s = { s with wifiInitialized := initialized, wifiConnected := connected } := by
  by_cases h : ¬ s.config.commModeWifi ∨ ¬ s.config.wifiConfigured ∨ s.config.wifiSsid = []
  · exact ⟨false, s.wifiConnected, by rw [initWiFi, if_pos h]⟩
  · exact ⟨true, false, by rw [initWiFi, if_neg h]⟩

theorem reloadConfigAfterSave_only (load : ConfigLoad) (s : Lan) : ∃ config initialized connected,
    reloadConfigAfterSave load s =
      { s with config := config, wifiInitialized := initialized, wifiConnected := connected } := by
  cases load with
  | loaded config =>
    obtain ⟨initialized, connected, h⟩ := initWiFi_only { s with config := config }
    exact ⟨config, initialized, connected, h⟩
  | unreadable => exact ⟨_, _, _, rfl⟩
  | brokenOff security wifi => exact ⟨_, _, _, rfl⟩

def serviceLanRoam (due alive : Bool) (s : Lan) : Lan :=
  if ¬ due ∨ ¬ s.wifiConnected then s
  else if lanClientConnected alive s ∨ s.wifiServerConnected then s
  else { s with wifiConnected := false }

/-- What an accepted socket meets: whether the link has an owner, whether the claim that
follows wins, and whether a TLS session can be started. -/
structure Incoming where
  slotHeld : Bool
  claimed : Bool
  sessionStarts : Bool

def admitOrRefuseLanClient (i : Incoming) (s : Lan) : Lan :=
  if i.slotHeld then s
  else
    let socket : LanSocket := ⟨s.accepted, s.tlsMode⟩
    let s := { s with
      accepted := s.accepted + 1, client := some socket, buf := [], wifiServerConnected := true }.note (.opened socket)
    if ¬ i.claimed then { s with client := none, wifiServerConnected := false }.note (.closed .claimLost)
    else if s.tlsMode then
      match tlsBeginSession i.sessionStarts s with
      | (false, s) => disconnectWiFiServer .sessionFailed s
      | (true, s) => s
    else s

theorem startLanServer_only (s : Lan) : ∃ mode, startLanServer s = { s with tlsMode := mode } := by
  by_cases h : ¬ s.rxBuffer
  · exact ⟨s.tlsMode, by rw [startLanServer, if_pos h]⟩
  · exact ⟨s.config.securityEnabled, by rw [startLanServer, if_neg h]⟩

theorem serviceLanRoam_only (due alive : Bool) (s : Lan) :
    ∃ connected, serviceLanRoam due alive s = { s with wifiConnected := connected } := by
  by_cases hdue : ¬ due ∨ ¬ s.wifiConnected
  · exact ⟨s.wifiConnected, by rw [serviceLanRoam, if_pos hdue]⟩
  · by_cases hbusy : lanClientConnected alive s ∨ s.wifiServerConnected
    · exact ⟨s.wifiConnected, by rw [serviceLanRoam, if_neg hdue, if_pos hbusy]⟩
    · exact ⟨false, by rw [serviceLanRoam, if_neg hdue, if_neg hbusy]⟩

theorem admitOrRefuseLanClient_cases (i : Incoming) (s : Lan) :
    admitOrRefuseLanClient i s = s ∨
      (∃ session, (s.tlsMode = true → session = some s.accepted) ∧ ∃ done, admitOrRefuseLanClient i s =
        { s with
          accepted := s.accepted + 1, client := some ⟨s.accepted, s.tlsMode⟩, buf := [], wifiServerConnected := true,
          tlsSession := session, tlsHandshakeDone := done, log := s.log ++ [.opened ⟨s.accepted, s.tlsMode⟩] }) ∨
      (∃ why session done, why ≠ .invalidLength ∧ admitOrRefuseLanClient i s =
        { s with
          accepted := s.accepted + 1, client := none, buf := [], wifiServerConnected := false, tlsSession := session
          tlsHandshakeDone := done, log := s.log ++ [.opened ⟨s.accepted, s.tlsMode⟩, .closed why] }) := by
  unfold admitOrRefuseLanClient
  by_cases hheld : i.slotHeld = true
  · exact .inl (by simp [hheld])
  by_cases hclaim : i.claimed = true
  · by_cases htls : s.tlsMode = true
    · by_cases hstart : i.sessionStarts = true
      · exact .inr (.inl ⟨some s.accepted, fun _ => rfl, false, by
          simp [hheld, hclaim, htls, hstart, tlsBeginSession, Lan.note]⟩)
      · exact .inr (.inr ⟨.sessionFailed, none, false, by decide, by
          simp [hheld, hclaim, htls, hstart, tlsBeginSession, Lan.note, disconnectWiFiServer, dropSession,
            tlsCloseSession]⟩)
    · exact .inr (.inl ⟨s.tlsSession, fun h => absurd h htls, s.tlsHandshakeDone, by
        simp [hheld, hclaim, htls, Lan.note]⟩)
  · exact .inr (.inr ⟨.claimLost, s.tlsSession, s.tlsHandshakeDone, by decide, by
      simp [hheld, hclaim, Lan.note]⟩)

end Session

section Reading

def lanFrameLen (buf : List LanByte) : Nat := (readLe16 (buf.map LanByte.value)).toNat

def lanFrameBuffered (buf : List LanByte) : Bool :=
  if buf.length < 2 then false else buf.length ≥ 2 + lanFrameLen buf

/-- What the channel has for a read. A raw read knows only bytes. -/
inductive LanRead where
  | bytes (bs : Bytes)
  | wait
  | closeNotify
  | failed

inductive LanGot where
  | got (n : Nat)
  | closed
  | error

def lanAppend (source : ByteSource) (bs : Bytes) (s : Lan) : Lan :=
  let bytes := bs.map fun v => ⟨v, source⟩
  { s with buf := s.buf ++ bytes }.note (.read bytes)

def lanReadIntoBuffer (r : LanRead) (s : Lan) : LanGot × Lan :=
  if ¬ s.rxBuffer then (.error, s)
  else
    let space := odLanRxBufferSize - s.buf.length
    if space = 0 then (.error, s.note .rxFull)
    else if s.tlsMode then
      match r with
      | .wait => (.got 0, s)
      | .closeNotify => (.closed, s)
      | .failed => (.error, s)
      | .bytes bs =>
        let bs := bs.take space
        if bs = [] then (.closed, s) else (.got bs.length, lanAppend (.ssl s.tlsSession) bs s)
    else
      match r with
      | .bytes bs =>
        let bs := bs.take space
        if bs = [] then (.got 0, s) else (.got bs.length, lanAppend (.raw s.client) bs s)
      | _ => (.got 0, s)

def lanSource (s : Lan) : ByteSource := if s.tlsMode then .ssl s.tlsSession else .raw s.client

theorem lanReadIntoBuffer_cases {r : LanRead} {s s' : Lan} {g : LanGot} (h : lanReadIntoBuffer r s = (g, s')) :
    (s' = s ∧ ∀ n, g = .got n → n = 0) ∨ (odLanRxBufferSize ≤ s.buf.length ∧ g = .error ∧ s' = s.note .rxFull) ∨
      ∃ bs, bs ≠ [] ∧ s.buf.length + bs.length ≤ odLanRxBufferSize ∧ g = .got bs.length ∧
        s' = lanAppend (lanSource s) bs s := by
  have append : ∀ bs : Bytes, bs.take (odLanRxBufferSize - s.buf.length) ≠ [] →
      s.buf.length + (bs.take (odLanRxBufferSize - s.buf.length)).length ≤ odLanRxBufferSize := by
    intro bs hne
    have := List.length_pos_iff.mpr hne
    rw [List.length_take] at this ⊢
    omega
  unfold lanReadIntoBuffer at h
  split at h
  · obtain ⟨rfl, rfl⟩ := Prod.mk.inj h
    exact .inl ⟨rfl, by simp⟩
  · simp only at h
    split at h
    · obtain ⟨rfl, rfl⟩ := Prod.mk.inj h
      exact .inr (.inl ⟨by omega, rfl, rfl⟩)
    · split at h
      · next htls =>
        cases r with
        | bytes bs =>
          simp only at h
          split at h
          · obtain ⟨rfl, rfl⟩ := Prod.mk.inj h
            exact .inl ⟨rfl, by simp⟩
          · next hne =>
            obtain ⟨rfl, rfl⟩ := Prod.mk.inj h
            exact .inr (.inr ⟨_, hne, append bs hne, rfl, by simp [lanSource, htls]⟩)
        | wait | closeNotify | failed =>
          obtain ⟨rfl, rfl⟩ := Prod.mk.inj h
          exact .inl ⟨rfl, by simp⟩
      · next htls =>
        cases r with
        | bytes bs =>
          simp only at h
          split at h
          · obtain ⟨rfl, rfl⟩ := Prod.mk.inj h
            exact .inl ⟨rfl, by simp⟩
          · next hne =>
            obtain ⟨rfl, rfl⟩ := Prod.mk.inj h
            exact .inr (.inr ⟨_, hne, append bs hne, rfl, by simp [lanSource, htls]⟩)
        | wait | closeNotify | failed =>
          obtain ⟨rfl, rfl⟩ := Prod.mk.inj h
          exact .inl ⟨rfl, by simp⟩

end Reading

section Pass

inductive HandshakeStep where
  | done | wait | failed
deriving DecidableEq

/-- What the dispatcher makes of a frame, and what happens to the service meanwhile: a
reply that is sent at once may fail, which closes the socket, and a configuration command
may clear the configuration, or save one and load it. -/
structure LanAnswer where
  outcome : FrameOutcome
  writeFails : Bool := false
  clears : Bool := false
  reloads : Option ConfigLoad := none

/-- All that one pass of the service meets. -/
structure LanPass where
  roamDue : Bool
  roamAlive : Bool
  assoc : Bool
  assocStill : Bool
  lostAlive : Bool
  incoming : Option Incoming
  alive : Bool
  handshake : HandshakeStep
  reads : Nat → LanRead
  aliveAfter : Nat → Bool
  answers : Nat → LanAnswer

def odFrameConsumesRx (o : FrameOutcome) : Bool := o ≠ .deferred

def lanOrigin (s : Lan) : Origin := if s.tlsMode then .lanTls else .lanPlain

def lanDispatch (a : LanAnswer) (wire : List LanByte) (s : Lan) : Lan :=
  let s := s.note (.offer s.client (lanOrigin s) wire a.outcome)
  let s := if a.writeFails then lanAbandonSession s else s
  let s := if a.clears then clearStoredConfig s else s
  match a.reloads with
  | none => s
  | some load => reloadConfigAfterSave load s

theorem lanDispatch_only (a : LanAnswer) (wire : List LanByte) (s : Lan) : ∃ config initialized connected,
    lanDispatch a wire s =
      { s.note (.offer s.client (lanOrigin s) wire a.outcome) with
        client := if a.writeFails then none else s.client
        config := config, wifiInitialized := initialized, wifiConnected := connected } := by
  obtain ⟨outcome, writeFails, clears, reloads⟩ := a
  cases reloads with
  | none => cases writeFails <;> cases clears <;> exact ⟨_, _, _, rfl⟩
  | some load =>
    unfold lanDispatch
    dsimp only
    obtain ⟨config, initialized, connected, h⟩ := reloadConfigAfterSave_only load _
    rw [h]
    refine ⟨config, initialized, connected, ?_⟩
    cases writeFails <;> cases clears <;> rfl

variable (p : LanPass)

structure LanParse where
  lan : Lan
  offers : Nat

/-- One turn of the parser. It stops with `true` where the pass returns. -/
def parsePass (w : LanParse) : Iter LanParse (Bool × LanParse) :=
  let s := w.lan
  if s.buf.length < 2 then .stop (false, w)
  else
    let flen := lanFrameLen s.buf
    if flen = 0 ∨ flen > odLanMaxPayload then .stop (true, { w with lan := disconnectWiFiServer .invalidLength s })
    else if s.buf.length < 2 + flen then .stop (false, w)
    else
      let a := p.answers w.offers
      let s := lanDispatch a (s.buf.take (2 + flen)) s
      if ¬ odFrameConsumesRx a.outcome then .stop (true, ⟨s, w.offers + 1⟩)
      else .next ⟨{ s with buf := s.buf.drop (2 + flen) }, w.offers + 1⟩

section Fields

variable (a : LanAnswer) (wire : List LanByte) (s : Lan)

@[simp] theorem lanDispatch_buf : (lanDispatch a wire s).buf = s.buf := by
  obtain ⟨_, _, _, h⟩ := lanDispatch_only a wire s
  rw [h]
  rfl

@[simp] theorem lanDispatch_log :
    (lanDispatch a wire s).log = s.log ++ [.offer s.client (lanOrigin s) wire a.outcome] := by
  obtain ⟨_, _, _, h⟩ := lanDispatch_only a wire s
  rw [h]
  rfl

@[simp] theorem lanDispatch_wifiServerConnected :
    (lanDispatch a wire s).wifiServerConnected = s.wifiServerConnected := by
  obtain ⟨_, _, _, h⟩ := lanDispatch_only a wire s
  rw [h]
  rfl

end Fields

/-- The length in front of the buffer is one the protocol does not allow. -/
def LanBadLength (buf : List LanByte) : Prop :=
  2 ≤ buf.length ∧ (lanFrameLen buf = 0 ∨ odLanMaxPayload < lanFrameLen buf)

/-- A whole frame of an allowed length is in front of the buffer. -/
def LanFrameReady (buf : List LanByte) : Prop :=
  0 < lanFrameLen buf ∧ lanFrameLen buf ≤ odLanMaxPayload ∧ 2 + lanFrameLen buf ≤ buf.length

/-- The bytes of the frame in front, its length prefix included. -/
def lanHeadFrame (buf : List LanByte) : List LanByte := buf.take (2 + lanFrameLen buf)

theorem parsePass_next {p : LanPass} {w w' : LanParse} (h : parsePass p w = .next w') :
    LanFrameReady w.lan.buf ∧ (p.answers w.offers).outcome ≠ .deferred ∧
      w' = ⟨{ lanDispatch (p.answers w.offers) (lanHeadFrame w.lan.buf) w.lan with
        buf := w.lan.buf.drop (2 + lanFrameLen w.lan.buf) }, w.offers + 1⟩ := by
  simp only [parsePass] at h
  split_ifs at h with hshort hbad hpart hdef
  have hw : _ = w' := Iter.next.inj h
  refine ⟨⟨by omega, by omega, by omega⟩, by simpa [odFrameConsumesRx] using hdef, ?_⟩
  simp only [← hw, lanHeadFrame, lanDispatch_buf]

theorem parsePass_stop {p : LanPass} {w : LanParse} {r : Bool × LanParse} (h : parsePass p w = .stop r) :
    (r = (false, w) ∧ ¬ LanBadLength w.lan.buf ∧ ¬ LanFrameReady w.lan.buf) ∨
      (LanBadLength w.lan.buf ∧ r = (true, ⟨disconnectWiFiServer .invalidLength w.lan, w.offers⟩)) ∨
      (LanFrameReady w.lan.buf ∧ (p.answers w.offers).outcome = .deferred ∧
        r = (true, ⟨lanDispatch (p.answers w.offers) (lanHeadFrame w.lan.buf) w.lan, w.offers + 1⟩)) := by
  simp only [parsePass] at h
  split_ifs at h with hshort hbad hpart hdef
  all_goals have hr := (Iter.stop.inj h).symm
  · exact .inl ⟨hr, fun hb => by have := hb.1; omega, fun hb => by have := hb.2.2; omega⟩
  · exact .inr (.inl ⟨⟨by omega, hbad⟩, hr⟩)
  · exact .inl ⟨hr, fun hb => hbad hb.2, fun hb => by have := hb.2.2; omega⟩
  · exact .inr (.inr ⟨⟨by omega, by omega, by omega⟩, by simpa [odFrameConsumesRx] using hdef, hr⟩)

theorem parsePass_dec (w w' : LanParse) (h : parsePass p w = .next w') : w'.lan.buf.length < w.lan.buf.length := by
  obtain ⟨hready, -, rfl⟩ := parsePass_next h
  have := hready.2.2
  simp only [List.length_drop]
  omega

def parseFrames (w : LanParse) : Bool × LanParse :=
  loop (parsePass p) (fun w => w.lan.buf.length) (parsePass_dec p) w

structure LanDrain where
  lan : Lan
  drained : Nat := 0
  round : Nat := 0
  offers : Nat := 0

/-- What a round of the drain starts with: a frame that is already there is parsed before
anything else is read. -/
def lanRoundRead (d : LanDrain) : LanGot × Lan :=
  if lanFrameBuffered d.lan.buf then (.got 0, d.lan) else lanReadIntoBuffer (p.reads d.round) d.lan

def drainPass (d : LanDrain) : Iter LanDrain Lan :=
  match lanRoundRead p d with
  | (.closed, s) => .stop (disconnectWiFiServer .peerClosed s)
  | (.error, s) => .stop (disconnectWiFiServer .readError s)
  | (.got n, s) =>
    if n = 0 ∧ d.drained = 0 ∧ ¬ lanFrameBuffered s.buf then .stop s
    else
      match parseFrames p ⟨s, d.offers⟩ with
      | (true, w) => .stop w.lan
      | (false, w) =>
        if ¬ w.lan.wifiServerConnected ∨ ¬ lanClientConnected (p.aliveAfter d.round) w.lan then .stop w.lan
        else if n > 0 ∧ d.drained + n < odLanRxBufferSize then
          .next ⟨w.lan, d.drained + n, d.round + 1, w.offers⟩
        else .stop w.lan

theorem drainPass_next {p : LanPass} {d d' : LanDrain} (h : drainPass p d = .next d') :
    ∃ n s w, lanRoundRead p d = (.got n, s) ∧ parseFrames p ⟨s, d.offers⟩ = (false, w) ∧
      0 < n ∧ d.drained + n < odLanRxBufferSize ∧ w.lan.wifiServerConnected = true ∧ w.lan.client.isSome ∧
      d' = ⟨w.lan, d.drained + n, d.round + 1, w.offers⟩ := by
  unfold drainPass at h
  split at h
  · cases h
  · cases h
  · next n s hread =>
    split at h
    · cases h
    · split at h
      · cases h
      · next w hparse =>
        split at h
        · cases h
        · next hlive =>
          split at h
          · next hn =>
            have hc : w.lan.wifiServerConnected = true ∧ w.lan.client.isSome := by
              simp only [lanClientConnected] at hlive
              grind
            exact ⟨n, s, w, hread, hparse, hn.1, hn.2, hc.1, hc.2, (Iter.next.inj h).symm⟩
          · cases h

theorem drainPass_stop {p : LanPass} {d : LanDrain} {t : Lan} (h : drainPass p d = .stop t) :
    (∃ s, lanRoundRead p d = (.closed, s) ∧ t = disconnectWiFiServer .peerClosed s) ∨
      (∃ s, lanRoundRead p d = (.error, s) ∧ t = disconnectWiFiServer .readError s) ∨
      (lanRoundRead p d = (.got 0, t) ∧ d.drained = 0 ∧ lanFrameBuffered t.buf = false) ∨
      (∃ n s b w, lanRoundRead p d = (.got n, s) ∧ parseFrames p ⟨s, d.offers⟩ = (b, w) ∧ t = w.lan) := by
  unfold drainPass at h
  split at h
  · next s hread => exact .inl ⟨s, hread, (Iter.stop.inj h).symm⟩
  · next s hread => exact .inr (.inl ⟨s, hread, (Iter.stop.inj h).symm⟩)
  · next n s hread =>
    split at h
    · next hdry =>
      obtain rfl := Iter.stop.inj h
      obtain ⟨rfl, hd, hb⟩ := hdry
      exact .inr (.inr (.inl ⟨hread, hd, by simpa using hb⟩))
    · split at h
      · next w hparse => exact .inr (.inr (.inr ⟨n, s, true, w, hread, hparse, (Iter.stop.inj h).symm⟩))
      · next w hparse =>
        refine .inr (.inr (.inr ⟨n, s, false, w, hread, hparse, ?_⟩))
        split at h
        · exact (Iter.stop.inj h).symm
        · split at h
          · cases h
          · exact (Iter.stop.inj h).symm

theorem drainPass_dec (d d' : LanDrain) (h : drainPass p d = .next d') :
    odLanRxBufferSize - d'.drained < odLanRxBufferSize - d.drained := by
  obtain ⟨n, s, w, -, -, hn, hlt, -, -, rfl⟩ := drainPass_next h
  show odLanRxBufferSize - (d.drained + n) < _
  omega

def drainLan (s : Lan) : Lan :=
  loop (drainPass p) (fun d => odLanRxBufferSize - d.drained) (drainPass_dec p) ⟨s, 0, 0, 0⟩

/-- The handshake is driven a step further, and a failure ends the session. -/
def driveHandshake (s : Lan) : Bool × Lan :=
  if s.tlsMode ∧ s.tlsSession.isSome ∧ ¬ s.tlsHandshakeDone then
    match p.handshake with
    | .done => (true, { s with tlsHandshakeDone := true })
    | .wait => (true, s)
    | .failed => (false, disconnectWiFiServer .handshakeFailed s)
  else (true, s)

/-- A new association starts the listener again, in the mode that is configured now. -/
def lanReassociate (s : Lan) : Lan :=
  if s.wifiInitialized ∧ p.assoc ∧ ¬ s.wifiConnected then startLanServer { s with wifiConnected := true } else s

theorem lanReassociate_only (s : Lan) :
    ∃ mode connected, lanReassociate p s = { s with tlsMode := mode, wifiConnected := connected } := by
  by_cases h : s.wifiInitialized ∧ p.assoc ∧ ¬ s.wifiConnected
  · obtain ⟨mode, hm⟩ := startLanServer_only { s with wifiConnected := true }
    exact ⟨mode, true, by rw [lanReassociate, if_pos h, hm]⟩
  · exact ⟨s.tlsMode, s.wifiConnected, by rw [lanReassociate, if_neg h]⟩

def lanAccept (s : Lan) : Lan :=
  match p.incoming with
  | none => s
  | some i => admitOrRefuseLanClient i s

/-- The part of a pass that serves the client, if it is still there. -/
def lanServe (s : Lan) : Lan :=
  if ¬ s.wifiServerConnected ∨ ¬ lanClientConnected p.alive s then
    if s.wifiServerConnected then disconnectWiFiServer .gone s else s
  else
    match driveHandshake p s with
    | (false, s) => s
    | (true, s) => drainLan p s

def handleWiFiServer (s : Lan) : Lan :=
  let s := lanReassociate p (serviceLanRoam p.roamDue p.roamAlive s)
  if ¬ s.wifiConnected ∨ ¬ p.assocStill then
    if s.wifiServerConnected ∨ lanClientConnected p.lostAlive s then disconnectWiFiServer .wifiLost s else s
  else lanServe p (lanAccept p s)

theorem driveHandshake_cases (s : Lan) :
    driveHandshake p s = (false, disconnectWiFiServer .handshakeFailed s) ∨
      ∃ done, driveHandshake p s = (true, { s with tlsHandshakeDone := done }) := by
  by_cases h : s.tlsMode ∧ s.tlsSession.isSome ∧ ¬ s.tlsHandshakeDone
  · cases hs : p.handshake with
    | done => exact .inr ⟨true, by simp only [driveHandshake, if_pos h, hs]⟩
    | wait => exact .inr ⟨s.tlsHandshakeDone, by simp only [driveHandshake, if_pos h, hs]⟩
    | failed => exact .inl (by simp only [driveHandshake, if_pos h, hs])
  · exact .inr ⟨s.tlsHandshakeDone, by simp only [driveHandshake, if_neg h]⟩

theorem lanServe_cases (s : Lan) : (s.wifiServerConnected = false ∧ lanServe p s = s) ∨
    (∃ why, why ≠ .invalidLength ∧ lanServe p s = dropSession why s) ∨
    (s.wifiServerConnected = true ∧ s.client.isSome ∧
      ∃ done, lanServe p s = drainLan p { s with tlsHandshakeDone := done }) := by
  by_cases hlive : ¬ s.wifiServerConnected ∨ ¬ lanClientConnected p.alive s
  · by_cases hc : s.wifiServerConnected = true
    · exact .inr (.inl ⟨.gone, by decide, by rw [lanServe, if_pos hlive, if_pos hc]; rfl⟩)
    · exact .inl ⟨by simpa using hc, by rw [lanServe, if_pos hlive, if_neg hc]⟩
  · obtain hf | ⟨done, hd⟩ := driveHandshake_cases p s
    · exact .inr (.inl ⟨.handshakeFailed, by decide, by rw [lanServe, if_neg hlive, hf]; rfl⟩)
    · have hc : s.wifiServerConnected = true ∧ s.client.isSome := by
        simp only [lanClientConnected] at hlive
        grind
      exact .inr (.inr ⟨hc.1, hc.2, done, by rw [lanServe, if_neg hlive, hd]⟩)

end Pass

section Runs

/-- What reaches the service: a pass, or one of the calls from elsewhere in the main loop. -/
inductive LanStep where
  | pass (p : LanPass)
  | disconnect
  | dropOwned
  | restart (assoc : Bool)
  | save (load : ConfigLoad)
  | clear
  | abandon
  | reap (alive : Bool)
  | linkCheck (linkUp : Bool)

def lanStep (s : Lan) : LanStep → Lan
  | .pass p => handleWiFiServer p s
  | .disconnect => disconnectWiFiServer .request s
  | .dropOwned => wifiLanDropOwnedSocket s
  | .restart assoc => restartWiFiLanAfterReconnect assoc s
  | .save load => reloadConfigAfterSave load s
  | .clear => clearStoredConfig s
  | .abandon => lanAbandonSession s
  | .reap alive => wifiLanReapClosedSession alive s
  | .linkCheck linkUp => wifiLinkCheck linkUp s

def lanRun (steps : List LanStep) (s : Lan) : Lan := steps.foldl lanStep s

/-- The service at boot: no socket, nothing received and nothing done. -/
def lanBoot (config : LanConfig) (rxBuffer : Bool) : Lan := { config := config, rxBuffer := rxBuffer }

def wifiConfig (secure : Bool) : LanConfig := ⟨secure, true, true, [0x61]⟩

/-- A pass on a live association that accepts a socket, if it is told so, and reads `bs`. -/
def livePass (incoming : Bool) (bs : Bytes) (answers : List LanAnswer) : LanPass where
  roamDue := false
  roamAlive := false
  assoc := true
  assocStill := true
  lostAlive := true
  incoming := if incoming then some ⟨false, true, true⟩ else none
  alive := true
  handshake := .done
  reads := fun n => if n = 0 then .bytes bs else .wait
  aliveAfter := fun _ => true
  answers := fun n => answers.getD n { outcome := .accepted }

end Runs

end OpenDisplay
