import OpenDisplay.Lan.Model

/-! Where the bytes of a dispatched frame come from. The origin of a frame is read off the
mode of the listener, and the listener's mode is that of the socket as long as it is not
started again under an open session. A dispatch may close the socket, and the parser then
goes on with the frames behind. -/

namespace OpenDisplay

open Loops

section Provenance

/-- A frame that is dispatched as a TLS frame came whole through the TLS session of the
socket, and one that is dispatched as a plain frame was read from a plain socket. -/
def Provenance : LanEvent → Prop
  | .offer client .lanTls wire _ => ∃ k, client = some k ∧ ∀ b ∈ wire, b.source = .ssl (some k.id)
  | .offer _ .lanPlain wire _ => ∃ k : LanSocket, k.tls = false ∧ ∀ b ∈ wire, b.source = .raw (some k)
  | .offer _ .ble _ _ => False
  | _ => True

/-- What a byte of this socket has for its source. -/
def socketSource (k : LanSocket) : ByteSource := if k.tls then .ssl (some k.id) else .raw (some k)

/-- The frame came whole from one socket, through its TLS session if the origin says so,
and that socket is there still, or none is. -/
def OneSocket : LanEvent → Prop
  | .offer client origin wire _ => ∃ k : LanSocket, origin = (if k.tls then .lanTls else .lanPlain) ∧
      (client = some k ∨ client = none) ∧ ∀ b ∈ wire, b.source = socketSource k
  | _ => True

/-- The pass starts the listener in another mode while a socket is held. -/
def restartsUnderClient (s : Lan) (p : LanPass) : Bool :=
  s.client.isSome && s.rxBuffer && s.wifiInitialized && p.assoc && !s.wifiConnected &&
    (s.config.securityEnabled != s.tlsMode)

def KeepsMode (s : Lan) : LanStep → Prop
  | .pass p => restartsUnderClient s p = false
  | _ => True

/-- The state in which a pass begins to read, if it comes so far. -/
def lanReads (p : LanPass) (s : Lan) : Option Lan :=
  let s := lanReassociate p (serviceLanRoam p.roamDue p.roamAlive s)
  if ¬ s.wifiConnected ∨ ¬ p.assocStill then none
  else
    let s := lanAccept p s
    if ¬ s.wifiServerConnected ∨ ¬ lanClientConnected p.alive s then none
    else
      match driveHandshake p s with
      | (false, _) => none
      | (true, s) => some s

/-- The rounds of the read loop. -/
inductive LanRound (p : LanPass) (s : Lan) : LanDrain → Prop
  | first : LanRound p s ⟨s, 0, 0, 0⟩
  | next {d d' : LanDrain} : LanRound p s d → drainPass p d = .next d' → LanRound p s d'

/-- The turns of the parser in these rounds. -/
inductive LanTurn (p : LanPass) (s : Lan) : LanParse → Prop
  | first {d : LanDrain} {n : Nat} {t : Lan} : LanRound p s d → lanRoundRead p d = (.got n, t) →
      LanTurn p s ⟨t, d.offers⟩
  | next {w w' : LanParse} : LanTurn p s w → parsePass p w = .next w' → LanTurn p s w'

/-- If the dispatch of a TLS frame closes the socket, no whole frame is behind it. -/
def ClosesLast (p : LanPass) (w : LanParse) : Prop :=
  w.lan.tlsMode = true → LanFrameReady w.lan.buf → (p.answers w.offers).outcome ≠ .deferred →
    (p.answers w.offers).writeFails = true → ¬ LanFrameReady (w.lan.buf.drop (2 + lanFrameLen w.lan.buf))

def KeepsSocket (s : Lan) : LanStep → Prop
  | .pass p => ∀ t, lanReads p s = some t → ∀ w, LanTurn p t w → ClosesLast p w
  | _ => True

/-- Every step of the run meets the condition in the state it finds. -/
def Throughout (P : Lan → LanStep → Prop) : List LanStep → Lan → Prop
  | [], _ => True
  | st :: rest, s => P s st ∧ Throughout P rest (lanStep s st)

/-- The listener and the buffer are those of the socket, which may have been closed. -/
structure Serves (k : LanSocket) (s : Lan) : Prop where
  client : s.client = some k ∨ s.client = none
  mode : s.tlsMode = k.tls
  session : k.tls = true → s.tlsSession = some k.id
  bytes : ∀ b ∈ s.buf, b.source = socketSource k

variable {c : Prop}

/-- What is claimed of an event, the whole of it under the condition `c`. -/
def Traced (c : Prop) (e : LanEvent) : Prop := OneSocket e ∧ (c → Provenance e)

/-- The socket, the listener and the buffer agree. -/
structure LanOwned (c : Prop) (s : Lan) : Prop where
  held : s.client.isSome → s.wifiServerConnected = true
  serves : ∀ k, s.client = some k → Serves k s
  offers : ∀ e ∈ s.log, Traced c e

variable {s t : Lan}

theorem LanOwned.of_none (hc : t.client = none) (h : ∀ e ∈ t.log, Traced c e) : LanOwned c t := by
  refine ⟨?_, ?_, h⟩ <;> simp [hc]

theorem traced_concat {log : List LanEvent} {last : LanEvent} (h : ∀ e ∈ log, Traced c e) (hlast : Traced c last) :
    ∀ e ∈ log ++ [last], Traced c e := by
  intro e he
  rcases List.mem_append.mp he with he | he
  · exact h e he
  · rwa [List.mem_singleton.mp he]

theorem LanOwned.dropped (h : LanOwned c s) (why : LanClose) : LanOwned c (dropSession why s) :=
  .of_none rfl (traced_concat h.offers ⟨trivial, fun _ => trivial⟩)

theorem Serves.congr {k : LanSocket} (h : Serves k s) (hk : t.client = s.client) (hm : t.tlsMode = s.tlsMode)
    (hs : t.tlsSession = s.tlsSession) (hb : t.buf = s.buf) : Serves k t := by
  obtain ⟨client, mode, session, bytes⟩ := h
  exact ⟨by rwa [hk], by rwa [hm], by rwa [hs], by rwa [hb]⟩

theorem LanOwned.congr (h : LanOwned c s) (hk : t.client = s.client)
    (hc : t.wifiServerConnected = s.wifiServerConnected)
    (hm : t.tlsMode = s.tlsMode) (hs : t.tlsSession = s.tlsSession) (hb : t.buf = s.buf) (hl : t.log = s.log) :
    LanOwned c t := by
  refine ⟨by rw [hk, hc]; exact h.held, fun k hk' => ?_, by rw [hl]; exact h.offers⟩
  exact (h.serves k (hk.symm.trans hk')).congr hk hm hs hb

theorem Serves.source {k : LanSocket} (h : Serves k s) (hk : s.client = some k) : lanSource s = socketSource k := by
  unfold lanSource socketSource
  rw [h.mode, hk]
  by_cases htls : k.tls = true
  · rw [if_pos htls, if_pos htls, h.session htls]
  · rw [if_neg htls, if_neg htls]

theorem LanOwned.append (h : LanOwned c s) {k : LanSocket} (hk : s.client = some k) (bs : Bytes) :
    LanOwned c (lanAppend (lanSource s) bs s) := by
  have hserves := h.serves k hk
  refine ⟨h.held, ?_, traced_concat h.offers ⟨trivial, fun _ => trivial⟩⟩
  intro k' hk'
  obtain rfl : k = k' := Option.some.inj (hk.symm.trans hk')
  refine ⟨.inl hk, hserves.mode, hserves.session, fun b hb => ?_⟩
  rcases List.mem_append.mp hb with hb | hb
  · exact hserves.bytes b hb
  · obtain ⟨v, -, rfl⟩ := List.mem_map.mp hb
    exact hserves.source hk

/-- The parser at work: once the socket is closed under it no TLS frame is left to offer,
if the condition holds. -/
structure Parsing (c : Prop) (k : LanSocket) (s : Lan) : Prop where
  held : s.client.isSome → s.wifiServerConnected = true
  serves : Serves k s
  offers : ∀ e ∈ s.log, Traced c e
  last : c → k.tls = true → s.client = none → ¬ LanFrameReady s.buf

theorem LanOwned.parsing (h : LanOwned c s) {k : LanSocket} (hk : s.client = some k) : Parsing c k s :=
  ⟨h.held, h.serves k hk, h.offers, fun _ _ hnone => absurd (hk.symm.trans hnone) (by simp)⟩

theorem Parsing.owned {k : LanSocket} (h : Parsing c k s) : LanOwned c s := by
  refine ⟨h.held, fun k' hk' => ?_, h.offers⟩
  rcases h.serves.client with hk | hk
  · obtain rfl : k = k' := Option.some.inj (hk.symm.trans hk')
    exact h.serves
  · exact absurd (hk.symm.trans hk') (by simp)

theorem Parsing.traced {k : LanSocket} (h : Parsing c k s) (hready : LanFrameReady s.buf) (out : FrameOutcome) :
    Traced c (.offer s.client (lanOrigin s) (lanHeadFrame s.buf) out) := by
  have hsource : ∀ b ∈ lanHeadFrame s.buf, b.source = socketSource k := fun b hb =>
    h.serves.bytes b (List.mem_of_mem_take hb)
  refine ⟨⟨k, by rw [lanOrigin, h.serves.mode], h.serves.client, hsource⟩, fun hc => ?_⟩
  unfold lanOrigin
  rw [h.serves.mode]
  by_cases htls : k.tls = true
  · rw [if_pos htls]
    have hk : s.client = some k := h.serves.client.resolve_right fun hnone => h.last hc htls hnone hready
    exact ⟨k, hk, fun b hb => by rw [hsource b hb, socketSource, if_pos htls]⟩
  · rw [if_neg htls]
    exact ⟨k, by simpa using htls, fun b hb => by rw [hsource b hb, socketSource, if_neg htls]⟩

theorem Parsing.offered {k : LanSocket} (h : Parsing c k s) (hready : LanFrameReady s.buf) (a : LanAnswer) :
    LanOwned c (lanDispatch a (lanHeadFrame s.buf) s) := by
  obtain ⟨_, _, _, hs⟩ := lanDispatch_only a (lanHeadFrame s.buf) s
  have hoffers := traced_concat h.offers (h.traced hready a.outcome)
  rw [hs]
  cases hw : a.writeFails with
  | true => exact .of_none rfl hoffers
  | false =>
    exact ⟨h.held, fun k' hk' => (h.owned.serves k' hk').congr rfl rfl rfl rfl, hoffers⟩

/-- After a dispatch: what is left of the buffer is parsed next. -/
theorem Parsing.dispatched {k : LanSocket} (h : Parsing c k s) (hready : LanFrameReady s.buf) (a : LanAnswer)
    (n : Nat) (hlast : c → k.tls = true → a.writeFails = true → ¬ LanFrameReady (s.buf.drop n))
    (hkept : s.client = none → c → k.tls = true → ¬ LanFrameReady (s.buf.drop n)) :
    Parsing c k { lanDispatch a (lanHeadFrame s.buf) s with buf := s.buf.drop n } := by
  obtain ⟨_, _, _, hs⟩ := lanDispatch_only a (lanHeadFrame s.buf) s
  rw [hs]
  have hoffers := traced_concat h.offers (h.traced hready a.outcome)
  have hbytes : ∀ b ∈ s.buf.drop n, b.source = socketSource k := fun b hb =>
    h.serves.bytes b (List.mem_of_mem_drop hb)
  cases hw : a.writeFails with
  | true => exact ⟨nofun, ⟨.inr rfl, h.serves.mode, h.serves.session, hbytes⟩, hoffers,
      fun hc htls _ => hlast hc htls hw⟩
  | false =>
    exact ⟨h.held, ⟨h.serves.client, h.serves.mode, h.serves.session, hbytes⟩, hoffers,
      fun hc htls hnone => hkept hnone hc htls⟩

variable {p : LanPass}

theorem parseFrames_owned {k : LanSocket} (hturns : c → ∀ w, LanTurn p t w → ClosesLast p w) (w : LanParse)
    (hw : LanTurn p t w) (h : Parsing c k w.lan) : LanOwned c (parseFrames p w).2.lan := by
  refine loop_rule (d := parsePass_dec p) (P := fun (w : LanParse) (r : Bool × LanParse) =>
    LanTurn p t w → Parsing c k w.lan → LanOwned c r.2.lan) ?_ ?_ w hw h
  · intro w r hstop hturn hw
    obtain ⟨rfl, -, -⟩ | ⟨-, rfl⟩ | ⟨hready, -, rfl⟩ := parsePass_stop hstop
    · exact hw.owned
    · exact hw.owned.dropped .invalidLength
    · exact hw.offered hready _
  · intro w w' r hnext ih hturn hw
    have hturn' := LanTurn.next hturn hnext
    obtain ⟨hready, hout, rfl⟩ := parsePass_next hnext
    refine ih hturn' (hw.dispatched hready _ _ (fun hc htls hfails => ?_) fun hnone hc htls => ?_)
    · exact hturns hc w hturn (hw.serves.mode.trans htls) hready hout hfails
    · exact absurd hready (hw.last hc htls hnone)

theorem LanOwned.roundRead {d : LanDrain} {g : LanGot} (h : LanOwned c d.lan) (hc : d.lan.client.isSome)
    (hr : lanRoundRead p d = (g, s)) : LanOwned c s ∧ s.client.isSome := by
  obtain ⟨k, hk⟩ := Option.isSome_iff_exists.mp hc
  unfold lanRoundRead at hr
  split at hr
  · obtain ⟨-, rfl⟩ := Prod.mk.inj hr
    exact ⟨h, hc⟩
  · obtain ⟨rfl, -⟩ | ⟨-, -, rfl⟩ | ⟨bs, -, -, -, rfl⟩ := lanReadIntoBuffer_cases hr
    · exact ⟨h, hc⟩
    · refine ⟨⟨h.held, fun k hk => (h.serves k hk).congr rfl rfl rfl rfl, ?_⟩, hc⟩
      exact traced_concat h.offers ⟨trivial, fun _ => trivial⟩
    · exact ⟨h.append hk bs, hc⟩

theorem drainLan_owned (h : LanOwned c s) (hc : s.client.isSome)
    (hturns : c → ∀ w, LanTurn p s w → ClosesLast p w) : LanOwned c (drainLan p s) := by
  have hparse : ∀ {d : LanDrain} {n u}, LanRound p s d → LanOwned c d.lan → d.lan.client.isSome →
      lanRoundRead p d = (.got n, u) → LanOwned c (parseFrames p ⟨u, d.offers⟩).2.lan := by
    intro d n u hround hd hdc hread
    obtain ⟨hu, huc⟩ := hd.roundRead hdc hread
    obtain ⟨k, hk⟩ := Option.isSome_iff_exists.mp huc
    exact parseFrames_owned hturns ⟨u, d.offers⟩ (.first hround hread) (hu.parsing hk)
  refine loop_rule (d := drainPass_dec p) (P := fun (d : LanDrain) (t : Lan) =>
    LanRound p s d → LanOwned c d.lan → d.lan.client.isSome → LanOwned c t) ?_ ?_ ⟨s, 0, 0, 0⟩ .first h hc
  · intro d t hstop hround hd hdc
    obtain ⟨u, hread, rfl⟩ | ⟨u, hread, rfl⟩ | ⟨hread, -, -⟩ | ⟨n, u, b, w, hread, hw, rfl⟩ := drainPass_stop hstop
    · exact (hd.roundRead hdc hread).1.dropped .peerClosed
    · exact (hd.roundRead hdc hread).1.dropped .readError
    · exact (hd.roundRead hdc hread).1
    · have hout := hparse hround hd hdc hread
      rwa [hw] at hout
  · intro d d' t hnext ih hround hd hdc
    have hround' := LanRound.next hround hnext
    obtain ⟨n, u, w, hread, hw, -, -, -, hwc, rfl⟩ := drainPass_next hnext
    have hout := hparse hround hd hdc hread
    rw [hw] at hout
    exact ih hround' hout hwc

theorem lanAccept_owned (h : LanOwned c s) : LanOwned c (lanAccept p s) := by
  unfold lanAccept
  split
  · exact h
  · next i _ =>
    obtain hs | ⟨session, hsession, done, hs⟩ | ⟨why, session, done, -, hs⟩ := admitOrRefuseLanClient_cases i s
    · rwa [hs]
    · rw [hs]
      refine ⟨fun _ => rfl, ?_, traced_concat h.offers ⟨trivial, fun _ => trivial⟩⟩
      rintro k ⟨⟩
      exact ⟨.inl rfl, rfl, hsession, fun b hb => absurd hb (by simp)⟩
    · have hopened : ∀ e ∈ s.log ++ [.opened ⟨s.accepted, s.tlsMode⟩], Traced c e :=
        traced_concat h.offers ⟨trivial, fun _ => trivial⟩
      have hclosed : ∀ e ∈ s.log ++ [.opened ⟨s.accepted, s.tlsMode⟩] ++ [.closed why], Traced c e :=
        traced_concat hopened ⟨trivial, fun _ => trivial⟩
      rw [hs]
      rw [List.append_assoc] at hclosed
      exact .of_none rfl hclosed

/-- Until it is served, a pass changes no socket: with a socket held there is no roam, and
the listener is started again in the mode it has. -/
theorem LanOwned.reassociated (h : LanOwned c s) (hp : restartsUnderClient s p = false) :
    LanOwned c (lanReassociate p (serviceLanRoam p.roamDue p.roamAlive s)) := by
  obtain ⟨connected, hroam⟩ := serviceLanRoam_only p.roamDue p.roamAlive s
  obtain ⟨mode, connected', hre⟩ := lanReassociate_only p (serviceLanRoam p.roamDue p.roamAlive s)
  by_cases hc : s.client.isSome
  · have hno : serviceLanRoam p.roamDue p.roamAlive s = s := by
      simp [serviceLanRoam, h.held hc]
    rw [hno]
    unfold lanReassociate
    split
    · next hassoc =>
      have hsame : startLanServer { s with wifiConnected := true } = { s with wifiConnected := true } := by
        unfold startLanServer
        by_cases hrx : s.rxBuffer = true
        · have hmode : s.config.securityEnabled = s.tlsMode := by
            simpa [restartsUnderClient, hc, hrx, hassoc] using hp
          simp [hrx, hmode]
        · rw [if_pos hrx]
      rw [hsame]
      exact h.congr rfl rfl rfl rfl rfl rfl
    · exact h
  · rw [hre, hroam]
    exact .of_none (by simpa using hc) h.offers

theorem lanServe_owned (h : LanOwned c s)
    (hturns : ¬ (¬ s.wifiServerConnected ∨ ¬ lanClientConnected p.alive s) → ∀ t, driveHandshake p s = (true, t) →
      c → ∀ w, LanTurn p t w → ClosesLast p w) : LanOwned c (lanServe p s) := by
  unfold lanServe
  by_cases hlive : ¬ s.wifiServerConnected ∨ ¬ lanClientConnected p.alive s
  · rw [if_pos hlive]
    split
    · exact h.dropped .gone
    · exact h
  · rw [if_neg hlive]
    have hclient : s.client.isSome = true := by
      simp only [lanClientConnected] at hlive
      grind
    obtain hf | ⟨done, hd⟩ := driveHandshake_cases p s
    · rw [hf]
      exact h.dropped .handshakeFailed
    · rw [hd]
      have hset : LanOwned c { s with tlsHandshakeDone := done } := h.congr rfl rfl rfl rfl rfl rfl
      exact drainLan_owned hset hclient (hturns hlive _ hd)

theorem handleWiFiServer_owned (h : LanOwned c s) (hp : restartsUnderClient s p = false)
    (hturns : c → KeepsSocket s (.pass p)) : LanOwned c (handleWiFiServer p s) := by
  have hbegin := h.reassociated hp
  unfold handleWiFiServer
  dsimp only
  split_ifs with hlost
  · exact hbegin.dropped .wifiLost
  · exact hbegin
  · refine lanServe_owned (lanAccept_owned hbegin) fun hlive t hshake hc => hturns hc t ?_
    unfold lanReads
    dsimp only
    rw [if_neg hlost, if_neg hlive, hshake]

theorem LanOwned.restarted (h : LanOwned c s) (assoc : Bool) : LanOwned c (restartWiFiLanAfterReconnect assoc s) := by
  unfold restartWiFiLanAfterReconnect
  split
  · exact h
  · obtain ⟨mode, hs⟩ := startLanServer_only (disconnectWiFiServer .request s)
    rw [hs]
    exact .of_none rfl (h.dropped .request).offers

theorem LanOwned.linkChecked (h : LanOwned c s) (linkUp : Bool) : LanOwned c (wifiLinkCheck linkUp s) := by
  have hconn : ∀ b, LanOwned c { s with wifiConnected := b } := fun b => h.congr rfl rfl rfl rfl rfl rfl
  unfold wifiLinkCheck
  split
  · exact h
  · split
    · dsimp only
      split
      · exact (hconn false).dropped .wifiLost
      · exact hconn false
    · split
      · exact (hconn true).restarted linkUp
      · exact h

theorem lanStep_owned (h : LanOwned c s) {st : LanStep} (hst : KeepsMode s st) (hsock : c → KeepsSocket s st) :
    LanOwned c (lanStep s st) := by
  cases st with
  | pass p => exact handleWiFiServer_owned h hst hsock
  | disconnect => exact h.dropped .request
  | dropOwned => exact h.dropped .ownedDrop
  | restart assoc => exact h.restarted assoc
  | save load =>
    obtain ⟨_, _, _, hs⟩ := reloadConfigAfterSave_only load s
    rw [lanStep, hs]
    exact h.congr rfl rfl rfl rfl rfl rfl
  | clear => exact h.congr rfl rfl rfl rfl rfl rfl
  | abandon => exact .of_none rfl h.offers
  | reap alive =>
    rw [lanStep, wifiLanReapClosedSession]
    split
    · exact h.dropped .gone
    · exact h
  | linkCheck linkUp => exact h.linkChecked linkUp

theorem lanRun_owned (steps : List LanStep) (h : LanOwned c s) (hmode : Throughout KeepsMode steps s)
    (hsock : c → Throughout KeepsSocket steps s) : LanOwned c (lanRun steps s) := by
  induction steps generalizing s with
  | nil => exact h
  | cons st rest ih =>
    exact ih (lanStep_owned h hmode.1 fun hc => (hsock hc).1) hmode.2 fun hc => (hsock hc).2

/-- In a run that never starts the listener in another mode under a held socket, every frame
comes whole from one socket and is dispatched with the origin that its bytes have; and if no
dispatch of a TLS frame closes the socket while another whole frame is behind, the socket is
still accepted when a TLS frame is dispatched. -/
theorem handleWiFiServer_provenance (config : LanConfig) (rxBuffer : Bool) (steps : List LanStep)
    (h : Throughout KeepsMode steps (lanBoot config rxBuffer)) :
    (∀ e ∈ (lanRun steps (lanBoot config rxBuffer)).log, OneSocket e) ∧
      (Throughout KeepsSocket steps (lanBoot config rxBuffer) →
        ∀ e ∈ (lanRun steps (lanBoot config rxBuffer)).log, Provenance e) := by
  have hboot : LanOwned (Throughout KeepsSocket steps (lanBoot config rxBuffer)) (lanBoot config rxBuffer) :=
    .of_none rfl (by simp [lanBoot])
  have hrun := lanRun_owned steps hboot h id
  exact ⟨fun e he => (hrun.offers e he).1, fun hc e he => (hrun.offers e he).2 hc⟩

theorem livePass_closesLast (incoming : Bool) (bs : Bytes) (w : LanParse) : ClosesLast (livePass incoming bs []) w :=
  fun _ _ _ hfails => absurd hfails (by simp [livePass])

/-- A TLS client sends one frame, and a link check comes between. -/
def tlsRun : List LanStep :=
  [.save (.loaded (wifiConfig true)), .pass (livePass true [2, 0, 0x00, 0x43] []), .linkCheck true]

theorem handleWiFiServer_provenance_tls : Throughout KeepsMode tlsRun (lanBoot (wifiConfig true) true) ∧
    Throughout KeepsSocket tlsRun (lanBoot (wifiConfig true) true) ∧
    (∀ e ∈ (lanRun tlsRun (lanBoot (wifiConfig true) true)).log, Provenance e) ∧
    .offer (some ⟨0, true⟩) .lanTls ([2, 0, 0x00, 0x43].map fun v => ⟨v, .ssl (some 0)⟩) .accepted ∈
      (lanRun tlsRun (lanBoot (wifiConfig true) true)).log := by
  have hmode : Throughout KeepsMode tlsRun (lanBoot (wifiConfig true) true) := ⟨trivial, by
    show restartsUnderClient _ _ = false
    decide +kernel, trivial, trivial⟩
  have hsocket : Throughout KeepsSocket tlsRun (lanBoot (wifiConfig true) true) :=
    ⟨trivial, fun _ _ w _ => livePass_closesLast true _ w, trivial, trivial⟩
  exact ⟨hmode, hsocket, (handleWiFiServer_provenance _ _ _ hmode).2 hsocket, by decide +kernel⟩

/-- A plain client sends a configuration write that turns security on and a frame that is
deferred. The next pass finds the association up and the listener to be started. -/
def reloadedRun : List LanStep :=
  [.save (.loaded (wifiConfig false)),
    .pass (livePass true [3, 0, 0x00, 0x41, 0x01, 2, 0, 0x00, 0x53]
      [{ outcome := .accepted, reloads := some (.loaded (wifiConfig true)) }, { outcome := .deferred }]),
    .pass (livePass false [] [])]

/-- There the deferred bytes, read raw from a plain socket, are dispatched as a TLS frame. -/
theorem handleWiFiServer_relabels :
    .offer (some ⟨0, false⟩) .lanTls ([2, 0, 0x00, 0x53].map fun v => ⟨v, .raw (some ⟨0, false⟩)⟩) .accepted ∈
      (lanRun reloadedRun (lanBoot (wifiConfig false) true)).log ∧
    ¬ ∀ (config : LanConfig) (rxBuffer : Bool) (steps : List LanStep),
      ∀ e ∈ (lanRun steps (lanBoot config rxBuffer)).log, Provenance e := by
  have hmem : .offer (some ⟨0, false⟩) .lanTls ([2, 0, 0x00, 0x53].map fun v => ⟨v, .raw (some ⟨0, false⟩)⟩) .accepted ∈
      (lanRun reloadedRun (lanBoot (wifiConfig false) true)).log := by decide +kernel
  refine ⟨hmem, fun hall => ?_⟩
  obtain ⟨k, -, hb⟩ := hall _ _ _ _ hmem
  simpa using hb ⟨2, .raw (some ⟨0, false⟩)⟩ (by simp)

/-- Two TLS frames are buffered, and the reply to the first cannot be written. -/
def abandonedRun : List LanStep :=
  [.save (.loaded (wifiConfig true)),
    .pass (livePass true [2, 0, 0x00, 0x72, 2, 0, 0x00, 0x43] [{ outcome := .accepted, writeFails := true }])]

/-- The second is dispatched as a TLS frame with no socket accepted. -/
theorem handleWiFiServer_abandoned : Throughout KeepsMode abandonedRun (lanBoot (wifiConfig true) true) ∧
    .offer none .lanTls ([2, 0, 0x00, 0x43].map fun v => ⟨v, .ssl (some 0)⟩) .accepted ∈
      (lanRun abandonedRun (lanBoot (wifiConfig true) true)).log := by
  refine ⟨⟨trivial, ?_, trivial⟩, by decide +kernel⟩
  show restartsUnderClient _ _ = false
  decide +kernel

end Provenance

end OpenDisplay
