import OpenDisplay.Dispatch.Model

/-! Which frames reach a handler. With security on, a frame that did not come over TLS
is let through without a session where the target says so, or because its envelope was
opened; and an envelope is opened once in a session. -/

namespace OpenDisplay

section Follows

variable {slots : Nat} [NeZero slots] {env : DispatchEnv} {k : Desk slots}

theorem readStart_follows (rp : Reply) (blob : Bytes) (renv : ReplyEnv) (c : ConfigRead) (k : Desk slots) :
    k.session.Follows (odConfigReadStart rp blob renv c k).2.2.session := by
  unfold odConfigReadStart
  split_ifs
  · exact .refl _
  · exact .refl _
  · have hchunk := (follows_rule k.session).chunk (.refl _)
      { rp := rp, blob := blob, active := true, res := k.token } renv
    dsimp only
    split
    · next hc =>
      rw [hc] at hchunk
      exact hchunk
    · next hc =>
      rw [hc] at hchunk
      exact hchunk

theorem dispatchPlain_follows (b : Build) (ctx : Ctx) (body : Bytes) (cmd : UInt16) (m : Machines) (k : Desk slots) :
    k.session.Follows (dispatchPlain b env ctx body cmd m k).2.2.session := by
  unfold dispatchPlain
  split
  · next row _ =>
    by_cases hhook : row.hook = .configRead
    · rw [hhook]
      have hfirst := (follows_rule k.session).acts (.refl _) ctx.rp (env.read ctx body).first
      have hstart := hfirst.trans (readStart_follows ctx.rp (env.read ctx body).blob (env.read ctx body).env
        m.read _)
      exact (follows_rule k.session).acts hstart ctx.rp _
    · exact ((follows_rule k.session).run (.refl _) b ctx body hhook m).1
  · exact .refl _

end Follows

section Admission

variable {slots : Nat} [NeZero slots] (b : Build)

/-- The counter of the envelope that the handler was called for. -/
def DispatchResult.handled (out : DispatchResult slots) (envelope : Bytes) : Option UInt64 :=
  match out.invoked with
  | some inv => if inv.ctx.wasProtected then some (envelopeCounter envelope) else none
  | none => none

def CoreEntry.handled (e : CoreEntry slots) : Option UInt64 :=
  match e.act with
  | .frame env rp (some frame) => (odDispatchFrame b env rp (some frame) e.before).handled (frame.drop 2)
  | _ => none

/-- The step established a session. -/
def CoreEntry.establishes (e : CoreEntry slots) : Bool :=
  match e.act with
  | .frame env rp frame => (odDispatchFrame b env rp frame e.before).outcome = .authEstablished
  | _ => false

/-- Everything that one step can do to the session and its window, with what it
handled. -/
inductive Admission (s : Session) (handled : Option UInt64) (establishes : Bool) (s' : Session) : Prop where
  | quiet (handled : handled = none) (follows : s.Follows s')
  | established (handled : handled = none) (establishes : establishes = true)
      (rx : s'.authenticated = true → s'.rx = {})
  | opened {counter : UInt64} (handled : ∀ c, handled = some c → c = counter)
      (authenticated : s.authenticated = true) (check : odNonceCheck s.rx counter = .ok)
      (rx : s'.authenticated = true → s'.rx = odNonceCommit s.rx counter)

variable {b}
variable {s s' s'' : Session} {handled : Option UInt64} {establishes : Bool}

theorem Admission.follows (h : Admission s handled establishes s') (h' : s'.Follows s'') :
    Admission s handled establishes s'' := by
  rcases h with ⟨hhandled, hfollows⟩ | ⟨hhandled, hest, hrx⟩ | ⟨hhandled, hauth, hcheck, hrx⟩
  · exact .quiet hhandled (hfollows.trans h')
  · refine .established hhandled hest fun hopen => ?_
    obtain ⟨hopen', hsame⟩ := h' hopen
    rw [hsame, hrx hopen']
  · refine .opened hhandled hauth hcheck fun hopen => ?_
    obtain ⟨hopen', hsame⟩ := h' hopen
    rw [hsame, hrx hopen']

theorem Admission.after (h : s.Follows s') (h' : Admission s' handled establishes s'') :
    Admission s handled establishes s'' := by
  rcases h' with ⟨hhandled, hfollows⟩ | ⟨hhandled, hest, hrx⟩ | ⟨hhandled, hauth, hcheck, hrx⟩
  · exact .quiet hhandled (h.trans hfollows)
  · exact .established hhandled hest hrx
  · obtain ⟨hauth', hsame⟩ := h hauth
    rw [hsame] at hcheck hrx
    exact .opened hhandled hauth' hcheck hrx

theorem Effect.established_rx {e : Entry} (h : Effect e s') (hauth : e.auth = some .established) :
    s'.rx = {} := by
  rcases h with
    ⟨-, hkept, -, -⟩ | ⟨-, -, -, hne, -, -⟩ | ⟨-, hne, -, -⟩ |
    @⟨nonce, ms, hissues, -, -, -, -, -, -, -⟩ | ⟨-, -, -, -, -, -, -, -, hrx, -, -, -⟩ |
    ⟨-, -, -, -, -, hnone, -⟩ | ⟨-, -, -, -, -, hnone, -⟩
  · exact absurd (hkept _ hauth) (by decide)
  · exact absurd hauth hne
  · exact absurd hauth hne
  · rw [hissues.auth] at hauth
    exact absurd hauth (by decide)
  · exact hrx
  · simp [hnone] at hauth
  · simp [hnone] at hauth

theorem authenticate_admits (s : Session) (a : AuthCall) (establishes : Bool)
    (h : establishes = true ↔ (odSessionAuthenticate s a).result = .established) :
    Admission s none establishes (odSessionAuthenticate s a).session := by
  have heffect := authenticate_effect s a
  by_cases hest : (odSessionAuthenticate s a).result = .established
  · exact .established rfl (h.mpr hest) fun _ => heffect.established_rx (by rw [auth_eq, hest])
  · refine .quiet rfl (heffect.follows ?_ rfl)
    rw [auth_eq]
    exact fun heq => hest (Option.some.inj heq)

theorem open_admits (s : Session) (c : OpenCall)
    (h : ∀ n, handled = some n → (odSessionOpen s c).result = .ok ∧ c.envelope.map envelopeCounter = some n) :
    Admission s handled establishes (odSessionOpen s c).session := by
  have hconsumed : ∀ n, handled = some n → (Entry.mk s (.openFrame c)).consumed = some n := by
    intro n hn
    obtain ⟨hok, hcounter⟩ := h n hn
    rw [consumed_eq_some (by rw [hok]; rfl), hcounter]
  by_cases hnone : (Entry.mk s (.openFrame c)).consumed = none
  · refine .quiet ?_ ((open_effect s c).follows (by simp [Entry.auth]) hnone)
    rcases handled with - | n
    · rfl
    · exact absurd (hconsumed n rfl) (by simp [hnone])
  · rcases open_effect s c with
      ⟨-, -, -, hno⟩ | ⟨-, -, -, -, -, hno⟩ | ⟨-, -, -, hno⟩ | ⟨-, -, -, -, -, -, -, hno⟩ |
      ⟨-, -, -, -, -, -, -, -, -, -, -, hno⟩ | ⟨-, -, -, -, -, -, hno⟩ |
      ⟨hauth, hsome, hcheck, -, hrx, -, -⟩
    · exact absurd hno hnone
    · exact absurd hno hnone
    · exact absurd hno hnone
    · exact absurd hno hnone
    · exact absurd hno hnone
    · exact absurd hno hnone
    · refine .opened (fun n hn => ?_) hauth hcheck fun _ => hrx
      exact Option.some.inj ((hconsumed n hn).symm.trans hsome)

theorem odGateAuthenticate_session (env : DispatchEnv) (rp : Reply) (body : Bytes) (k : Desk slots) :
    (odGateAuthenticate env rp body k).2.session = (odSessionAuthenticate k.session (gateRequest env body)).session ∧
      ((odGateAuthenticate env rp body k).1 = .authEstablished ↔
        (odSessionAuthenticate k.session (gateRequest env body)).result = .established) := by
  unfold odGateAuthenticate
  dsimp only
  split <;> simp_all [queueStatus, Desk.replyPlain, odReplyPlain, queueResponse]

/-- The gate lets a frame through with what the session made of its envelope. -/
theorem odGateOpen_session (env : DispatchEnv) (rp : Reply) (cmd : UInt16) (envelope : Bytes) (k : Desk slots) :
    let out := odSessionOpen k.session (gateOpen env cmd envelope odSessionPlainMax)
    (odGateOpen env rp cmd envelope (some odSessionPlainMax) k).2.2.session = out.session ∧
      ((odGateOpen env rp cmd envelope (some odSessionPlainMax) k).1 = .accepted →
        out.result = .ok ∧ (odGateOpen env rp cmd envelope (some odSessionPlainMax) k).2.1 = out.out) := by
  intro out
  unfold odGateOpen
  dsimp only
  rw [if_neg (Nat.lt_irrefl _)]
  split
  · next hok => exact ⟨rfl, fun _ => ⟨hok, rfl⟩⟩
  · exact ⟨rfl, nofun⟩
  · split_ifs
    · exact ⟨rfl, nofun⟩
    · exact ⟨rfl, nofun⟩
  all_goals exact ⟨rfl, nofun⟩

theorem runHandler_session (env : DispatchEnv) (ctx : Ctx) (cmd : UInt16) (body : Bytes) (m : Machines)
    (k : Desk slots) (entered : List (Desk slots)) :
    k.session.Follows (runHandler b env ctx cmd body m k entered).core.session :=
  dispatchPlain_follows b ctx body cmd m k

theorem runHandler_invoked {env : DispatchEnv} {ctx : Ctx} {cmd : UInt16} {body : Bytes} {m : Machines}
    {k : Desk slots} {entered : List (Desk slots)} {inv : Invocation}
    (h : (runHandler b env ctx cmd body m k entered).invoked = some inv) :
    inv = { cmd := cmd, ctx := ctx, body := body } := by
  change (if (b.row cmd).isSome then some { cmd := cmd, ctx := ctx, body := body } else none) = some inv at h
  split_ifs at h
  exact (Option.some.inj h).symm

theorem runHandler_handled (env : DispatchEnv) {ctx : Ctx} (hctx : ctx.wasProtected = false) (cmd : UInt16)
    (body envelope : Bytes) (m : Machines) (k : Desk slots) (entered : List (Desk slots)) :
    (runHandler b env ctx cmd body m k entered).handled envelope = none := by
  unfold DispatchResult.handled
  split
  · next inv hinv => rw [runHandler_invoked hinv, if_neg (by simp [hctx])]
  · rfl

omit [NeZero slots] in
theorem handled_eq {out : DispatchResult slots} {envelope : Bytes} {n : UInt64}
    (h : out.handled envelope = some n) : envelopeCounter envelope = n := by
  unfold DispatchResult.handled at h
  split at h
  · split_ifs at h
    exact Option.some.inj h
  · exact absurd h (by simp)

theorem dispatchReserved_admits (env : DispatchEnv) (rp : Reply) (wireLen cmd : UInt16) (body : Bytes) (m : Machines)
    (k : Desk slots) :
    Admission k.session ((dispatchReserved b env rp wireLen cmd body m k).handled body)
      (decide ((dispatchReserved b env rp wireLen cmd body m k).outcome = .authEstablished))
      (dispatchReserved b env rp wireLen cmd body m k).core.session := by
  generalize hout : dispatchReserved b env rp wireLen cmd body m k = out
  unfold dispatchReserved at hout
  split_ifs at hout with hauth hversion hgate
  · obtain ⟨hsession, hest⟩ := odGateAuthenticate_session env rp body k
    have hadmits := authenticate_admits k.session (gateRequest env body)
      (decide ((odGateAuthenticate env rp body k).1 = .authEstablished)) (by simpa using hest)
    rw [← hsession] at hadmits
    subst hout
    exact hadmits
  · subst hout
    exact .quiet rfl ((follows_rule k.session).acts (.refl _) rp _)
  · have halive : k.session.Follows (unauthenticatedExempt env cmd k).2.session := alive_follows _ _
    split at hout
    · next k' hk =>
      rw [hk] at halive
      subst hout
      exact .quiet (runHandler_handled env rfl _ _ _ _ _ _) (halive.trans (runHandler_session _ _ _ _ _ _ _))
    · next k' hk =>
      rw [hk] at halive
      obtain ⟨hsession, hok⟩ := odGateOpen_session env rp cmd body k'
      have hadmits : ∀ handled establishes, (∀ n, handled = some n →
          (odGateOpen env rp cmd body (some odSessionPlainMax) k').1 = .accepted ∧ envelopeCounter body = n) →
          Admission k.session handled establishes
            (odGateOpen env rp cmd body (some odSessionPlainMax) k').2.2.session := by
        intro handled establishes h
        rw [hsession]
        refine .after halive (open_admits _ _ fun n hn => ?_)
        obtain ⟨haccepted, hcounter⟩ := h n hn
        exact ⟨(hok haccepted).1, congrArg some hcounter⟩
      split at hout
      · next body' k'' hg =>
        rw [hg] at hadmits
        subst hout
        refine (hadmits _ _ fun n hn => ⟨rfl, ?_⟩).follows (runHandler_session _ _ _ _ _ _ _)
        exact handled_eq hn
      · next hg =>
        rw [hg] at hadmits
        subst hout
        exact hadmits _ _ nofun
  · subst hout
    exact .quiet (runHandler_handled env rfl _ _ _ _ _ _) (runHandler_session _ _ _ _ _ _ _)

theorem refuseOversize_session (env : DispatchEnv) (rp : Reply) (cmd : UInt16) (core : Core slots) :
    (refuseOversize env rp cmd core).session = core.session := by
  unfold refuseOversize
  split
  · rfl
  · rfl

theorem frame_admits (env : DispatchEnv) (rp : Option Reply) (frame : Span) (core : Core slots) :
    Admission core.session ((CoreEntry.mk core (.frame env rp frame)).handled b)
      ((CoreEntry.mk core (.frame env rp frame)).establishes b) (odDispatchFrame b env rp frame core).core.session := by
  rcases frame with - | frame
  · have hcore : (odDispatchFrame b env rp none core).core = core := by
      unfold odDispatchFrame
      split
      · simp_all
      · rfl
    rw [hcore]
    exact .quiet rfl (.refl _)
  · change Admission core.session ((odDispatchFrame b env rp (some frame) core).handled (frame.drop 2))
      (decide ((odDispatchFrame b env rp (some frame) core).outcome = .authEstablished)) _
    generalize hout : odDispatchFrame b env rp (some frame) core = out
    unfold odDispatchFrame at hout
    split at hout
    swap
    · subst hout
      exact .quiet rfl (.refl _)
    · next rp f heq =>
      obtain rfl := Option.some.inj heq
      dsimp only at hout
      split_ifs at hout
      · subst hout
        exact .quiet rfl (.refl _)
      · subst hout
        refine .quiet rfl ?_
        rw [refuseOversize_session]
        exact .refl _
      · subst hout
        exact .quiet rfl (.refl _)
      · split at hout
        · next q token _ =>
          subst hout
          exact dispatchReserved_admits env rp _ _ _ _
            ({ session := core.session, q := q, token := token } : Desk slots)
        · subst hout
          exact .quiet rfl (.refl _)
      · subst hout
        exact .quiet rfl (.refl _)

theorem pump_follows (env : ReplyEnv) (core : Core slots) :
    core.session.Follows (odConfigReadPump env core).2.session := by
  unfold odConfigReadPump
  split_ifs
  · split
    · next q token _ =>
      have hchunk := (follows_rule core.session).chunk
        (k := ({ session := core.session, q := q, token := token } : Desk slots)) (.refl _) core.read env
      exact hchunk
    · exact .refl _
  · exact .refl _

theorem step_admits (e : CoreEntry slots) :
    Admission e.before.session (e.handled b) (e.establishes b) (e.before.step b e.act).session := by
  obtain ⟨core, act⟩ := e
  cases act with
  | frame env rp frame => exact frame_admits env rp frame core
  | reset => exact .quiet rfl (.clear _)
  | pump env => exact .quiet rfl (pump_follows env core)
  | hook a => exact .quiet rfl (Desk.hook_follows _ a)

end Admission

section Invoked

variable {slots : Nat} [NeZero slots] {b : Build} {env : DispatchEnv} {rp : Reply}

/-- No session is alive, and the target lets the opcode through without one. -/
structure Invocation.Exempt (inv : Invocation) (env : DispatchEnv) (s : Session) (cmd : UInt16) (body : Bytes) :
    Prop where
  dead : (odSessionAlive s env.aliveMs).1 = false
  allowed : env.allowUnauthenticated cmd = true
  routed : inv.cmd = cmd
  given : inv.body = body

/-- The session opened the envelope for the opcode, and the handler has what the
cipher made of it. -/
structure Invocation.Opened (inv : Invocation) (env : DispatchEnv) (s : Session) (cmd : UInt16) (envelope : Bytes) :
    Prop where
  ok : (odSessionOpen (odSessionAlive s env.aliveMs).2 (gateOpen env cmd envelope odSessionPlainMax)).result = .ok
  routed : inv.cmd = cmd
  given : inv.body =
    (odSessionOpen (odSessionAlive s env.aliveMs).2 (gateOpen env cmd envelope odSessionPlainMax)).out
  decrypted : ∃ len, envelopeDecrypt (odSessionAlive s env.aliveMs).2 cmd envelope env.hal = (.ok, len :: inv.body)

theorem dispatchReserved_invoked {wireLen cmd : UInt16} {body : Bytes} {m : Machines} {k : Desk slots}
    {inv : Invocation} (horigin : rp.origin ≠ .lanTls) (hsec : odSessionSecurityEnabled env.sec = true)
    (h : (dispatchReserved b env rp wireLen cmd body m k).invoked = some inv) :
    inv.Exempt env k.session cmd body ∨ inv.Opened env k.session cmd body := by
  unfold dispatchReserved at h
  split_ifs at h with hauth hversion hgate
  · exact absurd h (by simp [finishFrame])
  · exact absurd h (by simp [finishFrame])
  · split at h
    · next k' hk =>
      obtain ⟨hdead, hallow⟩ : (odSessionAlive k.session env.aliveMs).1 = false ∧
          env.allowUnauthenticated cmd = true := by
        simpa [unauthenticatedExempt] using congrArg Prod.fst hk
      rw [runHandler_invoked h]
      exact .inl ⟨hdead, hallow, rfl, rfl⟩
    · next k' hk =>
      have hsession : k'.session = (odSessionAlive k.session env.aliveMs).2 :=
        (congrArg (Desk.session ∘ Prod.snd) hk).symm
      obtain ⟨-, hok⟩ := odGateOpen_session env rp cmd body k'
      rw [hsession] at hok
      split at h
      · next body' k'' hg =>
        rw [hg] at hok
        obtain ⟨hresult, hbody⟩ := hok rfl
        obtain ⟨len, hdecrypt⟩ := open_decrypts hresult rfl
        rw [← hbody] at hdecrypt
        rw [runHandler_invoked h]
        exact .inr ⟨hresult, rfl, hbody, len, hdecrypt⟩
      · exact absurd h (by simp [finishFrame])
  · exact absurd ⟨horigin, hsec⟩ hgate

theorem odDispatchFrame_invoked {frame : Bytes} {core : Core slots} {inv : Invocation}
    (horigin : rp.origin ≠ .lanTls) (hsec : odSessionSecurityEnabled env.sec = true)
    (h : (odDispatchFrame b env (some rp) (some frame) core).invoked = some inv) :
    inv.Exempt env core.session (readBe16 frame) (frame.drop 2) ∨
      inv.Opened env core.session (readBe16 frame) (frame.drop 2) := by
  unfold odDispatchFrame at h
  dsimp only at h
  split_ifs at h
  split at h
  · exact dispatchReserved_invoked horigin hsec h
  · exact absurd h (by simp)

end Invoked

section Runs

variable {slots : Nat} [NeZero slots] {b : Build} {s s' : Session} {cs : List UInt64}

/-- While the session is open, these counters are among those its window accepted. -/
def Recorded (cs : List UInt64) (s : Session) : Prop :=
  s.authenticated = true → ∃ spent, Accepts (s.rx, spent) ∧ cs ⊆ spent

theorem Recorded.admits {handled : Option UInt64} {establishes : Bool} (h : Recorded cs s)
    (ha : Admission s handled establishes s') (hest : establishes = true → cs = []) : Recorded cs s' := by
  intro hopen
  rcases ha with ⟨-, hfollows⟩ | ⟨-, hyes, hrx⟩ | @⟨counter, -, hauth, hcheck, hrx⟩
  · obtain ⟨hold, hsame⟩ := hfollows hopen
    rw [hsame]
    exact h hold
  · rw [hrx hopen, hest hyes]
    exact ⟨[], .empty, List.Subset.refl _⟩
  · obtain ⟨spent, haccepts, hsub⟩ := h hauth
    rw [hrx hopen]
    exact ⟨spent ++ [counter], haccepts.commit hcheck, fun c hc => List.mem_append_left _ (hsub hc)⟩

theorem Recorded.handled {c : UInt64} {establishes : Bool} (h : Recorded cs s)
    (ha : Admission s (some c) establishes s') : c ∉ cs ∧ Recorded [c] s' := by
  rcases ha with ⟨hno, -⟩ | ⟨hno, -, -⟩ | @⟨counter, hcounter, hauth, hcheck, hrx⟩
  · exact absurd hno (by simp)
  · exact absurd hno (by simp)
  · obtain rfl := hcounter c rfl
    obtain ⟨spent, haccepts, hsub⟩ := h hauth
    refine ⟨fun hc => haccepts.fresh hcheck (hsub hc), fun hopen => ?_⟩
    rw [hrx hopen]
    exact ⟨spent ++ [c], haccepts.commit hcheck, by simp⟩

theorem coreEntries_recorded {core : Core slots} {acts : List CoreAct} {pre post : List (CoreEntry slots)}
    {e : CoreEntry slots} (h : Recorded cs core.session) (hlog : coreEntries b core acts = pre ++ e :: post)
    (hest : cs = [] ∨ ∀ m ∈ pre, m.establishes b = false) : Recorded cs e.before.session := by
  induction pre generalizing core acts with
  | nil =>
    rcases acts with - | ⟨a, acts⟩
    · simp [coreEntries] at hlog
    · obtain ⟨rfl, -⟩ := List.cons.inj hlog
      exact h
  | cons x pre ih =>
    rcases acts with - | ⟨a, acts⟩
    · simp [coreEntries] at hlog
    · obtain ⟨rfl, htail⟩ := List.cons.inj hlog
      refine ih (h.admits (step_admits (b := b) ⟨core, a⟩) ?_) htail ?_
      · intro hyes
        rcases hest with hnil | hno
        · exact hnil
        · rw [hno _ (by simp)] at hyes
          exact absurd hyes (by decide)
      · exact hest.imp_right fun hno m hm => hno m (by simp [hm])

theorem coreEntries_tail {core : Core slots} {acts : List CoreAct} {pre post : List (CoreEntry slots)}
    {e : CoreEntry slots} (hlog : coreEntries b core acts = pre ++ e :: post) :
    ∃ acts', post = coreEntries b (e.before.step b e.act) acts' := by
  induction pre generalizing core acts with
  | nil =>
    rcases acts with - | ⟨a, acts⟩
    · simp [coreEntries] at hlog
    · obtain ⟨rfl, htail⟩ := List.cons.inj hlog
      exact ⟨acts, htail.symm⟩
  | cons x pre ih =>
    rcases acts with - | ⟨a, acts⟩
    · simp [coreEntries] at hlog
    · exact ih (List.cons.inj hlog).2

theorem established_between {core : Core slots} {acts : List CoreAct} {pre mid post : List (CoreEntry slots)}
    {e e' : CoreEntry slots} {c : UInt64} (h : Recorded [] core.session)
    (hlog : coreEntries b core acts = pre ++ e :: (mid ++ e' :: post)) (he : e.handled b = some c)
    (he' : e'.handled b = some c) : ∃ m ∈ mid, m.establishes b = true := by
  by_contra hnone
  have hbefore : Recorded [] e.before.session := coreEntries_recorded h hlog (.inl rfl)
  have hstep := step_admits (b := b) e
  rw [he] at hstep
  obtain ⟨-, hafter⟩ := hbefore.handled hstep
  obtain ⟨acts', htail⟩ := coreEntries_tail hlog
  have hthere : Recorded [c] e'.before.session := by
    refine coreEntries_recorded hafter htail.symm (.inr fun m hm => ?_)
    rw [Bool.eq_false_iff]
    exact fun hyes => hnone ⟨m, hm, hyes⟩
  have hstep' := step_admits (b := b) e'
  rw [he'] at hstep'
  exact (hthere.handled hstep').1 (by simp)

end Runs

/-- No handler runs for a frame that was neither let through nor authentic, and none
runs twice for one envelope. With security on, the handler of a frame that did not come
over TLS is called without a session where the target says so, or on what the session
decrypted of that very frame; and two frames with the same counter are never both
handled within one session. -/
theorem no_replayed_command (b : Build) (slot : UInt8) (etag : UInt32) (acts : List CoreAct) :
    let log := coreEntries b (Core.boot (odTxqSlots b.profile) slot etag) acts
    (∀ e ∈ log, ∀ env rp frame inv, e.act = .frame env (some rp) (some frame) →
      odSessionSecurityEnabled env.sec = true → rp.origin ≠ .lanTls →
      (odDispatchFrame b env (some rp) (some frame) e.before).invoked = some inv →
      inv.Exempt env e.before.session (readBe16 frame) (frame.drop 2) ∨
        inv.Opened env e.before.session (readBe16 frame) (frame.drop 2)) ∧
    ∀ pre e mid e' post c, log = pre ++ e :: (mid ++ e' :: post) → e.handled b = some c →
      e'.handled b = some c → ∃ m ∈ mid, m.establishes b = true := by
  refine ⟨?_, ?_⟩
  · intro e _ env rp frame inv _ hsec horigin hinv
    exact odDispatchFrame_invoked horigin hsec hinv
  · intro pre e mid e' post c hlog he he'
    have hboot : Recorded [] (Core.boot (odTxqSlots b.profile) slot etag).session := by
      intro hopen
      simp [Core.boot, odSessionInit] at hopen
    exact established_between hboot hlog he he'

end OpenDisplay
