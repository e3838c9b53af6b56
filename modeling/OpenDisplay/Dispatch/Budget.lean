import Mathlib.Data.List.Induction
import OpenDisplay.Dispatch.Model
import OpenDisplay.Xfer.Replies

/-! Response capacity along the command path. Nothing is asked of the gate or of a
handler before the units of the opcode are reserved, all of them are back when the
frame is done with, also when the core is reset under it, and a frame that is put off
has changed nothing. -/

namespace OpenDisplay

section Attempts

variable {slots : Nat} [NeZero slots] (env : DispatchEnv) {k k' : Desk slots}

theorem Desk.hooks_attempts (acts : List HookAct) (k : Desk slots) : (k.hooks acts).attempts = k.attempts := by
  refine Desk.hooks_rule (I := fun k' => k'.attempts = k.attempts) ?_ acts rfl
  intro a k' h
  cases a <;> exact h

theorem Desk.event_attempts (k : Desk slots) (pre : List Event) (e : Event) :
    (k.event env pre e).attempts = k.attempts + [e].countP Event.isReply := by
  have hhooks := k.hooks_attempts (env.hooks pre)
  cases e with
  | reply rp frame status => exact congrArg (· + 1) hhooks
  | replyPlain rp frame => exact congrArg (· + 1) hhooks
  | barrierAbort owner =>
    unfold Desk.event
    dsimp only
    split_ifs <;> exact hhooks
  | _ => exact hhooks

theorem Desk.event_resets (k : Desk slots) (pre : List Event) (e : Event) :
    (k.event env pre e).resets ≤ k.resets + [e].countP Event.isBarrierAbort := by
  have hhooks : (k.hooks (env.hooks pre)).resets = k.resets := (resets_rule k.resets).hooks rfl _
  cases e with
  | barrierAbort owner =>
    unfold Desk.event
    dsimp only
    split_ifs
    · exact (congrArg (· + 1) hhooks).le
    · exact hhooks.le.trans (Nat.le_succ _)
  | _ => exact hhooks.le

theorem Desk.replay_attempts (k : Desk slots) (pre es : List Event) :
    (k.replay env pre es).attempts = k.attempts + es.countP Event.isReply := by
  induction es generalizing k pre with
  | nil => rfl
  | cons e es ih =>
    rw [Desk.replay, ih, Desk.event_attempts, ← List.singleton_append (l := es), List.countP_append]
    omega

theorem Desk.replay_resets (k : Desk slots) (pre es : List Event) :
    (k.replay env pre es).resets ≤ k.resets + es.countP Event.isBarrierAbort := by
  induction es generalizing k pre with
  | nil => exact Nat.le_refl _
  | cons e es ih =>
    have hevent := k.event_resets env pre e
    have hrest := ih (k.event env pre e) (pre ++ [e])
    rw [Desk.replay, ← List.singleton_append (l := es), List.countP_append]
    omega

/-- A handler of the transfer machine asks the desk for as many replies as it logs, and
resets it no more often. -/
theorem atDesk_spends {run : App → Dev → CmdResult × Dev} {n : Nat} (h : ∀ app d, Spends n d (run app d).2)
    (m : Machines) (k : Desk slots) :
    (atDesk env run m k).2.2.attempts ≤ k.attempts + n ∧ (atDesk env run m k).2.2.resets ≤ k.resets + n := by
  obtain ⟨es, hes, hn⟩ := h (env.bound k m.dev.events) m.dev
  have hreplies : es.countP Event.isReply ≤ es.countP Event.spends :=
    List.countP_mono_left fun e _ he => by simp [Event.spends, he]
  have haborts : es.countP Event.isBarrierAbort ≤ es.countP Event.spends :=
    List.countP_mono_left fun e _ he => by simp [Event.spends, he]
  have hresets := k.replay_resets env m.dev.events es
  unfold atDesk
  dsimp only
  rw [hes, List.drop_left, Desk.replay_attempts]
  constructor <;> omega

theorem RepliesOnce.attempts {app : NfcApp} {ctx : Ctx} (h : RepliesOnce app ctx k k') :
    k'.attempts = k.attempts + 1 := by
  cases h with
  | reply acts frame => exact congrArg (· + 1) (k.hooks_attempts acts)
  | replyPlain acts frame => exact congrArg (· + 1) (k.hooks_attempts acts)

theorem unsupportedStart_spends (ctx : Ctx) (opcode error : UInt8) (d : Dev) :
    Spends 1 d (unsupportedStart ctx opcode error d).2 := (Spends.refl d).replyError ctx _

/-- The handlers that the targets share. -/
def Hook.shared : Hook → Bool
  | .directStart | .data | .finish | .partialStart | .pipeStart | .pipeData | .pipeEnd | .nfcFrame => true
  | _ => false

/-- The replies that a shared handler may ask for. -/
def Hook.replies (b : Build) : Hook → Nat
  | .data | .finish => 2
  | .pipeData | .pipeEnd => if b.capPipe then 3 else 1
  | _ => 1

theorem Hook.handle_attempts (b : Build) (ctx : Ctx) (body : Bytes) {hook : Hook} (h : hook.shared = true)
    (m : Machines) (k : Desk slots) :
    (hook.handle b env ctx body m k).2.2.attempts ≤ k.attempts + hook.replies b ∧
      (hook.handle b env ctx body m k).2.2.resets ≤ k.resets + hook.replies b := by
  cases hook with
  | directStart => exact atDesk_spends env (fun app d => odXferDirectStart_spends app ctx body d) m k
  | data => exact atDesk_spends env (fun app d => odXferData_spends app ctx body d) m k
  | finish => exact atDesk_spends env (fun app d => odXferEnd_spends app ctx body d) m k
  | partialStart =>
    unfold Hook.handle
    dsimp only
    split_ifs
    · exact atDesk_spends env (fun app d => odXferPartialStart_spends app ctx body d) m k
    · exact atDesk_spends env (fun _ d => unsupportedStart_spends ctx _ _ d) m k
  | pipeStart =>
    unfold Hook.handle
    dsimp only
    split_ifs
    · exact atDesk_spends env (fun app d => odPipeStart_spends app ctx body d) m k
    · exact atDesk_spends env (fun _ d => unsupportedStart_spends ctx _ _ d) m k
  | pipeData =>
    unfold Hook.handle Hook.replies
    dsimp only
    split_ifs
    · exact atDesk_spends env (fun app d => odPipeData_spends app ctx body d) m k
    · exact ⟨Nat.le_succ _, Nat.le_succ _⟩
  | pipeEnd =>
    unfold Hook.handle Hook.replies
    dsimp only
    split_ifs
    · exact atDesk_spends env (fun app d => odPipeEnd_spends app ctx body d) m k
    · exact ⟨Nat.le_succ _, Nat.le_succ _⟩
  | nfcFrame =>
    unfold Hook.handle
    dsimp only
    cases b.capNfc with
    | false => exact ⟨Nat.le_succ _, Nat.le_succ _⟩
    | true =>
      have honce := odNfcFrame_once env.nfc ctx body m.nfc k
      exact ⟨honce.attempts.le, ((resets_rule k.resets).once rfl honce).le.trans (Nat.le_succ _)⟩
  | _ => exact absurd h (by decide)

theorem odConfigReadStart_resets (rp : Reply) (blob : Bytes) (renv : ReplyEnv) (c : ConfigRead) (k : Desk slots) :
    (odConfigReadStart rp blob renv c k).2.2.resets = k.resets := by
  have hchunk := (resets_rule k.resets).chunk rfl { rp := rp, blob := blob, active := true, res := k.token } renv
  unfold odConfigReadStart
  split_ifs
  · rfl
  · rfl
  · dsimp only
    split
    · next hc =>
      rw [hc] at hchunk
      exact hchunk
    · next hc =>
      rw [hc] at hchunk
      exact hchunk

theorem Hook.replies_le (b : Build) (hook : Hook) : hook.replies b ≤ 3 := by
  cases hook with
  | pipeData | pipeEnd =>
    unfold Hook.replies
    dsimp only
    split_ifs <;> omega
  | _ => exact Nat.le_of_ble_eq_true rfl

/-- The core is reset under a handler far less often than a generation needs to come
round. -/
theorem Hook.handle_resets (b : Build) (ctx : Ctx) (body : Bytes) (hook : Hook) (m : Machines) (k : Desk slots) :
    (hook.handle b env ctx body m k).2.2.resets ≤ k.resets + 3 := by
  by_cases hshared : hook.shared = true
  · exact (Hook.handle_attempts env b ctx body hshared m k).2.trans
      (Nat.add_le_add_left (Hook.replies_le b hook) _)
  have hacts : ∀ acts, (k.acts ctx.rp acts).resets = k.resets := fun acts => (resets_rule k.resets).acts rfl _ acts
  have htarget : (if env.sleeps hook ctx body then (k.acts ctx.rp (env.handler hook ctx body).1).reset
      else k.acts ctx.rp (env.handler hook ctx body).1).resets ≤ k.resets + 3 := by
    split_ifs
    · exact (congrArg (· + 1) (hacts _)).le.trans (by omega)
    · exact (hacts _).le.trans (by omega)
  cases hook with
  | configRead =>
    have hstart := odConfigReadStart_resets ctx.rp (env.read ctx body).blob (env.read ctx body).env m.read
      (k.acts ctx.rp (env.read ctx body).first)
    have hlast := (resets_rule k.resets).acts (hstart.trans (hacts _)) ctx.rp (env.read ctx body).last
    exact hlast.le.trans (by omega)
  | directStart | data | finish | partialStart | pipeStart | pipeData | pipeEnd | nfcFrame =>
    exact absurd rfl hshared
  | _ => exact htarget

/-- The rows grant what the shared handlers ask for. -/
theorem row_budget (b : Build) :
    ∀ row ∈ odDispatchOpcodeRows b, row.hook.shared = true → row.hook.replies b = row.budget.toNat := by
  obtain ⟨profile, capNfc⟩ := b
  cases profile <;> cases capNfc <;> decide

theorem row_read (b : Build) : ∀ row ∈ odDispatchOpcodeRows b, row.hook = .configRead → row.budget = 1 := by
  obtain ⟨profile, capNfc⟩ := b
  cases profile <;> cases capNfc <;> decide

end Attempts

section Balance

variable {slots : Nat} [NeZero slots] {env : DispatchEnv} {p : Pledge} {k k' : Desk slots}

/-- The chunk is queued for the one unit, or the unit is still to be given back. -/
theorem Balanced.chunk (h : Balanced p k) (hcap : p.cap = 1) (c : ConfigRead) (renv : ReplyEnv) :
    Balanced p (emitChunk c renv k).2.2 ∧
      ((emitChunk c renv k).1 = .ok → (emitChunk c renv k).2.2.token.remaining = 0) := by
  refine ⟨(balanced_rule p).chunk h c renv, ?_⟩
  have hreply : ∀ frame, (k.reply c.rp frame renv).1 = .ok →
      (k.reply c.rp frame renv).2.token.remaining = 0 := by
    intro frame hok
    obtain ⟨hne, hrem⟩ := Desk.reply_spends hok
    have hlimit := h.limit
    have hpred := remaining_pred hne
    rw [hrem]
    exact UInt8.toNat_inj.mp (by change _ = 0; omega)
  unfold emitChunk
  dsimp only
  split
  · next k' hk =>
    obtain rfl := congrArg Prod.snd hk
    exact fun _ => hreply _ (congrArg Prod.fst hk)
  · next status k' hne hk =>
    obtain rfl := congrArg Prod.snd hk
    exact fun hok => absurd hok hne

/-- A read that is started with one unit has none left of it, wherever the unit went. -/
theorem Balanced.readStart (h : Balanced p k) (hcap : p.cap = 1) (rp : Reply) (blob : Bytes) (renv : ReplyEnv)
    (c : ConfigRead) :
    Balanced p (odConfigReadStart rp blob renv c k).2.2 ∧
      ((odConfigReadStart rp blob renv c k).2.1 = c ∨
        (odConfigReadStart rp blob renv c k).2.1.res.remaining = 0) := by
  unfold odConfigReadStart
  split_ifs
  · exact ⟨h, .inl rfl⟩
  · exact ⟨(balanced_rule p).replyPlain h _ _ _, .inr rfl⟩
  · dsimp only
    obtain ⟨hbal, hspent⟩ := h.chunk hcap { rp := rp, blob := blob, active := true, res := k.token } renv
    split
    · next c' k' hc =>
      rw [hc] at hbal hspent
      have hzero : k'.token.remaining = 0 := hspent rfl
      have hres := hbal.reserved
      rw [hzero] at hres
      exact ⟨⟨h.token, hbal.gen, hres, Nat.zero_le _⟩, .inr hzero⟩
    · next status c' k' _ hc =>
      rw [hc] at hbal
      obtain ⟨hres, hgen, hzero⟩ := hbal.release
      exact ⟨⟨h.token, hgen, hres.trans (UInt8.add_zero _).symm, Nat.zero_le _⟩, .inr hzero⟩

/-- Whatever handler runs, the units are accounted for, and a reader that takes the
token over keeps none. -/
theorem Intact.run (h : Intact p k) (b : Build) (ctx : Ctx) (body : Bytes) (hook : Hook)
    (hread : hook = .configRead → p.cap = 1) (m : Machines) :
    Accounted p (hook.run b env ctx body m k).2.2 ∧
      ((hook.run b env ctx body m k).2.1.read = m.read ∨
        (hook.run b env ctx body m k).2.1.read.res.remaining = 0) := by
  by_cases hhook : hook = .configRead
  · subst hhook
    have hfirst := (intact_rule p).acts h ctx.rp (env.read ctx body).first
    obtain ⟨hstart, hres⟩ := hfirst.readStart (hread rfl) ctx.rp (env.read ctx body).blob
      (env.read ctx body).env m.read
    have hlast := (intact_rule p).acts ⟨hstart, (odConfigReadStart_resets _ _ _ _ _).trans hfirst.intact⟩ ctx.rp
      (env.read ctx body).last
    have hintact : (Hook.configRead.handle b env ctx body m k).2.2.resets = k.resets :=
      hlast.intact.trans h.intact.symm
    refine ⟨.inl hlast, ?_⟩
    unfold Hook.run
    dsimp only
    rw [if_pos hintact]
    exact hres
  · obtain ⟨hacc, hsame⟩ := (accounted_rule p).run (.inl h) b ctx body hhook m
    exact ⟨hacc, hsame.imp id And.right⟩

omit [NeZero slots] in
/-- Once the token is given back the units are those of before, or none after a reset. -/
theorem Accounted.release (h : Accounted p k) (hlt : k.resets < 256) :
    (k.resets = 0 → k.release.q.reserved = p.base) ∧ (k.resets ≠ 0 → k.release.q.reserved = 0) := by
  rcases h with h | h
  · exact ⟨fun _ => h.release.1, fun hne => absurd h.intact hne⟩
  · exact ⟨fun hzero => absurd hzero h.reset, fun _ => h.release hlt⟩

end Balance

section Dispatch

variable {slots : Nat} [NeZero slots] (b : Build) (env : DispatchEnv) {p : Pledge} {k : Desk slots}

/-- What is promised of a frame for which room is reserved. -/
structure Settles (p : Pledge) (m : Machines) (k : Desk slots) (out : DispatchResult slots) : Prop where
  entered : ∀ d ∈ out.entered, d.q = k.q ∧ d.token = k.token
  outcome : out.outcome ≠ .deferred
  intact : out.resets = 0 → out.core.q.reserved = p.base
  reset : out.resets ≠ 0 → out.core.q.reserved = 0
  read : out.core.read = m.read ∨ out.core.read.res.remaining = 0

theorem outcomeOf_ne_deferred (result : CmdResult) : outcomeOf result ≠ .deferred := by
  cases result <;> decide

omit [NeZero slots] in
/-- A frame that the gate answers is done with, and the core was not reset. -/
theorem Intact.finish (h : Intact p k) (k' : Desk slots) {outcome : FrameOutcome} (hout : outcome ≠ .deferred)
    (m : Machines) {entered : List (Desk slots)} (hentered : ∀ d ∈ entered, d.q = k'.q ∧ d.token = k'.token)
    (invoked : Option Invocation) : Settles p m k' (finishFrame outcome m k entered invoked) :=
  ⟨hentered, hout, fun _ => h.release.1, fun hne => absurd h.intact hne, .inl rfl⟩

theorem dispatchPlain_resets (ctx : Ctx) (body : Bytes) (cmd : UInt16) (m : Machines) (k : Desk slots) :
    (dispatchPlain b env ctx body cmd m k).2.2.resets ≤ k.resets + 3 := by
  unfold dispatchPlain
  split
  · next row _ => exact row.hook.handle_resets env b ctx body m k
  · exact Nat.le_add_right _ _

theorem runHandler_settles {k' : Desk slots} (h : Intact p k') (hq : k'.q = k.q) (ht : k'.token = k.token)
    (ctx : Ctx) (cmd : UInt16) (hcap : p.cap = (odDispatchBudget b cmd).toNat) (body : Bytes) (m : Machines)
    (entered : List (Desk slots)) (hentered : ∀ d ∈ entered, d.q = k.q ∧ d.token = k.token) :
    Settles p m k (runHandler b env ctx cmd body m k' entered) := by
  have hrun : Accounted p (dispatchPlain b env ctx body cmd m k').2.2 ∧
      ((dispatchPlain b env ctx body cmd m k').2.1.read = m.read ∨
        (dispatchPlain b env ctx body cmd m k').2.1.read.res.remaining = 0) := by
    unfold dispatchPlain
    split
    · next row hrow =>
      refine h.run b ctx body row.hook ?_ m
      intro hhook
      rw [hcap, odDispatchBudget, hrow]
      exact congrArg UInt8.toNat (row_read b row (List.mem_of_find?_eq_some hrow) hhook)
    · exact ⟨.inl h, .inl rfl⟩
  have hfew := dispatchPlain_resets b env ctx body cmd m k'
  rw [h.intact] at hfew
  obtain ⟨hintact, hreset⟩ := hrun.1.release (by omega)
  refine ⟨?_, outcomeOf_ne_deferred _, hintact, hreset, hrun.2⟩
  intro d hd
  rcases List.mem_append.mp hd with hd | hd
  · exact hentered d hd
  · rw [List.mem_singleton.mp hd]
    exact ⟨hq, ht⟩

theorem odGateAuthenticate_intact (h : Intact p k) (rp : Reply) (body : Bytes) :
    Intact p (odGateAuthenticate env rp body k).2 ∧ (odGateAuthenticate env rp body k).1 ≠ .deferred := by
  have hsession : Intact p { k with session := (odSessionAuthenticate k.session (gateRequest env body)).session } :=
    ⟨h.session _ k.attempts, h.intact⟩
  unfold odGateAuthenticate
  dsimp only
  split <;> exact ⟨(intact_rule p).replyPlain hsession _ _ _, nofun⟩

theorem odGateOpen_intact (h : Intact p k) (rp : Reply) (cmd : UInt16) (envelope : Bytes) (scratch : Option Nat) :
    Intact p (odGateOpen env rp cmd envelope scratch k).2.2 ∧
      (odGateOpen env rp cmd envelope scratch k).1 ≠ .deferred ∧
      ((odGateOpen env rp cmd envelope scratch k).1 = .accepted →
        (odGateOpen env rp cmd envelope scratch k).2.2.q = k.q ∧
        (odGateOpen env rp cmd envelope scratch k).2.2.token = k.token) := by
  have hrule : DeskRule (Intact p : Desk slots → Prop) := intact_rule p
  unfold odGateOpen
  split
  · exact ⟨hrule.replyPlain h _ _ _, nofun, nofun⟩
  · split_ifs
    · exact ⟨hrule.replyPlain h _ _ _, nofun, nofun⟩
    · next scratchCap _ =>
      dsimp only
      have hsession : Intact p
          { k with session := (odSessionOpen k.session (gateOpen env cmd envelope scratchCap)).session } :=
        ⟨h.session _ k.attempts, h.intact⟩
      split
      · exact ⟨hsession, nofun, fun _ => ⟨rfl, rfl⟩⟩
      · exact ⟨hrule.replyPlain hsession _ _ _, nofun, nofun⟩
      · split_ifs
        · exact ⟨hsession, nofun, nofun⟩
        · exact ⟨hrule.replyPlain hsession _ _ _, nofun, nofun⟩
      all_goals exact ⟨hrule.replyPlain hsession _ _ _, nofun, nofun⟩

theorem dispatchReserved_settles (h : Intact p k) (rp : Reply) (wireLen cmd : UInt16)
    (hcap : p.cap = (odDispatchBudget b cmd).toNat) (body : Bytes) (m : Machines) :
    Settles p m k (dispatchReserved b env rp wireLen cmd body m k) := by
  have hself : ∀ d ∈ [k], d.q = k.q ∧ d.token = k.token := by
    intro d hd
    rw [List.mem_singleton.mp hd]
    exact ⟨rfl, rfl⟩
  unfold dispatchReserved
  split_ifs with hauth hversion hgate
  · obtain ⟨hbal, hout⟩ := odGateAuthenticate_intact env h rp body
    exact hbal.finish _ hout m hself none
  · refine ((intact_rule p).acts h rp _).finish _ ?_ m hself none
    split_ifs
    · decide
    · exact outcomeOf_ne_deferred _
  · have halive : Intact p (unauthenticatedExempt env cmd k).2 := ⟨h.session _ _, h.intact⟩
    split
    · next k' hk =>
      rw [hk] at halive
      obtain rfl := congrArg Prod.snd hk
      exact runHandler_settles b env (k := k) halive rfl rfl _ cmd hcap body m [] (by simp)
    · next k' hk =>
      rw [hk] at halive
      obtain rfl := congrArg Prod.snd hk
      obtain ⟨hbal, hout, hsame⟩ := odGateOpen_intact env halive rp cmd body (some odSessionPlainMax)
      have hself' : ∀ d ∈ [(unauthenticatedExempt env cmd k).2], d.q = k.q ∧ d.token = k.token := by
        intro d hd
        rw [List.mem_singleton.mp hd]
        exact ⟨rfl, rfl⟩
      split
      · next body' k'' hg =>
        rw [hg] at hbal hsame
        obtain ⟨hq, ht⟩ := hsame rfl
        exact runHandler_settles b env (k := k) hbal hq ht _ cmd hcap body' m _ hself'
      · next outcome body' k'' _ hg =>
        rw [hg] at hbal hout
        exact hbal.finish k hout m hself' none
  · exact runHandler_settles b env h rfl rfl _ cmd hcap body m [] (by simp)

theorem refuseOversize_reserved (rp : Reply) (cmd : UInt16) (core : Core slots) :
    (refuseOversize env rp cmd core).q.reserved = core.q.reserved ∧
      (refuseOversize env rp cmd core).read = core.read := by
  unfold refuseOversize
  rcases odTxqReserve_cases core.q {} 1 with hr | hr | ⟨-, hr⟩
  · rw [hr]
    exact ⟨rfl, rfl⟩
  · rw [hr]
    exact ⟨rfl, rfl⟩
  · rw [hr]
    have h := (Intact.start core.session core.q 1).toBalanced
    exact ⟨((balanced_rule _).replyPlain h rp _ _).release.1, rfl⟩

/-- What is promised of every frame. -/
structure FrameSettles (frame : Span) (core : Core slots) (out : DispatchResult slots) : Prop where
  entered : ∀ k ∈ out.entered, ∃ f, frame = some f ∧ k.token.remaining = odDispatchBudget b (readBe16 f) ∧
    odTxqReserve core.q (odDispatchBudget b (readBe16 f)) {} = (.ok, k.q, k.token)
  deferred : out.outcome = .deferred → out.core = core
  intact : out.resets = 0 → out.core.q.reserved = core.q.reserved
  reset : out.resets ≠ 0 → out.core.q.reserved = 0
  read : out.core.read = core.read ∨ out.core.read.res.remaining = 0

theorem odDispatchFrame_settles (rp : Option Reply) (frame : Span) (core : Core slots) :
    FrameSettles b frame core (odDispatchFrame b env rp frame core) := by
  have hkeep : ∀ outcome : FrameOutcome, FrameSettles b frame core { outcome := outcome, core := core } :=
    fun _ => ⟨by simp, fun _ => rfl, fun _ => rfl, fun hne => absurd rfl hne, .inl rfl⟩
  unfold odDispatchFrame
  split
  swap
  · exact hkeep _
  next rp f =>
  dsimp only
  split_ifs with hshort hlong hlive hconflict
  · exact hkeep _
  · obtain ⟨hres, hread⟩ := refuseOversize_reserved env rp (readBe16 f) core
    exact ⟨by simp, nofun, fun _ => hres, fun hne => absurd rfl hne, .inl hread⟩
  · exact hkeep _
  · rcases odTxqReserve_cases core.q {} (odDispatchBudget b (readBe16 f)) with hr | hr | ⟨-, hr⟩
    · rw [hr]
      exact hkeep _
    · rw [hr]
      exact hkeep _
    · rw [hr]
      dsimp only
      have hbal := Intact.start core.session core.q (odDispatchBudget b (readBe16 f))
      obtain ⟨hentered, hdeferred, hintact, hreset, hread⟩ := dispatchReserved_settles b env hbal rp
        (UInt16.ofNat f.length) (readBe16 f) rfl (f.drop 2) core.toMachines
      refine ⟨?_, fun h => absurd h hdeferred, hintact, hreset, hread⟩
      intro d hd
      obtain ⟨hq, ht⟩ := hentered d hd
      exact ⟨f, rfl, by rw [ht], by rw [hr, hq, ht]⟩
  · exact hkeep _

end Dispatch

section Runs

variable {slots : Nat} [NeZero slots]

/-- Between two steps nobody has a unit. -/
structure Unpromised (core : Core slots) : Prop where
  reserved : core.q.reserved = 0
  read : core.read.res.remaining = 0

theorem Unpromised.frame {core : Core slots} (h : Unpromised core) (b : Build) (env : DispatchEnv)
    (rp : Option Reply) (frame : Span) : Unpromised (odDispatchFrame b env rp frame core).core := by
  have hframe := odDispatchFrame_settles b env rp frame core
  constructor
  · by_cases hzero : (odDispatchFrame b env rp frame core).resets = 0
    · exact (hframe.intact hzero).trans h.reserved
    · exact hframe.reset hzero
  · rcases hframe.read with hsame | hnone
    · rw [hsame]
      exact h.read
    · exact hnone

omit [NeZero slots] in
theorem odConfigReadCancel_nothing {c : ConfigRead} (h : c.res.remaining = 0) (q : Txq slots) :
    (odConfigReadCancel c q).1.res.remaining = 0 ∧ (odConfigReadCancel c q).2 = q := by
  unfold odConfigReadCancel odTxqRelease
  rw [if_pos h]
  split_ifs
  · exact ⟨h, rfl⟩
  · exact ⟨h, rfl⟩

theorem emitChunk_res (c : ConfigRead) (env : ReplyEnv) (k : Desk slots) : (emitChunk c env k).2.1.res = c.res := by
  unfold emitChunk
  dsimp only
  split <;> rfl

theorem Unpromised.hook {core : Core slots} (h : Unpromised core) (a : HookAct) : Unpromised (core.hook a) := by
  refine ⟨?_, h.read⟩
  cases a with
  | process radio => exact (odTxqProcess_drained radio _ []).1.trans h.reserved
  | flush radio nowMs deadlineMs => exact (odTxqFlush_drained radio _ [] nowMs deadlineMs).1.trans h.reserved
  | _ => exact h.reserved

theorem Unpromised.pump {core : Core slots} (h : Unpromised core) (env : ReplyEnv) :
    Unpromised (odConfigReadPump env core).2 := by
  unfold odConfigReadPump
  by_cases hactive : core.read.active = true
  · rw [if_neg (not_not.mpr hactive)]
    rcases odTxqReserve_cases core.q {} 1 with hr | hr | ⟨-, hr⟩
    · rw [hr]
      exact h
    · rw [hr]
      exact h
    · rw [hr]
      dsimp only
      have hbal := (Intact.start core.session core.q 1).toBalanced
      generalize ({ session := core.session, q := { core.q with reserved := core.q.reserved + 1 }
                    token := { remaining := 1, gen := core.q.gen } } : Desk slots) = k at hbal
      have hback := ((balanced_rule _).chunk hbal core.read env).release.1.trans h.reserved
      have hres := (congrArg Token.remaining (emitChunk_res core.read env k)).trans h.read
      split_ifs
      · obtain ⟨hnone, hsame⟩ := odConfigReadCancel_nothing hres (emitChunk core.read env k).2.2.release.q
        exact ⟨(congrArg Txq.reserved hsame).trans hback, hnone⟩
      · exact ⟨hback, hres⟩
  · rw [if_pos hactive]
    exact h

/-- A core that a run from power-up reaches. -/
def Core.Reached (b : Build) (core : Core slots) : Prop :=
  ∃ slot etag, ∃ acts : List CoreAct, core = acts.foldl (Core.step b) (Core.boot slots slot etag)

theorem Core.Reached.unpromised {b : Build} {core : Core slots} (h : core.Reached b) : Unpromised core := by
  obtain ⟨slot, etag, acts, rfl⟩ := h
  induction acts using List.reverseRecOn with
  | nil => exact ⟨rfl, rfl⟩
  | append_singleton acts a ih =>
    rw [List.foldl_append]
    cases a with
    | frame env rp frame => exact ih.frame b env rp frame
    | reset => exact ⟨rfl, (odConfigReadCancel_nothing ih.read _).1⟩
    | pump env => exact ih.pump env
    | hook a => exact ih.hook a

end Runs

/-- The command path is transactional in response capacity. The gate and the handlers
are called with the units of the opcode in hand; a frame that is put off leaves the
device as it was; all units are back at the end, none being promised when the core was
reset under the frame, so that every frame of a run finds and leaves none; a reader that
took the token over has none; and no shared handler asks for more replies than its row
grants. -/
theorem dispatch_transactional (b : Build) (env : DispatchEnv) (rp : Option Reply) (frame : Span)
    (core : Core (odTxqSlots b.profile)) :
    let out := odDispatchFrame b env rp frame core
    (∀ k ∈ out.entered, ∃ f, frame = some f ∧ k.token.remaining = odDispatchBudget b (readBe16 f) ∧
      odTxqReserve core.q (odDispatchBudget b (readBe16 f)) {} = (.ok, k.q, k.token)) ∧
    (out.outcome = .deferred → out.core = core) ∧
    (out.resets = 0 → out.core.q.reserved = core.q.reserved) ∧
    (out.resets ≠ 0 → out.core.q.reserved = 0) ∧
    (core.Reached b → out.core.q.reserved = core.q.reserved) ∧
    (out.core.read = core.read ∨ out.core.read.res.remaining = 0) ∧
    ∀ row ∈ odDispatchOpcodeRows b, row.hook.shared = true →
      ∀ (ctx : Ctx) (body : Bytes) (m : Machines) (k : Desk (odTxqSlots b.profile)),
        (row.hook.run b env ctx body m k).2.2.attempts ≤ k.attempts + row.budget.toNat := by
  intro out
  have h := odDispatchFrame_settles b env rp frame core
  refine ⟨h.entered, h.deferred, h.intact, h.reset, fun hreached => ?_, h.read, ?_⟩
  · have hbefore := hreached.unpromised
    exact (hbefore.frame b env rp frame).reserved.trans hbefore.reserved.symm
  · intro row hrow hshared ctx body m k
    rw [← row_budget b row hrow hshared]
    exact (Hook.handle_attempts env b ctx body hshared m k).1

/-- A target without security, whose handlers do nothing. -/
def plainEnv : DispatchEnv :=
  let answer : ReplyEnv := { sec := none, nowMs := 0, hal := oneHal, live := true }
  { live := true, mutatesConfig := fun _ => false, allowUnauthenticated := fun _ => false, sec := none
    deviceId := .replicate 4 1, aliveMs := 0, gateMs := 0, hal := oneHal, answer := answer, app := .willing
    hooks := fun _ => [], replyEnv := fun _ => answer
    nfc := { read := none, write := fun _ _ => false, hooks := [], env := answer }
    read := fun _ _ => { first := [], blob := [], env := answer, last := [], result := .ok }
    handler := fun _ _ _ => ([], .ok), firmwareVersion := fun _ _ => ([], .ok) }

/-- A BG22 whose peer is gone when the panel is about to be refreshed. -/
def goneEnv : DispatchEnv :=
  { plainEnv with app := { App.willing with beforeRefresh := fun _ _ => false }, barrierResets := true }

/-- An END whose refresh is given up: the core is reset with one of its two units spent, and the
other is not given back a second time. -/
theorem dispatch_transactional_reset :
    let b : Build := { profile := .silabs, capNfc := false }
    let core := [.frame goneEnv (some {}) (some [0x00, 0x70]), .hook (.process fun _ _ => ⟨true, .sent⟩)].foldl
      (Core.step b) (Core.boot (odTxqSlots .silabs) 0 0)
    let out := odDispatchFrame b goneEnv (some {}) (some [0x00, 0x72]) core
    out.entered.map (·.token.remaining) = [2] ∧ out.resets = 1 ∧ out.core.q.gen = core.q.gen + 1 ∧
      out.core.q.reserved = 0 := by
  intro b core out
  have hresets : out.resets = 1 := by decide +kernel
  have hreset := (dispatch_transactional b goneEnv (some {}) (some [0x00, 0x72]) core).2.2.2.1
  refine ⟨by decide +kernel, hresets, by decide +kernel, hreset ?_⟩
  rw [hresets]
  exact Nat.one_ne_zero

end OpenDisplay
