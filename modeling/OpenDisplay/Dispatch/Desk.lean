import OpenDisplay.Dispatch.Reply

/-! What a command has at hand while it runs: the session, the response queue and the
token with its units. Whatever it does with them, the units that are promised are
those of the token and those that were promised before, or none once the queue was
reset under the command; and an open session is the one it was. -/

namespace OpenDisplay

variable {slots : Nat} [NeZero slots]

/-- `attempts` counts the replies that were asked for, and `resets` how often the core
was reset under the command, for the proofs. -/
structure Desk (slots : Nat) where
  session : Session
  q : Txq slots
  token : Token
  attempts : Nat := 0
  resets : Nat := 0

def Desk.reply (rp : Reply) (frame : Bytes) (env : ReplyEnv) (k : Desk slots) : TxqStatus × Desk slots :=
  let out := odReply k.session k.q k.token rp frame env
  (out.status, { k with session := out.session, q := out.q, token := out.token, attempts := k.attempts + 1 })

def Desk.replyPlain (rp : Reply) (frame : Bytes) (env : ReplyEnv) (k : Desk slots) :
    TxqStatus × Desk slots :=
  let out := odReplyPlain k.session k.q k.token rp frame env
  (out.status, { k with session := out.session, q := out.q, token := out.token, attempts := k.attempts + 1 })

def Desk.release (k : Desk slots) : Desk slots :=
  let (q, token) := odTxqRelease k.q k.token
  { k with q := q, token := token }

/-- The target resets the core under the command. The queue and the session start
anew; the command goes on with the token it has. -/
def Desk.reset (k : Desk slots) : Desk slots :=
  { k with session := odSessionClear k.session, q := odTxqReset k.q, resets := k.resets + 1 }

/-- What the target does of its own accord while a command runs: it drains the queue,
it asks whether the session is alive, it notes activity, or it ends the session. -/
inductive HookAct where
  | process (radio : Radio)
  | flush (radio : Radio) (nowMs deadlineMs : UInt32)
  | alive (nowMs : UInt32)
  | touch (nowMs : UInt32)
  | clear

def Desk.hook (k : Desk slots) : HookAct → Desk slots
  | .process radio => { k with q := (odTxqProcess radio k.q []).q }
  | .flush radio nowMs deadlineMs => { k with q := (odTxqFlush radio k.q [] nowMs deadlineMs).2.q }
  | .alive nowMs => { k with session := (odSessionAlive k.session nowMs).2 }
  | .touch nowMs => { k with session := odSessionTouch k.session nowMs }
  | .clear => { k with session := odSessionClear k.session }

def Desk.hooks (acts : List HookAct) (k : Desk slots) : Desk slots := acts.foldl Desk.hook k

/-- A handler of the target replies, or does what the target does anyway. -/
inductive TargetAct where
  | reply (frame : Bytes) (env : ReplyEnv)
  | replyPlain (frame : Bytes) (env : ReplyEnv)
  | hook (a : HookAct)

def Desk.act (rp : Reply) (k : Desk slots) : TargetAct → Desk slots
  | .reply frame env => (k.reply rp frame env).2
  | .replyPlain frame env => (k.replyPlain rp frame env).2
  | .hook a => k.hook a

def Desk.acts (rp : Reply) (acts : List TargetAct) (k : Desk slots) : Desk slots := acts.foldl (Desk.act rp) k

section Follows

/-- If the second session is open, it is the first with the window it had. -/
def Session.Follows (s s' : Session) : Prop :=
  s'.authenticated = true → s.authenticated = true ∧ s'.rx = s.rx

variable {s s' s'' : Session}

theorem Session.Follows.refl (s : Session) : s.Follows s := fun h => ⟨h, rfl⟩

theorem Session.Follows.trans (h : s.Follows s') (h' : s'.Follows s'') : s.Follows s'' := by
  intro hopen
  obtain ⟨hs', hrx'⟩ := h' hopen
  obtain ⟨hs, hrx⟩ := h hs'
  exact ⟨hs, hrx'.trans hrx⟩

theorem Session.Follows.clear (s : Session) : s.Follows (odSessionClear s) := fun h => by
  simp [odSessionClear] at h

theorem Effect.follows {e : Entry} (h : Effect e s') (hauth : e.auth ≠ some .established)
    (hconsumed : e.consumed = none) : e.before.Follows s' := by
  rcases h with
    ⟨hsame, -, -, -⟩ | ⟨hsame, -, -, -, -, -⟩ | ⟨heq, -, -, -⟩ |
    ⟨-, hunauth, -, -, -, -, -, -⟩ | ⟨-, hest, -, -, -, -, -, -, -, -, -, -⟩ |
    ⟨-, -, -, hsame, -, -, -⟩ | ⟨-, hsome, -, -, -, -, -⟩
  · exact fun hopen => ⟨hsame.authenticated.symm.trans hopen, hsame.rx⟩
  · exact fun hopen => ⟨hsame.authenticated.symm.trans hopen, hsame.rx⟩
  · rw [heq]
    exact .clear _
  · intro hopen
    rw [hunauth] at hopen
    exact absurd hopen (by decide)
  · exact absurd hest hauth
  · exact fun hopen => ⟨hsame.authenticated.symm.trans hopen, hsame.rx⟩
  · simp [hconsumed] at hsome

theorem seal_follows (s : Session) (c : SealCall) : s.Follows (odSessionSeal s c).session :=
  (seal_effect s c).follows (by simp [Entry.auth]) rfl

theorem alive_follows (s : Session) (nowMs : UInt32) : s.Follows (odSessionAlive s nowMs).2 :=
  (alive_effect s nowMs).follows (by simp [Entry.auth]) rfl

theorem odReply_follows (s : Session) (q : Txq slots) (r : Token) (rp : Reply) (frame : Bytes) (env : ReplyEnv) :
    s.Follows (odReply s q r rp frame env).session := by
  unfold odReply
  split_ifs
  · exact .refl s
  · exact .refl s
  · have hseal := seal_follows s (replySeal frame env)
    dsimp only
    split
    · exact hseal
    · exact hseal
    · exact hseal
    · exact hseal
    · exact hseal
    · exact hseal
    · exact hseal.trans (.clear _)
  · exact .refl s

theorem Desk.hook_follows (k : Desk slots) (a : HookAct) : k.session.Follows (k.hook a).session := by
  cases a with
  | process radio => exact .refl _
  | flush radio nowMs deadlineMs => exact .refl _
  | alive nowMs => exact alive_follows _ nowMs
  | touch nowMs => exact fun h => ⟨h, rfl⟩
  | clear => exact .clear _

end Follows

section Balance

/-- What is fixed while a token is in use: the units that others hold, the queue's
generation, and how many units the token had. -/
structure Pledge where
  base : UInt8
  gen : UInt8
  cap : Nat

/-- The token and the queue are of the one generation, and the units of the token come
on top of those that others hold. -/
structure Balanced (p : Pledge) (k : Desk slots) : Prop where
  token : k.token.gen = p.gen
  gen : k.q.gen = p.gen
  reserved : k.q.reserved = p.base + k.token.remaining
  limit : k.token.remaining.toNat ≤ p.cap

variable {p : Pledge} {k : Desk slots}

theorem remaining_pred {r : UInt8} (h : r ≠ 0) : (r - 1).toNat + 1 = r.toNat := by
  have hpos : r.toNat ≠ 0 := fun h0 => h (UInt8.toNat_inj.mp h0)
  rw [UInt8.toNat_sub_of_le _ _ (UInt8.le_iff_toNat_le.mpr (by change 1 ≤ _; omega))]
  change r.toNat - 1 + 1 = r.toNat
  omega

theorem Balanced.commit (h : Balanced p k) (s : Session) (n : Nat) (rp : Reply) (frame : Bytes) (live : Bool) :
    Balanced p
      { k with
        session := s, q := (odTxqCommit k.q k.token rp frame live).2.1
        token := (odTxqCommit k.q k.token rp frame live).2.2, attempts := n } := by
  obtain ⟨htoken, hgen, hres, hcap⟩ := h
  have hspend : k.q.reserved - 1 = p.base + (k.token.remaining - 1) := by
    rw [hres, UInt8.sub_eq_add_neg, UInt8.sub_eq_add_neg, UInt8.add_assoc]
  rcases odTxqCommit_cases k.q k.token rp frame live with
    ⟨status, -, heq, -⟩ | ⟨hne, -⟩ | ⟨hr, -, heq⟩ | ⟨hr, -, -, heq⟩
  · rw [heq]
    exact ⟨htoken, hgen, hres, hcap⟩
  · exact absurd (htoken.trans hgen.symm) hne
  · have := remaining_pred hr
    rw [heq]
    exact ⟨htoken, hgen, hspend, by dsimp only; omega⟩
  · have := remaining_pred hr
    rw [heq]
    exact ⟨htoken, hgen, hspend, by dsimp only; omega⟩

omit [NeZero slots] in
theorem Balanced.session (h : Balanced p k) (s : Session) (n : Nat) :
    Balanced p { k with session := s, attempts := n } := ⟨h.token, h.gen, h.reserved, h.limit⟩

omit [NeZero slots] in
theorem Balanced.drained (h : Balanced p k) {q : Txq slots} (hq : TxDrained k.q q) :
    Balanced p { k with q := q } :=
  ⟨h.token, hq.2.1.trans h.gen, hq.1.trans h.reserved, h.limit⟩

omit [NeZero slots] in
theorem odTxqRelease_remaining (q : Txq slots) (r : Token) : (odTxqRelease q r).2.remaining = 0 := by
  unfold odTxqRelease
  split_ifs with hzero
  · exact hzero
  · rfl
  · rfl

omit [NeZero slots] in
theorem Balanced.release (h : Balanced p k) :
    k.release.q.reserved = p.base ∧ k.release.q.gen = p.gen ∧ k.release.token.remaining = 0 := by
  unfold Desk.release odTxqRelease
  by_cases hzero : k.token.remaining = 0
  · rw [if_pos hzero]
    dsimp only
    rw [h.reserved, hzero, UInt8.add_zero]
    exact ⟨rfl, h.gen, rfl⟩
  · rw [if_neg hzero, if_pos (h.token.trans h.gen.symm)]
    dsimp only
    rw [h.reserved, UInt8.add_sub_cancel]
    exact ⟨rfl, h.gen, rfl⟩

/-- The units balance, and the queue was not reset under the command. -/
structure Intact (p : Pledge) (k : Desk slots) : Prop extends Balanced p k where
  intact : k.resets = 0

omit [NeZero slots] in
/-- A token that has just been reserved balances. -/
theorem Intact.start (session : Session) (q : Txq slots) (n : UInt8) :
    Intact { base := q.reserved, gen := q.gen, cap := n.toNat }
      ({ session := session, q := { q with reserved := q.reserved + n }
         token := { remaining := n, gen := q.gen } } : Desk slots) :=
  ⟨⟨rfl, rfl, rfl, Nat.le_refl _⟩, rfl⟩

/-- The queue was reset under the command: the token is of a generation that is gone, and no
unit is promised. -/
structure Revoked (p : Pledge) (k : Desk slots) : Prop where
  token : k.token.gen = p.gen
  reset : k.resets ≠ 0
  gen : k.q.gen = p.gen + UInt8.ofNat k.resets
  reserved : k.resets < 256 → k.q.reserved = 0

omit [NeZero slots] in
theorem Revoked.gen_ne (h : Revoked p k) (hlt : k.resets < 256) : k.token.gen ≠ k.q.gen := by
  have hreset := h.reset
  rw [h.token, h.gen]
  intro heq
  have hzero : UInt8.ofNat k.resets = 0 := by simpa using heq.symm
  have hnat := congrArg UInt8.toNat hzero
  rw [UInt8.toNat_ofNat', Nat.mod_eq_of_lt hlt] at hnat
  exact hreset hnat

/-- A token of another generation pays for nothing. -/
theorem Revoked.commit (h : Revoked p k) (s : Session) (n : Nat) (rp : Reply) (frame : Bytes) (live : Bool) :
    Revoked p
      { k with
        session := s, q := (odTxqCommit k.q k.token rp frame live).2.1
        token := (odTxqCommit k.q k.token rp frame live).2.2, attempts := n } := by
  rcases odTxqCommit_cases k.q k.token rp frame live with
    ⟨status, -, heq, -⟩ | ⟨-, heq⟩ | ⟨-, hsame, heq⟩ | ⟨-, hsame, -, heq⟩
  · rw [heq]
    exact ⟨h.token, h.reset, h.gen, h.reserved⟩
  · rw [heq]
    exact ⟨h.token, h.reset, h.gen, h.reserved⟩
  · rw [heq]
    exact ⟨h.token, h.reset, h.gen, fun hlt => absurd hsame (h.gen_ne hlt)⟩
  · rw [heq]
    exact ⟨h.token, h.reset, h.gen, fun hlt => absurd hsame (h.gen_ne hlt)⟩

omit [NeZero slots] in
theorem Revoked.session (h : Revoked p k) (s : Session) (n : Nat) :
    Revoked p { k with session := s, attempts := n } := ⟨h.token, h.reset, h.gen, h.reserved⟩

omit [NeZero slots] in
theorem Revoked.drained (h : Revoked p k) {q : Txq slots} (hq : TxDrained k.q q) : Revoked p { k with q := q } :=
  ⟨h.token, h.reset, hq.2.1.trans h.gen, fun hlt => hq.1.trans (h.reserved hlt)⟩

omit [NeZero slots] in
/-- What is left of the token is not given back to the queue that came after it. -/
theorem Revoked.release (h : Revoked p k) (hlt : k.resets < 256) : k.release.q.reserved = 0 := by
  unfold Desk.release odTxqRelease
  by_cases hzero : k.token.remaining = 0
  · rw [if_pos hzero]
    exact h.reserved hlt
  · rw [if_neg hzero, if_neg (h.gen_ne hlt)]
    exact h.reserved hlt

/-- The units of the token are accounted for, also when the queue was reset under it. -/
def Accounted (p : Pledge) (k : Desk slots) : Prop := Intact p k ∨ Revoked p k

theorem Accounted.reset (h : Accounted p k) : Accounted p k.reset := by
  rcases h with h | h
  · refine .inr ⟨h.token, Nat.succ_ne_zero _, ?_, fun _ => rfl⟩
    show k.q.gen + 1 = p.gen + UInt8.ofNat (k.resets + 1)
    rw [h.gen, h.intact]
    rfl
  · refine .inr ⟨h.token, Nat.succ_ne_zero _, ?_, fun _ => rfl⟩
    show k.q.gen + 1 = p.gen + UInt8.ofNat (k.resets + 1)
    rw [h.gen, UInt8.ofNat_add, UInt8.add_assoc]
    rfl

theorem Desk.reply_spends {rp : Reply} {frame : Bytes} {env : ReplyEnv} (h : (k.reply rp frame env).1 = .ok) :
    k.token.remaining ≠ 0 ∧ (k.reply rp frame env).2.token.remaining = k.token.remaining - 1 := by
  have hcommit : ∀ frame, (odTxqCommit k.q k.token rp frame env.live).1 = .ok → k.token.remaining ≠ 0 ∧
      (odTxqCommit k.q k.token rp frame env.live).2.2.remaining = k.token.remaining - 1 := by
    intro frame hok
    rcases odTxqCommit_cases k.q k.token rp frame env.live with
      ⟨status, hne, heq, -⟩ | ⟨-, heq⟩ | ⟨-, -, heq⟩ | ⟨hr, -, -, heq⟩
    · rw [heq] at hok
      exact absurd hok hne
    · simp [heq] at hok
    · simp [heq] at hok
    · rw [heq]
      exact ⟨hr, rfl⟩
  have hnack : ∀ s why, why ≠ .ok → (queueHardNack s k.q k.token rp (byteAt frame 1) why env).status ≠ .ok :=
    fun s why hwhy => (queueHardNack_frames s k.q k.token rp (byteAt frame 1) hwhy env).1
  revert h
  unfold Desk.reply odReply
  split_ifs
  · exact fun h => by simp at h
  · exact hcommit _
  · dsimp only
    split
    · exact hcommit _
    · exact fun h => by simp at h
    · exact fun h => absurd h (hnack _ _ (by decide))
    · exact fun h => absurd h (hnack _ _ (by decide))
    · exact fun h => absurd h (hnack _ _ (by decide))
    · exact fun h => absurd h (hnack _ _ (by decide))
    · exact fun h => absurd h (hnack _ _ (by decide))
  · exact hcommit _

end Balance

section Rules

theorem Desk.hooks_rule {I : Desk slots → Prop} (hhook : ∀ a k, I k → I (k.hook a)) (acts : List HookAct)
    {k : Desk slots} (h : I k) : I (k.hooks acts) := by
  induction acts generalizing k with
  | nil => exact h
  | cons a acts ih => exact ih (hhook a k h)

/-- A property of the desk that every reply and everything the target does of its own
accord keeps. -/
structure DeskRule (I : Desk slots → Prop) : Prop where
  reply : ∀ {k}, I k → ∀ rp frame env, I (k.reply rp frame env).2
  replyPlain : ∀ {k}, I k → ∀ rp frame env, I (k.replyPlain rp frame env).2
  hook : ∀ {k}, I k → ∀ a, I (k.hook a)

/-- A property that a handler keeps whatever it does, the reset of the core included. -/
structure HandlerRule (I : Desk slots → Prop) : Prop extends DeskRule I where
  reset : ∀ {k}, I k → I k.reset

/-- A property of the queue and the token, kept when the token is spent and when the queue
drains, whatever becomes of the session. -/
structure UnitRule (I : Desk slots → Prop) : Prop where
  commit : ∀ {k}, I k → ∀ s n rp frame live, I
    { k with
      session := s, q := (odTxqCommit k.q k.token rp frame live).2.1
      token := (odTxqCommit k.q k.token rp frame live).2.2, attempts := n }
  session : ∀ {k}, I k → ∀ s n, I { k with session := s, attempts := n }
  drained : ∀ {k}, I k → ∀ {q}, TxDrained k.q q → I { k with q := q }

variable {I J : Desk slots → Prop} {k : Desk slots}

theorem UnitRule.reply (rule : UnitRule I) (h : I k) (rp : Reply) (frame : Bytes) (env : ReplyEnv) :
    I (k.reply rp frame env).2 := by
  have hnack : ∀ s, I _ := fun s => rule.commit h s (k.attempts + 1) rp (hardNack (byteAt frame 1)) env.live
  unfold Desk.reply odReply
  split_ifs
  · exact rule.session h _ _
  · exact rule.commit h _ _ rp frame env.live
  · dsimp only
    split
    · exact rule.commit h _ _ rp _ env.live
    · exact rule.session h _ _
    · exact hnack _
    · exact hnack _
    · exact hnack _
    · exact hnack _
    · exact hnack _
  · exact rule.commit h _ _ rp frame env.live

theorem UnitRule.desk (rule : UnitRule I) : DeskRule I where
  reply h rp frame env := rule.reply h rp frame env
  replyPlain h rp frame env := rule.commit h _ _ rp frame env.live
  hook := by
    intro k h a
    cases a with
    | process radio => exact rule.drained h (odTxqProcess_drained radio _ [])
    | flush radio nowMs deadlineMs => exact rule.drained h (odTxqFlush_drained radio _ [] nowMs deadlineMs)
    | alive nowMs => exact rule.session h _ _
    | touch nowMs => exact rule.session h _ _
    | clear => exact rule.session h _ _

theorem DeskRule.or (hI : DeskRule I) (hJ : DeskRule J) : DeskRule (fun k => I k ∨ J k) where
  reply h rp frame env := h.imp (hI.reply · rp frame env) (hJ.reply · rp frame env)
  replyPlain h rp frame env := h.imp (hI.replyPlain · rp frame env) (hJ.replyPlain · rp frame env)
  hook h a := h.imp (hI.hook · a) (hJ.hook · a)

theorem DeskRule.hooks (rule : DeskRule I) (h : I k) (acts : List HookAct) : I (k.hooks acts) :=
  Desk.hooks_rule (I := I) (fun a _ hk => rule.hook hk a) acts h

theorem DeskRule.acts (rule : DeskRule I) (h : I k) (rp : Reply) (acts : List TargetAct) :
    I (k.acts rp acts) := by
  induction acts generalizing k with
  | nil => exact h
  | cons a acts ih =>
    cases a with
    | reply frame env => exact ih (rule.reply h rp frame env)
    | replyPlain frame env => exact ih (rule.replyPlain h rp frame env)
    | hook a => exact ih (rule.hook h a)

theorem balanced_rule (p : Pledge) : DeskRule (Balanced p : Desk slots → Prop) :=
  UnitRule.desk ⟨Balanced.commit, Balanced.session, Balanced.drained⟩

theorem intact_rule (p : Pledge) : DeskRule (Intact p : Desk slots → Prop) :=
  UnitRule.desk
    ⟨fun h s n rp frame live => ⟨h.commit s n rp frame live, h.intact⟩,
      fun h s n => ⟨h.toBalanced.session s n, h.intact⟩, fun h _ hq => ⟨h.toBalanced.drained hq, h.intact⟩⟩

theorem accounted_rule (p : Pledge) : HandlerRule (Accounted p : Desk slots → Prop) where
  toDeskRule := (intact_rule p).or (UnitRule.desk ⟨Revoked.commit, Revoked.session, Revoked.drained⟩)
  reset h := h.reset

/-- Neither a reply nor what the target does of its own accord resets the core. -/
theorem resets_rule (n : Nat) : DeskRule (fun k : Desk slots => k.resets = n) where
  reply h _ _ _ := h
  replyPlain h _ _ _ := h
  hook h a := by cases a <;> exact h

/-- Nothing a handler does at the desk opens a session or moves its window. -/
theorem follows_rule (s : Session) : HandlerRule (fun k : Desk slots => s.Follows k.session) where
  reply h rp frame env := h.trans (odReply_follows _ _ _ rp frame env)
  replyPlain h _ _ _ := h
  hook h a := h.trans (Desk.hook_follows _ a)
  reset h := h.trans (.clear _)

end Rules

end OpenDisplay
