import OpenDisplay.Session.Invariant
import OpenDisplay.Txq.Order

/-! Replies. A protected reply leaves the device sealed or, if it cannot be sealed,
as a hard NACK of three bytes that says nothing about it. -/

namespace OpenDisplay

variable {slots : Nat} [NeZero slots]

/-- What a reply asks its surroundings: the security configuration, the clock, the
engine, and whether the link is live. -/
structure ReplyEnv where
  sec : Option SecurityConfig
  nowMs : UInt32
  hal : Hal
  live : Bool

structure ReplyOutcome (slots : Nat) where
  status : TxqStatus
  session : Session
  q : Txq slots
  token : Token

def queueResponse (s : Session) (q : Txq slots) (r : Token) (rp : Reply) (frame : Bytes) (env : ReplyEnv) :
    ReplyOutcome slots :=
  let (status, q, token) := odTxqCommit q r rp frame env.live
  { status := status, session := s, q := q, token := token }

def hardNack (cmdLow : UInt8) : Bytes := [respNack, cmdLow, 0x00]

/-- The substitution's own failure is what the caller hears of. -/
def queueHardNack (s : Session) (q : Txq slots) (r : Token) (rp : Reply) (cmdLow : UInt8) (why : TxqStatus)
    (env : ReplyEnv) : ReplyOutcome slots :=
  let (status, q, token) := odTxqCommit q r rp (hardNack cmdLow) env.live
  { status := if status = .ok then why else status, session := s, q := q, token := token }

def odReplyPlain (s : Session) (q : Txq slots) (r : Token) (rp : Reply) (frame : Bytes) (env : ReplyEnv) :
    ReplyOutcome slots :=
  queueResponse s q r rp frame env

/-- The call that seals a reply. -/
def replySeal (frame : Bytes) (env : ReplyEnv) : SealCall :=
  { plainFrame := some frame, outCap := some odSessionSealedMax, nowMs := env.nowMs, hal := env.hal }

def odReply (s : Session) (q : Txq slots) (r : Token) (rp : Reply) (frame : Bytes) (env : ReplyEnv) :
    ReplyOutcome slots :=
  if frame = [] then { status := .invariant, session := s, q := q, token := r }
  else if rp.origin = .lanTls then queueResponse s q r rp frame env
  else if ¬ odSessionSecurityEnabled env.sec then queueResponse s q r rp frame env
  else
    let out := odSessionSeal s (replySeal frame env)
    let cmdLow := byteAt frame 1
    match out.result with
    | .ok => queueResponse out.session q r rp out.out env
    | .tooShort => { status := .invariant, session := out.session, q := q, token := r }
    | .tooLong | .noRoom => queueHardNack out.session q r rp cmdLow .tooLarge env
    | .noSession => queueHardNack out.session q r rp cmdLow .sealFailed env
    | .cryptoError => queueHardNack out.session q r rp cmdLow .sealFailed env
    | .counterExhausted => queueHardNack (odSessionClear out.session) q r rp cmdLow .sealFailed env

section Commit

variable {q : Txq slots} {r : Token} {rp : Reply} {frame : Bytes} {live : Bool}

theorem odTxqCommit_frames (q : Txq slots) (r : Token) (rp : Reply) (frame : Bytes) (live : Bool) :
    let out := odTxqCommit q r rp frame live
    out.2.1.frames = (if out.1 = .ok then q.frames ++ [{ rp := rp, data := frame }] else q.frames) ∧
      (out.2.1.reserved = q.reserved ∨ out.2.1.reserved = q.reserved - 1) ∧
      (r.gen = q.gen → out.2.2.remaining = r.remaining ∨ out.2.2.remaining = r.remaining - 1) := by
  rcases odTxqCommit_cases q r rp frame live with
    ⟨status, hne, heq, -⟩ | ⟨hgen, heq⟩ | ⟨-, -, heq⟩ | ⟨-, -, hfree, heq⟩
  · rw [heq]
    exact ⟨(if_neg hne).symm, .inl rfl, fun _ => .inl rfl⟩
  · rw [heq]
    exact ⟨rfl, .inl rfl, fun h => absurd h hgen⟩
  · rw [heq]
    exact ⟨rfl, .inr rfl, fun _ => .inr rfl⟩
  · have hlt : Rings.gap q.head q.tail + 1 < slots := by
      have : freeSlots q = slots - 1 - Rings.gap q.head q.tail := rfl
      omega
    rw [heq]
    exact ⟨Rings.contents_push hlt, .inr rfl, fun _ => .inr rfl⟩

end Commit

section TwoRuns

variable {s : Session} {f g : Bytes} {env : ReplyEnv}

theorem sealFrame_failed {c : SealCall} (h : (sealFrame s f c).result ≠ .ok) :
    sealFrame s f c = { session := { s with txCounter := s.txCounter + 1 }, result := .cryptoError
                        drawn := some s.txCounter } := by
  unfold sealFrame at h ⊢
  dsimp only at h ⊢
  split at h
  · exact absurd rfl h
  · rfl

theorem seal_eq (s : Session) (f : Bytes) (env : ReplyEnv) :
    odSessionSeal s (replySeal f env) =
      if ¬ (odSessionAlive s env.nowMs).1 then
        { session := (odSessionAlive s env.nowMs).2, result := .noSession }
      else if f.length < 2 then { session := (odSessionAlive s env.nowMs).2, result := .tooShort }
      else if odSessionPlainFrameMax < f.length then
        { session := (odSessionAlive s env.nowMs).2, result := .tooLong }
      else if odSessionSealedMax < f.length + odSessionNonceLen + 1 + odHalCryptoTagLen then
        { session := (odSessionAlive s env.nowMs).2, result := .noRoom }
      else if (odSessionAlive s env.nowMs).2.txCounter = UInt64.ofNat (2 ^ 64 - 1) then
        { session := (odSessionAlive s env.nowMs).2, result := .counterExhausted }
      else sealFrame (odSessionAlive s env.nowMs).2 f (replySeal f env) := rfl

theorem seal_refusal_congr (hlen : f.length = g.length)
    (hf : (odSessionSeal s (replySeal f env)).result ≠ .ok)
    (hg : (odSessionSeal s (replySeal g env)).result ≠ .ok) :
    odSessionSeal s (replySeal f env) = odSessionSeal s (replySeal g env) := by
  rw [seal_eq] at hf hg ⊢
  rw [seal_eq s g env]
  rw [hlen] at hf ⊢
  by_cases halive : ¬ (odSessionAlive s env.nowMs).1 = true
  · rw [if_pos halive, if_pos halive]
  rw [if_neg halive] at hf hg ⊢
  rw [if_neg halive]
  split_ifs at hf hg ⊢ with hshort hlong hroom hmax
  · rfl
  · rfl
  · rfl
  · rfl
  · rw [sealFrame_failed hf, sealFrame_failed hg]

theorem seal_preflight_congr (hlen : f.length = g.length)
    (hf : (odSessionSeal s (replySeal f env)).result ≠ .ok)
    (hcipher : (odSessionSeal s (replySeal f env)).result ≠ .cryptoError) :
    (odSessionSeal s (replySeal g env)).result ≠ .ok := by
  rw [seal_eq] at hf hcipher ⊢
  rw [hlen] at hf hcipher
  by_cases halive : ¬ (odSessionAlive s env.nowMs).1 = true
  · rw [if_pos halive]
    simp
  rw [if_neg halive] at hf hcipher ⊢
  split_ifs at hf hcipher ⊢ with hshort hlong hroom hmax
  · simp
  · simp
  · simp
  · simp
  · rw [sealFrame_failed hf] at hcipher
    exact absurd rfl hcipher

/-- The status that a reply which was not sealed returns, if its NACK was queued. -/
def sealRefusal : SealResult → TxqStatus
  | .tooLong | .noRoom => .tooLarge
  | _ => .sealFailed

/-- The session after a reply that was not sealed. -/
def refusedSession (out : SealOutcome) : Session :=
  if out.result = .counterExhausted then odSessionClear out.session else out.session

variable {q : Txq slots} {r : Token} {rp : Reply}

/-- On a link that needs sealing, a frame that has a command and is not sealed becomes
a hard NACK. -/
theorem odReply_refused (hlen : 2 ≤ f.length) (horigin : rp.origin ≠ .lanTls)
    (hsec : odSessionSecurityEnabled env.sec = true)
    (hr : (odSessionSeal s (replySeal f env)).result ≠ .ok) :
    odReply s q r rp f env =
      queueHardNack (refusedSession (odSessionSeal s (replySeal f env))) q r rp (byteAt f 1)
        (sealRefusal (odSessionSeal s (replySeal f env)).result) env := by
  have hne : f ≠ [] := by
    rintro rfl
    simp at hlen
  have hlong : (odSessionSeal s (replySeal f env)).result ≠ .tooShort := by
    intro h
    rw [seal_eq] at h
    split_ifs at h with _ hshort
    · omega
    · exact absurd (sealFrame_spends (odSessionAlive s env.nowMs).2 f (replySeal f env)).1 (by rw [h]; decide)
  unfold odReply
  rw [if_neg hne, if_neg horigin, if_neg (not_not_intro hsec)]
  generalize odSessionSeal s (replySeal f env) = out at hr hlong
  obtain ⟨session, result, bytes, drawn⟩ := out
  cases result with
  | ok => exact absurd rfl hr
  | tooShort => exact absurd rfl hlong
  | noSession => rfl
  | tooLong => rfl
  | noRoom => rfl
  | cryptoError => rfl
  | counterExhausted => rfl

theorem odReply_ok (hlen : 2 ≤ f.length) (horigin : rp.origin ≠ .lanTls)
    (hsec : odSessionSecurityEnabled env.sec = true)
    (hr : (odSessionSeal s (replySeal f env)).result = .ok) :
    odReply s q r rp f env =
      queueResponse (odSessionSeal s (replySeal f env)).session q r rp
        (odSessionSeal s (replySeal f env)).out env := by
  have hne : f ≠ [] := by
    rintro rfl
    simp at hlen
  unfold odReply
  rw [if_neg hne, if_neg horigin, if_neg (not_not_intro hsec)]
  dsimp only
  rw [hr]

theorem queueHardNack_frames (s : Session) (q : Txq slots) (r : Token) (rp : Reply) (cmdLow : UInt8)
    {why : TxqStatus} (hwhy : why ≠ .ok) (env : ReplyEnv) :
    let out := queueHardNack s q r rp cmdLow why env
    out.status ≠ .ok ∧
      (out.q.frames = q.frames ∨ out.q.frames = q.frames ++ [{ rp := rp, data := hardNack cmdLow }]) ∧
      (out.q.reserved = q.reserved ∨ out.q.reserved = q.reserved - 1) ∧
      (r.gen = q.gen → out.token.remaining = r.remaining ∨ out.token.remaining = r.remaining - 1) := by
  obtain ⟨hframes, hreserved, htoken⟩ := odTxqCommit_frames q r rp (hardNack cmdLow) env.live
  refine ⟨?_, ?_, hreserved, htoken⟩
  · unfold queueHardNack
    dsimp only
    split_ifs with hok
    · exact hwhy
    · exact hok
  · split_ifs at hframes
    · exact .inr hframes
    · exact .inl hframes

end TwoRuns

/-- A protected reply does not leak. If a frame is not sealed, the reply to it is the
reply to any frame with the same length and the same command for which the cipher, if
it was asked, failed as well: at most a hard NACK with the command is queued, for at
most one unit. If a frame is sealed, the queue gets the sealed bytes. -/
theorem reply_no_leak {p : Profile} (s : Session) (q : Txq (odTxqSlots p)) (r : Token) (rp : Reply)
    (env : ReplyEnv) (f g : Bytes) (hlen : f.length = g.length) (hcmd : f.take 2 = g.take 2)
    (htwo : 2 ≤ f.length) (horigin : rp.origin ≠ .lanTls)
    (hsec : odSessionSecurityEnabled env.sec = true) :
    ((odSessionSeal s (replySeal f env)).result ≠ .ok →
      ((odSessionSeal s (replySeal f env)).result = .cryptoError →
        (odSessionSeal s (replySeal g env)).result ≠ .ok) →
      (odReply s q r rp f env).status = (odReply s q r rp g env).status ∧
      (odReply s q r rp f env).q = (odReply s q r rp g env).q) ∧
    ((odSessionSeal s (replySeal f env)).result ≠ .ok →
      (odReply s q r rp f env).status ≠ .ok ∧
      ((odReply s q r rp f env).q.frames = q.frames ∨
        (odReply s q r rp f env).q.frames = q.frames ++ [{ rp := rp, data := [0xff, byteAt f 1, 0x00] }]) ∧
      ((odReply s q r rp f env).q.reserved = q.reserved ∨
        (odReply s q r rp f env).q.reserved = q.reserved - 1) ∧
      (r.gen = q.gen → (odReply s q r rp f env).token.remaining = r.remaining ∨
        (odReply s q r rp f env).token.remaining = r.remaining - 1)) ∧
    ((odSessionSeal s (replySeal f env)).result = .ok →
      (odReply s q r rp f env).q.frames =
        if (odReply s q r rp f env).status = .ok then
          q.frames ++ [{ rp := rp, data := (odSessionSeal s (replySeal f env)).out }]
        else q.frames) := by
  have hbyte : byteAt f 1 = byteAt g 1 := by
    have hget : ∀ l : Bytes, byteAt l 1 = byteAt (l.take 2) 1 := by
      intro l
      simp [byteAt, List.getD_eq_getElem?_getD]
    rw [hget f, hget g, hcmd]
  refine ⟨?_, ?_, ?_⟩
  · intro hf hcipher
    have hg : (odSessionSeal s (replySeal g env)).result ≠ .ok := by
      by_cases h : (odSessionSeal s (replySeal f env)).result = .cryptoError
      · exact hcipher h
      · exact seal_preflight_congr hlen hf h
    rw [odReply_refused htwo horigin hsec hf, odReply_refused (hlen ▸ htwo) horigin hsec hg,
      seal_refusal_congr hlen hf hg, hbyte]
    exact ⟨rfl, rfl⟩
  · intro hf
    have hwhy : sealRefusal (odSessionSeal s (replySeal f env)).result ≠ .ok := by
      cases (odSessionSeal s (replySeal f env)).result <;> simp [sealRefusal]
    rw [odReply_refused htwo horigin hsec hf]
    exact queueHardNack_frames _ q r rp _ hwhy env
  · intro hf
    rw [odReply_ok htwo horigin hsec hf]
    exact (odTxqCommit_frames q r rp _ env.live).1

/-- Two answers of a device that has no session, which differ in their last byte. -/
theorem reply_no_leak_unsealed :
    let env : ReplyEnv := { sec := some oneSecurity, nowMs := 0, hal := oneHal, live := true }
    let r : Token := { remaining := 1 }
    let q : Txq (odTxqSlots .standard) := { Txq.init _ with reserved := 1 }
    (odReply (odSessionInit 0) q r {} [0x00, 0x44, 0x01] env).q =
        (odReply (odSessionInit 0) q r {} [0x00, 0x44, 0x02] env).q ∧
      (odReply (odSessionInit 0) q r {} [0x00, 0x44, 0x01] env).q.frames =
        [{ rp := {}, data := [0xff, 0x44, 0x00] }] := by
  intro env r q
  have h := reply_no_leak (odSessionInit 0) q r {} env [0x00, 0x44, 0x01] [0x00, 0x44, 0x02] rfl rfl
    (by decide) (by decide) (by decide)
  exact ⟨(h.1 (by decide) (fun hc => absurd hc (by decide))).2, by decide⟩

end OpenDisplay
