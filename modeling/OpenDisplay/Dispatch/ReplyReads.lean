import OpenDisplay.Dispatch.Reply

/-! What a reply reads. The frame is a pointer and a length: the memory goes on behind
its end, and a call is described by what it does and by the indices that it reads. -/

namespace OpenDisplay

variable {slots : Nat} [NeZero slots]

/-- A frame as its caller passes it: the memory from its first byte on, and how much of
it is the caller's. -/
structure FramePtr where
  mem : Nat → UInt8
  len : Nat

def FramePtr.bytes (p : FramePtr) : Bytes := (List.range p.len).map p.mem

@[simp] theorem FramePtr.bytes_length (p : FramePtr) : p.bytes.length = p.len := by
  simp [FramePtr.bytes]

section Calls

/-- The bytes of an opcode, which the log names if there is one. -/
def logReads (len : Nat) : List Nat := if 2 ≤ len then [0, 1] else []

/-- A commit copies the frame that it accepts. -/
def queueResponseAt (s : Session) (q : Txq slots) (r : Token) (rp : Reply) (p : FramePtr) (env : ReplyEnv) :
    ReplyOutcome slots × List Nat :=
  let out := queueResponse s q r rp p.bytes env
  (out, (if out.status = .ok then List.range p.len else []) ++ logReads p.len)

/-- A frame that passes the preflight of the seal is read whole. -/
def sealReads (out : SealOutcome) (len : Nat) : List Nat :=
  if out.result.refused then [] else List.range len

/-- The report names the opcode of the frame, as far as it has one. -/
def reportReads (len : Nat) : List Nat := 0 :: if 1 < len then [1] else []

def odReplyAt (s : Session) (q : Txq slots) (r : Token) (rp : Reply) (p : FramePtr) (env : ReplyEnv) :
    ReplyOutcome slots × List Nat :=
  if p.len = 0 then ({ status := .invariant, session := s, q := q, token := r }, [])
  else if rp.origin = .lanTls then queueResponseAt s q r rp p env
  else if ¬ odSessionSecurityEnabled env.sec then queueResponseAt s q r rp p env
  else
    let out := odSessionSeal s (replySeal p.bytes env)
    let reads := sealReads out p.len ++ reportReads p.len
    match out.result with
    | .ok => (queueResponse out.session q r rp out.out env, reads)
    | .tooShort => ({ status := .invariant, session := out.session, q := q, token := r }, reads)
    | .tooLong | .noRoom => (queueHardNack out.session q r rp (p.mem 1) .tooLarge env, reads ++ [1])
    | .noSession => (queueHardNack out.session q r rp (p.mem 1) .sealFailed env, reads ++ [1])
    | .cryptoError => (queueHardNack out.session q r rp (p.mem 1) .sealFailed env, reads ++ [1])
    | .counterExhausted =>
      (queueHardNack (odSessionClear out.session) q r rp (p.mem 1) .sealFailed env, reads ++ [1])

end Calls

section Inside

variable {s : Session} {q : Txq slots} {r : Token} {rp : Reply} {p : FramePtr} {env : ReplyEnv}

theorem queueResponseAt_reads {i : Nat} (h : i ∈ (queueResponseAt s q r rp p env).2) : i < p.len := by
  unfold queueResponseAt logReads at h
  rcases List.mem_append.mp h with h | h
  · split_ifs at h with hok
    · exact List.mem_range.mp h
    · simp at h
  · split_ifs at h with htwo
    · simp at h
      omega
    · simp at h

theorem sealReads_reads {out : SealOutcome} {i : Nat} (h : i ∈ sealReads out p.len ++ reportReads p.len)
    (hlen : 1 ≤ p.len) : i < p.len := by
  unfold sealReads reportReads at h
  rcases List.mem_append.mp h with h | h
  · split_ifs at h with href
    · simp at h
    · exact List.mem_range.mp h
  · rcases List.mem_cons.mp h with rfl | h
    · exact hlen
    · split_ifs at h with hone
      · rw [List.mem_singleton.mp h]
        exact hone
      · simp at h

theorem odReplyAt_protected (hlen : 1 ≤ p.len) (horigin : rp.origin ≠ .lanTls)
    (hsec : odSessionSecurityEnabled env.sec = true) {result : SealResult}
    (hresult : (odSessionSeal s (replySeal p.bytes env)).result = result) :
    (odReplyAt s q r rp p env).2 =
      sealReads (odSessionSeal s (replySeal p.bytes env)) p.len ++ reportReads p.len ++
        if result = .ok ∨ result = .tooShort then [] else [1] := by
  unfold odReplyAt
  rw [if_neg (by omega), if_neg horigin, if_neg (by simp [hsec])]
  dsimp only
  rw [hresult]
  cases result <;> simp

/-- A frame of one byte is too short for a session that is alive, and finds none
otherwise. -/
theorem seal_one (hlen : p.len = 1) :
    odSessionSeal s (replySeal p.bytes env) =
      { session := (odSessionAlive s env.nowMs).2
        result := if (odSessionAlive s env.nowMs).1 then .tooShort else .noSession } := by
  rw [seal_eq, FramePtr.bytes_length, hlen]
  by_cases halive : (odSessionAlive s env.nowMs).1 = true
  · simp [halive]
  · simp [halive]

end Inside

section Whole

variable (s : Session) (q : Txq slots) (r : Token) (rp : Reply) (p : FramePtr) (env : ReplyEnv)

/-- The call reads its frame and nothing behind it. -/
def ReadsInside : Prop := ∀ i ∈ (odReplyAt s q r rp p env).2, i < p.len

/-- What the call queues is the same whatever the memory behind the frame holds. -/
def QueuesOwn : Prop :=
  ∀ p' : FramePtr, p'.len = p.len → p'.bytes = p.bytes →
    (odReplyAt s q r rp p' env).1.q.frames = (odReplyAt s q r rp p env).1.q.frames

/-- The reply is not to be sealed, or it has an opcode, or there is a session to refuse
it as too short. -/
def Answerable : Prop :=
  2 ≤ p.len ∨ rp.origin = .lanTls ∨ odSessionSecurityEnabled env.sec = false ∨
    (odSessionAlive s env.nowMs).1 = true

variable {s q r rp p env}

theorem odReplyAt_open (hlen : 1 ≤ p.len) (hopen : rp.origin = .lanTls ∨ odSessionSecurityEnabled env.sec = false) :
    odReplyAt s q r rp p env = queueResponseAt s q r rp p env := by
  unfold odReplyAt
  rw [if_neg (by omega)]
  rcases hopen with horigin | hsec
  · rw [if_pos horigin]
  · simp [hsec]

theorem odReplyAt_short (hlen : p.len = 1) (horigin : rp.origin ≠ .lanTls)
    (hsec : odSessionSecurityEnabled env.sec = true) (halive : (odSessionAlive s env.nowMs).1 = true) :
    (odReplyAt s q r rp p env).1.q = q := by
  unfold odReplyAt
  rw [if_neg (by omega), if_neg horigin, if_neg (by simp [hsec]), seal_one hlen]
  simp [halive]

theorem readsInside_iff (hlen : 1 ≤ p.len) :
    ReadsInside s q r rp p env ↔ Answerable s rp p env := by
  by_cases hopen : rp.origin = .lanTls ∨ odSessionSecurityEnabled env.sec = false
  · refine iff_of_true (fun i hi => ?_) (.inr (hopen.imp_right .inl))
    rw [odReplyAt_open hlen hopen] at hi
    exact queueResponseAt_reads hi
  obtain ⟨horigin, hsec⟩ := not_or.mp hopen
  have hsec : odSessionSecurityEnabled env.sec = true := by simpa using hsec
  by_cases htwo : 2 ≤ p.len
  · refine iff_of_true (fun i hi => ?_) (.inl htwo)
    rw [odReplyAt_protected hlen horigin hsec rfl] at hi
    rcases List.mem_append.mp hi with hi | hi
    · exact sealReads_reads hi hlen
    · split_ifs at hi with hquiet
      · simp at hi
      · rw [List.mem_singleton.mp hi]
        exact htwo
  · have hone : p.len = 1 := by omega
    have hresult : (odSessionSeal s (replySeal p.bytes env)).result =
        if (odSessionAlive s env.nowMs).1 then .tooShort else .noSession := by rw [seal_one hone]
    by_cases halive : (odSessionAlive s env.nowMs).1 = true
    · refine iff_of_true (fun i hi => ?_) (.inr (.inr (.inr halive)))
      rw [if_pos halive] at hresult
      rw [odReplyAt_protected hlen horigin hsec hresult] at hi
      simp only [or_true, if_true, List.append_nil] at hi
      exact sealReads_reads hi hlen
    · rw [if_neg halive] at hresult
      refine iff_of_false (fun h => ?_) ?_
      · have hread : 1 ∈ (odReplyAt s q r rp p env).2 := by
          rw [odReplyAt_protected hlen horigin hsec hresult]
          simp
        have := h 1 hread
        omega
      · rintro (h | h | h | h)
        · exact htwo h
        · exact horigin h
        · rw [hsec] at h
          exact absurd h (by decide)
        · exact halive h

end Whole

/-- A reply stays within its frame, and what it queues does not depend on the memory
behind a frame without an opcode, exactly if the reply is not to be sealed, or the frame
has an opcode, or the session is alive. -/
theorem reply_stays_inside (s : Session) (q : Txq slots) (r : Token) (rp : Reply) (p : FramePtr) (env : ReplyEnv)
    (hlen : 1 ≤ p.len) :
    ReadsInside s q r rp p env ∧ (p.len = 1 → QueuesOwn s q r rp p env) ↔ Answerable s rp p env := by
  refine ⟨fun h => (readsInside_iff hlen).mp h.1, fun h => ⟨(readsInside_iff hlen).mpr h, ?_⟩⟩
  intro hone p' hlen' hbytes
  by_cases hopen : rp.origin = .lanTls ∨ odSessionSecurityEnabled env.sec = false
  · rw [odReplyAt_open (by omega) hopen, odReplyAt_open hlen hopen]
    simp only [queueResponseAt, hbytes]
  · obtain ⟨horigin, hsec⟩ := not_or.mp hopen
    have hsec : odSessionSecurityEnabled env.sec = true := by simpa using hsec
    rcases h with h | h | h | halive
    · omega
    · exact absurd h horigin
    · rw [hsec] at h
      exact absurd h (by decide)
    · rw [odReplyAt_short hone horigin hsec halive, odReplyAt_short (hlen'.trans hone) horigin hsec halive]

section Bench

/-- A device with security on, whose links are live. -/
def securedEnv : ReplyEnv := { sec := some oneSecurity, nowMs := 0, hal := oneHal, live := true }

/-- An empty queue with one unit promised. -/
def promisedTxq : Txq (odTxqSlots .standard) := { Txq.init _ with reserved := 1 }

/-- A frame in a memory whose second byte is `b`. -/
def frameBefore (b : UInt8) (len : Nat) : FramePtr := { mem := fun i => if i = 1 then b else 0, len := len }

end Bench

theorem reply_stays_inside_opcode :
    ReadsInside (odSessionInit 0) promisedTxq { remaining := 1 } {} (frameBefore 0x44 2) securedEnv :=
  ((reply_stays_inside (odSessionInit 0) promisedTxq { remaining := 1 } {} (frameBefore 0x44 2) securedEnv
    (by decide)).mpr (.inl (by decide))).1

/-- A reply of one byte while there is no session: the hard NACK names the byte behind
the frame. -/
theorem one_byte_reply_reads_behind :
    ¬ ReadsInside (odSessionInit 0) promisedTxq { remaining := 1 } {} (frameBefore 0xaa 1) securedEnv ∧
      ¬ QueuesOwn (odSessionInit 0) promisedTxq { remaining := 1 } {} (frameBefore 0xaa 1) securedEnv ∧
      (odReplyAt (odSessionInit 0) promisedTxq { remaining := 1 } {} (frameBefore 0xaa 1) securedEnv).1.q.frames =
        [{ rp := {}, data := [0xff, 0xaa, 0x00] }] := by
  refine ⟨?_, ?_, by decide⟩
  · intro h
    exact absurd (h 1 (by decide)) (by decide)
  · intro h
    have hsame := h (frameBefore 0xbb 1) rfl rfl
    exact absurd hsame (by decide)

end OpenDisplay
