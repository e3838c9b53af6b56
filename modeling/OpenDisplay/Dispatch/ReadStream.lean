import Mathlib.Data.List.Induction
import OpenDisplay.Dispatch.Budget

/-! A configuration read, from its first chunk to its last. The reader is paced by the queue,
and any other failure ends it. -/

namespace OpenDisplay

section Chunk

variable {slots : Nat} [NeZero slots]

/-- What comes before the data of a chunk. -/
def chunkHeader (c : ConfigRead) : Bytes :=
  [respAck, respConfigRead, c.chunk.toUInt8, (c.chunk >>> 8).toUInt8] ++
    if c.chunk = 0 then [UInt8.ofNat c.blob.length, UInt8.ofNat (c.blob.length / 256)] else []

def chunkTake (c : ConfigRead) : Nat := min (c.blob.length - c.offset) (maxResponseDataSize - (chunkHeader c).length)

/-- The frame of the next chunk. -/
def chunkFrame (c : ConfigRead) : Bytes := chunkHeader c ++ (c.blob.drop c.offset).take (chunkTake c)

def ConfigRead.advance (c : ConfigRead) : ConfigRead :=
  { c with
    offset := c.offset + chunkTake c, chunk := c.chunk + 1
    active := if c.blob.length ≤ c.offset + chunkTake c then false else c.active }

theorem emitChunk_eq (c : ConfigRead) (env : ReplyEnv) (k : Desk slots) :
    emitChunk c env k =
      ((k.reply c.rp (chunkFrame c) env).1,
        if (k.reply c.rp (chunkFrame c) env).1 = .ok then c.advance else c, (k.reply c.rp (chunkFrame c) env).2) := by
  unfold emitChunk
  dsimp only
  rw [show [respAck, respConfigRead, c.chunk.toUInt8, (c.chunk >>> 8).toUInt8] ++
    (if c.chunk = 0 then [UInt8.ofNat c.blob.length, UInt8.ofNat (c.blob.length / 256)] else []) =
      chunkHeader c from rfl,
    show chunkHeader c ++ (c.blob.drop c.offset).take (min (c.blob.length - c.offset)
      (maxResponseDataSize - (chunkHeader c).length)) = chunkFrame c from rfl]
  rcases hreply : k.reply c.rp (chunkFrame c) env with ⟨status, k'⟩
  by_cases hok : status = .ok
  · subst hok
    rw [if_pos rfl]
    rfl
  · rw [if_neg hok]
    cases status with
    | ok => exact absurd rfl hok
    | _ => rfl

theorem odReply_queues {s : Session} {q : Txq slots} {r : Token} {rp : Reply} {frame : Bytes} {env : ReplyEnv}
    (h : (odReply s q r rp frame env).status = .ok) :
    ∃ wire, (odReply s q r rp frame env).q.frames = q.frames ++ [{ rp := rp, data := wire }] ∧
      (wire = frame ∨ wire = (odSessionSeal s (replySeal frame env)).out) := by
  have hqueue : ∀ s wire, (queueResponse s q r rp wire env).status = .ok →
      (queueResponse s q r rp wire env).q.frames = q.frames ++ [{ rp := rp, data := wire }] := by
    intro s wire hok
    have hframes := (odTxqCommit_frames q r rp wire env.live).1
    exact hframes.trans (if_pos hok)
  have hnack : ∀ s why, why ≠ .ok → (queueHardNack s q r rp (byteAt frame 1) why env).status ≠ .ok :=
    fun s why hwhy => (queueHardNack_frames s q r rp (byteAt frame 1) hwhy env).1
  revert h
  unfold odReply
  split_ifs
  · exact fun h => by simp at h
  · exact fun h => ⟨_, hqueue _ _ h, .inl rfl⟩
  · dsimp only
    split
    · exact fun h => ⟨_, hqueue _ _ h, .inr rfl⟩
    · exact fun h => by simp at h
    · exact fun h => absurd h (hnack _ _ (by decide))
    · exact fun h => absurd h (hnack _ _ (by decide))
    · exact fun h => absurd h (hnack _ _ (by decide))
    · exact fun h => absurd h (hnack _ _ (by decide))
    · exact fun h => absurd h (hnack _ _ (by decide))
  · exact fun h => ⟨_, hqueue _ _ h, .inl rfl⟩

end Chunk

section Stream

/-- A frame of the stream, by its place in it. -/
structure IsChunk (blob : Bytes) (i : Nat) (f : Bytes) : Prop where
  opcode : f.take 2 = [respAck, respConfigRead]
  number : (readLe16 (f.drop 2)).toNat = i
  total : i = 0 → (readLe16 (f.drop 4)).toNat = blob.length
  size : f.length ≤ maxResponseDataSize

/-- The data of the frames, the first of which has the longer header. -/
def readBack (frames : List Bytes) : Bytes := (frames.mapIdx fun i f => f.drop (if i = 0 then 6 else 4)).flatten

/-- The frames so far, and how much of the blob they carry. -/
structure StreamsTo (blob : Bytes) (frames : List Bytes) (offset : Nat) : Prop where
  chunks : ∀ i f, frames[i]? = some f → IsChunk blob i f
  data : readBack frames = blob.take offset
  count : frames.length ≤ offset
  within : offset ≤ blob.length

theorem readLe16_length {n : Nat} (h : n ≤ 65535) (rest : Bytes) :
    (readLe16 (UInt8.ofNat n :: UInt8.ofNat (n / 256) :: rest)).toNat = n := by
  have hn : (UInt16.ofNat n).toNat = n := by
    rw [UInt16.toNat_ofNat']
    exact Nat.mod_eq_of_lt (by omega)
  have hlow : UInt8.ofNat n = (UInt16.ofNat n).toUInt8 := by
    apply UInt8.toNat_inj.mp
    rw [UInt16.toNat_toUInt8, hn, UInt8.toNat_ofNat']
  have hhigh : UInt8.ofNat (n / 256) = (UInt16.ofNat n >>> 8).toUInt8 := by
    apply UInt8.toNat_inj.mp
    rw [UInt16.toNat_toUInt8, UInt16.toNat_shiftRight, hn, UInt8.toNat_ofNat']
    exact congrArg (· % 256) (Nat.shiftRight_eq_div_pow n 8).symm
  rw [hlow, hhigh, readLe16_le, hn]

theorem chunkHeader_length (c : ConfigRead) : (chunkHeader c).length = if c.chunk = 0 then 6 else 4 := by
  unfold chunkHeader
  split_ifs <;> rfl

theorem chunkTake_bounds {c : ConfigRead} (h : c.offset < c.blob.length) :
    0 < chunkTake c ∧ c.offset + chunkTake c ≤ c.blob.length ∧
      (chunkHeader c).length + chunkTake c ≤ maxResponseDataSize := by
  have hheader := chunkHeader_length c
  have hmax : maxResponseDataSize = 100 := rfl
  unfold chunkTake
  split_ifs at hheader <;> omega

theorem chunkFrame_isChunk {c : ConfigRead} {i : Nat} (hi : c.chunk.toNat = i) (h : c.offset < c.blob.length)
    (hlen : c.blob.length ≤ 65535) : IsChunk c.blob i (chunkFrame c) where
  opcode := rfl
  number := by
    rw [← hi]
    exact congrArg UInt16.toNat (readLe16_le c.chunk _)
  total hzero := by
    have hchunk : c.chunk = 0 := UInt16.toNat_inj.mp (hi.trans hzero)
    rw [chunkFrame, chunkHeader, if_pos hchunk]
    exact readLe16_length hlen _
  size := by
    have hbounds := (chunkTake_bounds h).2.2
    rw [chunkFrame, List.length_append, List.length_take]
    omega

theorem chunkFrame_data {c : ConfigRead} {i : Nat} (hi : c.chunk.toNat = i) :
    (chunkFrame c).drop (if i = 0 then 6 else 4) = (c.blob.drop c.offset).take (chunkTake c) := by
  have hheader := chunkHeader_length c
  have hsame : (if c.chunk = 0 then 6 else 4) = if i = 0 then 6 else 4 := by
    rw [← hi]
    exact if_congr ⟨fun h => by rw [h]; rfl, fun h => UInt16.toNat_inj.mp h⟩ rfl rfl
  rw [hsame] at hheader
  rw [← hheader, chunkFrame, List.drop_left]

theorem StreamsTo.next {c : ConfigRead} {frames : List Bytes} (h : StreamsTo c.blob frames c.offset)
    (hi : c.chunk.toNat = frames.length) (hmore : c.offset < c.blob.length) (hlen : c.blob.length ≤ 65535) :
    StreamsTo c.blob (frames ++ [chunkFrame c]) (c.offset + chunkTake c) ∧
      (c.chunk + 1).toNat = (frames ++ [chunkFrame c]).length := by
  obtain ⟨hpos, hwithin, -⟩ := chunkTake_bounds hmore
  have hcount := h.count
  refine ⟨⟨fun i f hf => ?_, ?_, ?_, hwithin⟩, ?_⟩
  · rw [List.getElem?_append] at hf
    by_cases hlt : i < frames.length
    · rw [if_pos hlt] at hf
      exact h.chunks i f hf
    · rw [if_neg hlt] at hf
      have hzero : i - frames.length = 0 := by
        by_contra hne
        rw [List.getElem?_singleton, if_neg hne] at hf
        cases hf
      rw [hzero] at hf
      obtain rfl := Option.some.inj hf
      exact chunkFrame_isChunk (by omega) hmore hlen
  · have hback := h.data
    unfold readBack at hback ⊢
    rw [List.mapIdx_concat, List.flatten_append, hback, List.flatten_singleton, chunkFrame_data hi, ← List.take_add]
  · rw [List.length_append, List.length_singleton]
    omega
  · rw [List.length_append, List.length_singleton, ← hi, UInt16.toNat_add]
    exact Nat.mod_eq_of_lt (by change _ + 1 < 65536; omega)

end Stream

section Reads

variable {slots : Nat} [NeZero slots]

/-- A start is paid for by the one unit that is reserved for the command. -/
structure ReadDesk (slots : Nat) where
  desk : Desk slots
  one : desk.token.remaining.toNat ≤ 1

/-- The reader's operations, on whatever session and queue they find. -/
inductive ReadOp (slots : Nat) where
  | start (rp : Reply) (blob : Bytes) (env : ReplyEnv) (k : ReadDesk slots)
  | pump (env : ReplyEnv) (core : Core slots)
  | cancel (q : Txq slots)

inductive ReadFate where
  | idle | running | done | cancelled | failed
deriving DecidableEq

/-- The last read: its blob, the chunks that were queued, and how it went. -/
structure ReadLog where
  blob : Bytes := []
  frames : List Bytes := []
  fate : ReadFate := .idle

def ReadLog.after (g : ReadLog) (status : TxqStatus) (frame : Bytes) (active : Bool) : ReadLog :=
  { g with
    frames := if status = .ok then g.frames ++ [frame] else g.frames
    fate := if active then .running else if status = .ok then .done else .failed }

def Core.reading (core : Core slots) (c : ConfigRead) : Core slots := { core with read := c }

/-- The reader as a read begins. -/
def ConfigRead.begun (rp : Reply) (blob : Bytes) (token : Token) : ConfigRead :=
  { rp := rp, blob := blob, active := true, res := token }

def readStep (w : ConfigRead × ReadLog) : ReadOp slots → ConfigRead × ReadLog
  | .start rp blob env k =>
    let (status, c, _) := odConfigReadStart rp blob env w.1 k.desk
    (c, if w.1.active ∨ blob = [] then w.2
      else ({ blob := blob } : ReadLog).after status (chunkFrame (.begun rp blob k.desk.token)) c.active)
  | .pump env core =>
    let (status, core) := odConfigReadPump env (core.reading w.1)
    (core.read, if w.1.active then w.2.after status (chunkFrame w.1) core.read.active else w.2)
  | .cancel q => ((odConfigReadCancel w.1 q).1, if w.1.active then { w.2 with fate := .cancelled } else w.2)

def readRun (ops : List (ReadOp slots)) : ConfigRead × ReadLog := ops.foldl readStep ({}, {})

theorem odTxqCommit_ne_full (q : Txq slots) (r : Token) (rp : Reply) (frame : Bytes) (live : Bool) :
    (odTxqCommit q r rp frame live).1 ≠ .full := by
  unfold odTxqCommit
  split_ifs <;> simp

theorem Desk.reply_ne_full (k : Desk slots) (rp : Reply) (frame : Bytes) (env : ReplyEnv) :
    (k.reply rp frame env).1 ≠ .full := by
  have hqueue : ∀ s wire, (queueResponse s k.q k.token rp wire env).status ≠ .full :=
    fun s wire => odTxqCommit_ne_full k.q k.token rp wire env.live
  have hnack : ∀ s why, why ≠ .full → (queueHardNack s k.q k.token rp (byteAt frame 1) why env).status ≠ .full := by
    intro s why hwhy
    unfold queueHardNack
    dsimp only
    split_ifs
    · exact hwhy
    · exact odTxqCommit_ne_full k.q k.token rp _ env.live
  unfold Desk.reply odReply
  dsimp only
  split_ifs
  · simp
  · exact hqueue _ _
  · split
    · exact hqueue _ _
    · simp
    · exact hnack _ _ (by decide)
    · exact hnack _ _ (by decide)
    · exact hnack _ _ (by decide)
    · exact hnack _ _ (by decide)
    · exact hnack _ _ (by decide)
  · exact hqueue _ _

theorem odConfigReadStart_eq (rp : Reply) {blob : Bytes} (env : ReplyEnv) {c : ConfigRead} (k : Desk slots)
    (hidle : c.active ≠ true) (hblob : blob ≠ []) :
    let b := ConfigRead.begun rp blob k.token
    let out := k.reply rp (chunkFrame b) env
    (odConfigReadStart rp blob env c k).1 = out.1 ∧
      (odConfigReadStart rp blob env c k).2.1 =
        if out.1 = .ok then { b.advance with res := out.2.token }
        else { b with res := out.2.release.token, active := false } := by
  intro b out
  unfold odConfigReadStart
  rw [if_neg hidle, if_neg hblob,
    show ({ rp := rp, blob := blob, active := true, res := k.token } : ConfigRead) = b from rfl,
    emitChunk_eq, show k.reply b.rp (chunkFrame b) env = out from rfl]
  by_cases hok : out.1 = .ok
  · rw [hok, if_pos rfl, if_pos rfl]
    exact ⟨rfl, rfl⟩
  · rw [if_neg hok, if_neg hok]
    clear_value out
    rcases out with ⟨status, k'⟩
    cases status with
    | ok => exact absurd rfl hok
    | _ => exact ⟨rfl, rfl⟩

/-- Without room a pass does nothing; else the chunk is queued, or the read is over. No unit is kept. -/
theorem odConfigReadPump_cases (env : ReplyEnv) (core : Core slots) (hactive : core.read.active = true)
    (hres : core.read.res.remaining = 0) :
    odConfigReadPump env core = (.full, core) ∨
      ∃ status session q, q.reserved = core.q.reserved ∧
        (status = .ok ∧ odConfigReadPump env core =
            (.ok, { core with read := core.read.advance, session := session, q := q }) ∨
          status ≠ .ok ∧ status ≠ .full ∧ odConfigReadPump env core =
            (status, { core with
              read := { core.read with active := false, blob := [] }, session := session, q := q })) := by
  unfold odConfigReadPump
  rw [if_neg (not_not.mpr hactive)]
  rcases odTxqReserve_cases core.q {} 1 with heq | heq | ⟨-, heq⟩
  · rw [odTxqReserve, if_neg (by decide)] at heq
    split_ifs at heq <;> simp at heq
  · rw [heq]
    exact .inl rfl
  · rw [heq]
    dsimp only
    have hbal := (Intact.start core.session core.q 1).toBalanced
    generalize ({ session := core.session, q := { core.q with reserved := core.q.reserved + 1 }
                  token := { remaining := 1, gen := core.q.gen } } : Desk slots) = k at hbal
    have hkept := ((balanced_rule _).reply hbal core.read.rp (chunkFrame core.read) env).release.1
    have hfull := k.reply_ne_full core.read.rp (chunkFrame core.read) env
    rw [emitChunk_eq]
    dsimp only
    generalize k.reply core.read.rp (chunkFrame core.read) env = out at hkept hfull
    refine .inr ⟨out.1, out.2.release.session, out.2.release.q, hkept, ?_⟩
    by_cases hok : out.1 = .ok
    · refine .inl ⟨hok, ?_⟩
      rw [if_neg (fun h => h.1 hok), if_pos hok, hok]
    · refine .inr ⟨hok, hfull, ?_⟩
      rw [if_pos ⟨hok, hfull⟩, if_neg hok, odConfigReadCancel, if_neg (not_not.mpr hactive), odTxqRelease, if_pos hres]

/-- The log tells what the reader has queued, and where the reader stands in the blob. -/
structure ReadSound (w : ConfigRead × ReadLog) : Prop where
  running : w.1.active = true ↔ w.2.fate = .running
  res : w.1.res.remaining = 0
  some : w.2.fate ≠ .idle → w.2.blob ≠ []
  stands : w.1.active = true → w.1.blob = w.2.blob ∧ w.1.offset < w.1.blob.length
  stream : w.2.blob.length ≤ 65535 → ∃ offset, StreamsTo w.2.blob w.2.frames offset ∧
    (w.1.active = true → w.1.offset = offset ∧ w.1.chunk.toNat = w.2.frames.length) ∧
    (w.2.fate ≠ .idle → (w.2.fate = .done ↔ offset = w.2.blob.length))

section Steps

variable {c : ConfigRead} {g : ReadLog}

/-- A reader before a chunk, with the chunks that are queued. -/
structure Poised (c : ConfigRead) (g : ReadLog) : Prop where
  active : c.active = true
  blob : c.blob = g.blob
  more : c.offset < c.blob.length
  stream : g.blob.length ≤ 65535 → StreamsTo g.blob g.frames c.offset ∧ c.chunk.toNat = g.frames.length

theorem ReadSound.poised {w : ConfigRead × ReadLog} (h : ReadSound w) (hactive : w.1.active = true) :
    Poised w.1 w.2 := by
  obtain ⟨hblob, hmore⟩ := h.stands hactive
  refine ⟨hactive, hblob, hmore, fun hlen => ?_⟩
  obtain ⟨offset, hstream, hat, -⟩ := h.stream hlen
  obtain ⟨rfl, hchunk⟩ := hat hactive
  exact ⟨hstream, hchunk⟩

theorem Poised.advance (h : Poised c g) {res : Token} (hres : res.remaining = 0) :
    ReadSound ({ c.advance with res := res }, g.after .ok (chunkFrame c) c.advance.active) := by
  obtain ⟨hpos, hwithin, -⟩ := chunkTake_bounds h.more
  have hblob : g.blob ≠ [] := by
    rw [← h.blob]
    exact List.ne_nil_of_length_pos (by have := h.more; omega)
  have hstream : g.blob.length ≤ 65535 →
      StreamsTo g.blob (g.frames ++ [chunkFrame c]) (c.offset + chunkTake c) ∧
        (c.chunk + 1).toNat = (g.frames ++ [chunkFrame c]).length := by
    intro hlen
    obtain ⟨hs, hc⟩ := h.stream hlen
    rw [← h.blob] at hs hlen ⊢
    exact hs.next hc h.more hlen
  by_cases hlast : c.blob.length ≤ c.offset + chunkTake c
  · have hover : c.advance.active = false := if_pos hlast
    rw [hover]
    refine ⟨⟨fun hc => absurd (hover.symm.trans hc) (by decide), nofun⟩, hres, fun _ => hblob,
      fun hc => absurd (hover.symm.trans hc) (by decide), fun hlen => ?_⟩
    refine ⟨c.offset + chunkTake c, (hstream hlen).1, fun hc => absurd (hover.symm.trans hc) (by decide), fun _ => ?_⟩
    refine ⟨fun _ => ?_, fun _ => rfl⟩
    show c.offset + chunkTake c = g.blob.length
    rw [← h.blob]
    omega
  · have hon : c.advance.active = true := (if_neg hlast).trans h.active
    rw [hon]
    refine ⟨⟨fun _ => rfl, fun _ => hon⟩, hres, fun _ => hblob, fun _ => ⟨h.blob, by
      show c.offset + chunkTake c < c.blob.length
      omega⟩, fun hlen => ?_⟩
    refine ⟨c.offset + chunkTake c, (hstream hlen).1, fun _ => ⟨rfl, (hstream hlen).2⟩, fun _ => ⟨nofun, fun heq => ?_⟩⟩
    change c.offset + chunkTake c = g.blob.length at heq
    rw [← h.blob] at heq
    exact absurd heq.ge hlast

/-- A read that is broken off has not carried the whole blob. -/
theorem Poised.stop (h : Poised c g) {c' : ConfigRead} {fate : ReadFate} (hc : c'.active = false)
    (hres : c'.res.remaining = 0) (hfate : fate = .cancelled ∨ fate = .failed) :
    ReadSound (c', { g with fate := fate }) := by
  have hidle : ¬ c'.active = true := by
    rw [hc]
    decide
  have hother : fate ≠ .running ∧ fate ≠ .done := by
    rcases hfate with rfl | rfl <;> decide
  refine ⟨⟨fun ha => absurd ha hidle, fun hf => absurd hf hother.1⟩, hres, fun _ => ?_, fun ha => absurd ha hidle,
    fun hlen => ?_⟩
  · rw [← h.blob]
    exact List.ne_nil_of_length_pos (by have := h.more; omega)
  · refine ⟨c.offset, (h.stream hlen).1, fun ha => absurd ha hidle, fun _ => ?_⟩
    refine ⟨fun hf => absurd hf hother.2, fun heq => ?_⟩
    have hmore := h.more
    rw [h.blob] at hmore
    exact absurd heq (Nat.ne_of_lt hmore)

theorem ConfigRead.begun_poised (rp : Reply) {blob : Bytes} (hblob : blob ≠ []) (token : Token) :
    Poised (.begun rp blob token) { blob := blob } where
  active := rfl
  blob := rfl
  more := List.length_pos_iff.mpr hblob
  stream _ := ⟨⟨nofun, rfl, Nat.le_refl _, Nat.zero_le _⟩, rfl⟩

end Steps

theorem ReadDesk.spent (k : ReadDesk slots) {rp : Reply} {frame : Bytes} {env : ReplyEnv}
    (h : (k.desk.reply rp frame env).1 = .ok) : (k.desk.reply rp frame env).2.token.remaining = 0 := by
  obtain ⟨hne, hrem⟩ := Desk.reply_spends h
  have hone := k.one
  have hpred := remaining_pred hne
  rw [hrem]
  exact UInt8.toNat_inj.mp (by change _ = 0; omega)

theorem ReadSound.still {w : ConfigRead × ReadLog} (h : ReadSound w) (hidle : w.1.active ≠ true) {c : ConfigRead}
    (hc : c.active ≠ true) (hres : c.res.remaining = 0) : ReadSound (c, w.2) where
  running := ⟨fun ha => absurd ha hc, fun hf => absurd (h.running.mpr hf) hidle⟩
  res := hres
  some := h.some
  stands ha := absurd ha hc
  stream hlen := by
    obtain ⟨offset, hstream, -, hdone⟩ := h.stream hlen
    exact ⟨offset, hstream, fun ha => absurd ha hc, hdone⟩

theorem ReadSound.start {w : ConfigRead × ReadLog} (h : ReadSound w) (rp : Reply) (blob : Bytes) (env : ReplyEnv)
    (k : ReadDesk slots) : ReadSound (readStep w (.start rp blob env k)) := by
  unfold readStep
  dsimp only
  by_cases hactive : w.1.active = true
  · rw [if_pos (.inl hactive), odConfigReadStart, if_pos hactive]
    exact h
  by_cases hblob : blob = []
  · rw [if_pos (.inr hblob), odConfigReadStart, if_neg hactive, if_pos hblob]
    exact h.still hactive Bool.false_ne_true rfl
  · rw [if_neg (fun hor => hor.elim hactive hblob)]
    obtain ⟨hstatus, hread⟩ := odConfigReadStart_eq rp env k.desk hactive hblob
    rw [hstatus, hread]
    have hpoised := ConfigRead.begun_poised rp hblob k.desk.token
    by_cases hok : (k.desk.reply rp (chunkFrame (.begun rp blob k.desk.token)) env).1 = .ok
    · rw [if_pos hok, hok]
      exact hpoised.advance (k.spent hok)
    · rw [if_neg hok, ReadLog.after, if_neg hok, if_neg Bool.false_ne_true, if_neg hok]
      exact hpoised.stop rfl (odTxqRelease_remaining _ _) (.inr rfl)

theorem ReadSound.pump {w : ConfigRead × ReadLog} (h : ReadSound w) (env : ReplyEnv) (core : Core slots) :
    ReadSound (readStep w (.pump env core)) := by
  unfold readStep
  dsimp only
  by_cases hactive : w.1.active = true
  swap
  · rw [if_neg hactive, odConfigReadPump, if_pos (show ¬ (core.reading w.1).read.active = true from hactive)]
    exact h
  rw [if_pos hactive]
  rcases odConfigReadPump_cases env (core.reading w.1) hactive h.res with
    heq | ⟨status, session, q, -, ⟨-, heq⟩ | ⟨hbad, hfull, heq⟩⟩
  · -- the queue is full: the log stays as it is
    rw [heq]
    show ReadSound (w.1, w.2.after .full (chunkFrame w.1) w.1.active)
    rw [ReadLog.after, if_neg (by decide), if_pos hactive, ← h.running.mp hactive]
    exact h
  · rw [heq]
    exact (h.poised hactive).advance h.res
  · rw [heq]
    show ReadSound ({ w.1 with active := false, blob := [] }, w.2.after status (chunkFrame w.1) false)
    rw [ReadLog.after, if_neg hbad, if_neg Bool.false_ne_true, if_neg hbad]
    exact (h.poised hactive).stop rfl h.res (.inr rfl)

theorem ReadSound.cancel {w : ConfigRead × ReadLog} (h : ReadSound w) (q : Txq slots) :
    ReadSound (readStep w (.cancel q)) := by
  unfold readStep
  dsimp only
  by_cases hactive : w.1.active = true
  · rw [if_pos hactive, odConfigReadCancel, if_neg (not_not.mpr hactive), odTxqRelease, if_pos h.res]
    exact (h.poised hactive).stop rfl h.res (.inl rfl)
  · rw [if_neg hactive, odConfigReadCancel, if_pos hactive]
    exact h

theorem ReadSound.step {w : ConfigRead × ReadLog} (h : ReadSound w) (o : ReadOp slots) : ReadSound (readStep w o) := by
  cases o with
  | start rp blob env k => exact h.start rp blob env k
  | pump env core => exact h.pump env core
  | cancel q => exact h.cancel q

theorem readRun_sound (ops : List (ReadOp slots)) : ReadSound (readRun ops) := by
  induction ops using List.reverseRecOn with
  | nil =>
    exact ⟨⟨nofun, nofun⟩, rfl, fun h => absurd rfl h, nofun, fun _ =>
      ⟨0, ⟨nofun, rfl, Nat.le_refl _, Nat.le_refl _⟩, nofun, fun h => absurd rfl h⟩⟩
  | append_singleton ops o ih =>
    rw [readRun, List.foldl_append]
    exact ih.step o

theorem odConfigReadStart_units {rp : Reply} {blob : Bytes} {env : ReplyEnv} {c : ConfigRead} (k : ReadDesk slots)
    (hgen : k.desk.token.gen = k.desk.q.gen) (hidle : c.active ≠ true) (hblob : blob ≠ []) :
    (odConfigReadStart rp blob env c k.desk).2.2.q.reserved = k.desk.q.reserved - k.desk.token.remaining := by
  have hbal : Balanced { base := k.desk.q.reserved - k.desk.token.remaining, gen := k.desk.q.gen, cap := 1 } k.desk :=
    ⟨hgen, rfl, (UInt8.sub_add_cancel _ _).symm, k.one⟩
  have hout := (hbal.readStart rfl rp blob env c).1.reserved
  have hgiven : (odConfigReadStart rp blob env c k.desk).2.2.token.remaining = 0 := by
    unfold odConfigReadStart
    rw [if_neg hidle, if_neg hblob]
    dsimp only
    split <;> rfl
  rw [hgiven, UInt8.add_zero] at hout
  exact hout

/-- The chunks that a read has queued are the blob from its start, in order and in size, and the whole of it when the
read is done. Without room nothing happens, another failure is the end, and the reader holds no unit. -/
theorem odConfigRead_integrity (ops : List (ReadOp slots)) :
    let w := readRun ops
    (w.2.fate ≠ .idle → w.2.blob ≠ [] ∧ (w.2.blob.length ≤ 65535 →
      (∀ i f, w.2.frames[i]? = some f → IsChunk w.2.blob i f) ∧ readBack w.2.frames <+: w.2.blob ∧
      (readBack w.2.frames = w.2.blob ↔ w.2.fate = .done))) ∧
    (w.1.active = true ↔ w.2.fate = .running) ∧
    (∀ (c : ConfigRead) (env : ReplyEnv) (k : Desk slots), (emitChunk c env k).1 = .ok →
      ∃ wire, (emitChunk c env k).2.2.q.frames = k.q.frames ++ [{ rp := c.rp, data := wire }] ∧
        (wire = chunkFrame c ∨ wire = (odSessionSeal k.session (replySeal (chunkFrame c) env)).out)) ∧
    (∀ (env : ReplyEnv) (core : Core slots), let out := odConfigReadPump env (core.reading w.1)
      (out.1 = .full → out.2 = core.reading w.1) ∧
      (out.1 ≠ .ok → out.1 ≠ .full → out.2.read.active = false) ∧ out.2.q.reserved = core.q.reserved) ∧
    (∀ (rp : Reply) (blob : Bytes) (env : ReplyEnv) (k : ReadDesk slots), w.1.active ≠ true →
      let out := odConfigReadStart rp blob env w.1 k.desk
      (out.1 ≠ .ok → out.2.1.active = false) ∧ out.2.1.res.remaining = 0 ∧
      (k.desk.token.gen = k.desk.q.gen → blob ≠ [] →
        out.2.2.q.reserved = k.desk.q.reserved - k.desk.token.remaining)) ∧
    w.1.res.remaining = 0 := by
  have h := readRun_sound ops
  refine ⟨fun hread => ⟨h.some hread, fun hlen => ?_⟩, h.running, fun c env k hok => ?_, fun env core => ?_,
    fun rp blob env k hidle => ?_, h.res⟩
  · obtain ⟨offset, hstream, -, hdone⟩ := h.stream hlen
    refine ⟨hstream.chunks, ?_, ?_⟩
    · rw [hstream.data]
      exact List.take_prefix _ _
    · rw [hstream.data, hdone hread, List.take_eq_self_iff]
      exact ⟨fun hle => Nat.le_antisymm hstream.within hle, fun heq => heq.ge⟩
  · rw [emitChunk_eq] at hok ⊢
    exact odReply_queues hok
  · intro out
    by_cases hactive : (readRun ops).1.active = true
    · rcases odConfigReadPump_cases env (core.reading (readRun ops).1) hactive h.res with
        heq | ⟨status, session, q, hkept, ⟨-, heq⟩ | ⟨hbad, hfull, heq⟩⟩
      · rw [show out = _ from heq]
        exact ⟨fun _ => rfl, fun _ hne => absurd rfl hne, rfl⟩
      · rw [show out = _ from heq]
        exact ⟨nofun, fun hne => absurd rfl hne, hkept⟩
      · rw [show out = _ from heq]
        exact ⟨fun hf => absurd hf hfull, fun _ _ => rfl, hkept⟩
    · have heq : out = (.ok, core.reading (readRun ops).1) := if_pos hactive
      rw [heq]
      exact ⟨nofun, fun hne => absurd rfl hne, rfl⟩
  · intro out
    refine ⟨?_, (h.start rp blob env k).res, fun hgen hblob => odConfigReadStart_units k hgen hidle hblob⟩
    intro hbad
    by_cases hblob : blob = []
    · rw [show out = odConfigReadStart rp blob env (readRun ops).1 k.desk from rfl, odConfigReadStart, if_neg hidle,
        if_pos hblob]
    · obtain ⟨hstatus, hread⟩ := odConfigReadStart_eq rp env k.desk hidle hblob
      rw [show out.2.1 = _ from hread, if_neg (fun hok => hbad (hstatus.trans hok))]

/-- A blob of a hundred bytes, for which one pass is needed after the start. -/
def twoChunks : List (ReadOp (odTxqSlots .standard)) :=
  let env : ReplyEnv := { sec := none, nowMs := 0, hal := oneHal, live := true }
  let k : ReadDesk (odTxqSlots .standard) :=
    { desk := { session := odSessionInit 0, q := { Txq.init _ with reserved := 1 }, token := { remaining := 1 } }
      one := Nat.le_refl _ }
  [.start {} (List.replicate 100 7) env k, .pump env (Core.boot _ 0 0)]

theorem odConfigRead_integrity_two :
    (readRun twoChunks).2.blob.length = 100 ∧ readBack (readRun twoChunks).2.frames = (readRun twoChunks).2.blob ∧
      (readRun twoChunks).2.frames.length = 2 := by
  have hlen : (readRun twoChunks).2.blob.length = 100 := by decide +kernel
  have hdone : (readRun twoChunks).2.fate = .done := by decide +kernel
  have h := ((odConfigRead_integrity twoChunks).1 (by rw [hdone]; decide)).2 (by rw [hlen]; decide)
  exact ⟨hlen, h.2.2.mpr hdone, by decide +kernel⟩

end Reads

end OpenDisplay
