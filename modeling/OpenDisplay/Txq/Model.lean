import OpenDisplay.Wire
import OpenDisplay.Lib.Loop
import OpenDisplay.Lib.Ring

/-! The response queue: capacity is promised by tokens ahead of use, and finished
frames wait in a ring for the radio. The radio and the liveness of links answer as
they like, differently on every pass. -/

namespace OpenDisplay

open Rings Loops

def odTxFrameMax : Nat := 256
def odTxqValueMaxBle : Nat := 253

structure TxEntry where
  rp : Reply := {}
  data : Bytes := []
deriving DecidableEq

/-- The queue and its counters, for a ring of so many slots. -/
structure Txq (slots : Nat) where
  ring : Fin slots → TxEntry
  head : Fin slots
  tail : Fin slots
  reserved : UInt8
  gen : UInt8

structure Token where
  remaining : UInt8 := 0
  gen : UInt8 := 0
deriving DecidableEq

inductive RadioResult where
  | sent | retry | gone | error
deriving DecidableEq

/-- Whether the link was live, and what became of the frame if it was sent. -/
structure RadioAnswer where
  live : Bool
  rc : RadioResult

inductive TxEvent where
  | committed (e : TxEntry)
  | sent (e : TxEntry)
  | retried (e : TxEntry)
  | failed (e : TxEntry)
  | gone (rp : Reply)
  | reset
deriving DecidableEq

variable {slots : Nat} [NeZero slots]

def Txq.init (slots : Nat) [NeZero slots] : Txq slots :=
  { ring := fun _ => {}, head := 0, tail := 0, reserved := 0, gen := 0 }

def ringNext (i : Fin slots) : Fin slots := i + 1

def queued (q : Txq slots) : Nat := gap q.head q.tail

def freeSlots (q : Txq slots) : Nat := (slots - 1) - queued q

def odTxqReset (q : Txq slots) : Txq slots :=
  { ring := fun _ => {}, head := 0, tail := 0, reserved := 0, gen := q.gen + 1 }

def odTxqReserve (q : Txq slots) (count : UInt8) (r : Token) : TxqStatus × Txq slots × Token :=
  if count = 0 then (.invariant, q, r)
  else if freeSlots q ≤ q.reserved.toNat then (.full, q, { r with remaining := 0 })
  else if freeSlots q - q.reserved.toNat < count.toNat then (.full, q, { r with remaining := 0 })
  else (.ok, { q with reserved := q.reserved + count }, { remaining := count, gen := q.gen })

def odTxqRelease (q : Txq slots) (r : Token) : Txq slots × Token :=
  if r.remaining = 0 then (q, r)
  else
    (if r.gen = q.gen then { q with reserved := q.reserved - r.remaining } else q,
      { r with remaining := 0 })

def tooLarge (rp : Reply) (frame : Bytes) : Bool :=
  odTxFrameMax < frame.length || (rp.origin = .ble && odTxqValueMaxBle < frame.length)

def odTxqCommit (q : Txq slots) (r : Token) (rp : Reply) (frame : Bytes) (live : Bool) :
    TxqStatus × Txq slots × Token :=
  if frame = [] then (.invariant, q, r)
  else if r.remaining = 0 then (.invariant, q, r)
  else if r.gen ≠ q.gen then (.invariant, q, { r with remaining := 0 })
  else if tooLarge rp frame then (.tooLarge, q, r)
  else if ¬ live then
    (.gone, { q with reserved := q.reserved - 1 }, { r with remaining := r.remaining - 1 })
  else if freeSlots q = 0 then (.invariant, q, r)
  else
    (.ok,
      { q with
        ring := Function.update q.ring q.tail { rp := rp, data := frame }
        tail := ringNext q.tail, reserved := q.reserved - 1 },
      { r with remaining := r.remaining - 1 })

section Outcomes

variable (q : Txq slots) (r : Token)

omit [NeZero slots] in
theorem odTxqReserve_cases (count : UInt8) :
    odTxqReserve q count r = (.invariant, q, r) ∨
      odTxqReserve q count r = (.full, q, { r with remaining := 0 }) ∨
      q.reserved.toNat + count.toNat ≤ freeSlots q ∧
        odTxqReserve q count r =
          (.ok, { q with reserved := q.reserved + count }, { remaining := count, gen := q.gen }) := by
  unfold odTxqReserve
  split_ifs with hzero hnone hshort
  · exact .inl rfl
  · exact .inr (.inl rfl)
  · exact .inr (.inl rfl)
  · exact .inr (.inr ⟨by omega, rfl⟩)

theorem odTxqCommit_cases (rp : Reply) (frame : Bytes) (live : Bool) :
    (∃ status, status ≠ .ok ∧ odTxqCommit q r rp frame live = (status, q, r) ∧
        (status = .invariant → frame = [] ∨ r.remaining = 0 ∨ freeSlots q = 0)) ∨
      (r.gen ≠ q.gen ∧ odTxqCommit q r rp frame live = (.invariant, q, { r with remaining := 0 })) ∨
      (r.remaining ≠ 0 ∧ r.gen = q.gen ∧ odTxqCommit q r rp frame live =
        (.gone, { q with reserved := q.reserved - 1 }, { r with remaining := r.remaining - 1 })) ∨
      (r.remaining ≠ 0 ∧ r.gen = q.gen ∧ freeSlots q ≠ 0 ∧ odTxqCommit q r rp frame live =
        (.ok,
          { q with
            ring := Function.update q.ring q.tail { rp := rp, data := frame }
            tail := ringNext q.tail, reserved := q.reserved - 1 },
          { r with remaining := r.remaining - 1 })) := by
  unfold odTxqCommit
  by_cases hempty : frame = []
  · exact .inl ⟨.invariant, by decide, if_pos hempty, fun _ => .inl hempty⟩
  rw [if_neg hempty]
  by_cases hzero : r.remaining = 0
  · exact .inl ⟨.invariant, by decide, if_pos hzero, fun _ => .inr (.inl hzero)⟩
  rw [if_neg hzero]
  by_cases hgen : r.gen = q.gen
  swap
  · exact .inr (.inl ⟨hgen, if_pos hgen⟩)
  rw [if_neg (not_not_intro hgen)]
  by_cases hlarge : tooLarge rp frame = true
  · exact .inl ⟨.tooLarge, by decide, if_pos hlarge, fun h => by simp at h⟩
  rw [if_neg hlarge]
  by_cases hlive : live = true
  swap
  · exact .inr (.inr (.inl ⟨hzero, hgen, if_pos hlive⟩))
  rw [if_neg (not_not_intro hlive)]
  by_cases hfull : freeSlots q = 0
  · exact .inl ⟨.invariant, by decide, if_pos hfull, fun _ => .inr (.inr hfull)⟩
  · exact .inr (.inr (.inr ⟨hzero, hgen, hfull, if_neg hfull⟩))

end Outcomes

section DropTag

/-- The loop's state: the ring, where it reads and where it writes. -/
structure Compaction (slots : Nat) where
  ring : Fin slots → TxEntry
  read : Fin slots
  write : Fin slots

def dropTagBody (rp : Reply) (tail : Fin slots) (s : Compaction slots) :
    Iter (Compaction slots) (Compaction slots) :=
  if s.read = tail then .stop s
  else if (s.ring s.read).rp.origin = rp.origin ∧ (s.ring s.read).rp.tag = rp.tag then
    .next { s with read := ringNext s.read }
  else
    .next
      { ring := if s.write ≠ s.read then Function.update s.ring s.write (s.ring s.read) else s.ring
        read := ringNext s.read, write := ringNext s.write }

theorem dropTagBody_decreases (rp : Reply) (tail : Fin slots) (s t : Compaction slots)
    (h : dropTagBody rp tail s = .next t) : gap t.read tail < gap s.read tail := by
  unfold dropTagBody at h
  split_ifs at h with hend hmatch hmove <;> injection h with h <;> subst h <;>
    exact Nat.lt_of_lt_of_eq (Nat.lt_succ_self _) (gap_next_left hend).symm

def dropTag (q : Txq slots) (rp : Reply) : Txq slots :=
  let s := loop (dropTagBody rp q.tail) (fun s => gap s.read q.tail) (dropTagBody_decreases rp q.tail)
    { ring := q.ring, read := q.head, write := q.head }
  { q with ring := s.ring, tail := s.write }

/-- The frames that wait, oldest first. -/
def Txq.frames (q : Txq slots) : List TxEntry := contents q.ring q.head q.tail

theorem queued_eq_length (q : Txq slots) : queued q = q.frames.length := (contents_length _ _ _).symm

/-- Whether an entry belongs to a link. -/
def TxEntry.of (rp : Reply) (e : TxEntry) : Bool := odReplySame e.rp rp

theorem TxEntry.of_iff {rp : Reply} {e : TxEntry} :
    e.of rp = true ↔ e.rp.origin = rp.origin ∧ e.rp.tag = rp.tag := by
  simp [TxEntry.of, odReplySame]

theorem TxEntry.of_self (e : TxEntry) : e.of e.rp = true := TxEntry.of_iff.mpr ⟨rfl, rfl⟩

/-- From `s` on the loop keeps, behind what it has written, what it has yet to read
and does not belong to the link. -/
def Compacts (rp : Reply) (head tail : Fin slots) (s t : Compaction slots) : Prop :=
  gap head s.write ≤ gap head s.read → gap head s.read ≤ gap head tail →
    contents t.ring head t.write =
      contents s.ring head s.write ++ (contents s.ring s.read tail).filter fun e => !e.of rp

theorem dropTag_loop (rp : Reply) (head tail : Fin slots) (s : Compaction slots) :
    Compacts rp head tail s
      (loop (dropTagBody rp tail) (fun s => gap s.read tail) (dropTagBody_decreases rp tail) s) := by
  apply loop_rule
  · intro s t h _ _
    unfold dropTagBody at h
    split_ifs at h with hend
    injection h with h
    subst h
    simp [hend]
  · intro s t u h hu hwrite hread
    by_cases hend : s.read = tail
    · simp [dropTagBody, hend] at h
    have hleft : gap s.read tail = gap (s.read + 1) tail + 1 := gap_next_left hend
    have hlt := gap_lt head tail
    have hlt' := gap_lt s.read tail
    have hstep : gap head s.read + 1 ≤ gap head tail := by
      have := gap_add_gap head s.read tail
      omega
    have hnext : gap head (s.read + 1) = gap head s.read + 1 := gap_next_right (by omega)
    rw [contents_next_left hend]
    unfold dropTagBody at h
    rw [if_neg hend] at h
    by_cases hmatch : (s.ring s.read).rp.origin = rp.origin ∧ (s.ring s.read).rp.tag = rp.tag
    · rw [if_pos hmatch] at h
      injection h with h
      subst h
      rw [List.filter_cons_of_neg (by simp [TxEntry.of_iff.mpr hmatch])]
      exact hu (by simp only [ringNext]; omega) (by simp only [ringNext]; omega)
    · -- moving an entry onto itself changes nothing
      have hring : (if s.write ≠ s.read then Function.update s.ring s.write (s.ring s.read) else s.ring) =
          Function.update s.ring s.write (s.ring s.read) := by
        split_ifs with hne
        · rfl
        · rw [not_not.mp hne, Function.update_eq_self]
      rw [if_neg hmatch, hring] at h
      injection h with h
      subst h
      have hbehind : gap (s.read + 1) tail ≤ gap (s.read + 1) s.write := by
        have := gap_add_gap head (s.read + 1) s.write
        have := gap_add_gap head (s.read + 1) tail
        have := gap_lt (s.read + 1) tail
        omega
      have hwnext : gap head (s.write + 1) = gap head s.write + 1 := gap_next_right (by omega)
      have hu' := hu (by simp only [ringNext]; omega) (by simp only [ringNext]; omega)
      have hkept : ∀ l : List TxEntry, (s.ring s.read :: l).filter (fun e => !e.of rp) =
          s.ring s.read :: l.filter fun e => !e.of rp := by
        intro l
        have hof : (s.ring s.read).of rp = false := by simpa using mt TxEntry.of_iff.mp hmatch
        simp [hof]
      rw [hu', hkept]
      simp only [ringNext]
      rw [contents_push (by omega), contents_update_of_le hbehind, List.append_assoc]
      rfl

theorem dropTag_frames (q : Txq slots) (rp : Reply) :
    (dropTag q rp).frames = q.frames.filter fun e => !e.of rp := by
  have h := dropTag_loop rp q.head q.tail { ring := q.ring, read := q.head, write := q.head } le_rfl
    (by simp)
  rw [contents_self, List.nil_append] at h
  exact h

theorem frames_next {q : Txq slots} (h : q.head ≠ q.tail) :
    q.frames = q.ring q.head :: { q with head := ringNext q.head }.frames :=
  contents_next_left h

theorem dropTag_queued_lt {q : Txq slots} (h : q.head ≠ q.tail) :
    queued (dropTag q (q.ring q.head).rp) < queued q := by
  rw [queued_eq_length, queued_eq_length, dropTag_frames, frames_next h,
    List.filter_cons_of_neg (by simp [TxEntry.of_self])]
  exact Nat.lt_succ_of_le (List.length_filter_le _ _)

end DropTag

section Process

/-- The loop's state: the queue, what has happened, and how often it went round. -/
structure Drain (slots : Nat) where
  q : Txq slots
  log : List TxEvent
  pass : Nat := 0
  retired : Nat := 0

abbrev Radio := Nat → TxEntry → RadioAnswer

def Drain.drop (s : Drain slots) (rp : Reply) : Drain slots :=
  { s with q := dropTag s.q rp, log := s.log ++ [.gone rp], pass := s.pass + 1 }

def Drain.retire (s : Drain slots) (e : TxEvent) : Drain slots :=
  { q := { s.q with head := ringNext s.q.head }, log := s.log ++ [e], pass := s.pass + 1
    retired := s.retired + 1 }

def processBody (radio : Radio) (s : Drain slots) : Iter (Drain slots) (Drain slots) :=
  if s.q.head = s.q.tail then .stop s
  else
    let e := s.q.ring s.q.head
    if ¬ (radio s.pass e).live then .next (s.drop e.rp)
    else
      match (radio s.pass e).rc with
      | .retry => .stop { s with log := s.log ++ [.retried e] }
      | .gone => .next (s.drop e.rp)
      | .error => .next (s.retire (.failed e))
      | .sent => .next (s.retire (.sent e))

theorem processBody_cases (radio : Radio) (s : Drain slots) :
    (s.q.head = s.q.tail ∧ processBody radio s = .stop s) ∨
      s.q.head ≠ s.q.tail ∧
        (processBody radio s = .stop { s with log := s.log ++ [.retried (s.q.ring s.q.head)] } ∨
          processBody radio s = .next (s.drop (s.q.ring s.q.head).rp) ∨
          processBody radio s = .next (s.retire (.failed (s.q.ring s.q.head))) ∨
          processBody radio s = .next (s.retire (.sent (s.q.ring s.q.head)))) := by
  unfold processBody
  by_cases hempty : s.q.head = s.q.tail
  · exact .inl ⟨hempty, if_pos hempty⟩
  · refine .inr ⟨hempty, ?_⟩
    rw [if_neg hempty]
    dsimp only
    by_cases hlive : (radio s.pass (s.q.ring s.q.head)).live = true
    · rw [if_neg (not_not_intro hlive)]
      cases (radio s.pass (s.q.ring s.q.head)).rc
      · exact .inr (.inr (.inr rfl))
      · exact .inl rfl
      · exact .inr (.inl rfl)
      · exact .inr (.inr (.inl rfl))
    · rw [if_pos hlive]
      exact .inr (.inl rfl)

theorem retire_queued_lt {s : Drain slots} (e : TxEvent) (h : s.q.head ≠ s.q.tail) :
    queued (s.retire e).q < queued s.q := by
  have hnext : queued s.q = queued (s.retire e).q + 1 := gap_next_left h
  omega

theorem processBody_decreases (radio : Radio) (s t : Drain slots) (h : processBody radio s = .next t) :
    queued t.q < queued s.q := by
  rcases processBody_cases radio s with ⟨-, hb⟩ | ⟨hne, hb | hb | hb | hb⟩
  · simp [hb] at h
  · simp [hb] at h
  · obtain rfl := Iter.next.inj (hb.symm.trans h)
    exact dropTag_queued_lt hne
  · obtain rfl := Iter.next.inj (hb.symm.trans h)
    exact retire_queued_lt _ hne
  · obtain rfl := Iter.next.inj (hb.symm.trans h)
    exact retire_queued_lt _ hne

def odTxqProcess (radio : Radio) (q : Txq slots) (log : List TxEvent) : Drain slots :=
  loop (processBody radio) (fun s => queued s.q) (processBody_decreases radio) { q := q, log := log }

/-- Wrap-safe: the difference is read as a signed number. -/
def deadlineReached (nowMs deadlineMs : UInt32) : Bool := (nowMs - deadlineMs).toNat < 2 ^ 31

def odTxqFlush (radio : Radio) (q : Txq slots) (log : List TxEvent) (nowMs deadlineMs : UInt32) :
    TxqStatus × Drain slots :=
  if q.head = q.tail then (.ok, { q := q, log := log })
  else if deadlineReached nowMs deadlineMs then (.timeout, { q := q, log := log })
  else
    let s := odTxqProcess radio q log
    (if s.q.head = s.q.tail then .ok else .busy, s)

end Process

end OpenDisplay
