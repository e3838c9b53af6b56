import OpenDisplay.Txq.Capacity

/-! The order of replies. A ledger of the committed frames, kept from the events
alone, says what became of each; the ring holds exactly the frames that the ledger
still has queued. -/

namespace OpenDisplay

open Rings Loops

section Ledger

/-- What became of a committed frame. -/
inductive Lot where
  | queued | sent | failed | dropped
deriving DecidableEq

abbrev TxLedger := List (TxEntry × Lot)

/-- The first frame that is queued leaves the queue. -/
def settleFirst (lot : Lot) : TxLedger → TxLedger
  | [] => []
  | (e, .queued) :: l => (e, lot) :: l
  | x :: l => x :: settleFirst lot l

/-- The frames that are queued for the link are dropped. -/
def dropQueued (rp : Reply) (l : TxLedger) : TxLedger :=
  l.map fun x => if x.2 = .queued ∧ x.1.of rp then (x.1, .dropped) else x

def ledgerStep (l : TxLedger) : TxEvent → TxLedger
  | .committed e => l ++ [(e, .queued)]
  | .sent _ => settleFirst .sent l
  | .failed _ => settleFirst .failed l
  | .retried _ => l
  | .gone rp => dropQueued rp l
  | .reset => []

def ledger (log : List TxEvent) : TxLedger := log.foldl ledgerStep []

/-- The frames of one lot, in the order in which they were committed. -/
def TxLedger.lot (l : TxLedger) (lot : Lot) : List TxEntry := (l.filter fun x => x.2 = lot).map Prod.fst

/-- The events since the last reset. -/
def sinceReset (log : List TxEvent) : List TxEvent :=
  log.foldl (fun acc e => if e = .reset then [] else acc ++ [e]) []

def TxEvent.asCommitted : TxEvent → Option TxEntry
  | .committed e => some e
  | _ => none

def TxEvent.asSent : TxEvent → Option TxEntry
  | .sent e => some e
  | _ => none

def TxEvent.asFailed : TxEvent → Option TxEntry
  | .failed e => some e
  | _ => none

variable {l : TxLedger} {e : TxEntry} {rest : List TxEntry} {log : List TxEvent}

theorem ledger_append (log : List TxEvent) (ev : TxEvent) : ledger (log ++ [ev]) = ledgerStep (ledger log) ev := by
  simp [ledger]

theorem sinceReset_append (log : List TxEvent) (ev : TxEvent) (h : ev ≠ .reset) :
    sinceReset (log ++ [ev]) = sinceReset log ++ [ev] := by
  simp [sinceReset, h]

/-- A frame after a queued one is queued or dropped. -/
def TxLedger.Ordered (l : TxLedger) : Prop :=
  l.Pairwise fun a b => a.2 = .queued → b.2 = .queued ∨ b.2 = .dropped

theorem lot_append (l l' : TxLedger) (lot : Lot) : TxLedger.lot (l ++ l') lot = l.lot lot ++ TxLedger.lot l' lot := by
  simp [TxLedger.lot]

theorem lot_cons (x : TxEntry × Lot) (l : TxLedger) (lot : Lot) :
    TxLedger.lot (x :: l) lot = if x.2 = lot then x.1 :: l.lot lot else l.lot lot := by
  by_cases h : x.2 = lot <;> simp [TxLedger.lot, h]

theorem lot_eq_nil {lot : Lot} (h : ∀ x ∈ l, x.2 ≠ lot) : l.lot lot = [] := by
  rw [TxLedger.lot, List.filter_eq_nil_iff.mpr (by simpa using h), List.map_nil]

theorem settleFirst_split (h : l.lot .queued = e :: rest) :
    ∃ pre post : TxLedger, l = pre ++ (e, .queued) :: post ∧ (∀ x ∈ pre, x.2 ≠ .queued) ∧
      ∀ lot, settleFirst lot l = pre ++ (e, lot) :: post := by
  induction l with
  | nil => simp [TxLedger.lot] at h
  | cons x l ih =>
    obtain ⟨e', lot'⟩ := x
    by_cases hq : lot' = .queued
    · subst hq
      rw [lot_cons, if_pos rfl] at h
      obtain ⟨rfl, -⟩ := List.cons.inj h
      exact ⟨[], l, rfl, by simp, fun lot => rfl⟩
    · rw [lot_cons, if_neg hq] at h
      obtain ⟨pre, post, rfl, hpre, hsettle⟩ := ih h
      refine ⟨(e', lot') :: pre, post, rfl, ?_, fun lot => ?_⟩
      · intro x hx
        rcases List.mem_cons.mp hx with rfl | hx
        · exact hq
        · exact hpre x hx
      · have hskip : settleFirst lot ((e', lot') :: (pre ++ (e, .queued) :: post)) =
            (e', lot') :: settleFirst lot (pre ++ (e, .queued) :: post) := by
          cases lot' with
          | queued => exact absurd rfl hq
          | sent => rfl
          | failed => rfl
          | dropped => rfl
        exact hskip.trans (by rw [hsettle, List.cons_append])

/-- The ledger agrees with the queue and with the events since the last reset. -/
structure Agrees (frames : List TxEntry) (log : List TxEvent) : Prop where
  ordered : (ledger log).Ordered
  queued : (ledger log).lot .queued = frames
  committed : (ledger log).map Prod.fst = (sinceReset log).filterMap TxEvent.asCommitted
  sent : (ledger log).lot .sent = (sinceReset log).filterMap TxEvent.asSent
  failed : (ledger log).lot .failed = (sinceReset log).filterMap TxEvent.asFailed

theorem Agrees.empty : Agrees [] [] := ⟨.nil, rfl, rfl, rfl, rfl⟩

theorem Agrees.commit (h : Agrees rest log) (e : TxEntry) : Agrees (rest ++ [e]) (log ++ [.committed e]) := by
  have hledger : ledger (log ++ [.committed e]) = ledger log ++ [(e, .queued)] := ledger_append log _
  have hsince := sinceReset_append log (.committed e) (by simp)
  constructor
  · rw [hledger, TxLedger.Ordered, List.pairwise_append]
    refine ⟨h.ordered, by simp, ?_⟩
    intro a _ b hb _
    rw [List.mem_singleton.mp hb]
    exact .inl rfl
  · rw [hledger, lot_append, h.queued]
    rfl
  · rw [hledger, hsince, List.map_append, h.committed, List.filterMap_append]
    rfl
  · rw [hledger, hsince, lot_append, h.sent, List.filterMap_append]
    rfl
  · rw [hledger, hsince, lot_append, h.failed, List.filterMap_append]
    rfl

theorem Agrees.retry (h : Agrees rest log) (e : TxEntry) : Agrees rest (log ++ [.retried e]) := by
  have hledger : ledger (log ++ [.retried e]) = ledger log := ledger_append log _
  have hsince := sinceReset_append log (.retried e) (by simp)
  constructor
  · rw [hledger]
    exact h.ordered
  · rw [hledger, h.queued]
  · rw [hledger, hsince, h.committed, List.filterMap_append]
    exact (List.append_nil _).symm
  · rw [hledger, hsince, h.sent, List.filterMap_append]
    exact (List.append_nil _).symm
  · rw [hledger, hsince, h.failed, List.filterMap_append]
    exact (List.append_nil _).symm

/-- The first frame is settled, by a send or by an error. No frame behind it was, so
it is the last of its lot. -/
theorem Agrees.settle {lot : Lot} {ev : TxEvent} (h : Agrees (e :: rest) log)
    (hstep : ledgerStep (ledger log) ev = settleFirst lot (ledger log))
    (hlot : lot = .sent ∧ ev = .sent e ∨ lot = .failed ∧ ev = .failed e) : Agrees rest (log ++ [ev]) := by
  obtain ⟨pre, post, hsplit, hpre, hsettle⟩ := settleFirst_split h.queued
  have hledger : ledger (log ++ [ev]) = pre ++ (e, lot) :: post := by
    rw [ledger_append, hstep, hsettle]
  have hpost : ∀ x ∈ post, x.2 = .queued ∨ x.2 = .dropped := by
    have hordered := h.ordered
    rw [hsplit, TxLedger.Ordered, List.pairwise_append, List.pairwise_cons] at hordered
    exact fun x hx => hordered.2.1.1 x hx rfl
  have hlast : ∀ k, k ≠ .queued → k ≠ .dropped → TxLedger.lot post k = [] := by
    intro k hq hd
    refine lot_eq_nil fun x hx hk => ?_
    rcases hpost x hx with hx | hx
    · exact hq (hk.symm.trans hx)
    · exact hd (hk.symm.trans hx)
  have hne : lot ≠ .queued := by
    rcases hlot with ⟨rfl, -⟩ | ⟨rfl, -⟩ <;> decide
  have hev : ev ≠ .reset := by
    rcases hlot with ⟨-, rfl⟩ | ⟨-, rfl⟩ <;> simp
  have hsince := sinceReset_append log ev hev
  -- the lots that are not concerned keep their frames
  have hother : ∀ k, k ≠ .queued → k ≠ lot → (ledger (log ++ [ev])).lot k = (ledger log).lot k := by
    intro k hk hk'
    rw [hledger, hsplit, lot_append, lot_append, lot_cons, lot_cons, if_neg (Ne.symm hk'), if_neg (Ne.symm hk)]
  have hown : (ledger (log ++ [ev])).lot lot = (ledger log).lot lot ++ [e] := by
    have hd : lot ≠ .dropped := by
      rcases hlot with ⟨rfl, -⟩ | ⟨rfl, -⟩ <;> decide
    rw [hledger, hsplit, lot_append, lot_append, lot_cons, lot_cons, if_pos rfl, if_neg (Ne.symm hne),
      hlast lot hne hd, List.append_nil]
  constructor
  · have hordered := h.ordered
    rw [hsplit, TxLedger.Ordered, List.pairwise_append, List.pairwise_cons] at hordered
    rw [hledger, TxLedger.Ordered, List.pairwise_append, List.pairwise_cons]
    refine ⟨hordered.1, ⟨fun x _ hq => absurd hq hne, hordered.2.1.2⟩, ?_⟩
    exact fun x hx y _ hq => absurd hq (hpre x hx)
  · have hqueued := h.queued
    rw [hsplit, lot_append, lot_cons, if_pos rfl, lot_eq_nil hpre, List.nil_append] at hqueued
    rw [hledger, lot_append, lot_cons, if_neg hne, lot_eq_nil hpre, List.nil_append]
    exact (List.cons.inj hqueued).2
  · have hcommitted := h.committed
    rw [hsplit] at hcommitted
    rw [hledger, hsince, List.filterMap_append, ← hcommitted]
    rcases hlot with ⟨rfl, rfl⟩ | ⟨rfl, rfl⟩ <;> simp [TxEvent.asCommitted]
  · rw [hsince, List.filterMap_append, ← h.sent]
    rcases hlot with ⟨rfl, rfl⟩ | ⟨rfl, rfl⟩
    · exact hown
    · rw [hother .sent (by decide) (by decide)]
      exact (List.append_nil _).symm
  · rw [hsince, List.filterMap_append, ← h.failed]
    rcases hlot with ⟨rfl, rfl⟩ | ⟨rfl, rfl⟩
    · rw [hother .failed (by decide) (by decide)]
      exact (List.append_nil _).symm
    · exact hown

theorem dropQueued_lot_of_ne (rp : Reply) (l : TxLedger) {lot : Lot} (hq : lot ≠ .queued) (hd : lot ≠ .dropped) :
    (dropQueued rp l).lot lot = l.lot lot := by
  induction l with
  | nil => rfl
  | cons x l ih =>
    rw [dropQueued, List.map_cons, lot_cons, lot_cons]
    change (if _ then _ :: (dropQueued rp l).lot lot else (dropQueued rp l).lot lot) = _
    rw [ih]
    by_cases hx : x.2 = .queued ∧ x.1.of rp = true
    · rw [if_pos hx, if_neg (fun h => hd h.symm), if_neg (fun h => hq (h.symm.trans hx.1))]
    · rw [if_neg hx]

theorem dropQueued_queued (rp : Reply) (l : TxLedger) :
    (dropQueued rp l).lot .queued = (l.lot .queued).filter fun e => !e.of rp := by
  induction l with
  | nil => rfl
  | cons x l ih =>
    rw [dropQueued, List.map_cons, lot_cons, lot_cons]
    change (if _ then _ :: (dropQueued rp l).lot .queued else (dropQueued rp l).lot .queued) = _
    rw [ih]
    by_cases hx : x.2 = .queued
    · by_cases hof : x.1.of rp = true
      · simp [hx, hof]
      · simp [hx, hof]
    · simp [hx]

theorem Agrees.drop (h : Agrees rest log) (rp : Reply) :
    Agrees (rest.filter fun e => !e.of rp) (log ++ [.gone rp]) := by
  have hledger : ledger (log ++ [.gone rp]) = dropQueued rp (ledger log) := ledger_append log _
  have hsince := sinceReset_append log (.gone rp) (by simp)
  constructor
  · rw [hledger, TxLedger.Ordered, dropQueued, List.pairwise_map]
    refine h.ordered.imp ?_
    intro a b hab
    by_cases ha : a.2 = .queued ∧ a.1.of rp = true
    · rw [if_pos ha]
      exact fun hq => by simp at hq
    · rw [if_neg ha]
      intro hq
      by_cases hb : b.2 = .queued ∧ b.1.of rp = true
      · rw [if_pos hb]
        exact .inr rfl
      · rw [if_neg hb]
        exact hab hq
  · rw [hledger, dropQueued_queued, h.queued]
  · rw [hledger, hsince, List.filterMap_append, ← h.committed, dropQueued, List.map_map]
    refine (List.map_congr_left fun x _ => ?_).trans (List.append_nil _).symm
    by_cases hx : x.2 = .queued ∧ x.1.of rp = true
    · simp [hx]
    · simp [hx]
  · rw [hledger, hsince, List.filterMap_append, ← h.sent, dropQueued_lot_of_ne rp _ (by decide) (by decide)]
    exact (List.append_nil _).symm
  · rw [hledger, hsince, List.filterMap_append, ← h.failed, dropQueued_lot_of_ne rp _ (by decide) (by decide)]
    exact (List.append_nil _).symm

theorem Agrees.reset (log : List TxEvent) : Agrees [] (log ++ [.reset]) := by
  have hledger : ledger (log ++ [.reset]) = [] := ledger_append log _
  have hsince : sinceReset (log ++ [.reset]) = [] := by simp [sinceReset]
  constructor
  · rw [hledger]
    exact .nil
  · rw [hledger]
    rfl
  · rw [hledger, hsince]
    rfl
  · rw [hledger, hsince]
    rfl
  · rw [hledger, hsince]
    rfl

theorem settleFirst_get (lot : Lot) {k : Nat} {x : TxEntry × Lot} (hlot : x.2 ≠ lot)
    (h : (settleFirst lot l)[k]? = some x) : l[k]? = some x := by
  induction l generalizing k with
  | nil => exact h
  | cons y l ih =>
    obtain ⟨e', lot'⟩ := y
    cases k with
    | zero =>
      cases lot' with
      | queued =>
        rw [settleFirst, List.getElem?_cons_zero, Option.some.injEq] at h
        exact absurd (congrArg Prod.snd h).symm hlot
      | sent => exact h
      | failed => exact h
      | dropped => exact h
    | succ k =>
      cases lot' with
      | queued => exact h
      | sent => exact ih h
      | failed => exact ih h
      | dropped => exact ih h

theorem dropped_why {k : Nat} (h : (ledger log)[k]? = some (e, .dropped)) :
    ∃ before rp after, log = before ++ .gone rp :: after ∧ .reset ∉ after ∧ e.of rp = true ∧
      (ledger before)[k]? = some (e, .queued) := by
  induction log using List.reverseRecOn with
  | nil => simp [ledger] at h
  | append_singleton log ev ih =>
    have hold : (ledger log)[k]? = some (e, .dropped) → ev ≠ .reset →
        ∃ before rp after, log ++ [ev] = before ++ .gone rp :: after ∧ .reset ∉ after ∧ e.of rp = true ∧
          (ledger before)[k]? = some (e, .queued) := by
      intro hk hev
      obtain ⟨before, rp, after, rfl, hafter, hof, hq⟩ := ih hk
      exact ⟨before, rp, after ++ [ev], by simp, by simp [hafter, Ne.symm hev], hof, hq⟩
    rw [ledger_append] at h
    cases ev with
    | committed e' =>
      refine hold ?_ (by simp)
      rw [ledgerStep, List.getElem?_append] at h
      split_ifs at h with hk
      · exact h
      · rw [List.getElem?_singleton] at h
        split_ifs at h
        simp at h
    | sent e' => exact hold (settleFirst_get .sent (by simp) h) (by simp)
    | failed e' => exact hold (settleFirst_get .failed (by simp) h) (by simp)
    | retried e' => exact hold h (by simp)
    | reset => simp [ledgerStep] at h
    | gone rp =>
      rw [ledgerStep, dropQueued, List.getElem?_map] at h
      cases hk : (ledger log)[k]? with
      | none => simp [hk] at h
      | some x =>
        rw [hk, Option.map_some, Option.some.injEq] at h
        by_cases hx : x.2 = .queued ∧ x.1.of rp = true
        · rw [if_pos hx] at h
          obtain ⟨rfl, -⟩ := Prod.mk.inj h
          refine ⟨log, rp, [], by simp, by simp, hx.2, ?_⟩
          rw [hk, ← hx.1]
        · rw [if_neg hx] at h
          exact hold (by rw [hk, h]) (by simp)

end Ledger

section Run

variable {slots : Nat} [NeZero slots]

theorem odTxqProcess_agrees (radio : Radio) (q : Txq slots) (log : List TxEvent) (h : Agrees q.frames log) :
    Agrees (odTxqProcess radio q log).q.frames (odTxqProcess radio q log).log := by
  refine loop_rule (P := fun (s t : Drain slots) => Agrees s.q.frames s.log → Agrees t.q.frames t.log)
    ?_ ?_ _ h
  · intro s t hstop hs
    rcases processBody_cases radio s with ⟨-, hb⟩ | ⟨hne, hb | hb | hb | hb⟩
    · obtain rfl := Iter.stop.inj (hb.symm.trans hstop)
      exact hs
    · obtain rfl := Iter.stop.inj (hb.symm.trans hstop)
      exact hs.retry _
    · simp [hb] at hstop
    · simp [hb] at hstop
    · simp [hb] at hstop
  · intro s t u hnext hu hs
    refine hu ?_
    rcases processBody_cases radio s with ⟨-, hb⟩ | ⟨hne, hb | hb | hb | hb⟩
    · simp [hb] at hnext
    · simp [hb] at hnext
    · obtain rfl := Iter.next.inj (hb.symm.trans hnext)
      have hdrop := hs.drop (s.q.ring s.q.head).rp
      rw [← dropTag_frames] at hdrop
      exact hdrop
    · obtain rfl := Iter.next.inj (hb.symm.trans hnext)
      rw [frames_next hne] at hs
      exact hs.settle rfl (.inr ⟨rfl, rfl⟩)
    · obtain rfl := Iter.next.inj (hb.symm.trans hnext)
      rw [frames_next hne] at hs
      exact hs.settle rfl (.inl ⟨rfl, rfl⟩)

/-- The operations on the queue, with whatever token the caller has. -/
inductive TxOp where
  | reserve (count : UInt8) (r : Token)
  | release (r : Token)
  | commit (r : Token) (rp : Reply) (frame : Bytes) (live : Bool)
  | process (radio : Radio)
  | flush (radio : Radio) (nowMs deadlineMs : UInt32)
  | reset

def txStep (s : Txq slots × List TxEvent) : TxOp → Txq slots × List TxEvent
  | .reserve count r => ((odTxqReserve s.1 count r).2.1, s.2)
  | .release r => ((odTxqRelease s.1 r).1, s.2)
  | .commit r rp frame live =>
    let (status, q, _) := odTxqCommit s.1 r rp frame live
    (q, if status = .ok then s.2 ++ [.committed { rp := rp, data := frame }] else s.2)
  | .process radio => let t := odTxqProcess radio s.1 s.2; (t.q, t.log)
  | .flush radio nowMs deadlineMs => let t := (odTxqFlush radio s.1 s.2 nowMs deadlineMs).2; (t.q, t.log)
  | .reset => (odTxqReset s.1, s.2 ++ [.reset])

def txRun (slots : Nat) [NeZero slots] (ops : List TxOp) : Txq slots × List TxEvent :=
  ops.foldl txStep (Txq.init slots, [])

theorem odTxqReserve_frames (q : Txq slots) (count : UInt8) (r : Token) :
    (odTxqReserve q count r).2.1.frames = q.frames := by
  rcases odTxqReserve_cases q r count with h | h | ⟨-, h⟩
  · rw [h]
  · rw [h]
  · rw [h]
    rfl

theorem odTxqRelease_frames (q : Txq slots) (r : Token) : (odTxqRelease q r).1.frames = q.frames := by
  unfold odTxqRelease
  split_ifs <;> rfl

theorem txStep_agrees (s : Txq slots × List TxEvent) (op : TxOp) (h : Agrees s.1.frames s.2) :
    Agrees (txStep s op).1.frames (txStep s op).2 := by
  cases op with
  | reserve count r =>
    rw [txStep, odTxqReserve_frames]
    exact h
  | release r =>
    rw [txStep, odTxqRelease_frames]
    exact h
  | commit r rp frame live =>
    rw [txStep]
    rcases odTxqCommit_cases s.1 r rp frame live with
      ⟨status, hne, heq, -⟩ | ⟨-, heq⟩ | ⟨-, -, heq⟩ | ⟨-, -, hfree, heq⟩
    · simpa [heq, hne] using h
    · simpa [heq] using h
    · rw [heq]
      exact h
    · have hlt : gap s.1.head s.1.tail + 1 < slots := by
        have : freeSlots s.1 = slots - 1 - gap s.1.head s.1.tail := rfl
        omega
      have hpush := h.commit { rp := rp, data := frame }
      rw [Txq.frames, ← contents_push hlt] at hpush
      rw [heq]
      exact hpush
  | process radio => exact odTxqProcess_agrees radio s.1 s.2 h
  | flush radio nowMs deadlineMs =>
    rw [txStep, odTxqFlush]
    split_ifs
    · exact h
    · exact h
    · exact odTxqProcess_agrees radio s.1 s.2 h
  | reset =>
    have hnone : (odTxqReset s.1).frames = [] := contents_self _ _
    rw [txStep, hnone]
    exact Agrees.reset s.2

theorem txRun_agrees (slots : Nat) [NeZero slots] (ops : List TxOp) :
    Agrees (txRun slots ops).1.frames (txRun slots ops).2 := by
  induction ops using List.reverseRecOn with
  | nil =>
    have hnone : (Txq.init slots).frames = [] := contents_self _ _
    rw [txRun, List.foldl_nil, hnone]
    exact Agrees.empty
  | append_singleton ops op ih =>
    rw [txRun, List.foldl_append]
    exact txStep_agrees _ op ih

end Run

/-- The queue keeps the order of replies. Every frame committed since the last reset
is sent, refused by its own send, dropped while its link was gone, or still queued, in
the ring and in the order of the commits; a retry changes nothing; and a pass of the
drain that goes round again leaves fewer frames. -/
theorem replies_in_order (p : Profile) (ops : List TxOp) :
    let q := (txRun (odTxqSlots p) ops).1
    let log := (txRun (odTxqSlots p) ops).2
    (ledger log).map Prod.fst = (sinceReset log).filterMap TxEvent.asCommitted ∧
    (ledger log).lot .sent = (sinceReset log).filterMap TxEvent.asSent ∧
    ((sinceReset log).filterMap TxEvent.asSent).Sublist ((sinceReset log).filterMap TxEvent.asCommitted) ∧
    (ledger log).lot .failed = (sinceReset log).filterMap TxEvent.asFailed ∧
    (ledger log).lot .queued = q.frames ∧
    (∀ (k : Nat) (e : TxEntry), (ledger log)[k]? = some (e, Lot.dropped) →
      ∃ before rp after, log = before ++ .gone rp :: after ∧ .reset ∉ after ∧ e.of rp = true ∧
        (ledger before)[k]? = some (e, Lot.queued)) ∧
    (∀ radio (s : Drain (odTxqSlots p)), s.q.head ≠ s.q.tail →
      (radio s.pass (s.q.ring s.q.head)).live = true → (radio s.pass (s.q.ring s.q.head)).rc = .retry →
      ∃ t, processBody radio s = .stop t ∧ t.q = s.q) ∧
    ∀ radio (s t : Drain (odTxqSlots p)), processBody radio s = .next t → queued t.q < queued s.q := by
  have h := txRun_agrees (odTxqSlots p) ops
  refine ⟨h.committed, h.sent, ?_, h.failed, h.queued, fun k e => dropped_why, ?_, processBody_decreases⟩
  · rw [← h.sent, ← h.committed]
    exact List.filter_sublist.map Prod.fst
  · intro radio s hne hlive hretry
    unfold processBody
    rw [if_neg hne]
    dsimp only
    rw [if_neg (not_not_intro hlive), hretry]
    exact ⟨_, rfl, rfl⟩

end OpenDisplay
