import OpenDisplay.Txq.Model
import Mathlib.Algebra.BigOperators.Group.Finset.Basic
import Mathlib.Algebra.Order.BigOperators.Group.Finset

/-! Capacity promised to tokens. Any number of them hold units at once, and the
queue keeps room for all the units that were promised since its last reset. -/

namespace OpenDisplay

open Rings Loops

/-- The profiles that the targets are built with. -/
inductive Profile where
  | standard | esp32N4 | silabs
deriving DecidableEq

def odTxqSlots : Profile → Nat
  | .standard => 34
  | .esp32N4 => 18
  | .silabs => 3

instance (p : Profile) : NeZero (odTxqSlots p) := ⟨by cases p <;> decide⟩

/-- A token, and how many resets the queue had seen when its units were reserved. -/
structure Holder where
  token : Token := {}
  born : Nat := 0

/-- The units that a holder has of the current generation. -/
def Holder.units (gen : UInt8) (h : Holder) : Nat :=
  if h.token.gen = gen then h.token.remaining.toNat else 0

structure TxWorld (slots : Nat) (ι : Type) where
  q : Txq slots
  holders : ι → Holder
  resets : Nat := 0

inductive TxAct (ι : Type) where
  | reserve (i : ι) (count : UInt8)
  | release (i : ι)
  | commit (i : ι) (rp : Reply) (frame : Bytes) (live : Bool)
  | process (radio : Radio)
  | flush (radio : Radio) (nowMs deadlineMs : UInt32)
  | reset

section Step

variable {slots : Nat} [NeZero slots] {ι : Type} [DecidableEq ι]

def TxWorld.step (w : TxWorld slots ι) : TxAct ι → TxWorld slots ι
  | .reserve i count =>
    let (status, q, token) := odTxqReserve w.q count (w.holders i).token
    let born := if status = .ok then w.resets else (w.holders i).born
    { w with q := q, holders := Function.update w.holders i { token := token, born := born } }
  | .release i =>
    let (q, token) := odTxqRelease w.q (w.holders i).token
    { w with q := q, holders := Function.update w.holders i { w.holders i with token := token } }
  | .commit i rp frame live =>
    let (_, q, token) := odTxqCommit w.q (w.holders i).token rp frame live
    { w with q := q, holders := Function.update w.holders i { w.holders i with token := token } }
  | .process radio => { w with q := (odTxqProcess radio w.q []).q }
  | .flush radio nowMs deadlineMs => { w with q := (odTxqFlush radio w.q [] nowMs deadlineMs).2.q }
  | .reset => { w with q := odTxqReset w.q, resets := w.resets + 1 }

/-- A token is reserved for only when it has no live units, and it does not see 256
resets while it has any. -/
def TxWorld.Allows (w : TxWorld slots ι) : TxAct ι → Prop
  | .reserve i _ => (w.holders i).units w.q.gen = 0
  | .reset => ∀ i, (w.holders i).token.remaining ≠ 0 → w.resets + 1 < (w.holders i).born + 256
  | _ => True

/-- The worlds that are reached from an empty queue and tokens without units. -/
inductive TxReachable : TxWorld slots ι → Prop where
  | init {holders : ι → Holder} (h : ∀ i, (holders i).token.remaining = 0) :
      TxReachable { q := Txq.init slots, holders := holders }
  | step {w : TxWorld slots ι} (h : TxReachable w) (a : TxAct ι) (ha : w.Allows a) : TxReachable (w.step a)

end Step

section Drain

variable {slots : Nat} [NeZero slots]

/-- The drain takes entries off the queue and leaves its counters alone. -/
def TxDrained (q q' : Txq slots) : Prop := q'.reserved = q.reserved ∧ q'.gen = q.gen ∧ queued q' ≤ queued q

theorem odTxqProcess_drained (radio : Radio) (q : Txq slots) (log : List TxEvent) :
    TxDrained q (odTxqProcess radio q log).q := by
  refine loop_rule (P := fun (s t : Drain slots) => TxDrained s.q t.q) ?_ ?_ _
  · intro s t h
    rcases processBody_cases radio s with ⟨-, hb⟩ | ⟨-, hb | hb | hb | hb⟩
    · obtain rfl := Iter.stop.inj (hb.symm.trans h)
      exact ⟨rfl, rfl, le_rfl⟩
    · obtain rfl := Iter.stop.inj (hb.symm.trans h)
      exact ⟨rfl, rfl, le_rfl⟩
    · simp [hb] at h
    · simp [hb] at h
    · simp [hb] at h
  · rintro s t u h ⟨hr, hg, hq⟩
    have hlt := processBody_decreases radio s t h
    have hkeep : t.q.reserved = s.q.reserved ∧ t.q.gen = s.q.gen := by
      rcases processBody_cases radio s with ⟨-, hb⟩ | ⟨-, hb | hb | hb | hb⟩
      · simp [hb] at h
      · simp [hb] at h
      · obtain rfl := Iter.next.inj (hb.symm.trans h)
        exact ⟨rfl, rfl⟩
      · obtain rfl := Iter.next.inj (hb.symm.trans h)
        exact ⟨rfl, rfl⟩
      · obtain rfl := Iter.next.inj (hb.symm.trans h)
        exact ⟨rfl, rfl⟩
    exact ⟨hr.trans hkeep.1, hg.trans hkeep.2, hq.trans hlt.le⟩

theorem odTxqFlush_drained (radio : Radio) (q : Txq slots) (log : List TxEvent) (nowMs deadlineMs : UInt32) :
    TxDrained q (odTxqFlush radio q log nowMs deadlineMs).2.q := by
  unfold odTxqFlush
  split_ifs
  · exact ⟨rfl, rfl, le_rfl⟩
  · exact ⟨rfl, rfl, le_rfl⟩
  · exact odTxqProcess_drained radio q log

end Drain

section Invariant

variable {slots : Nat} [NeZero slots] {ι : Type} [Fintype ι] [DecidableEq ι] {w : TxWorld slots ι}

/-- The queue has room for what waits in it and what it has promised. -/
structure Backed (w : TxWorld slots ι) : Prop where
  room : queued w.q + w.q.reserved.toNat + 1 ≤ slots
  gen : w.q.gen.toNat = w.resets % 256
  reserved : w.q.reserved.toNat = ∑ i, (w.holders i).units w.q.gen
  born : ∀ i, (w.holders i).token.remaining ≠ 0 →
    (w.holders i).token.gen.toNat = (w.holders i).born % 256 ∧ (w.holders i).born ≤ w.resets ∧
      w.resets < (w.holders i).born + 256

theorem sum_update_add (f : Holder → Nat) (g : ι → Holder) (i : ι) (x : Holder) :
    ∑ j, f (Function.update g i x j) + f (g i) = ∑ j, f (g j) + f x := by
  rw [← Finset.add_sum_erase Finset.univ (fun j => f (Function.update g i x j)) (Finset.mem_univ i),
    ← Finset.add_sum_erase Finset.univ (fun j => f (g j)) (Finset.mem_univ i)]
  have hrest : ∑ j ∈ Finset.univ.erase i, f (Function.update g i x j) = ∑ j ∈ Finset.univ.erase i, f (g j) := by
    refine Finset.sum_congr rfl fun j hj => ?_
    rw [Function.update_of_ne (Finset.ne_of_mem_erase hj)]
  rw [hrest, Function.update_self]
  omega

omit [NeZero slots] [DecidableEq ι] in
theorem Backed.units_le (h : Backed w) (i : ι) : (w.holders i).units w.q.gen ≤ w.q.reserved.toNat := by
  rw [h.reserved]
  exact Finset.single_le_sum (f := fun j => (w.holders j).units w.q.gen) (fun _ _ => Nat.zero_le _)
    (Finset.mem_univ i)

omit [NeZero slots] [DecidableEq ι] in
/-- Units of the current generation were reserved since the last reset. -/
theorem Backed.current (h : Backed w) {i : ι} (hr : (w.holders i).token.remaining ≠ 0) :
    (w.holders i).token.gen = w.q.gen ↔ (w.holders i).born = w.resets := by
  obtain ⟨hgen, hle, hlt⟩ := h.born i hr
  rw [← UInt8.toNat_inj, hgen, h.gen]
  omega

omit [NeZero slots] in
/-- One holder changes and so does the count, by the same number of units. -/
theorem Backed.exchange (h : Backed w) {q : Txq slots} (i : ι) (x : Holder)
    (hroom : queued q + q.reserved.toNat + 1 ≤ slots) (hgen : q.gen = w.q.gen)
    (hunits : q.reserved.toNat + (w.holders i).units w.q.gen = w.q.reserved.toNat + x.units w.q.gen)
    (hborn : x.token.remaining ≠ 0 → x.token.gen.toNat = x.born % 256 ∧ x.born ≤ w.resets ∧ w.resets < x.born + 256) :
    Backed { w with q := q, holders := Function.update w.holders i x } where
  room := hroom
  gen := by rw [hgen, h.gen]
  reserved := by
    have hsum := sum_update_add (Holder.units w.q.gen) w.holders i x
    rw [← h.reserved] at hsum
    rw [hgen]
    dsimp only
    omega
  born j hj := by
    dsimp only at hj ⊢
    by_cases hij : j = i
    · subst hij
      rw [Function.update_self] at hj ⊢
      exact hborn hj
    · rw [Function.update_of_ne hij] at hj ⊢
      exact h.born j hj

omit [DecidableEq ι] in
theorem Backed.init {holders : ι → Holder} (h : ∀ i, (holders i).token.remaining = 0) :
    Backed { q := Txq.init slots, holders := holders } where
  room := by
    have := NeZero.pos slots
    simp [queued, Txq.init]
    omega
  gen := rfl
  reserved := by
    refine (Finset.sum_eq_zero fun i _ => ?_).symm
    simp [Holder.units, h i]
  born i hi := absurd (h i) hi

theorem Backed.reserve (h : Backed w) (hslots : slots ≤ 256) (i : ι) (count : UInt8)
    (ha : (w.holders i).units w.q.gen = 0) : Backed (w.step (.reserve i count)) := by
  rw [TxWorld.step]
  rcases odTxqReserve_cases w.q (w.holders i).token count with heq | heq | ⟨hroom, heq⟩
  · simpa [heq] using h
  · rw [heq]
    refine h.exchange i _ h.room rfl ?_ (fun hne => absurd rfl hne)
    rw [ha]
    simp [Holder.units]
  · have hfree : freeSlots w.q = slots - 1 - queued w.q := rfl
    have hlt := h.room
    have hsum : (w.q.reserved + count).toNat = w.q.reserved.toNat + count.toNat := by
      rw [UInt8.toNat_add]
      exact Nat.mod_eq_of_lt (by omega)
    rw [heq]
    refine h.exchange i _ ?_ rfl ?_ fun _ => ?_
    · change queued w.q + (w.q.reserved + count).toNat + 1 ≤ slots
      omega
    · rw [ha]
      dsimp only
      rw [hsum]
      simp [Holder.units]
    · simp [h.gen]

theorem Backed.release (h : Backed w) (i : ι) : Backed (w.step (.release i)) := by
  rw [TxWorld.step, odTxqRelease]
  by_cases hzero : (w.holders i).token.remaining = 0
  · simpa [hzero] using h
  rw [if_neg hzero]
  by_cases hgen : (w.holders i).token.gen = w.q.gen
  · have hunits : (w.holders i).units w.q.gen = (w.holders i).token.remaining.toNat := if_pos hgen
    have hle := h.units_le i
    have hsub : (w.q.reserved - (w.holders i).token.remaining).toNat =
        w.q.reserved.toNat - (w.holders i).token.remaining.toNat :=
      UInt8.toNat_sub_of_le _ _ (UInt8.le_iff_toNat_le.mpr (by omega))
    have hroom := h.room
    rw [if_pos hgen]
    refine h.exchange i _ ?_ rfl ?_ (fun hne => absurd rfl hne)
    · change queued w.q + (w.q.reserved - (w.holders i).token.remaining).toNat + 1 ≤ slots
      omega
    · rw [hunits]
      dsimp only
      rw [hsub]
      simp only [Holder.units, UInt8.toNat_zero, ite_self]
      omega
  · rw [if_neg hgen]
    refine h.exchange i _ h.room rfl ?_ (fun hne => absurd rfl hne)
    simp [Holder.units, hgen]

omit [NeZero slots] in
theorem Backed.spend (h : Backed w) {q : Txq slots} {i : ι} (hr : (w.holders i).token.remaining ≠ 0)
    (hgen : (w.holders i).token.gen = w.q.gen) (hq : queued q ≤ queued w.q + 1)
    (hreserved : q.reserved = w.q.reserved - 1) (hqgen : q.gen = w.q.gen) :
    Backed { w with
      q := q
      holders := Function.update w.holders i
        { w.holders i with
          token := { (w.holders i).token with remaining := (w.holders i).token.remaining - 1 } } } := by
  have hunits : (w.holders i).units w.q.gen = (w.holders i).token.remaining.toNat := if_pos hgen
  have hle := h.units_le i
  have hroom := h.room
  have hpos : 1 ≤ (w.holders i).token.remaining.toNat := by
    rw [Nat.one_le_iff_ne_zero]
    exact fun h0 => hr (UInt8.toNat_inj.mp h0)
  have hsub : (w.q.reserved - 1).toNat = w.q.reserved.toNat - 1 :=
    UInt8.toNat_sub_of_le _ _ (UInt8.le_iff_toNat_le.mpr (by change 1 ≤ _; omega))
  have hsub' : ((w.holders i).token.remaining - 1).toNat = (w.holders i).token.remaining.toNat - 1 :=
    UInt8.toNat_sub_of_le _ _ (UInt8.le_iff_toNat_le.mpr hpos)
  refine h.exchange i _ ?_ hqgen ?_ fun _ => h.born i hr
  · rw [hreserved, hsub]
    omega
  · rw [hunits, hreserved, hsub]
    simp only [Holder.units, hgen, hsub', if_true]
    omega

theorem Backed.commit (h : Backed w) (i : ι) (rp : Reply) (frame : Bytes) (live : Bool) :
    Backed (w.step (.commit i rp frame live)) := by
  rw [TxWorld.step]
  rcases odTxqCommit_cases w.q (w.holders i).token rp frame live with
    ⟨status, -, heq, -⟩ | ⟨hgen, heq⟩ | ⟨hr, hgen, heq⟩ | ⟨hr, hgen, hfree, heq⟩
  · simpa [heq] using h
  · rw [heq]
    refine h.exchange i _ h.room rfl ?_ (fun hne => absurd rfl hne)
    simp [Holder.units, hgen]
  · rw [heq]
    exact h.spend hr hgen (Nat.le_succ _) rfl rfl
  · have hlt : gap w.q.head w.q.tail + 1 < slots := by
      have : freeSlots w.q = slots - 1 - gap w.q.head w.q.tail := rfl
      omega
    rw [heq]
    exact h.spend hr hgen (gap_next_right hlt).le rfl rfl

omit [NeZero slots] [DecidableEq ι] in
theorem Backed.drain (h : Backed w) {q : Txq slots} (hq : TxDrained w.q q) : Backed { w with q := q } := by
  obtain ⟨hr, hg, hle⟩ := hq
  have hroom := h.room
  refine ⟨?_, ?_, ?_, h.born⟩
  · dsimp only
    rw [hr]
    omega
  · exact (congrArg _ hg).trans h.gen
  · dsimp only
    rw [hr, hg]
    exact h.reserved

/-- A reset kills every token, for no token has units of the next generation. -/
theorem Backed.reset (h : Backed w)
    (ha : ∀ i, (w.holders i).token.remaining ≠ 0 → w.resets + 1 < (w.holders i).born + 256) :
    Backed (w.step .reset) := by
  have hnext : (w.q.gen + 1).toNat = (w.resets + 1) % 256 := by
    rw [UInt8.toNat_add, h.gen]
    change (w.resets % 256 + 1) % 256 = (w.resets + 1) % 256
    omega
  refine ⟨?_, hnext, ?_, ?_⟩
  · have := NeZero.pos slots
    simp [queued, TxWorld.step, odTxqReset]
    omega
  · refine (Finset.sum_eq_zero fun i _ => ?_).symm
    by_cases hr : (w.holders i).token.remaining = 0
    · simp [Holder.units, TxWorld.step, hr]
    · obtain ⟨hgen, hle, hlt⟩ := h.born i hr
      have hlife := ha i hr
      have hne : (w.holders i).token.gen ≠ w.q.gen + 1 := by
        rw [ne_eq, ← UInt8.toNat_inj, hgen, hnext]
        omega
      simp [Holder.units, TxWorld.step, odTxqReset, hne]
  · intro i hr
    obtain ⟨hgen, hle, -⟩ := h.born i hr
    exact ⟨hgen, Nat.le_succ_of_le hle, ha i hr⟩

theorem TxReachable.backed (hslots : slots ≤ 256) (h : TxReachable w) : Backed w := by
  induction h with
  | init hholders => exact Backed.init hholders
  | step _ a ha ih =>
    cases a with
    | reserve i count => exact ih.reserve hslots i count ha
    | release i => exact ih.release i
    | commit i rp frame live => exact ih.commit i rp frame live
    | process radio => exact ih.drain (odTxqProcess_drained radio _ [])
    | flush radio nowMs deadlineMs => exact ih.drain (odTxqFlush_drained radio _ [] nowMs deadlineMs)
    | reset => exact ih.reset ha

omit [DecidableEq ι] in
theorem Backed.stale (h : Backed w) {i : ι} (hborn : (w.holders i).born < w.resets) :
    (∀ rp frame live, (odTxqCommit w.q (w.holders i).token rp frame live).2.1 = w.q) ∧
      (odTxqRelease w.q (w.holders i).token).1 = w.q := by
  have hdead : (w.holders i).token.remaining ≠ 0 → (w.holders i).token.gen ≠ w.q.gen := by
    intro hr hgen
    have := (h.current hr).mp hgen
    omega
  constructor
  · intro rp frame live
    rcases odTxqCommit_cases w.q (w.holders i).token rp frame live with
      ⟨status, -, heq, -⟩ | ⟨-, heq⟩ | ⟨hr, hgen, -⟩ | ⟨hr, hgen, -, -⟩
    · rw [heq]
    · rw [heq]
    · exact absurd hgen (hdead hr)
    · exact absurd hgen (hdead hr)
  · unfold odTxqRelease
    split_ifs with hzero hgen
    · rfl
    · exact absurd hgen (hdead hzero)
    · rfl

end Invariant

theorem odTxqSlots_le (p : Profile) : odTxqSlots p ≤ 256 := by
  cases p <;> decide

/-- Capacity is conserved: what waits and what is promised fit the ring, the count of
promised units is what the live tokens hold, a live unit always finds a free slot, and
a token from before a reset changes nothing. -/
theorem capacity_conserved {p : Profile} {ι : Type} [Fintype ι] [DecidableEq ι]
    {w : TxWorld (odTxqSlots p) ι} (h : TxReachable w) :
    queued w.q + w.q.reserved.toNat ≤ odTxqSlots p - 1 ∧
    w.q.reserved.toNat = ∑ i, (w.holders i).units w.q.gen ∧
    (∀ i, (w.holders i).token.remaining ≠ 0 → (w.holders i).token.gen = w.q.gen →
      (w.holders i).token.remaining.toNat ≤ w.q.reserved.toNat ∧ freeSlots w.q ≠ 0 ∧
        ∀ rp frame live, frame ≠ [] →
          (odTxqCommit w.q (w.holders i).token rp frame live).1 ≠ .invariant) ∧
    ∀ i, (w.holders i).born < w.resets →
      (∀ rp frame live, (odTxqCommit w.q (w.holders i).token rp frame live).2.1 = w.q) ∧
        (odTxqRelease w.q (w.holders i).token).1 = w.q := by
  have hb := h.backed (odTxqSlots_le p)
  have hroom := hb.room
  refine ⟨by omega, hb.reserved, ?_, fun i hi => hb.stale hi⟩
  intro i hr hgen
  have hle := hb.units_le i
  rw [Holder.units, if_pos hgen] at hle
  have hpos : 1 ≤ (w.holders i).token.remaining.toNat := by
    rw [Nat.one_le_iff_ne_zero]
    exact fun h0 => hr (UInt8.toNat_inj.mp h0)
  have hfree : freeSlots w.q ≠ 0 := by
    unfold freeSlots
    omega
  refine ⟨hle, hfree, ?_⟩
  intro rp frame live hframe hinv
  rcases odTxqCommit_cases w.q (w.holders i).token rp frame live with
    ⟨status, -, heq, hwhy⟩ | ⟨hne, -⟩ | ⟨-, -, heq⟩ | ⟨-, -, -, heq⟩
  · rw [heq] at hinv
    rcases hwhy hinv with h | h | h
    · exact hframe h
    · exact hr h
    · exact hfree h
  · exact hne hgen
  · simp [heq] at hinv
  · simp [heq] at hinv

/-- Two tokens of one unit each, of which the first has spent its unit. -/
def twoHolders : TxWorld (odTxqSlots .silabs) Bool :=
  ((({ q := Txq.init _, holders := fun _ => {} } : TxWorld (odTxqSlots .silabs) Bool).step
    (.reserve true 1)).step (.commit true {} [0x00] true)).step (.reserve false 1)

theorem capacity_conserved_two :
    queued twoHolders.q + twoHolders.q.reserved.toNat ≤ 2 ∧ twoHolders.q.reserved = 1 := by
  have h : TxReachable twoHolders := by
    refine .step (.step (.step (.init fun _ => rfl) (.reserve true 1) ?_) (.commit true {} [0x00] true)
      trivial) (.reserve false 1) ?_
    · rfl
    · rfl
  exact ⟨(capacity_conserved h).1, by decide⟩

end OpenDisplay
