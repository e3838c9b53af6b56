import OpenDisplay.Rxq.Model
import OpenDisplay.Lib.Trace

/-! The ring is a queue. What it is to hold is kept from the events alone, and it
holds that at every step of either side. -/

namespace OpenDisplay

open Rings

section Spec

/-- What the events say: the frames held, those that were held when the last reset
loaded the head, how many the last discard has removed, and its last question. -/
structure RxSpec where
  held : List RxItem := []
  published : List RxItem := []
  count : Nat := 0
  ask : Option (RxItem × Bool) := none

def rxSpecStep (s : RxSpec) : RxEvent → RxSpec
  | .accepted x => { s with held := s.held ++ [x] }
  | .consumed _ => { s with held := s.held.tail }
  | .discardBegan => { s with count := 0, ask := none }
  | .asked x live => { s with ask := some (x, live) }
  | .discarded _ => { s with held := s.held.tail, count := s.count + 1, ask := none }
  | .resetLoaded => { s with published := s.held }
  | .resetReturned removed _ => { s with held := s.held.drop removed.length }
  | _ => s

def rxSpec (log : List RxEvent) : RxSpec := log.foldl rxSpecStep {}

def RxEvent.put : RxEvent → List RxItem
  | .accepted x => [x]
  | _ => []

/-- The frames that an event takes off the ring. -/
def RxEvent.taken : RxEvent → List RxItem
  | .consumed x => [x]
  | .discarded x => [x]
  | .resetReturned removed _ => removed
  | _ => []

/-- What is reported is true of the frames held: they are seen, consumed and asked
about from the oldest on; a discard removes what it was told is stale and returns,
with the number it removed, at the first frame that is not or when there is none; and a
reset removes what was held when it loaded the head, and returns the number. -/
def Reported (pre : List RxEvent) : RxEvent → Prop
  | .seen x => (rxSpec pre).held.head? = some x
  | .consumed x => (rxSpec pre).held.head? = some x
  | .asked x _ => (rxSpec pre).held.head? = some x
  | .discarded x => (rxSpec pre).held.head? = some x ∧ (rxSpec pre).ask = some (x, false)
  | .foundEmpty => (rxSpec pre).held = []
  | .discardReturned dropped => dropped.toNat = (rxSpec pre).count ∧
      ((rxSpec pre).held = [] ∨
        ∃ x, (rxSpec pre).ask = some (x, true) ∧ (rxSpec pre).held.head? = some x)
  | .resetReturned removed dropped => removed = (rxSpec pre).published ∧ removed <+: (rxSpec pre).held ∧
      dropped.toNat = removed.length
  | _ => True

variable {log : List RxEvent}

theorem rxSpec_append (log : List RxEvent) (e : RxEvent) : rxSpec (log ++ [e]) = rxSpecStep (rxSpec log) e := by
  simp [rxSpec]

end Spec

section Invariant

variable {n : Nat} [NeZero n] {w : RxWorld n}

/-- The count of a discard that is under way. -/
def Tallied (w : RxWorld n) (dropped : Option UInt8) : Prop :=
  ∀ d, dropped = some d → d.toNat = (rxSpec w.log).count

/-- The discard was told that the oldest frame is stale. -/
def Stale (w : RxWorld n) (dropped : Option UInt8) : Prop :=
  dropped ≠ none → w.tail ≠ w.head ∧ (rxSpec w.log).ask = some (w.ring w.tail, false)

def ProdOk (w : RxWorld n) : Prop :=
  match w.prod with
  | .idle => True
  | .loadHead _ found => found = (w.ring, w.head)
  | .loadTail _ head found => head = w.head ∧ found = (w.ring, w.head)
  | .copy _ head => head = w.head ∧ gap w.tail w.head + 1 < n
  | .store x head => head = w.head ∧ gap w.tail w.head + 1 < n ∧ w.ring head = x

def ConsOk (w : RxWorld n) : Prop :=
  match w.cons with
  | .idle none => True
  | .idle (some (tail, x)) => tail = w.tail ∧ w.tail ≠ w.head ∧ w.ring tail = x
  | .peekTail dropped => Tallied w dropped
  | .peekHead dropped tail => tail = w.tail ∧ Tallied w dropped
  | .askLive dropped tail => tail = w.tail ∧ w.tail ≠ w.head ∧ Tallied w (some dropped)
  | .consumeTail dropped => Tallied w dropped ∧ Stale w dropped
  | .consumeHead dropped tail => tail = w.tail ∧ Tallied w dropped ∧ Stale w dropped
  | .consumeStore dropped tail => tail = w.tail ∧ w.tail ≠ w.head ∧ Tallied w dropped ∧ Stale w dropped
  | .resetTail => True
  | .resetHead tail => tail = w.tail
  | .resetStore tail head => tail = w.tail ∧ gap w.tail head ≤ gap w.tail w.head ∧
      (rxSpec w.log).published = contents w.ring w.tail head

/-- The ring holds what the events say, and the events are true. -/
structure Holding (ring : Fin n → RxItem) (tail head : Fin n) (log : List RxEvent) : Prop where
  frames : contents ring tail head = (rxSpec log).held
  fifo : log.flatMap RxEvent.put = log.flatMap RxEvent.taken ++ (rxSpec log).held
  reported : Traces.Always Reported log

structure RxInv (w : RxWorld n) : Prop where
  holding : Holding w.ring w.tail w.head w.log
  prod : ProdOk w
  cons : ConsOk w

/-- A discard is about to remove a frame that its count has no room for. -/
def RxWorld.overflows (w : RxWorld n) : RxAct → Bool
  | .consumer _ =>
    match w.cons with
    | .consumeStore (some dropped) _ => dropped == 255
    | _ => false
  | _ => false

theorem RxInv.init : RxInv (RxWorld.init n) := ⟨⟨contents_self _ _, rfl, .nil⟩, trivial, trivial⟩

section Events

variable {ring : Fin n → RxItem} {tail head : Fin n} {log : List RxEvent} {e : RxEvent}

theorem Holding.oldest (h : Holding ring tail head log) (hne : tail ≠ head) :
    (rxSpec log).held = ring tail :: contents ring (tail + 1) head := by
  rw [← h.frames, contents_next_left hne]

theorem Holding.oldest_head (h : Holding ring tail head log) (hne : tail ≠ head) :
    (rxSpec log).held.head? = some (ring tail) := by
  rw [h.oldest hne, List.head?_cons]

theorem Holding.note (h : Holding ring tail head log) (hput : e.put = []) (htaken : e.taken = [])
    (hheld : (rxSpecStep (rxSpec log) e).held = (rxSpec log).held) (hrep : Reported log e) :
    Holding ring tail head (log ++ [e]) := by
  refine ⟨?_, ?_, Traces.always_concat.mpr ⟨h.reported, hrep⟩⟩
  · rw [rxSpec_append, hheld, h.frames]
  · rw [rxSpec_append, hheld, List.flatMap_append, List.flatMap_append, h.fifo]
    simp [hput, htaken]

theorem Holding.take {tail' : Fin n} {gone : List RxItem} (h : Holding ring tail head log) (hput : e.put = [])
    (htaken : e.taken = gone) (hheld : (rxSpec log).held = gone ++ contents ring tail' head)
    (hstep : (rxSpecStep (rxSpec log) e).held = (rxSpec log).held.drop gone.length) (hrep : Reported log e) :
    Holding ring tail' head (log ++ [e]) := by
  have hrest : (rxSpecStep (rxSpec log) e).held = contents ring tail' head := by
    rw [hstep, hheld, List.drop_left]
  refine ⟨?_, ?_, Traces.always_concat.mpr ⟨h.reported, hrep⟩⟩
  · rw [rxSpec_append, hrest]
  · rw [rxSpec_append, hrest, List.flatMap_append, List.flatMap_append, h.fifo, hheld]
    simp [hput, htaken]

theorem Holding.publish (h : Holding ring tail head log) (hroom : gap tail head + 1 < n) :
    Holding ring tail (head + 1) (log ++ [.accepted (ring head)]) := by
  refine ⟨?_, ?_, Traces.always_concat.mpr ⟨h.reported, trivial⟩⟩
  · rw [rxSpec_append, contents_next_right hroom, h.frames]
    rfl
  · rw [rxSpec_append, List.flatMap_append, List.flatMap_append, h.fifo]
    simp [rxSpecStep, RxEvent.put, RxEvent.taken]

theorem Holding.copy (h : Holding ring tail head log) (x : RxItem) :
    Holding (Function.update ring head x) tail head log :=
  ⟨by rw [contents_update_of_le le_rfl, h.frames], h.fifo, h.reported⟩

end Events

/-- What the producer does leaves the consumer's knowledge true: the slots from the tail
up to the head are not written, and the head moves away from the tail. -/
theorem ConsOk.producer {w' : RxWorld n} (h : ConsOk w) (hcons : w'.cons = w.cons) (htail : w'.tail = w.tail)
    (hring : ∀ c, gap w.tail c < gap w.tail w.head → w'.ring c = w.ring c)
    (hgap : gap w.tail w.head ≤ gap w.tail w'.head)
    (hcount : (rxSpec w'.log).count = (rxSpec w.log).count) (hask : (rxSpec w'.log).ask = (rxSpec w.log).ask)
    (hpub : (rxSpec w'.log).published = (rxSpec w.log).published) : ConsOk w' := by
  have hne : w.tail ≠ w.head → w'.tail ≠ w'.head := by
    intro hne heq
    have hpos : gap w.tail w.head ≠ 0 := fun h0 => hne (gap_eq_zero.mp h0)
    rw [htail] at heq
    rw [← heq, gap_self] at hgap
    omega
  have hoff : w.tail ≠ w.head → w'.ring w.tail = w.ring w.tail := by
    intro hne
    have hpos : gap w.tail w.head ≠ 0 := fun h0 => hne (gap_eq_zero.mp h0)
    exact hring _ (by rw [gap_self]; omega)
  have hcounted : ∀ k, Tallied w k → Tallied w' k := fun k hk d hd => (hk d hd).trans hcount.symm
  have hstale : ∀ k, Stale w k → Stale w' k := by
    intro k hk hsome
    obtain ⟨hn, ha⟩ := hk hsome
    refine ⟨hne hn, ?_⟩
    rw [hask, ha, htail, hoff hn]
  unfold ConsOk at h ⊢
  rw [hcons]
  split
  · trivial
  · next tail x hc =>
    rw [hc] at h
    obtain ⟨rfl, hn, hx⟩ := h
    exact ⟨htail.symm, hne hn, (hoff hn).trans hx⟩
  · next hc => rw [hc] at h; exact hcounted _ h
  · next hc => rw [hc] at h; exact ⟨h.1.trans htail.symm, hcounted _ h.2⟩
  · next hc => rw [hc] at h; exact ⟨h.1.trans htail.symm, hne h.2.1, hcounted _ h.2.2⟩
  · next hc => rw [hc] at h; exact ⟨hcounted _ h.1, hstale _ h.2⟩
  · next hc => rw [hc] at h; exact ⟨h.1.trans htail.symm, hcounted _ h.2.1, hstale _ h.2.2⟩
  · next hc =>
    rw [hc] at h
    exact ⟨h.1.trans htail.symm, hne h.2.1, hcounted _ h.2.2.1, hstale _ h.2.2.2⟩
  · trivial
  · next hc => rw [hc] at h; exact h.trans htail.symm
  · next tail head hc =>
    rw [hc] at h
    obtain ⟨ht, hle, hp⟩ := h
    refine ⟨ht.trans htail.symm, by rw [htail]; omega, ?_⟩
    rw [hpub, hp, htail]
    exact slots_congr (fun c hlt => (hring c (by omega)).symm) (gap_lt _ _).le

omit [NeZero n] in
/-- What the consumer does leaves the producer's knowledge true: the tail only moves
towards the head. -/
theorem ProdOk.consumer {w' : RxWorld n} (h : ProdOk w) (hprod : w'.prod = w.prod) (hring : w'.ring = w.ring)
    (hhead : w'.head = w.head) (hgap : gap w'.tail w.head ≤ gap w.tail w.head) : ProdOk w' := by
  unfold ProdOk at h ⊢
  rw [hprod]
  split
  · trivial
  · next hp => rw [hp] at h; rw [hring, hhead]; exact h
  · next hp => rw [hp] at h; rw [hring, hhead]; exact h
  · next hp => rw [hp] at h; rw [hhead]; exact ⟨h.1, by omega⟩
  · next hp => rw [hp] at h; rw [hhead, hring]; exact ⟨h.1, by omega, h.2.2⟩

theorem RxInv.producer (h : RxInv w) : RxInv (odRxqPush w) := by
  obtain ⟨hh, hp, hc⟩ := h
  unfold odRxqPush
  split
  · exact ⟨hh, hp, hc⟩
  · next x found hprod =>
    rw [ProdOk, hprod] at hp
    exact ⟨hh, ⟨rfl, hp⟩, hc⟩
  · next x head found hprod =>
    rw [ProdOk, hprod] at hp
    obtain ⟨rfl, -⟩ := hp
    split_ifs with hfull
    · have hnote : Holding w.ring w.tail w.head (w.log ++ [.refused]) := hh.note rfl rfl rfl trivial
      refine ⟨hnote, trivial, hc.producer rfl rfl (fun _ _ => rfl) le_rfl ?_ ?_ ?_⟩ <;> rw [rxSpec_append] <;> rfl
    · refine ⟨hh, ⟨rfl, ?_⟩, hc⟩
      have hlt := gap_lt w.tail w.head
      show gap w.tail w.head + 1 < n
      by_contra hge
      refine hfull ?_
      have hlast : (w.head - w.tail).val + 1 = n := by
        unfold gap at hlt hge
        omega
      have hzero := val_add_one_of_last hlast
      rw [sub_add_eq_add_sub, sub_eq_zero] at hzero
      exact hzero
  · next x head hprod =>
    rw [ProdOk, hprod] at hp
    obtain ⟨rfl, hroom⟩ := hp
    refine ⟨hh.copy x, ⟨rfl, hroom, Function.update_self _ _ _⟩, hc.producer rfl rfl ?_ le_rfl rfl rfl rfl⟩
    intro c hlt
    refine Function.update_of_ne ?_ _ _
    rintro rfl
    omega
  · next x head hprod =>
    rw [ProdOk, hprod] at hp
    obtain ⟨rfl, hroom, rfl⟩ := hp
    refine ⟨hh.publish hroom, trivial, hc.producer rfl rfl (fun _ _ => rfl) ?_ ?_ ?_ ?_⟩
    · dsimp only
      rw [gap_next_right hroom]
      omega
    · rw [rxSpec_append]; rfl
    · rw [rxSpec_append]; rfl
    · rw [rxSpec_append]; rfl

/-- A discard returns: it has counted what it removed, and the oldest frame, if there is
one, is live. -/
theorem Holding.returned {ring : Fin n → RxItem} {tail head : Fin n} {log : List RxEvent} {dropped : UInt8}
    (h : Holding ring tail head log) (hcount : dropped.toNat = (rxSpec log).count)
    (hend : (rxSpec log).held = [] ∨ ∃ x, (rxSpec log).ask = some (x, true) ∧ (rxSpec log).held.head? = some x) :
    Holding ring tail head (log ++ [.discardReturned dropped]) :=
  h.note rfl rfl rfl ⟨hcount, hend⟩

omit [NeZero n] in
theorem tallied_none (w : RxWorld n) : Tallied w none := fun _ h => nomatch h

omit [NeZero n] in
theorem stale_none (w : RxWorld n) : Stale w none := fun h => absurd rfl h

theorem toNat_next {d : UInt8} (h : d ≠ 255) : (d + 1).toNat = d.toNat + 1 := by
  have hlt := d.toNat_lt
  have hne : d.toNat ≠ 255 := fun h' => h (UInt8.toNat_inj.mp h')
  rw [UInt8.toNat_add]
  exact Nat.mod_eq_of_lt (by simp; omega)

theorem RxInv.peek {dropped : Option UInt8} {tail : Fin n} {live : Bool} (h : RxInv w)
    (hcons : w.cons = .peekHead dropped tail) : RxInv (odRxqConsumer w live) := by
  obtain ⟨hh, hp, hc⟩ := h
  rw [ConsOk, hcons] at hc
  obtain ⟨rfl, hcount⟩ := hc
  cases dropped with
  | none =>
    rw [odRxqConsumer, hcons]
    dsimp only
    split_ifs with hempty
    · exact ⟨hh, hp.consumer rfl rfl rfl le_rfl, trivial⟩
    · exact ⟨hh, hp.consumer rfl rfl rfl le_rfl, rfl, hempty, rfl⟩
  | some d =>
    rw [odRxqConsumer, hcons]
    dsimp only
    split_ifs with hempty
    · have hheld : (rxSpec w.log).held = [] := by rw [← hh.frames, hempty, contents_self]
      have hfound : Holding w.ring w.tail w.head (w.log ++ [.foundEmpty]) := hh.note rfl rfl rfl hheld
      have hret : Holding w.ring w.tail w.head (w.log ++ [.foundEmpty] ++ [.discardReturned d]) := by
        refine hfound.returned ?_ (.inl ?_) <;> rw [rxSpec_append]
        · exact hcount d rfl
        · exact hheld
      rw [List.append_assoc] at hret
      exact ⟨hret, hp.consumer rfl rfl rfl le_rfl, trivial⟩
    · exact ⟨hh, hp.consumer rfl rfl rfl le_rfl, rfl, hempty, hcount⟩

theorem RxInv.ask {dropped : UInt8} {tail : Fin n} {live : Bool} (h : RxInv w)
    (hcons : w.cons = .askLive dropped tail) : RxInv (odRxqConsumer w live) := by
  obtain ⟨hh, hp, hc⟩ := h
  rw [ConsOk, hcons] at hc
  obtain ⟨rfl, hne, hcount⟩ := hc
  have hasked : Holding w.ring w.tail w.head (w.log ++ [.asked (w.ring w.tail) live]) :=
    hh.note rfl rfl rfl (hh.oldest_head hne)
  rw [odRxqConsumer, hcons]
  cases live with
  | true =>
    have hret : Holding w.ring w.tail w.head
        (w.log ++ [.asked (w.ring w.tail) true] ++ [.discardReturned dropped]) := by
      refine hasked.returned ?_ (.inr ⟨w.ring w.tail, ?_, ?_⟩) <;> rw [rxSpec_append]
      · exact hcount _ rfl
      · rfl
      · exact hh.oldest_head hne
    rw [List.append_assoc] at hret
    exact ⟨hret, hp.consumer rfl rfl rfl le_rfl, trivial⟩
  | false =>
    dsimp only
    rw [if_neg Bool.false_ne_true]
    refine ⟨hasked, hp.consumer rfl rfl rfl le_rfl, ?_, fun _ => ⟨hne, ?_⟩⟩
    · intro d hd
      rw [rxSpec_append]
      exact hcount d hd
    · rw [rxSpec_append]
      rfl

theorem RxInv.consume {dropped : Option UInt8} {tail : Fin n} {live : Bool} (h : RxInv w)
    (hcons : w.cons = .consumeHead dropped tail) : RxInv (odRxqConsumer w live) := by
  obtain ⟨hh, hp, hc⟩ := h
  rw [ConsOk, hcons] at hc
  obtain ⟨rfl, hcount, hstale⟩ := hc
  cases dropped with
  | none =>
    rw [odRxqConsumer, hcons]
    dsimp only
    split_ifs with hempty
    · exact ⟨hh, hp.consumer rfl rfl rfl le_rfl, trivial⟩
    · exact ⟨hh, hp.consumer rfl rfl rfl le_rfl, rfl, hempty, hcount, hstale⟩
  | some d =>
    have hne : w.tail ≠ w.head := (hstale (by simp)).1
    rw [odRxqConsumer, hcons]
    dsimp only
    rw [if_neg hne]
    exact ⟨hh, hp.consumer rfl rfl rfl le_rfl, rfl, hne, hcount, hstale⟩

theorem RxInv.advance {dropped : Option UInt8} {tail : Fin n} {live : Bool} (h : RxInv w)
    (hcons : w.cons = .consumeStore dropped tail) (hroom : dropped ≠ some 255) : RxInv (odRxqConsumer w live) := by
  obtain ⟨hh, hp, hc⟩ := h
  rw [ConsOk, hcons] at hc
  obtain ⟨rfl, hne, hcount, hstale⟩ := hc
  have hgap : gap (w.tail + 1) w.head ≤ gap w.tail w.head := by
    have := gap_next_left hne
    omega
  have hheld : (rxSpec w.log).held = [w.ring w.tail] ++ contents w.ring (w.tail + 1) w.head := hh.oldest hne
  have hleft : (rxSpec w.log).held.tail = (rxSpec w.log).held.drop [w.ring w.tail].length := by
    rw [hheld]
    rfl
  cases dropped with
  | none =>
    rw [odRxqConsumer, hcons]
    refine ⟨?_, hp.consumer rfl rfl rfl hgap, trivial⟩
    exact hh.take rfl rfl hheld hleft (hh.oldest_head hne)
  | some d =>
    rw [odRxqConsumer, hcons]
    have hask := (hstale (by simp)).2
    refine ⟨?_, hp.consumer rfl rfl rfl hgap, ?_⟩
    · exact hh.take rfl rfl hheld hleft ⟨hh.oldest_head hne, hask⟩
    · rintro _ ⟨⟩
      rw [rxSpec_append, toNat_next (fun h => hroom (congrArg some h)), hcount d rfl]
      rfl

/-- A reset removes what was held when it loaded the head, whatever was pushed since. -/
theorem RxInv.resetStore {tail head : Fin n} {live : Bool} (h : RxInv w) (hn : n ≤ 255)
    (hcons : w.cons = .resetStore tail head) : RxInv (odRxqConsumer w live) := by
  obtain ⟨hh, hp, hc⟩ := h
  rw [ConsOk, hcons] at hc
  obtain ⟨rfl, hle, hpub⟩ := hc
  have hheld : (rxSpec w.log).held = contents w.ring w.tail head ++ contents w.ring head w.head := by
    rw [← hh.frames, contents_split hle]
  have hgap : gap head w.head ≤ gap w.tail w.head := by
    have hlt := gap_lt w.tail w.head
    have hlt' := gap_lt head w.head
    rcases gap_add_gap w.tail head w.head with hsum | hsum <;> omega
  have hcount : (occupancy head w.tail).toNat = (contents w.ring w.tail head).length := by
    have hlt := gap_lt w.tail head
    rw [contents_length, occupancy, UInt8.toNat_ofNat']
    exact Nat.mod_eq_of_lt (by omega)
  rw [odRxqConsumer, hcons]
  refine ⟨?_, hp.consumer rfl rfl rfl hgap, trivial⟩
  exact hh.take rfl rfl hheld rfl ⟨hpub.symm, ⟨_, hheld.symm⟩, hcount⟩

theorem RxInv.resetHead {tail : Fin n} {live : Bool} (h : RxInv w)
    (hcons : w.cons = .resetHead tail) : RxInv (odRxqConsumer w live) := by
  obtain ⟨hh, hp, hc⟩ := h
  rw [ConsOk, hcons] at hc
  obtain rfl := hc
  have hloaded : Holding w.ring w.tail w.head (w.log ++ [.resetLoaded]) := hh.note rfl rfl rfl trivial
  have hpub : (rxSpec (w.log ++ [.resetLoaded])).published = contents w.ring w.tail w.head := by
    rw [rxSpec_append, hh.frames]
    rfl
  rw [odRxqConsumer, hcons]
  dsimp only
  split_ifs with hempty
  · have hnone : contents w.ring w.tail w.head = [] := by rw [hempty, contents_self]
    have hret := hloaded.note (e := .resetReturned [] 0) rfl rfl rfl
      ⟨by rw [hpub, hnone], List.nil_prefix, rfl⟩
    rw [List.append_assoc] at hret
    exact ⟨hret, hp.consumer rfl rfl rfl le_rfl, trivial⟩
  · exact ⟨hloaded, hp.consumer rfl rfl rfl le_rfl, rfl, le_rfl, hpub⟩

theorem RxInv.consumer {live : Bool} (h : RxInv w) (hn : n ≤ 255) (hroom : w.overflows (.consumer live) = false) :
    RxInv (odRxqConsumer w live) := by
  cases hcons : w.cons with
  | idle item =>
    rw [odRxqConsumer, hcons]
    exact h
  | peekTail dropped =>
    obtain ⟨hh, hp, hc⟩ := h
    rw [ConsOk, hcons] at hc
    rw [odRxqConsumer, hcons]
    exact ⟨hh, hp.consumer rfl rfl rfl le_rfl, rfl, hc⟩
  | peekHead dropped tail => exact h.peek hcons
  | askLive dropped tail => exact h.ask hcons
  | consumeTail dropped =>
    obtain ⟨hh, hp, hc⟩ := h
    rw [ConsOk, hcons] at hc
    rw [odRxqConsumer, hcons]
    exact ⟨hh, hp.consumer rfl rfl rfl le_rfl, rfl, hc⟩
  | consumeHead dropped tail => exact h.consume hcons
  | consumeStore dropped tail =>
    refine h.advance hcons ?_
    rintro rfl
    rw [RxWorld.overflows, hcons] at hroom
    simp at hroom
  | resetTail =>
    obtain ⟨hh, hp, hc⟩ := h
    rw [odRxqConsumer, hcons]
    exact ⟨hh, hp.consumer rfl rfl rfl le_rfl, rfl⟩
  | resetHead tail => exact h.resetHead hcons
  | resetStore tail head => exact h.resetStore hn hcons

theorem RxInv.step {a : RxAct} (h : RxInv w) (hn : n ≤ 255) (hroom : w.overflows a = false) : RxInv (w.step a) := by
  cases a with
  | push x =>
    obtain ⟨hh, hp, hc⟩ := h
    rw [RxWorld.step]
    split
    · next hidle =>
      rw [ProdOk, hidle] at hp
      split_ifs with hsize
      · have hnote : Holding w.ring w.tail w.head (w.log ++ [.refused]) := hh.note rfl rfl rfl trivial
        refine ⟨hnote, ?_, hc.producer rfl rfl (fun _ _ => rfl) le_rfl ?_ ?_ ?_⟩
        · rw [ProdOk, hidle]
          trivial
        all_goals rw [rxSpec_append]; rfl
      · exact ⟨hh, rfl, hc⟩
    · exact ⟨hh, hp, hc⟩
  | producer => exact h.producer
  | peek =>
    rw [RxWorld.step]
    split
    · exact ⟨h.holding, h.prod.consumer rfl rfl rfl le_rfl, tallied_none _⟩
    · exact h
  | consume =>
    rw [RxWorld.step]
    split
    · exact ⟨h.holding, h.prod.consumer rfl rfl rfl le_rfl, tallied_none _, stale_none _⟩
    · exact h
  | discardStale =>
    rw [RxWorld.step]
    split
    · refine ⟨h.holding.note rfl rfl rfl trivial, h.prod.consumer rfl rfl rfl le_rfl, ?_⟩
      rintro _ ⟨⟩
      rw [rxSpec_append]
      rfl
    · exact h
  | reset =>
    rw [RxWorld.step]
    split
    · exact ⟨h.holding, h.prod.consumer rfl rfl rfl le_rfl, trivial⟩
    · exact h
  | consumer live => exact h.consumer hn hroom
  | read =>
    rw [RxWorld.step]
    split
    · next tail x hidle =>
      obtain ⟨hh, hp, hc⟩ := h
      rw [ConsOk, hidle] at hc
      obtain ⟨rfl, hne, rfl⟩ := hc
      refine ⟨hh.note rfl rfl rfl (hh.oldest_head hne), hp.consumer rfl rfl rfl le_rfl, ?_⟩
      rw [ConsOk, hidle]
      exact ⟨rfl, hne, rfl⟩
    · exact h

end Invariant

section Runs

/-- No discard of the run gets to remove a frame when its count stands at 255. -/
def RxBounded (n : Nat) [NeZero n] (acts : List RxAct) : Prop :=
  Traces.Always (fun pre a => (rxRun n pre).overflows a = false) acts

/-- What the producer found when its push began, until it writes. -/
def ProdPc.found {n : Nat} : ProdPc n → Option ((Fin n → RxItem) × Fin n)
  | .loadHead _ found => some found
  | .loadTail _ _ found => some found
  | _ => none

/-- The ring is a lossless queue: it holds, intact and in order, what was accepted and
not yet taken, one slot is left unused, what is reported is true of the frames held,
the slot that was peeked is the oldest frame until it is consumed, and a push that is
refused changes nothing from its first step to its last. -/
structure RxLossless {n : Nat} [NeZero n] (w : RxWorld n) : Prop where
  held : contents w.ring w.tail w.head = (rxSpec w.log).held
  fifo : w.log.flatMap RxEvent.put = w.log.flatMap RxEvent.taken ++ (rxSpec w.log).held
  room : (rxSpec w.log).held.length ≤ n - 1
  reported : Traces.Always Reported w.log
  peeked : ∀ tail x, w.cons = .idle (some (tail, x)) → w.ring tail = x ∧ (rxSpec w.log).held.head? = some x
  untouched : ∀ found, w.prod.found = some found → found = (w.ring, w.head)
  refused : ∀ a, (w.step a).log = w.log ++ [.refused] →
    (w.step a).ring = w.ring ∧ (w.step a).head = w.head ∧ (w.step a).tail = w.tail ∧ (w.step a).cons = w.cons

variable {n : Nat} [NeZero n] {w : RxWorld n}

theorem rxRun_concat (acts : List RxAct) (a : RxAct) : rxRun n (acts ++ [a]) = (rxRun n acts).step a := by
  simp [rxRun]

theorem rxRun_inv {acts : List RxAct} (hn : n ≤ 255) (h : RxBounded n acts) : RxInv (rxRun n acts) := by
  induction acts using List.reverseRecOn with
  | nil => exact .init
  | append_singleton acts a ih =>
    obtain ⟨hacts, ha⟩ := Traces.always_concat.mp h
    rw [rxRun_concat]
    exact (ih hacts).step hn ha

theorem odRxqPush_refused (h : (odRxqPush w).log = w.log ++ [.refused]) :
    (odRxqPush w).ring = w.ring ∧ (odRxqPush w).head = w.head ∧ (odRxqPush w).tail = w.tail ∧
      (odRxqPush w).cons = w.cons := by
  unfold odRxqPush at h ⊢
  split at h
  · simp at h
  · simp at h
  · split_ifs at h ⊢
    · exact ⟨rfl, rfl, rfl, rfl⟩
    · simp at h
  · simp at h
  · simp at h

theorem odRxqConsumer_ne_refused (live : Bool) : (odRxqConsumer w live).log ≠ w.log ++ [.refused] := by
  unfold odRxqConsumer
  split
  all_goals try split_ifs
  all_goals simp

theorem step_refused {a : RxAct} (h : (w.step a).log = w.log ++ [.refused]) :
    (w.step a).ring = w.ring ∧ (w.step a).head = w.head ∧ (w.step a).tail = w.tail ∧ (w.step a).cons = w.cons := by
  cases a with
  | push x =>
    rw [RxWorld.step]
    split
    · split_ifs <;> exact ⟨rfl, rfl, rfl, rfl⟩
    · exact ⟨rfl, rfl, rfl, rfl⟩
  | producer => exact odRxqPush_refused h
  | consumer live => exact absurd h (odRxqConsumer_ne_refused live)
  | peek | consume | discardStale | reset | read =>
    rw [RxWorld.step] at h
    split at h <;> simp at h

theorem RxInv.lossless (h : RxInv w) : RxLossless w := by
  obtain ⟨⟨hframes, hfifo, hreported⟩, hp, hc⟩ := h
  refine ⟨hframes, hfifo, ?_, hreported, ?_, ?_, fun a => step_refused⟩
  · have hlt := gap_lt w.tail w.head
    rw [← hframes, contents_length]
    omega
  · intro tail x hidle
    rw [ConsOk, hidle] at hc
    obtain ⟨rfl, hne, rfl⟩ := hc
    exact ⟨rfl, Holding.oldest_head ⟨hframes, hfifo, hreported⟩ hne⟩
  · intro found hfound
    rw [ProdOk] at hp
    cases hprod : w.prod <;> rw [hprod] at hp hfound
    case loadHead => exact (Option.some.inj hfound).symm.trans hp
    case loadTail => exact (Option.some.inj hfound).symm.trans hp.2
    all_goals simp [ProdPc.found] at hfound

/-- In every interleaving in which no discard's count runs over, the ring is a lossless queue. -/
theorem rx_lossless (slots : RxSlots) (acts : List RxAct) (h : RxBounded slots.count acts) :
    RxLossless (rxRun slots.count acts) :=
  (rxRun_inv slots.le h).lossless

def defaultSlots : RxSlots := ⟨34, by decide, by decide⟩

/-- A frame is pushed and seen, and a discard then removes it. -/
def seenThenStale (x : RxItem) : List RxAct :=
  [.push x, .producer, .producer, .producer, .producer, .peek, .consumer true, .consumer true, .read,
    .discardStale, .consumer false, .consumer false, .consumer false, .consumer false, .consumer false,
    .consumer false, .consumer true, .consumer true]

theorem rx_lossless_stale : RxBounded defaultSlots.count (seenThenStale ⟨[0x00, 0x43], 7⟩) ∧
    RxLossless (rxRun defaultSlots.count (seenThenStale ⟨[0x00, 0x43], 7⟩)) := by
  have h : RxBounded defaultSlots.count (seenThenStale ⟨[0x00, 0x43], 7⟩) :=
    Traces.always_iff_getElem.mpr (by decide)
  exact ⟨h, rx_lossless _ _ h⟩

/-- A discard has counted `d` while it removed `k` frames, and the ring is empty. -/
structure Spinning (w : RxWorld n) (d : UInt8) (k : Nat) : Prop where
  prod : w.prod = .idle
  empty : w.head = w.tail
  cons : w.cons = .peekTail (some d)
  count : (rxSpec w.log).count = k

/-- A frame is pushed, and the discard that is under way removes it. -/
def spin : List RxAct :=
  [.push ⟨[0], 0⟩, .producer, .producer, .producer, .producer, .consumer false, .consumer false,
    .consumer false, .consumer false, .consumer false, .consumer false]

theorem Spinning.spin {d : UInt8} {k : Nat} (h : Spinning w d k) (hn : ∀ i : Fin n, i + 1 ≠ i) :
    Spinning (OpenDisplay.spin.foldl RxWorld.step w) (d + 1) (k + 1) := by
  obtain ⟨ring, head, tail, prod, cons, log⟩ := w
  obtain ⟨hp, he, hc, hk⟩ := h
  dsimp only at hp he hc hk
  subst hp he hc hk
  have hnext : ∀ i : Fin n, i ≠ i + 1 := fun i h => hn i h.symm
  have hfold : OpenDisplay.spin.foldl RxWorld.step ⟨ring, head, head, .idle, .peekTail (some d), log⟩ =
      ⟨Function.update ring head ⟨[0], 0⟩, head + 1, head + 1, .idle, .peekTail (some (d + 1)),
        log ++ [.accepted ⟨[0], 0⟩, .asked ⟨[0], 0⟩ false, .discarded ⟨[0], 0⟩]⟩ := by
    simp [OpenDisplay.spin, RxWorld.step, odRxqPush, odRxqConsumer, odRxqValueMaxBle, hn, hnext]
  rw [hfold]
  refine ⟨rfl, rfl, rfl, ?_⟩
  simp [rxSpec, rxSpecStep]

theorem spinning_spins (hn : ∀ i : Fin n, i + 1 ≠ i) (k : Nat) :
    Spinning ((List.replicate k OpenDisplay.spin).flatten.foldl RxWorld.step (rxRun n [.discardStale]))
      (UInt8.ofNat k) k := by
  induction k with
  | zero => exact ⟨rfl, rfl, rfl, rfl⟩
  | succ k ih =>
    rw [List.replicate_succ', List.flatten_concat, List.foldl_append, UInt8.ofNat_add]
    exact ih.spin hn

/-- A discard that removes one frame after another as they are pushed, until its count
has wrapped, and that then finds the ring empty. -/
def wrappingDiscard : List RxAct :=
  [.discardStale] ++ (List.replicate 256 spin).flatten ++ [.consumer false, .consumer false]

/-- It has removed 256 frames and returns zero. -/
theorem discard_count_wraps : ¬RxLossless (rxRun defaultSlots.count wrappingDiscard) := by
  intro h
  have hspin := spinning_spins (n := defaultSlots.count) (by decide) 256
  rw [rxRun, wrappingDiscard, List.foldl_append, List.foldl_append] at h
  change RxLossless ([RxAct.consumer false, .consumer false].foldl RxWorld.step
    ((List.replicate 256 spin).flatten.foldl RxWorld.step (rxRun defaultSlots.count [.discardStale]))) at h
  generalize (List.replicate 256 spin).flatten.foldl RxWorld.step (rxRun defaultSlots.count [.discardStale]) = w
    at h hspin
  obtain ⟨ring, head, tail, prod, cons, log⟩ := w
  obtain ⟨hp, he, hc, hk⟩ := hspin
  dsimp only at hp he hc hk
  subst hp he hc
  have hrep := h.reported (log ++ [.foundEmpty]) (.discardReturned 0) [] (by
    simp [RxWorld.step, odRxqConsumer])
  have hcount := hrep.1
  rw [rxSpec_append] at hcount
  have hzero : (rxSpec log).count = 0 := hcount.symm
  omega

end Runs

end OpenDisplay
