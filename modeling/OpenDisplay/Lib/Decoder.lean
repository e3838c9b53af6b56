import OpenDisplay.Lib.Memory

/-! Incremental decoders of a stream format. A decoder is called again and again with the
input that has come so far and puts what it decodes into a ring, which is also its history:
what it may rely on there, and what it owes in return, whatever the cuts of its input. -/

namespace Decoders

open Memories

variable {σ α β ε : Type*} {n : Nat}

/-- The streams of a format, and what each stands for. -/
abbrev Format (α β : Type*) := List α → List β → Prop

/-- Where a stream ends, and what it stands for, is known from the stream alone. -/
structure SelfDelimiting (code : Format α β) : Prop where
  nonempty : ∀ {x}, ¬ code [] x
  unique : ∀ {z z' x x'}, code z x → code z' x' → z <+: z' → z = z' ∧ x = x'

/-- Of two prefixes of one string, one is a prefix of the other. -/
theorem SelfDelimiting.unique_within {code : Format α β} (hcode : SelfDelimiting code) {z z' xs : List α}
    {x x' : List β} (h : code z x) (h' : code z' x') (hz : z <+: xs) (hz' : z' <+: xs) : z = z' ∧ x = x' := by
  rcases List.prefix_or_prefix_of_prefix hz hz' with hpre | hpre
  · exact hcode.unique h h' hpre
  · obtain ⟨rfl, rfl⟩ := hcode.unique h' h hpre
    exact ⟨rfl, rfl⟩

section Ring

/-- The last `n` of the elements stand in the ring, each at its place modulo `n`. -/
def InRing (n : Nat) (ring : Memory β) (out : List β) : Prop :=
  ∀ i (h : i < out.length), out.length ≤ i + n → ring (i % n) = out[i]

theorem InRing.nil (ring : Memory β) : InRing n ring [] := fun i hi => absurd hi (Nat.not_lt_zero i)

/-- What goes on from the last element, up to the end of the ring, leaves the rest of the
history in place. -/
theorem InRing.write {ring : Memory β} {out more : List β} (h : InRing n ring out)
    (hle : out.length % n + more.length ≤ n) : InRing n (store ring (out.length % n) more) (out ++ more) := by
  intro i hi hnear
  rw [List.length_append] at hi hnear
  have hplace : ∀ k < more.length, (out.length + k) % n = out.length % n + k := by
    intro k hk
    rw [← Nat.mod_add_mod, Nat.mod_eq_of_lt (by omega)]
  by_cases hlt : i < out.length
  · rw [List.getElem_append_left hlt, ← h i hlt (by omega)]
    apply dif_neg
    rintro ⟨hge, hk⟩
    -- the place would be that of a later element less than a round away
    have hmod := hplace _ hk
    rw [Nat.add_sub_cancel' hge] at hmod
    have hzero := Nat.sub_mod_eq_zero_of_mod_eq hmod
    rw [Nat.mod_eq_of_lt (by omega)] at hzero
    omega
  · obtain ⟨k, rfl⟩ := Nat.exists_eq_add_of_le (Nat.le_of_not_lt hlt)
    have hk : k < more.length := by omega
    rw [List.getElem_append_right (by omega), hplace k hk]
    simp [store, hk]

end Ring

inductive Status (ε : Type*) where
  | failed (reason : ε)
  | done | needsMoreInput | hasMoreOutput

/-- What a call returns: how much of its input it took, and what it put into the ring. -/
structure Result (σ β ε : Type*) where
  status : Status ε
  consumed : Nat
  out : List β
  state : σ

/-- A decoder over a ring of `n` places. A call has the input at hand, the ring, the place
to go on from and the room there, and whether more input may follow. It asks for more room
only when it has used what it had. -/
structure Decoder (n : Nat) (σ α β ε : Type*) where
  init : σ
  call : σ → List α → Memory β → Nat → Nat → Bool → Result σ β ε
  fills : ∀ {s input ring ofs room more}, 0 < room →
    (call s input ring ofs room more).status = .hasMoreOutput → (call s input ring ofs room more).out ≠ []

def Status.Waits : Status ε → Prop
  | .needsMoreInput | .hasMoreOutput => True
  | .failed _ | .done => False

/-- The decoder has taken `c` and given `o` so far, in calls that were each made with its
own output in the ring. -/
inductive Served (d : Decoder n σ α β ε) : σ → List α → List β → Prop where
  | init : Served d d.init [] []
  | call {s : σ} {c input : List α} {o : List β} {ring : Memory β} {room : Nat} {more : Bool} : Served d s c o →
      InRing n ring o → 0 < room → o.length % n + room ≤ n →
      (d.call s input ring (o.length % n) room more).status.Waits →
      Served d (d.call s input ring (o.length % n) room more).state
        (c ++ input.take (d.call s input ring (o.length % n) room more).consumed)
        (o ++ (d.call s input ring (o.length % n) room more).out)

/-- What a call owes after `c` was taken and `o` given. It stays inside its input and its
room; it takes nothing after the end of a stream and gives only what the stream stands for;
it is done at the end of a stream, and there at the latest asks for no more input; and it
fails only where there is no stream, nor with what may follow. -/
structure Serves (code : Format α β) (c : List α) (o : List β) (input : List α) (room : Nat) (more : Bool)
    (r : Result σ β ε) : Prop where
  consumed_le : r.consumed ≤ input.length
  out_le : r.out.length ≤ room
  takes : ∀ {z x}, (∀ e, r.status ≠ .failed e) → code z x → z <+: c ++ input.take r.consumed →
    z = c ++ input.take r.consumed
  gives : ∀ {z x}, (∀ e, r.status ≠ .failed e) → code z x → c ++ input.take r.consumed <+: z → o ++ r.out <+: x
  done : r.status = .done → code (c ++ input.take r.consumed) (o ++ r.out)
  needs : r.status = .needsMoreInput →
    more = true ∧ r.consumed = input.length ∧ ∀ x, ¬ code (c ++ input.take r.consumed) x
  failed : ∀ {e z x}, r.status = .failed e → code z x →
    ¬ z <+: c ++ input ∧ (more = true → ¬ c ++ input <+: z)

/-- The decoder is right for a format: every call it gets serves it. -/
def Correct (code : Format α β) (d : Decoder n σ α β ε) : Prop :=
  ∀ {s c o input ring room more}, Served d s c o → InRing n ring o → 0 < room → o.length % n + room ≤ n →
    Serves code c o input room more (d.call s input ring (o.length % n) room more)

section Correct

variable {code : Format α β} {d : Decoder n σ α β ε} {s : σ} {c : List α} {o : List β}

theorem Status.Waits.not_failed {status : Status ε} (h : status.Waits) (e : ε) : status ≠ .failed e := by
  rintro rfl
  exact h

/-- What has been taken is no more than one stream, and what has been given is part of what
it stands for. -/
theorem Served.within (hd : Correct code d) (h : Served d s c o) {z : List α} {x : List β} (hz : code z x) :
    (z <+: c → z = c) ∧ (c <+: z → o <+: x) := by
  cases h with
  | init => exact ⟨fun hpre => List.prefix_nil.mp hpre, fun _ => List.nil_prefix⟩
  | call hr hring hroom hfit hwaits =>
    exact ⟨(hd hr hring hroom hfit).takes hwaits.not_failed hz, (hd hr hring hroom hfit).gives hwaits.not_failed hz⟩

end Correct

section Buffering

/-- A decoder that reads a whole stream before it gives anything. -/
inductive Buffering (α β : Type*) where
  | reading (kept : List α)
  | writing (left : List β)

variable (code : Format α β) (reason : ε)

/-- As much of the output as there is room for. -/
def emit (consumed : Nat) (left : List β) (room : Nat) : Result (Buffering α β) β ε :=
  if left.length ≤ room then ⟨.done, consumed, left, .writing []⟩
  else ⟨.hasMoreOutput, consumed, left.take room, .writing (left.drop room)⟩

open Classical in
noncomputable def bufferingCall (s : Buffering α β) (input : List α) (room : Nat) (more : Bool) :
    Result (Buffering α β) β ε :=
  match s with
  | .reading kept =>
    if h : ∃ p : List α × List β, code p.1 p.2 ∧ p.1 <+: kept ++ input then
      emit (h.choose.1.length - kept.length) h.choose.2 room
    else if more = true ∧ ∃ z x, code z x ∧ kept ++ input <+: z then
      ⟨.needsMoreInput, input.length, [], .reading (kept ++ input)⟩
    else ⟨.failed reason, 0, [], .reading kept⟩
  | .writing left => emit 0 left room

variable {code reason} {kept c input : List α} {o left : List β} {room : Nat} {more : Bool}

theorem emit_fills {k : Nat} {r : Result (Buffering α β) β ε} (hr : r = emit k left room) (hroom : 0 < room)
    (h : r.status = .hasMoreOutput) : r.out ≠ [] := by
  subst hr
  unfold emit at h ⊢
  split_ifs at h ⊢ with hle
  intro hnil
  have hlen := congrArg List.length hnil
  rw [List.length_take, List.length_nil] at hlen
  omega

variable (code reason) in
noncomputable def buffering : Decoder n (Buffering α β) α β ε where
  init := .reading []
  call s input _ _ room more := bufferingCall code reason s input room more
  fills {s input _ _ room more} hroom h := by
    cases s with
    | reading kept =>
      unfold bufferingCall at h ⊢
      dsimp only at h ⊢
      split_ifs at h ⊢ with hstream
      exact emit_fills rfl hroom h
    | writing left => exact emit_fills rfl hroom h

/-- Nothing is given before a stream is complete, and then what it stands for piece by piece. -/
def Buffering.Holds (code : Format α β) (c : List α) (o : List β) : Buffering α β → Prop
  | .reading kept => c = kept ∧ o = [] ∧ ∀ z x, code z x → ¬ z <+: kept
  | .writing left => code c (o ++ left)

theorem emit_serves {k : Nat} {r : Result (Buffering α β) β ε} (hcode : SelfDelimiting code)
    (hr : r = emit k left room) (hk : k ≤ input.length) (h : code (c ++ input.take k) (o ++ left)) :
    Serves code c o input room more r := by
  have htakes : ∀ {z x}, code z x → z <+: c ++ input.take k → z = c ++ input.take k :=
    fun hz hpre => (hcode.unique hz h hpre).1
  have hgives : ∀ {z x}, code z x → c ++ input.take k <+: z → o ++ left = x :=
    fun hz hpre => (hcode.unique h hz hpre).2
  subst hr
  unfold emit
  split_ifs with hroom
  · exact ⟨hk, hroom, fun _ => htakes, fun _ hz hpre => (hgives hz hpre) ▸ List.prefix_rfl, fun _ => h, nofun, nofun⟩
  · refine ⟨hk, List.length_take_le _ _, fun _ => htakes, fun _ hz hpre => ?_, nofun, nofun, nofun⟩
    rw [← hgives hz hpre]
    have htake := List.take_prefix room left
    exact (List.prefix_append_right_inj o).mpr htake

theorem emit_holds {k : Nat} {r : Result (Buffering α β) β ε} (hr : r = emit k left room)
    (h : code (c ++ input.take k) (o ++ left)) : r.state.Holds code (c ++ input.take r.consumed) (o ++ r.out) := by
  subst hr
  unfold emit
  split_ifs with hroom
  · show code _ (o ++ left ++ [])
    rwa [List.append_nil]
  · show code _ (o ++ left.take room ++ left.drop room)
    rwa [List.append_assoc, List.take_append_drop]

theorem bufferingCall_serves {s : Buffering α β} (hcode : SelfDelimiting code) (h : s.Holds code c o) :
    Serves code c o input room more (bufferingCall code reason s input room more) ∧
      ((bufferingCall code reason s input room more).status.Waits →
        (bufferingCall code reason s input room more).state.Holds code
          (c ++ input.take (bufferingCall code reason s input room more).consumed)
          (o ++ (bufferingCall code reason s input room more).out)) := by
  cases s with
  | writing left =>
    have hall : code (c ++ input.take 0) (o ++ left) := by
      rw [List.take_zero, List.append_nil]
      exact h
    exact ⟨emit_serves hcode rfl (Nat.zero_le _) hall, fun _ => emit_holds rfl hall⟩
  | reading kept =>
    obtain ⟨rfl, rfl, hnone⟩ := h
    unfold bufferingCall
    dsimp only
    split_ifs with hstream hmay
    · obtain ⟨hz, hpre⟩ := hstream.choose_spec
      -- the stream ends in the input, as it does not end before
      have hor := List.prefix_or_prefix_of_prefix hpre (List.prefix_append c input)
      obtain ⟨t, ht⟩ := hor.resolve_left (hnone _ _ hz)
      rw [← ht, List.prefix_append_right_inj] at hpre
      have hlen : hstream.choose.1.length - c.length = t.length := by
        rw [← ht, List.length_append, Nat.add_sub_cancel_left]
      have htake : input.take t.length = t := (List.prefix_iff_eq_take.mp hpre).symm
      have hall : code (c ++ input.take t.length) ([] ++ hstream.choose.2) := by rwa [htake, ht]
      rw [hlen]
      exact ⟨emit_serves hcode rfl hpre.length_le hall, fun _ => emit_holds rfl hall⟩
    · have hno : ∀ z x, code z x → ¬ z <+: c ++ input := fun z x hz hpre => hstream ⟨(z, x), hz, hpre⟩
      have htake : input.take input.length = input := List.take_length
      refine ⟨⟨Nat.le_refl _, Nat.zero_le _, fun _ hz hpre => ?_, fun _ _ _ => List.nil_prefix, nofun,
        fun _ => ⟨hmay.1, rfl, fun x hx => ?_⟩, nofun⟩, fun _ => ?_⟩
      · rw [htake] at hpre
        exact absurd hpre (hno _ _ hz)
      · rw [htake] at hx
        exact hno _ _ hx List.prefix_rfl
      · rw [htake]
        exact ⟨rfl, rfl, hno⟩
    · refine ⟨⟨Nat.zero_le _, Nat.zero_le _, fun h => absurd rfl (h reason), fun h => absurd rfl (h reason), nofun,
        nofun, fun _ hz => ⟨fun hpre => hstream ⟨(_, _), hz, hpre⟩, fun hmore hpre => hmay ⟨hmore, _, _, hz, hpre⟩⟩⟩,
        False.elim⟩

theorem buffering_holds {s : Buffering α β} (hcode : SelfDelimiting code)
    (h : Served (n := n) (buffering code reason) s c o) : s.Holds code c o := by
  induction h with
  | init => exact ⟨rfl, rfl, fun z x hz hpre => hcode.nonempty (List.prefix_nil.mp hpre ▸ hz)⟩
  | call _ _ _ _ hwaits ih => exact (bufferingCall_serves hcode ih).2 hwaits

/-- There is a right decoder for every format whose streams end by themselves. -/
theorem buffering_correct (hcode : SelfDelimiting code) : Correct code (buffering (n := n) code reason) :=
  fun hreached _ _ _ => (bufferingCall_serves hcode (buffering_holds hcode hreached)).1

end Buffering

end Decoders
