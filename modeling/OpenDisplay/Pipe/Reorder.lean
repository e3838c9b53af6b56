import OpenDisplay.Pipe.Window

/-! The reorder buffer: when a frame that was accepted early keeps its slot, and
when two sequence numbers of one window share one. -/

namespace OpenDisplay

open Serial

/-- Sequence numbers that a window of 32 can hold together in one slot. -/
def clashes (s t : UInt8) : Bool := s.toNat + 231 = t.toNat ∨ t.toNat + 231 = s.toNat

instance (seq : UInt8) (d : Dev) : Decidable (Early seq d) := inferInstanceAs (Decidable (_ ∧ _))

/-- The frame is stored early, while a frame that clashes with it is held. -/
def clash (cmd : Cmd) (d : Dev) : Bool :=
  match cmd with
  | .pipeData ctx body => !pipeIgnores ctx body d && pipeFrameFits ctx (body.drop 1) d &&
      decide (Early (byteAt body 0) d) &&
      decide (∃ i, (d.reorder i).occupied = true ∧ clashes (byteAt body 0) (d.reorder i).seq = true)
  | _ => false

/-- No command of the run stores a frame that clashes with a held one. -/
def clashFree : List (App × Cmd) → Dev → Bool
  | [], _ => true
  | c :: cs, d => !clash c.2 d && clashFree cs (step c.1 c.2 d)

theorem clashFree_append (xs ys : List (App × Cmd)) (d : Dev) :
    clashFree (xs ++ ys) d = (clashFree xs d && clashFree ys (run xs d)) := by
  induction xs generalizing d with
  | nil => rfl
  | cons c xs ih =>
    simp only [List.cons_append, clashFree, ih, Bool.and_assoc]
    rfl

section Slots

variable {k w : Nat} {s t : UInt8} {d : Dev}

/-- Two sequence numbers of one window share a slot only when they are 231 apart:
the numbers from 231 to 255 and those that follow the wrap. -/
theorem pipeSlot_eq_iff (hw : w ≤ 32) (hs : lift k s < k + w) (ht : lift k t < k + w)
    (hne : s ≠ t) : pipeSlot s = pipeSlot t ↔ clashes s t = true := by
  have hne' : s.toNat ≠ t.toNat := fun h => hne (UInt8.toNat_inj.mp h)
  have hs' := s.toNat_lt
  have ht' := t.toNat_lt
  have hk := (UInt8.ofNat k).toNat_lt
  unfold lift at hs ht
  rw [UInt8.toNat_sub] at hs ht
  -- they lie close together, or on both sides of the wrap
  have hclose : s.toNat < t.toNat + 32 ∧ t.toNat < s.toNat + 32 ∨ s.toNat + 224 < t.toNat ∨
      t.toNat + 224 < s.toNat := by omega
  simp only [pipeSlot, Fin.mk.injEq, clashes, decide_eq_true_eq,
    show odPipeReorderSlots = 33 from rfl]
  omega

theorem not_clashes_of_narrow (hw : w ≤ 26) (hs : k < lift k s ∧ lift k s < k + w)
    (ht : k < lift k t ∧ lift k t < k + w) : clashes s t = false := by
  have hs' := s.toNat_lt
  have ht' := t.toNat_lt
  have hk := (UInt8.ofNat k).toNat_lt
  unfold lift at hs ht
  rw [UInt8.toNat_sub] at hs ht
  simp only [clashes, decide_eq_false_iff_not]
  omega

theorem occupiedCount_set (r : Fin odPipeReorderSlots → Slot) (i : Fin odPipeReorderSlots)
    {slot : Slot} (hs : slot.occupied = true) :
    occupiedCount (Function.update r i slot) =
      if (r i).occupied then occupiedCount r else occupiedCount r + 1 := by
  have hf : (Finset.univ.filter fun j => (Function.update r i slot j).occupied = true) =
      insert i (Finset.univ.filter fun j => (r j).occupied = true) := by
    ext j
    by_cases hj : j = i
    · subst hj
      simp [hs]
    · simp [hj]
  unfold occupiedCount
  rw [hf]
  split_ifs with ho
  · rw [Finset.insert_eq_of_mem (by simpa using ho)]
  · rw [Finset.card_insert_of_notMem (by simpa using ho)]

theorem occupiedCount_eq_zero {r : Fin odPipeReorderSlots → Slot} :
    occupiedCount r = 0 ↔ ∀ i, (r i).occupied = false := by
  simp [occupiedCount, Finset.filter_eq_empty_iff]

end Slots

section Counting

variable {turn : Turn} {seq : UInt8} {payload : Bytes} {hs : List Bytes} {d d' : Dev}

/-- The counter of held frames agrees with the slots. -/
def Counted (d : Dev) : Prop := d.pipe.queuedCount.toNat = occupiedCount d.reorder

theorem Opens.counted (h : Opens d) : Counted d := by
  obtain ⟨⟨⟨isPartial, w, n, f, hp⟩, hr⟩, -⟩ := h
  unfold Counted
  rw [hp, hr, occupiedCount_eq_zero.mpr fun _ => rfl]
  rfl

theorem Stays.counted (h : Stays hs d d') (hc : Counted d) : Counted d' := by
  obtain ⟨gap, frames, acks, hp⟩ := h.pipe
  unfold Counted
  rw [hp, h.reorder]
  exact hc

theorem pipeUpdateHighest_frame (seq : UInt8) (p : PipeState) :
    ∃ h, pipeUpdateHighest seq p = { p with hasReceived := true, highestSeen := h } := by
  unfold pipeUpdateHighest
  dsimp only
  split_ifs with hr hf
  · exact ⟨seq, rfl⟩
  · rw [Bool.not_eq_false] at hr
    exact ⟨seq, by rw [← hr]⟩
  · rw [Bool.not_eq_false] at hr
    exact ⟨p.highestSeen, by rw [← hr]⟩

theorem pipeAccept_frame (seq : UInt8) (d : Dev) : (pipeAccept seq d).pipe.queuedCount =
    d.pipe.queuedCount ∧ (pipeAccept seq d).pipe.window = d.pipe.window := by
  obtain ⟨h, hp⟩ := pipeUpdateHighest_frame seq { (pipeTake d).pipe with
    framesSinceAck := (pipeTake d).pipe.framesSinceAck + 1 }
  unfold pipeAccept
  rw [hp]
  exact ⟨rfl, rfl⟩

theorem pipeHold_frame (seq : UInt8) (payload : Bytes) (d : Dev) :
    (pipeHold seq payload d).pipe.queuedCount = (pipeStore seq payload d).pipe.queuedCount ∧
      (pipeHold seq payload d).pipe.window = d.pipe.window := by
  obtain ⟨h, hp⟩ := pipeUpdateHighest_frame seq (pipeStore seq payload d).pipe
  unfold pipeHold
  change (pipeUpdateHighest seq (pipeStore seq payload d).pipe).queuedCount = _ ∧
    (pipeUpdateHighest seq (pipeStore seq payload d).pipe).window = _
  rw [hp]
  exact ⟨rfl, rfl⟩

theorem Counted.accept (h : Counted d) : Counted (pipeAccept seq d) := by
  unfold Counted
  rw [(pipeAccept_frame seq d).1]
  exact h

theorem Counted.release (h : Counted d) (hdue : Due d) : Counted (pipeRelease d) := by
  have hclear := occupiedCount_clear hdue.1
    { d.reorder (pipeSlot d.pipe.expectedSeq) with occupied := false } rfl
  unfold Counted at h ⊢
  change (if 0 < d.pipe.queuedCount then d.pipe.queuedCount - 1 else d.pipe.queuedCount).toNat =
    occupiedCount (Function.update d.reorder _ _)
  have hpos : 0 < d.pipe.queuedCount := by
    rw [UInt16.lt_iff_toNat_lt, h]
    exact lt_of_lt_of_eq (Nat.succ_pos _) hclear
  have hone : (1 : UInt16) ≤ d.pipe.queuedCount := by
    rw [UInt16.lt_iff_toNat_lt] at hpos
    rw [UInt16.le_iff_toNat_le]
    exact hpos
  have h1 : (1 : UInt16).toNat = 1 := rfl
  rw [if_pos hpos, UInt16.toNat_sub_of_le _ _ hone, h]
  omega

theorem Counted.store (h : Counted d) (hw : Windowed turn d) (hearly : Early seq d)
    (hfree : ∀ i, (d.reorder i).occupied = true → clashes seq (d.reorder i).seq = false) :
    Counted (pipeStore seq payload d) := by
  have hle := occupiedCount_le d.reorder
  have hset := occupiedCount_set d.reorder (pipeSlot seq)
    (show (Slot.mk true seq payload).occupied = true from rfl)
  unfold Counted at h ⊢
  change (if (d.reorder (pipeSlot seq)).occupied && (d.reorder (pipeSlot seq)).seq == seq
    then d.pipe.queuedCount else d.pipe.queuedCount + 1).toNat = occupiedCount (Function.update _ _ _)
  rw [hset]
  by_cases ho : (d.reorder (pipeSlot seq)).occupied = true
  · -- an occupied slot holds this very frame
    have hseq : (d.reorder (pipeSlot seq)).seq = seq := by
      by_contra hne
      obtain ⟨hi, hlt⟩ := hw.slots _ ho
      have hl := ((early_iff hw.next).mp hearly).2
      have hcl := (pipeSlot_eq_iff hw.bounds.2 hl hlt (Ne.symm hne)).mp hi.symm
      exact absurd (hcl.symm.trans (hfree _ ho)) nofun
    simp [ho, hseq, h]
  · have h1 : (1 : UInt16).toNat = 1 := rfl
    simp only [ho, Bool.false_and, Bool.false_eq_true, if_false]
    rw [UInt16.toNat_add, h, h1]
    omega

theorem Counted.hold (h : Counted (pipeStore seq payload d)) : Counted (pipeHold seq payload d) := by
  unfold Counted
  rw [(pipeHold_frame seq payload d).1]
  exact h

end Counting

section Frames

variable {app : App} {ctx : Ctx} {seq : UInt8} {payload : Bytes} {body : Bytes} {d : Dev}
  {s t : Turn × Dev}

/-- The frame clashes with nothing that is held. -/
def Clear (seq : UInt8) (d : Dev) : Prop :=
  Early seq d → ∀ i, (d.reorder i).occupied = true → clashes seq (d.reorder i).seq = false

theorem clear_of_not_clash (hi : pipeIgnores ctx body d = false)
    (hfit : pipeFrameFits ctx (body.drop 1) d = true) (hc : clash (.pipeData ctx body) d = false) :
    Clear (byteAt body 0) d := by
  intro he i ho
  simp only [clash, hi, hfit, he, Bool.not_false, Bool.true_and, decide_true,
    decide_eq_false_iff_not, not_exists, not_and, Bool.not_eq_true] at hc
  exact hc i ho

theorem Deed.counted (hd : Deed app ctx seq payload s t)
    (hfree : OnPipe s.2 → s.1 = .fresh → Clear seq s.2) (hw : OnPipe s.2 → Windowed s.1 s.2)
    (h : OnPipe s.2 → Counted s.2) (ho : OnPipe t.2) : Counted t.2 := by
  cases hd.shift with
  | ended _ hi _ => exact absurd ho (not_onPipe_idle hi)
  | stays _ hk => exact hk.counted (h (hk.onPipe ho))
  | drained _ => exact h ho
  | dead _ hk _ _ => exact hk.counted (h (hk.onPipe ho))
  | accept hk hm _ => exact (hk.counted (h (hk.onPipe (.inl hm)))).accept
  | release hk hm hdue => exact (hk.counted (h (hk.onPipe (.inl hm)))).release hdue
  | hold hm he _ =>
    exact ((h (.inl hm)).store (hw (.inl hm)) he (hfree (.inl hm) rfl he)).hold
  | overfull hm he _ hk _ =>
    exact hk.counted ((h (.inl hm)).store (hw (.inl hm)) he (hfree (.inl hm) rfl he))

theorem Stays.oversize (hi : pipeIgnores ctx body d = false)
    (hfit : pipeFrameFits ctx (body.drop 1) d = false) :
    Stays [] d (step app (.pipeData ctx body) d) := by
  obtain ⟨hm, -, heq⟩ := pipeIgnores_false hi
  change Stays [] d (odPipeData app ctx body d).2
  rw [heq, if_pos hfit]
  exact .dataNack hm _ _

/-- The rule for frames that clash with nothing: what their deeds keep, knowing
the state that the frame finds. -/
theorem step_clear {J : Turn × Dev → Prop} (hc : clash (.pipeData ctx body) d = false)
    (hdeed : pipeIgnores ctx body d = false → ∀ {s t},
      Deed app ctx (byteAt body 0) (body.drop 1) s t →
      (OnPipe s.2 → s.1 = .fresh → Clear (byteAt body 0) s.2) →
      (OnPipe s.2 → J s) → OnPipe t.2 → J t)
    (hstays : ∀ {d'}, Stays [] d d' → J (.fresh, d) → J (.answering, d'))
    (h : OnPipe d → J (.fresh, d)) (ho : OnPipe (step app (.pipeData ctx body) d)) :
    J (.answering, step app (.pipeData ctx body) d) := by
  by_cases hbad : pipeIgnores ctx body d = false ∧ pipeFrameFits ctx (body.drop 1) d = false
  · have hk : Stays [] d (step app (.pipeData ctx body) d) := .oversize hbad.1 hbad.2
    exact hstays hk (h (hk.onPipe ho))
  · refine (step_frame (J := fun s => (s.1 = .fresh → s.2 = d) ∧ J s) ?_ ?_ ?_ ho).2
    · intro hi s t hd hs hot
      have hfit : pipeFrameFits ctx (body.drop 1) d = true := by simpa [hi] using hbad
      refine ⟨fun ht => absurd ht hd.turned, hdeed hi hd (fun hos ht => ?_) (fun hos => (hs hos).2) hot⟩
      rw [(hs hos).1 ht]
      exact clear_of_not_clash hi hfit hc
    · exact fun hk hj => ⟨nofun, hstays hk hj.2⟩
    · exact fun ho => ⟨fun _ => rfl, h ho⟩

theorem counted_of_clashFree {etag : UInt32} {cmds : List (App × Cmd)}
    (hfree : clashFree cmds (Dev.boot etag) = true) (ho : OnPipe (run cmds (Dev.boot etag))) :
    Counted (run cmds (Dev.boot etag)) := by
  induction cmds using List.reverseRecOn with
  | nil => exact absurd ho (not_onPipe_idle rfl)
  | append_singleton cmds c ih =>
    obtain ⟨app, cmd⟩ := c
    rw [clashFree_append, Bool.and_eq_true] at hfree
    obtain ⟨hpre, hlast⟩ := hfree
    have hc : clash cmd (run cmds (Dev.boot etag)) = false := by simpa [clashFree] using hlast
    have hd : Reachable (run cmds (Dev.boot etag)) := ⟨etag, cmds, rfl⟩
    rw [run_append] at ho ⊢
    change OnPipe (step app cmd (run cmds (Dev.boot etag))) at ho
    change Counted (step app cmd (run cmds (Dev.boot etag)))
    by_cases hf : cmd.feedsPipe = true
    · cases cmd with
      | pipeData ctx body =>
        refine (step_clear (J := fun s => Windowed s.1 s.2 ∧ Counted s.2) hc ?_ ?_ ?_ ho).2
        · intro hi s t hdeed hclear hj hot
          exact ⟨hdeed.windowed (fun hos => (hj hos).1) hot,
            hdeed.counted hclear (fun hos => (hj hos).1) (fun hos => (hj hos).2) hot⟩
        · exact fun hk hj => ⟨hk.windowed (hj.1.turns nofun), hk.counted hj.2⟩
        · exact fun ho => ⟨hd.windowed ho, ih hpre ho⟩
      | _ => exact absurd hf nofun
    · exact step_window hd.coupled (Bool.eq_false_of_not_eq_true hf) Opens.counted Stays.counted
        (ih hpre) ho

end Frames

section Kept

variable {app : App} {ctx : Ctx} {seq s : UInt8} {payload p body : Bytes} {hs : List Bytes}
  {d d' d'' : Dev} {a b : Turn × Dev}

/-- A frame is held in the slot of its sequence number. -/
def Holds (s : UInt8) (p : Bytes) (d : Dev) : Prop := d.reorder (pipeSlot s) = ⟨true, s, p⟩

instance (s : UInt8) (p : Bytes) (d : Dev) : Decidable (Holds s p d) :=
  inferInstanceAs (Decidable (_ = _))

/-- The window passes the chunk that `s` stands for, and its payload is handed over. -/
def Consumed (s : UInt8) (p : Bytes) (d d' : Dev) : Prop :=
  lift (progress d.events).taken s < (progress d'.events).taken ∧
    ∃ hs, (progress d'.events).handed = (progress d.events).handed ++ hs ∧ (p = [] ∨ p ∈ hs)

/-- The log of one transfer grows: chunks are taken and payloads are handed over. -/
def Grows (d d' : Dev) : Prop :=
  (progress d.events).taken ≤ (progress d'.events).taken ∧
    ∃ hs, (progress d'.events).handed = (progress d.events).handed ++ hs

theorem Grows.refl (d : Dev) : Grows d d := ⟨le_rfl, [], (List.append_nil _).symm⟩

theorem Grows.trans (h : Grows d d') (h' : Grows d' d'') : Grows d d'' := by
  obtain ⟨hle, hs, heq⟩ := h
  obtain ⟨hle', hs', heq'⟩ := h'
  exact ⟨hle.trans hle', hs ++ hs', by rw [heq', heq, List.append_assoc]⟩

theorem Stays.grows (h : Stays hs d d') : Grows d d' :=
  ⟨h.taken.ge, hs, by rw [h.grown]⟩

theorem Consumed.grows (h : Consumed s p d d') (hg : Grows d' d'') : Consumed s p d d'' := by
  obtain ⟨hlt, hs, heq, hp⟩ := h
  obtain ⟨hle, hs', heq'⟩ := hg
  refine ⟨hlt.trans_le hle, hs ++ hs', by rw [heq', heq, List.append_assoc], ?_⟩
  exact hp.imp_right (List.mem_append_left hs')

theorem Shift.grows (h : Shift seq payload a b) : Grows a.2 b.2 := by
  cases h with
  | ended _ _ hk =>
    unfold Grows
    rw [hk]
    exact Grows.refl _
  | stays _ hk => exact hk.grows
  | drained _ => exact .refl _
  | dead _ hk _ _ => exact hk.grows
  | accept hk _ _ =>
    refine hk.grows.trans ?_
    unfold Grows
    rw [pipeAccept_progress]
    exact ⟨Nat.le_succ _, [], (List.append_nil _).symm⟩
  | release hk _ _ =>
    refine hk.grows.trans ?_
    unfold Grows
    rw [pipeRelease_progress]
    exact ⟨Nat.le_succ _, [], (List.append_nil _).symm⟩
  | hold _ _ _ =>
    unfold Grows
    rw [pipeHold_progress]
    exact ⟨le_rfl, [], (List.append_nil _).symm⟩
  | overfull _ _ _ hk _ => exact hk.grows

theorem Shift.onPipe (h : Shift seq payload a b) (ho : OnPipe b.2) : OnPipe a.2 := by
  cases h with
  | ended _ hi _ => exact absurd ho (not_onPipe_idle hi)
  | stays _ hk => exact hk.onPipe ho
  | drained _ => exact ho
  | dead _ hk _ _ => exact hk.onPipe ho
  | accept hk hm _ => exact hk.onPipe (.inl hm)
  | release hk hm _ => exact hk.onPipe (.inl hm)
  | hold hm _ _ => exact .inl hm
  | overfull hm _ _ _ _ => exact .inl hm

theorem Stays.holds (hk : Stays hs d d') (h : Holds s p d) : Holds s p d' := by
  unfold Holds
  rw [hk.reorder]
  exact h

/-- The drain takes a held frame out of its slot only when its turn has come. -/
theorem Holds.release {d₀ : Dev} (h : Holds s p d) (hw : Windowed .draining d) (hdue : Due d) (hg : Grows d₀ d)
    (hlast : ∃ hs, (progress d.events).handed = (progress d₀.events).handed ++ (hs ++ handed (dueData d))) :
    Consumed s p d₀ (pipeRelease d) ∨ Holds s p (pipeRelease d) := by
  by_cases hi : pipeSlot s = pipeSlot d.pipe.expectedSeq
  · -- the slot that is due is this one
    have hs : s = d.pipe.expectedSeq := by
      rw [← hdue.2, ← hi, h]
    have hp : dueData d = p := by
      unfold dueData
      rw [← hi, h]
    obtain ⟨hs', heq⟩ := hlast
    refine .inl ⟨?_, hs' ++ handed p, ?_, ?_⟩
    · rw [pipeRelease_progress, hs, hw.next]
      exact Nat.lt_succ_of_le (lift_le hg.1)
    · rw [pipeRelease_progress, ← hp]
      exact heq
    · by_cases hnil : p = []
      · exact .inl hnil
      · exact .inr (List.mem_append_right _ (by simp [handed, hnil]))
  · exact .inr ((Function.update_of_ne hi _ _).trans h)

theorem Holds.store (h : Holds s p d) (hw : Windowed .fresh d) (hearly : Early seq d)
    (hclear : Clear seq d) (hne : seq ≠ s) : Holds s p (pipeStore seq payload d) := by
  have ho : (d.reorder (pipeSlot s)).occupied = true := by rw [h]
  have hcl := hclear hearly _ ho
  obtain ⟨-, hlt⟩ := hw.slots _ ho
  rw [h] at hcl hlt
  have hslot : pipeSlot s ≠ pipeSlot seq := by
    intro he
    have := (pipeSlot_eq_iff hw.bounds.2 ((early_iff hw.next).mp hearly).2 hlt hne).mp he.symm
    exact absurd (this.symm.trans hcl) nofun
  exact (pipeStore_other hslot payload d).trans h

/-- What a frame may do to one that was held in `d₀`: hand it over, keep it, or
put the same chunk in its place. -/
def Fate (seq s : UInt8) (payload p : Bytes) (d₀ : Dev) (a : Turn × Dev) : Prop :=
  Consumed s p d₀ a.2 ∨ Holds s p a.2 ∨ a.1 = .answering ∧ seq = s ∧ Holds s payload a.2

theorem Fate.stays {d₀ : Dev} (h : Fate seq s payload p d₀ a) (hk : Stays hs a.2 d') :
    Fate seq s payload p d₀ (.answering, d') := by
  rcases h with hc | hh | ⟨-, hs, hh⟩
  · exact .inl (hc.grows hk.grows)
  · exact .inr (.inl (hk.holds hh))
  · exact .inr (.inr ⟨rfl, hs, hk.holds hh⟩)

theorem Deed.fate {d₀ : Dev} (hd : Deed app ctx seq payload a b)
    (hclear : OnPipe a.2 → a.1 = .fresh → Clear seq a.2)
    (h : OnPipe a.2 → Windowed a.1 a.2 ∧ Grows d₀ a.2 ∧ Fate seq s payload p d₀ a) (ho : OnPipe b.2) :
    Fate seq s payload p d₀ b := by
  have hshift := hd.shift
  cases hshift with
  | ended _ hi _ => exact absurd ho (not_onPipe_idle hi)
  | stays _ hk => exact (h (hk.onPipe ho)).2.2.stays hk
  | drained _ =>
    obtain ⟨-, -, hc | hh | ⟨ht, -⟩⟩ := h ho
    · exact .inl hc
    · exact .inr (.inl hh)
    · exact absurd ht nofun
  | dead _ hk _ _ => exact (h (hk.onPipe ho)).2.2.stays hk
  | accept hk hm _ =>
    obtain ⟨-, -, hc | hh | ⟨ht, -⟩⟩ := h (hk.onPipe (.inl hm))
    · exact .inl (hc.grows hd.shift.grows)
    · exact .inr (.inl (hk.holds hh))
    · exact absurd ht nofun
  | @release d u hk hm hdue =>
    obtain ⟨hw, hg, hc | hh | ⟨ht, -⟩⟩ := h (hk.onPipe (.inl hm))
    · exact .inl (hc.grows hd.shift.grows)
    · have hlast : ∃ hs, (progress u.events).handed =
          (progress d₀.events).handed ++ (hs ++ handed (dueData u)) := by
        obtain ⟨hs, heq⟩ := hg.2
        exact ⟨hs, by rw [hk.grown, heq, List.append_assoc]⟩
      rcases (hk.holds hh).release (hk.windowed hw) hdue (hg.trans hk.grows) hlast with hc | hh
      · exact .inl hc
      · exact .inr (.inl hh)
    · exact absurd ht nofun
  | hold hm he _ =>
    obtain ⟨hw, -, hc | hh | ⟨ht, -⟩⟩ := h (.inl hm)
    · exact .inl (hc.grows hd.shift.grows)
    · by_cases hs : seq = s
      · exact .inr (.inr ⟨rfl, hs, by rw [← hs]; exact pipeStore_slot _ _ _⟩)
      · exact .inr (.inl (hh.store hw he (hclear (.inl hm) rfl) hs))
    · exact absurd ht nofun
  | overfull hm he _ hk _ =>
    obtain ⟨hw, -, hc | hh | ⟨ht, -⟩⟩ := h (.inl hm)
    · exact .inl (hc.grows hd.shift.grows)
    · by_cases hs : seq = s
      · exact .inr (.inr ⟨rfl, hs, hk.holds (by rw [← hs]; exact pipeStore_slot _ _ _)⟩)
      · exact .inr (.inl (hk.holds (hh.store hw he (hclear (.inl hm) rfl) hs)))
    · exact absurd ht nofun

/-- The fate of a held frame over one DATA frame that clashes with nothing. -/
theorem Holds.frame (h : Holds s p d) (hd : Reachable d) (hc : clash (.pipeData ctx body) d = false)
    (ho : OnPipe (step app (.pipeData ctx body) d)) :
    Consumed s p d (step app (.pipeData ctx body) d) ∨ Holds s p (step app (.pipeData ctx body) d) ∨
      body.head? = some s ∧ Holds s body.tail (step app (.pipeData ctx body) d) := by
  cases body with
  | nil => exact .inr (.inl ((Stays.ignored (by simp [pipeIgnores])).holds h))
  | cons seq payload =>
    have hfate := (step_clear (J := fun a => Windowed a.1 a.2 ∧ Grows d a.2 ∧
      Fate seq s payload p d a) hc ?_ ?_ ?_ ho).2.2
    · rcases hfate with hcons | hh | ⟨-, rfl, hh⟩
      · exact .inl hcons
      · exact .inr (.inl hh)
      · exact .inr (.inr ⟨rfl, hh⟩)
    · intro _ a b hdeed hclear hj hob
      have hgrows : Grows d b.2 := (hj (hdeed.shift.onPipe hob)).2.1.trans hdeed.shift.grows
      exact ⟨hdeed.windowed (fun hoa => (hj hoa).1) hob, hgrows, hdeed.fate hclear hj hob⟩
    · exact fun hk hj => ⟨hk.windowed (hj.1.turns (by simp)), hk.grows, hj.2.2.stays hk⟩
    · exact fun hop => ⟨hd.windowed hop, .refl d, .inr (.inl h)⟩

/-- DATA frames as commands. -/
def dataFrames (frames : List (App × Ctx × Bytes)) : List (App × Cmd) :=
  frames.map fun f => (f.1, .pipeData f.2.1 f.2.2)

/-- Over these DATA frames a held frame stays in its slot until it is handed over
or the transfer is over. Another payload replaces its own only when it is sent
under the same sequence number. -/
def Lasts (s : UInt8) (p : Bytes) : List (App × Ctx × Bytes) → Dev → Prop
  | [], d => Holds s p d
  | (app, ctx, body) :: fs, d => Holds s p d ∧
      let d' := step app (.pipeData ctx body) d
      d'.pipe.isOpen = false ∨ Consumed s p d d' ∨ Lasts s p fs d' ∨
        body.head? = some s ∧ Lasts s body.tail fs d'

theorem not_lasts_of_lost (h : ¬ Holds s p (step app (.pipeData ctx body) d))
    (hopen : (step app (.pipeData ctx body) d).pipe.isOpen = true)
    (htaken : (progress (step app (.pipeData ctx body) d).events).taken ≤ (progress d.events).taken)
    (hhead : body.head? ≠ some s) : ¬ Lasts s p [(app, ctx, body)] d := by
  rintro ⟨-, hclosed | ⟨hlt, -⟩ | hlast | ⟨heq, -⟩⟩
  · exact absurd (hclosed.symm.trans hopen) nofun
  · exact absurd (le_lift _ s) (Nat.not_le.mpr (hlt.trans_le htaken))
  · exact h hlast
  · exact hhead heq

theorem Holds.lasts {frames : List (App × Ctx × Bytes)} (h : Holds s p d) (hd : Reachable d)
    (hfree : clashFree (dataFrames frames) d = true) : Lasts s p frames d := by
  induction frames generalizing d p with
  | nil => exact h
  | cons f frames ih =>
    obtain ⟨app, ctx, body⟩ := f
    simp only [dataFrames, List.map_cons, clashFree, Bool.and_eq_true, Bool.not_eq_true'] at hfree
    obtain ⟨hc, hrest⟩ := hfree
    have hd' : Reachable (step app (.pipeData ctx body) d) := hd.next app _
    refine ⟨h, ?_⟩
    by_cases ho : OnPipe (step app (.pipeData ctx body) d)
    · refine .inr ?_
      rcases h.frame hd hc ho with hcons | hh | ⟨hs, hh⟩
      · exact .inl hcons
      · exact .inr (.inl (ih hh hd' hrest))
      · exact .inr (.inr ⟨hs, ih hh hd' hrest⟩)
    · exact .inl (Bool.eq_false_of_not_eq_true fun hopen => ho (hd'.coupled.isOpen.mp hopen))

/-- An early frame that the device accepts is held after it, whatever the hooks answer. -/
theorem holds_of_early (hi : pipeIgnores ctx (seq :: payload) d = false)
    (hfit : pipeFrameFits ctx payload d = true) (he : Early seq d) :
    Holds seq payload (step app (.pipeData ctx (seq :: payload)) d) := by
  obtain ⟨hm, -, heq⟩ := pipeIgnores_false hi
  have hlen : ¬ odPipeReorderPayload < payload.length := by
    simp only [pipeFrameFits, decide_eq_true_eq, not_or] at hfit
    exact hfit.2.2.2.2
  have hstored : Holds seq payload (pipeStore seq payload d) := pipeStore_slot _ _ _
  change Holds seq payload (odPipeData app ctx (seq :: payload) d).2
  rw [heq, if_neg (by simpa using hfit)]
  change Holds seq payload (pipeFrame app ctx seq payload d).2
  unfold pipeFrame
  dsimp only
  rw [if_neg he.1, if_pos he.2]
  unfold pipeOutOfOrder
  dsimp only
  rw [if_neg hlen]
  split_ifs
  · exact (Stays.dataNack (d := pipeStore seq payload d) hm _ _).holds hstored
  · have hgap : Stays [] (pipeHold seq payload d) { pipeHold seq payload d with
        pipe := { (pipeHold seq payload d).pipe with gapOpen := true } } := Marks.stays ⟨_, _, _, rfl⟩
    exact (hgap.trans (.firstAck hm)).holds hstored
  · exact (Stays.gapAck (d := pipeHold seq payload d) hm).holds hstored

end Kept

/-- Two sequence numbers of the open window share a slot exactly when it crosses
the wrap and is wider than 25. -/
theorem slots_distinct_iff {d : Dev} (hw : d.pipe.window.toNat ≤ 32) :
    (∀ s t, s ≠ t → s - d.pipe.expectedSeq < d.pipe.window → t - d.pipe.expectedSeq < d.pipe.window →
      pipeSlot s ≠ pipeSlot t) ↔
      d.pipe.window.toNat ≤ 25 ∨ d.pipe.expectedSeq.toNat + d.pipe.window.toNat ≤ 256 := by
  have he := d.pipe.expectedSeq.toNat_lt
  simp only [UInt8.lt_iff_toNat_lt]
  constructor
  · intro h
    by_contra hc
    rw [not_or, Nat.not_le, Nat.not_le] at hc
    -- the first number of the window from 231 on, and the one 25 places further
    let i := max d.pipe.expectedSeq.toNat 231
    have hi : i = max d.pipe.expectedSeq.toNat 231 := rfl
    have hs : (UInt8.ofNat i).toNat = i := by rw [UInt8.toNat_ofNat']; omega
    have ht : (UInt8.ofNat (i - 231)).toNat = i - 231 := by rw [UInt8.toNat_ofNat']; omega
    refine h (UInt8.ofNat i) (UInt8.ofNat (i - 231)) ?_ ?_ ?_ ?_
    · intro heq
      rw [heq] at hs
      omega
    · rw [UInt8.toNat_sub, hs]
      omega
    · rw [UInt8.toNat_sub, ht]
      omega
    · have hslots : odPipeReorderSlots = 33 := rfl
      rw [pipeSlot, pipeSlot, Fin.mk.injEq, hs, ht, hslots]
      omega
  · intro h s t hne hs ht hslot
    have hlift : ∀ {s : UInt8}, (s - d.pipe.expectedSeq).toNat < d.pipe.window.toNat →
        lift d.pipe.expectedSeq.toNat s < d.pipe.expectedSeq.toNat + d.pipe.window.toNat := by
      intro s hs
      rw [lift, UInt8.ofNat_toNat]
      omega
    have hcl := (pipeSlot_eq_iff hw (hlift hs) (hlift ht) hne).mp hslot
    simp only [clashes, decide_eq_true_eq] at hcl
    have hs' := s.toNat_lt
    have ht' := t.toNat_lt
    rw [UInt8.toNat_sub] at hs ht
    omega

theorem not_clash_of_narrow {d : Dev} (h : Reachable d)
    (hw : pipeMode d.xfer.mode = true → d.pipe.window.toNat ≤ 26) (cmd : Cmd) : clash cmd d = false := by
  cases cmd with
  | pipeData ctx body =>
    by_contra hc
    simp only [clash, Bool.not_eq_false, Bool.and_eq_true, Bool.not_eq_true', decide_eq_true_eq] at hc
    obtain ⟨⟨⟨hi, -⟩, he⟩, i, ho, hcl⟩ := hc
    have hm := (pipeIgnores_false hi).1
    have hwin := h.windowed (.inl hm)
    have hs := hwin.ahead hm nofun i ho
    have := not_clashes_of_narrow (hw hm) ((early_iff hwin.next).mp he) ⟨hs, (hwin.slots i ho).2⟩
    exact absurd (hcl.symm.trans this) nofun
  | _ => rfl

/-- In every run in which no early frame clashes with a held one, the counter of
held frames is right, and over every sequence of DATA frames that follows each
held frame, and each early frame that is accepted, keeps its slot until its turn
comes. In a window of at most 26 no frame clashes; and which windows have a slot of
its own for each sequence number depends only on their width and on the wrap. -/
theorem reorder_kept (etag : UInt32) (cmds : List (App × Cmd)) (frames : List (App × Ctx × Bytes))
    (hfree : clashFree (cmds ++ dataFrames frames) (Dev.boot etag) = true)
    (ho : (run cmds (Dev.boot etag)).pipe.isOpen = true) :
    let d := run cmds (Dev.boot etag)
    d.pipe.queuedCount.toNat = occupiedCount d.reorder ∧
    (d.pipe.queuedCount = 0 ↔ ∀ i, (d.reorder i).occupied = false) ∧
    (∀ i, (d.reorder i).occupied = true → Lasts (d.reorder i).seq (d.reorder i).data frames d) ∧
    (∀ app ctx seq payload fs, frames = (app, ctx, seq :: payload) :: fs →
      pipeIgnores ctx (seq :: payload) d = false → pipeFrameFits ctx payload d = true →
      Early seq d → Lasts seq payload fs (step app (.pipeData ctx (seq :: payload)) d)) ∧
    (d.pipe.window.toNat ≤ 26 → ∀ cmd, clash cmd d = false) ∧
    ((∀ s t, s ≠ t → s - d.pipe.expectedSeq < d.pipe.window →
      t - d.pipe.expectedSeq < d.pipe.window → pipeSlot s ≠ pipeSlot t) ↔
      d.pipe.window.toNat ≤ 25 ∨ d.pipe.expectedSeq.toNat + d.pipe.window.toNat ≤ 256) := by
  intro d
  have hd : Reachable d := ⟨etag, cmds, rfl⟩
  rw [clashFree_append, Bool.and_eq_true] at hfree
  obtain ⟨hpre, hpost⟩ := hfree
  have hop : OnPipe d := hd.coupled.isOpen.mp ho
  have hw := hd.windowed hop
  have hcount : Counted d := counted_of_clashFree hpre hop
  refine ⟨hcount, ?_, ?_, ?_, fun hn => not_clash_of_narrow hd fun _ => hn, slots_distinct_iff hw.bounds.2⟩
  · rw [← occupiedCount_eq_zero, ← show _ = occupiedCount d.reorder from hcount, ← UInt16.toNat_inj]
    rfl
  · intro i hocc
    have hholds : Holds (d.reorder i).seq (d.reorder i).data d := by
      unfold Holds
      rw [(hw.slots i hocc).1]
      rw [← hocc]
    exact hholds.lasts hd hpost
  · rintro app ctx seq payload fs rfl hi hfit he
    simp only [dataFrames, List.map_cons, clashFree, Bool.and_eq_true] at hpost
    exact (holds_of_early hi hfit he).lasts (hd.next app _) hpost.2

/-- Two early frames and the gap before them. -/
theorem reorder_kept_gap :
    let cmds : List (App × Cmd) :=
      [(.willing, .pipeStart .ble (pipeStartBody 8 8)), (.willing, .pipeData .ble [3, 0xaa])]
    let frames : List (App × Ctx × Bytes) :=
      [(.willing, .ble, [5, 0xbb]), (.willing, .ble, [0]), (.willing, .ble, [1]), (.willing, .ble, [2])]
    (run cmds (Dev.boot 7)).pipe.queuedCount.toNat = 1 ∧
      Lasts 3 [0xaa] frames (run cmds (Dev.boot 7)) := by
  intro cmds frames
  have h := reorder_kept 7 cmds frames (by decide +kernel) (by decide +kernel)
  refine ⟨by decide +kernel, ?_⟩
  have hslot : (run cmds (Dev.boot 7)).reorder (pipeSlot 3) = ⟨true, 3, [0xaa]⟩ := by decide +kernel
  have := h.2.2.1 (pipeSlot 3) (by rw [hslot])
  rwa [hslot] at this

/-- The frames up to chunk 229 in order, and then chunk 231. -/
def beforeWrap : List (App × Cmd) :=
  (.willing, .pipeStart .ble (pipeStartBody 32 32)) :: emptyFrames 230 ++
    [(.willing, .pipeData .ble [231, 0xaa])]

/-- Chunk 256 takes the slot of chunk 231, which is still held. -/
theorem reorder_loses_frame :
    let d := run beforeWrap (Dev.boot 7)
    let d' := step .willing (.pipeData .ble [0, 0xbb]) d
    Reachable d' ∧ d'.pipe.isOpen = true ∧ Holds 231 [0xaa] d ∧ ¬ Holds 231 [0xaa] d' ∧
      (progress d'.events).taken = 230 ∧ d'.pipe.queuedCount = 2 ∧ occupiedCount d'.reorder = 1 ∧
      ¬ Lasts 231 [0xaa] [(.willing, .ble, [0, 0xbb])] d := by
  have hd : Reachable (run beforeWrap (Dev.boot 7)) := ⟨7, beforeWrap, rfl⟩
  have heval : (Holds 231 [0xaa] (run beforeWrap (Dev.boot 7)) ∧
      (progress (run beforeWrap (Dev.boot 7)).events).taken = 230) ∧
      let d' := step .willing (.pipeData .ble [0, 0xbb]) (run beforeWrap (Dev.boot 7))
      d'.pipe.isOpen = true ∧ ¬ Holds 231 [0xaa] d' ∧ (progress d'.events).taken = 230 ∧
        d'.pipe.queuedCount = 2 ∧ occupiedCount d'.reorder = 1 := by
    decide +kernel
  revert hd heval
  generalize run beforeWrap (Dev.boot 7) = d
  rintro hd ⟨⟨hheld, htaken⟩, hopen, hno, htaken', hq, hocc⟩
  refine ⟨hd.next _ _, hopen, hheld, hno, htaken', hq, hocc, ?_⟩
  exact not_lasts_of_lost hno hopen (htaken'.trans htaken.symm).le (by decide)

end OpenDisplay
