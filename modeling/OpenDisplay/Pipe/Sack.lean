import OpenDisplay.Pipe.Window

/-! Selective acknowledgements: which chunks a SACK block reports, and when its
mask is exact. -/

namespace OpenDisplay

open Serial

section Block

/-- The largest sequence number of a SACK block. -/
def sackHighest (block : Bytes) : UInt8 := byteAt block 0

/-- Bit `i` of the mask of a SACK block. -/
def sackBit (block : Bytes) (i : Nat) : Bool := (byteAt block (1 + i / 8)).toNat.testBit (i % 8)

theorem testBit_byte (m : UInt32) (n i : Nat) :
    ((m.toNat / 2 ^ n) % 256).testBit i = (decide (i < 8) && m.toNat.testBit (n + i)) := by
  rw [show 256 = 2 ^ 8 from rfl, Nat.testBit_mod_two_pow, ← Nat.shiftRight_eq_div_pow,
    Nat.testBit_shiftRight]

theorem sackBit_build (d : Dev) {i : Nat} (hi : i < 32) :
    sackBit (pipeBuildSack d) i = (pipeMask d).toNat.testBit i := by
  have hand : ∀ n : Nat, n &&& 255 = n % 256 := fun n => Nat.and_two_pow_sub_one_eq_mod n 8
  have hbyte : (byteAt (pipeBuildSack d) (1 + i / 8)).toNat =
      (pipeMask d).toNat / 2 ^ (8 * (i / 8)) % 256 := by
    have hq : i / 8 = 0 ∨ i / 8 = 1 ∨ i / 8 = 2 ∨ i / 8 = 3 := by omega
    rcases hq with hq | hq | hq | hq <;>
      simp [hq, byteAt, pipeBuildSack, hand, Nat.shiftRight_eq_div_pow]
  rw [sackBit, hbyte, testBit_byte, Nat.div_add_mod]
  simp [Nat.mod_lt]

theorem testBit_mask (f : Nat → Bool) {n : Nat} (hn : n ≤ 32) (j : Nat) :
    ((List.range n).foldl (fun (mask : UInt32) i =>
      if f i then mask ||| (1 <<< UInt32.ofNat i) else mask) 0).toNat.testBit j =
      (decide (j < n) && f j) := by
  induction n with
  | zero => simp
  | succ n ih =>
    rw [List.range_succ, List.foldl_append, List.foldl_cons, List.foldl_nil]
    have hbit : ((1 : UInt32) <<< UInt32.ofNat n).toNat = 2 ^ n := by
      have hmod : n % 2 ^ 32 % 32 = n := by omega
      have hlt : 2 ^ n < 2 ^ 32 := Nat.pow_lt_pow_right (by decide) (by omega)
      rw [UInt32.toNat_shiftLeft, UInt32.toNat_ofNat', hmod, Nat.shiftLeft_eq]
      simpa using hlt
    by_cases hj : j = n
    · subst hj
      split_ifs with hf
      · rw [UInt32.toNat_or, Nat.testBit_or, hbit, Nat.testBit_two_pow_self]
        simp [hf]
      · rw [ih (by omega)]
        simp [hf]
    · have hlt : decide (j < n + 1) = decide (j < n) := by
        rw [decide_eq_decide]
        omega
      rw [hlt, ← ih (by omega)]
      split_ifs
      · rw [UInt32.toNat_or, Nat.testBit_or, hbit, Nat.testBit_two_pow_of_ne (Ne.symm hj),
          Bool.or_false]
      · rfl

theorem sackBit_eq (d : Dev) {i : Nat} (hi : i < 32) :
    sackBit (pipeBuildSack d) i = pipeChunkReceived (pipeHighest d - 1 - UInt8.ofNat i) d := by
  rw [sackBit_build d hi]
  exact (testBit_mask (fun i => pipeChunkReceived (pipeHighest d - 1 - UInt8.ofNat i) d)
    (n := 32) le_rfl i).trans (by simp [hi])

end Block

section Received

variable {d : Dev}

/-- Chunk `j` waits in a slot. -/
def Buffered (d : Dev) (j : Nat) : Prop :=
  ∃ i, (d.reorder i).occupied = true ∧ lift (progress d.events).taken (d.reorder i).seq = j

/-- Chunk `j` was taken in order, or waits in a slot. -/
def Received (d : Dev) (j : Nat) : Prop := j < (progress d.events).taken ∨ Buffered d j

/-- The largest index accepted so far. -/
def top (d : Dev) : Nat := (progress d.events).seen - 1

theorem Buffered.bounds {j : Nat} (hw : Windowed .fresh d) (h : Buffered d j) :
    (progress d.events).taken ≤ j ∧ j < (progress d.events).taken + d.pipe.window.toNat := by
  obtain ⟨i, ho, rfl⟩ := h
  exact ⟨le_lift _ _, (hw.slots i ho).2⟩

theorem buffered_lift_iff (hw : Windowed .fresh d) (s : UInt8) :
    ((d.reorder (pipeSlot s)).occupied && (d.reorder (pipeSlot s)).seq == s) = true ↔
      Buffered d (lift (progress d.events).taken s) := by
  rw [Bool.and_eq_true, beq_iff_eq]
  constructor
  · rintro ⟨ho, hs⟩
    exact ⟨pipeSlot s, ho, by rw [hs]⟩
  · rintro ⟨i, ho, hl⟩
    have hs : (d.reorder i).seq = s := by rw [← ofNat_lift _ (d.reorder i).seq, hl, ofNat_lift]
    have hi : pipeSlot s = i := by rw [← hs]; exact (hw.slots i ho).1
    rw [hi]
    exact ⟨ho, hs⟩

theorem pipeHighest_eq (hw : Windowed .fresh d) (hs : 0 < (progress d.events).seen) :
    pipeHighest d = UInt8.ofNat (top d) := by
  unfold pipeHighest
  rw [if_pos (hw.received.trans (decide_eq_true hs)), hw.highest hs]
  rfl

/-- What bit `i` of the mask stands for. -/
theorem chunkReceived_iff (hw : Windowed .fresh d) (hs : 0 < (progress d.events).seen) {i : Nat}
    (hi : i < 32) :
    pipeChunkReceived (pipeHighest d - 1 - UInt8.ofNat i) d = true ↔
      (top d ≤ (progress d.events).taken + i ∧ (progress d.events).taken + i - top d <
        min 32 ((progress d.events).taken % 2 ^ 32)) ∨
      ((progress d.events).taken + i < top d ∧ Buffered d (top d - 1 - i)) := by
  have hnear := hw.near
  have hbounds := hw.bounds
  have hcount : d.pipe.receivedCount.toNat = (progress d.events).taken % 2 ^ 32 := by
    rw [hw.count, UInt32.toNat_ofNat']
  have htop : (progress d.events).seen = top d + 1 := by unfold top; omega
  unfold pipeChunkReceived
  dsimp only
  rw [Bool.or_eq_true, buffered_lift_iff hw, pipeHighest_eq hw hs, decide_eq_true_eq, hcount, hw.next,
    show pipeAckMaskBits = 32 from rfl, Nat.min_comm]
  generalize hk : (progress d.events).taken = k at *
  generalize hh : top d = h at *
  have hbelow : UInt8.ofNat k - 1 - (UInt8.ofNat h - 1 - UInt8.ofNat i) =
      UInt8.ofNat (k + i) - UInt8.ofNat h := by
    rw [UInt8.ofNat_add]
    grind
  rw [hbelow]
  by_cases hle : h ≤ k + i
  · -- a chunk below the window: no slot can hold it
    rw [sub_toNat_of_lt hle (by omega)]
    have hno : ¬ Buffered d (lift k (UInt8.ofNat h - 1 - UInt8.ofNat i)) := by
      intro hbuf
      have hb := hbuf.bounds hw
      rw [hk] at hb
      have hs : UInt8.ofNat h - 1 - UInt8.ofNat i = UInt8.ofNat (h + 255 - i) := by
        have : UInt8.ofNat h - 1 = UInt8.ofNat (h + 255) := by
          rw [UInt8.ofNat_add]
          grind
        rw [this, UInt8.ofNat_sub (by omega)]
      rw [hs, lift_ofNat (by omega) (by omega)] at hb
      omega
    have hno' : ¬ (k + i < h ∧ Buffered d (h - 1 - i)) := fun hc => absurd hc.1 (by omega)
    rw [or_iff_left hno, or_iff_left hno', and_iff_right hle]
  · have hs : UInt8.ofNat h - 1 - UInt8.ofNat i = UInt8.ofNat (h - 1 - i) := by
      rw [UInt8.ofNat_sub (by omega), UInt8.ofNat_sub (by omega)]
      rfl
    rw [hs, lift_ofNat (by omega) (by omega)]
    have hwrap : (UInt8.ofNat (k + i) - UInt8.ofNat h).toNat = 256 - (h - (k + i)) := by
      rw [UInt8.toNat_sub, UInt8.toNat_ofNat', UInt8.toNat_ofNat']
      omega
    rw [hwrap]
    constructor
    · rintro (hlt | hbuf)
      · omega
      · exact .inr ⟨by omega, hbuf⟩
    · rintro (⟨hle', -⟩ | ⟨-, hbuf⟩)
      · exact absurd hle' hle
      · exact .inr hbuf

/-- The block names the largest chunk accepted, and each bit of its mask says
whether that chunk below it has been received. -/
def SackExact (d : Dev) (block : Bytes) : Prop :=
  sackHighest block = UInt8.ofNat (top d) ∧
    ∀ i < 32, sackBit block i = true ↔ i + 1 ≤ top d ∧ Received d (top d - 1 - i)

/-- The chunks taken in order among the 32 below the largest one. -/
def takenBelow (d : Dev) : Nat := (progress d.events).taken - (top d - 32)

theorem bit_exact_iff (hw : Windowed .fresh d) (hs : 0 < (progress d.events).seen) {i : Nat}
    (hi : i < 32) :
    (sackBit (pipeBuildSack d) i = true ↔ i + 1 ≤ top d ∧ Received d (top d - 1 - i)) ↔
      (top d ≤ (progress d.events).taken + i → i + 1 ≤ top d →
        (progress d.events).taken + i - top d < min 32 ((progress d.events).taken % 2 ^ 32)) := by
  rw [sackBit_eq d hi, chunkReceived_iff hw hs hi]
  unfold Received
  by_cases hle : top d ≤ (progress d.events).taken + i
  · -- the chunk lies below the window: taken in order, unless it is before the first
    by_cases hex : i + 1 ≤ top d
    · have htaken : top d - 1 - i < (progress d.events).taken := by omega
      simp only [hle, hex, htaken, true_and, true_or, true_implies, iff_true]
      constructor
      · rintro (h | ⟨h, -⟩)
        · exact h
        · omega
      · exact .inl
    · have hmod := Nat.mod_le (progress d.events).taken (2 ^ 32)
      simp only [hex, false_and, iff_false, hle, true_implies, false_implies, iff_true]
      omega
  · -- the chunk lies in the window: only a slot can have it
    have hin : (progress d.events).taken + i < top d := by omega
    have hex : i + 1 ≤ top d := by omega
    have htaken : ¬ top d - 1 - i < (progress d.events).taken := by omega
    simp only [hle, hin, hex, htaken, false_and, true_and, false_or, false_implies]

theorem Windowed.sackExact_iff (hw : Windowed .fresh d) (hs : 0 < (progress d.events).seen) :
    SackExact d (pipeBuildSack d) ↔ takenBelow d ≤ min 32 ((progress d.events).taken % 2 ^ 32) := by
  have hhigh : sackHighest (pipeBuildSack d) = UInt8.ofNat (top d) := pipeHighest_eq hw hs
  have hnear := hw.near
  have hbounds := hw.bounds
  have htop : (progress d.events).seen = top d + 1 := by unfold top; omega
  unfold SackExact takenBelow
  rw [and_iff_right hhigh]
  constructor
  · intro h
    by_cases hz : top d - 32 < (progress d.events).taken
    · -- the lowest chunk that the mask covers
      have hi : min 31 (top d - 1) < 32 := by omega
      by_cases hpos : 0 < top d
      · have := (bit_exact_iff hw hs hi).mp (h _ hi) (by omega) (by omega)
        omega
      · have : (progress d.events).taken % 2 ^ 32 = (progress d.events).taken :=
          Nat.mod_eq_of_lt (by omega)
        omega
    · omega
  · intro h i hi
    rw [bit_exact_iff hw hs hi]
    omega

end Received

/-- In every reachable state of an open PIPE transfer that has accepted a frame,
the block names the largest chunk accepted, and its mask is exact if and only if
the chunks taken among the 32 below that one are no more than the code counts:
32 at most, and no more than the wrapped count of all chunks. -/
theorem sack_exact_iff (d : Dev) (h : Reachable d) (ho : d.pipe.isOpen = true)
    (hs : 0 < (progress d.events).seen) :
    sackHighest (pipeBuildSack d) = UInt8.ofNat (top d) ∧
    (SackExact d (pipeBuildSack d) ↔
      takenBelow d ≤ min 32 ((progress d.events).taken % 2 ^ 32)) := by
  have hw := h.windowed (h.coupled.isOpen.mp ho)
  exact ⟨pipeHighest_eq hw hs, hw.sackExact_iff hs⟩

/-- After 33 chunks in order the first one is not reported. -/
theorem sack_misses_first :
    let d := run ((.willing, .pipeStart .ble (pipeStartBody 8 8)) :: emptyFrames 33) (Dev.boot 7)
    Reachable d ∧ d.pipe.isOpen = true ∧ (progress d.events).taken = 33 ∧ top d = 32 ∧
      sackBit (pipeBuildSack d) 31 = false ∧ ¬ SackExact d (pipeBuildSack d) := by
  intro d
  have htaken : (progress d.events).taken = 33 := by decide +kernel
  have htop : top d = 32 := by decide +kernel
  have hbit : sackBit (pipeBuildSack d) 31 = false := by decide +kernel
  refine ⟨⟨7, _, rfl⟩, by decide +kernel, htaken, htop, hbit, fun hex => ?_⟩
  have := (hex.2 31 (by decide)).mpr ⟨by rw [htop], .inl (by rw [htop, htaken]; decide)⟩
  exact absurd (hbit.symm.trans this) nofun

/-- After 32 chunks in order the block is exact. -/
theorem sack_exact_iff_full :
    let d := run ((.willing, .pipeStart .ble (pipeStartBody 8 8)) :: emptyFrames 32) (Dev.boot 7)
    sackHighest (pipeBuildSack d) = 31 ∧ SackExact d (pipeBuildSack d) := by
  intro d
  have h := sack_exact_iff d ⟨7, _, rfl⟩ (by decide +kernel) (by decide +kernel)
  exact ⟨by decide +kernel, h.2.mpr (by decide +kernel)⟩

end OpenDisplay
