import OpenDisplay.Inflate.Model

/-! The loops of the inflater: the dynamic header, the stored header, stored
data, compressed data, the trailer, and the poll loop over all of them. Every
pass that goes on spends input, room in the output buffer, or a stage. -/

namespace OpenDisplay

open Loops

theorem onRead_next {α : Type} {f : BitReader → Rc α × BitReader} {s t : Inflate}
    {k : α → Inflate → HeaderIter} (h : onRead (s.read f) k = .next t) :
    ∃ a r, f s.rd = (.ok a, r) ∧ k a { s with rd := r } = .next t := by
  unfold onRead Inflate.read at h
  cases hf : f s.rd with
  | mk rc r =>
    rw [hf] at h
    cases rc with
    | ok a => exact ⟨a, r, rfl, h⟩
    | need => cases h
    | fail e => cases h

def DynamicStage.rank : DynamicStage → Nat
  | .hlit => 8 | .hdist => 7 | .hclen => 6 | .clearClen => 5 | .readClen => 4
  | .buildCltree => 3 | .repeatBits => 2 | .readLengths => 1 | .buildTrees => 0

def Inflate.work (s : Inflate) : Nat := s.rd.work

def Inflate.dynamicWork (s : Inflate) : Nat := 16 * s.work + s.dynamicStage.rank

theorem dynamicPass_dec (s t : Inflate) (h : dynamicPass s = .next t) :
    t.dynamicWork < s.dynamicWork := by
  unfold dynamicPass at h
  split at h
  case h_1 hs =>
    obtain ⟨v, r, hr, hk⟩ := onRead_next h
    obtain rfl := Iter.next.inj hk
    have := (readBits_work hr).1
    simp only [Inflate.dynamicWork, Inflate.work, hs, DynamicStage.rank]
    omega
  case h_2 hs =>
    obtain ⟨v, r, hr, hk⟩ := onRead_next h
    obtain rfl := Iter.next.inj hk
    have := (readBits_work hr).1
    simp only [Inflate.dynamicWork, Inflate.work, hs, DynamicStage.rank]
    omega
  case h_3 hs =>
    obtain ⟨v, r, hr, hk⟩ := onRead_next h
    have := (readBits_work hr).1
    simp only [dynamicSizes, failWith] at hk
    split at hk
    · cases hk
    · obtain rfl := Iter.next.inj hk
      simp only [Inflate.dynamicWork, Inflate.work, hs, DynamicStage.rank]
      omega
  case h_4 hs =>
    obtain rfl := Iter.next.inj h
    simp only [Inflate.dynamicWork, Inflate.work, hs, DynamicStage.rank]
    omega
  case h_5 hs =>
    split at h
    · obtain ⟨v, r, hr, hk⟩ := onRead_next h
      obtain rfl := Iter.next.inj hk
      have := (readBits_work hr).2 (by omega)
      simp only [Inflate.dynamicWork, Inflate.work, hs, DynamicStage.rank]
      omega
    · obtain rfl := Iter.next.inj h
      simp only [Inflate.dynamicWork, Inflate.work, hs, DynamicStage.rank]
      omega
  case h_6 hs =>
    split at h
    · cases h
    · obtain rfl := Iter.next.inj h
      have := resetCodeReaders_work s.rd
      simp only [Inflate.dynamicWork, Inflate.work, hs, DynamicStage.rank]
      omega
  case h_7 hs =>
    split at h
    · obtain ⟨sym, r, hr, hk⟩ := onRead_next h
      have := decodeSymbol_work hr
      simp only [dynamicLength, failWith] at hk
      split_ifs at hk
      all_goals
        obtain rfl := Iter.next.inj hk
        simp only [Inflate.dynamicWork, Inflate.work, hs, DynamicStage.rank]
        omega
    · obtain rfl := Iter.next.inj h
      simp only [Inflate.dynamicWork, Inflate.work, hs, DynamicStage.rank]
      omega
  case h_8 hs =>
    obtain ⟨v, r, hr, hk⟩ := onRead_next h
    have := (readBits_work hr).1
    simp only [dynamicRepeat, failWith] at hk
    split at hk
    · cases hk
    · obtain rfl := Iter.next.inj hk
      simp only [Inflate.dynamicWork, Inflate.work, hs, DynamicStage.rank]
      omega
  case h_9 hs =>
    simp only [dynamicBuildTrees, failWith] at h
    split at h
    · cases h
    · split at h
      · cases h
      · split at h <;> cases h

theorem storedHeaderPass_dec (s t : Inflate) (h : storedHeaderPass s = .next t) :
    t.work < s.work := by
  unfold storedHeaderPass at h
  split at h
  · obtain ⟨byte, r, hr, hk⟩ := onRead_next h
    have := readByte_work hr
    obtain rfl := Iter.next.inj hk
    simp only [Inflate.work]
    split_ifs <;> exact this
  · simp only [failWith] at h
    split at h <;> cases h

theorem trailerPass_dec (s t : Inflate) (h : trailerPass s = .next t) : t.work < s.work := by
  unfold trailerPass at h
  split at h
  · obtain ⟨byte, r, hr, hk⟩ := onRead_next h
    obtain rfl := Iter.next.inj hk
    exact readByte_work hr
  · simp only [failWith] at h
    split_ifs at h

def processDynamicTrees (s : Inflate) : Rc Unit × Inflate :=
  loop dynamicPass Inflate.dynamicWork dynamicPass_dec s

def processStoredHeader (s : Inflate) : Rc Unit × Inflate :=
  loop storedHeaderPass Inflate.work storedHeaderPass_dec s

def processTrailer (s : Inflate) : Rc Unit × Inflate :=
  loop trailerPass Inflate.work trailerPass_dec s

section Data

/-- The bytes put into the output buffer so far, and the decoder. -/
abbrev Work := Bytes × Inflate

/-- The return codes 1, 2, 3, 0 and -1 of the two data loops. -/
inductive DataRc where
  | ok | full | endBlock | need | fail
deriving DecidableEq

abbrev DataIter := Iter Work (DataRc × Work)

def recordOutputByte (byte : UInt8) (s : Inflate) : Inflate :=
  { s with
    window := s.window.set s.windowPos byte
    windowPos := (s.windowPos + 1) % zlibWindowSize
    outputCount := s.outputCount + 1
    adler := adlerUpdateByte s.adler byte }

def putOutputByte (byte : UInt8) (capacity : Nat) (w : Work) : Bool × Work :=
  let (out, s) := w
  if capacity ≤ out.length then (false, w)
  else if s.expectedOutput ≤ s.outputCount then
    (false, out, setError "decompressed output exceeds expected size" s)
  else (true, out ++ [byte], recordOutputByte byte s)

def onData {α : Type} (out : Bytes) (p : Rc α × Inflate) (k : α → Inflate → DataIter) :
    DataIter :=
  match p with
  | (.ok a, s) => k a s
  | (.need, s) => .stop (.need, out, s)
  | (.fail _, s) => .stop (.fail, out, s)

def onPut (p : Bool × Work) (k : Work → DataIter) : DataIter :=
  match p with
  | (true, w) => k w
  | (false, w) => .stop (if w.2.stage = .error then .fail else .full, w)

def storedDataPass (capacity : Nat) (w : Work) : DataIter :=
  let (out, s) := w
  if s.storedLen = 0 then .stop (.ok, w)
  else if capacity ≤ out.length then .stop (.full, w)
  else
    onData out (s.read readByte) fun byte s =>
      onPut (putOutputByte byte capacity (out, s)) fun (out, s) =>
        .next (out, { s with storedLen := s.storedLen - 1 })

def blockSymbol (capacity : Nat) (out : Bytes) (sym : Nat) (s : Inflate) : DataIter :=
  if sym < 256 then onPut (putOutputByte sym.toUInt8 capacity (out, s)) fun w => .stop (.ok, w)
  else if sym = 256 then .stop (.endBlock, out, { s with blockStage := .symbol })
  else if 29 ≤ sym - 257 then .stop (.fail, out, setError "invalid length symbol" s)
  else .next (out, { s with lengthSym := sym - 257, blockStage := .lenExtra })

def blockDistSymbol (out : Bytes) (sym : Nat) (s : Inflate) : DataIter :=
  let s := { s with distSym := sym }
  if 30 ≤ sym then .stop (.fail, out, setError "invalid distance symbol" s)
  else .next (out, { s with blockStage := .distExtra })

def blockDistExtra (out : Bytes) (v : Nat) (s : Inflate) : DataIter :=
  let s := { s with matchOffset := v }
  if v = 0 ∨ v > zlibWindowSize ∨ v > s.outputCount.toNat then
    .stop (.fail, out, setError "invalid back-reference distance" s)
  else .next (out, { s with blockStage := .matchCopy })

def matchByte (s : Inflate) : UInt8 :=
  s.window.getD ((s.windowPos + zlibWindowSize - s.matchOffset) % zlibWindowSize) 0

/-- One pass of the compressed-data loop. The match-copy loop goes round the
same switch, one pass for each byte it copies. -/
def blockPass (capacity : Nat) (w : Work) : DataIter :=
  let (out, s) := w
  if capacity ≤ out.length then .stop (.full, w)
  else
    match s.blockStage with
    | .symbol => onData out (s.read (decodeSymbol s.ltree 288)) (blockSymbol capacity out)
    | .lenExtra =>
      onData out (s.read (readBits (lengthBits.getD s.lengthSym 0) (lengthBase.getD s.lengthSym 0)))
        fun v s => .next (out, { s with matchLen := v, blockStage := .distSymbol })
    | .distSymbol => onData out (s.read (decodeSymbol s.tree 32)) (blockDistSymbol out)
    | .distExtra =>
      onData out (s.read (readBits (distBits.getD s.distSym 0) (distBase.getD s.distSym 0)))
        (blockDistExtra out)
    | .matchCopy =>
      if s.matchLen = 0 then .next (out, { s with blockStage := .symbol })
      else
        onPut (putOutputByte (matchByte s) capacity w) fun (out, s) =>
          .next (out, { s with matchLen := s.matchLen - 1 })

theorem onData_next {α : Type} {f : BitReader → Rc α × BitReader} {out : Bytes} {s : Inflate}
    {w : Work} {k : α → Inflate → DataIter} (h : onData out (s.read f) k = .next w) :
    ∃ a r, f s.rd = (.ok a, r) ∧ k a { s with rd := r } = .next w := by
  unfold onData Inflate.read at h
  cases hf : f s.rd with
  | mk rc r =>
    rw [hf] at h
    cases rc with
    | ok a => exact ⟨a, r, rfl, h⟩
    | need => cases h
    | fail e => cases h

theorem onPut_next {byte : UInt8} {capacity : Nat} {out : Bytes} {s : Inflate} {w : Work}
    {k : Work → DataIter} (h : onPut (putOutputByte byte capacity (out, s)) k = .next w) :
    out.length < capacity ∧ s.outputCount < s.expectedOutput ∧
      k (out ++ [byte], recordOutputByte byte s) = .next w := by
  simp only [putOutputByte] at h
  split_ifs at h with h1 h2
  · cases h
  · cases h
  · exact ⟨by omega, UInt32.not_le.mp h2, h⟩

def BlockStage.rank : BlockStage → Nat
  | .lenExtra => 4 | .distSymbol => 3 | .distExtra => 2 | .matchCopy => 1 | .symbol => 0

def storedWork (w : Work) : Nat := w.2.work

def blockWork (capacity : Nat) (w : Work) : Nat :=
  (8 * w.2.work + w.2.blockStage.rank) * (capacity + 1) + (capacity - w.1.length)

theorem storedDataPass_dec (capacity : Nat) (w w' : Work)
    (h : storedDataPass capacity w = .next w') : storedWork w' < storedWork w := by
  obtain ⟨out, s⟩ := w
  simp only [storedDataPass] at h
  split_ifs at h
  obtain ⟨byte, r, hr, hk⟩ := onData_next h
  obtain ⟨-, -, hk⟩ := onPut_next hk
  obtain rfl := Iter.next.inj hk
  exact readByte_work hr

theorem blockWork_lt {capacity : Nat} {out : Bytes} {s t : Inflate}
    (h : 8 * t.work + t.blockStage.rank < 8 * s.work + s.blockStage.rank) :
    blockWork capacity (out, t) < blockWork capacity (out, s) := by
  have := Nat.mul_lt_mul_of_pos_right h (show 0 < capacity + 1 by omega)
  simp only [blockWork]
  omega

theorem blockPass_dec (capacity : Nat) (w w' : Work) (h : blockPass capacity w = .next w') :
    blockWork capacity w' < blockWork capacity w := by
  obtain ⟨out, s⟩ := w
  simp only [blockPass] at h
  split at h
  · cases h
  split at h
  case h_1 hs =>
    obtain ⟨sym, r, hr, hk⟩ := onData_next h
    have := decodeSymbol_work hr
    simp only [blockSymbol] at hk
    split_ifs at hk
    · obtain ⟨-, -, hk⟩ := onPut_next hk
      cases hk
    · obtain rfl := Iter.next.inj hk
      refine blockWork_lt ?_
      simp only [Inflate.work, hs, BlockStage.rank]
      omega
  case h_2 hs =>
    obtain ⟨v, r, hr, hk⟩ := onData_next h
    have := (readBits_work hr).1
    obtain rfl := Iter.next.inj hk
    refine blockWork_lt ?_
    simp only [Inflate.work, hs, BlockStage.rank]
    omega
  case h_3 hs =>
    obtain ⟨sym, r, hr, hk⟩ := onData_next h
    have := decodeSymbol_work hr
    simp only [blockDistSymbol] at hk
    split_ifs at hk
    obtain rfl := Iter.next.inj hk
    refine blockWork_lt ?_
    simp only [Inflate.work, hs, BlockStage.rank]
    omega
  case h_4 hs =>
    obtain ⟨v, r, hr, hk⟩ := onData_next h
    have := (readBits_work hr).1
    simp only [blockDistExtra] at hk
    split_ifs at hk
    obtain rfl := Iter.next.inj hk
    refine blockWork_lt ?_
    simp only [Inflate.work, hs, BlockStage.rank]
    omega
  case h_5 hs =>
    split_ifs at h
    · obtain rfl := Iter.next.inj h
      refine blockWork_lt ?_
      simp only [Inflate.work, hs, BlockStage.rank]
      omega
    · obtain ⟨hlt, -, hk⟩ := onPut_next h
      obtain rfl := Iter.next.inj hk
      simp only [blockWork, Inflate.work, recordOutputByte, List.length_append,
        List.length_singleton]
      omega

def processStoredData (capacity : Nat) (w : Work) : DataRc × Work :=
  loop (storedDataPass capacity) storedWork (storedDataPass_dec capacity) w

def processBlockData (capacity : Nat) (w : Work) : DataRc × Work :=
  loop (blockPass capacity) (blockWork capacity) (blockPass_dec capacity) w

theorem dynamicPass_work {s t : Inflate} (h : dynamicPass s = .next t) : t.work ≤ s.work := by
  have hd := dynamicPass_dec s t h
  have hr : s.dynamicStage.rank ≤ 8 := by cases s.dynamicStage <;> decide
  simp only [Inflate.dynamicWork] at hd
  omega

theorem onRead_ok {α : Type} {f : BitReader → Rc α × BitReader} {s t : Inflate}
    {k : α → Inflate → HeaderIter} (h : onRead (s.read f) k = .stop (.ok (), t)) :
    ∃ a r, f s.rd = (.ok a, r) ∧ k a { s with rd := r } = .stop (.ok (), t) := by
  unfold onRead Inflate.read at h
  cases hf : f s.rd with
  | mk rc r =>
    rw [hf] at h
    cases rc with
    | ok a => exact ⟨a, r, rfl, h⟩
    | need => cases h
    | fail e => cases h

theorem dynamicPass_ok {s t : Inflate} (h : dynamicPass s = .stop (.ok (), t)) :
    s.dynamicStage = .buildTrees ∧ dynamicBuildTrees s = .stop (.ok (), t) := by
  unfold dynamicPass at h
  split at h
  case h_9 hs => exact ⟨hs, h⟩
  case h_4 => cases h
  case h_5 =>
    split at h
    · obtain ⟨_, _, -, hk⟩ := onRead_ok h
      cases hk
    · cases h
  case h_6 => split at h <;> cases h
  case h_7 =>
    split at h
    · obtain ⟨_, _, -, hk⟩ := onRead_ok h
      simp only [dynamicLength, failWith] at hk
      split_ifs at hk <;> cases hk
    · cases h
  all_goals
    obtain ⟨_, _, -, hk⟩ := onRead_ok h
    try simp only [dynamicSizes, dynamicRepeat, failWith] at hk
    first | cases hk | (split at hk <;> cases hk)

theorem dynamicBuildTrees_ok {s t : Inflate} (h : dynamicBuildTrees s = .stop (.ok (), t)) :
    ∃ ltree dtree, t = { s with
      ltree := ltree, tree := dtree, dynamicStage := .hlit, rd := resetCodeReaders s.rd } := by
  simp only [dynamicBuildTrees, failWith] at h
  split at h
  · cases h
  split at h
  · cases h
  split at h
  · cases h
  · cases h
    exact ⟨_, _, rfl⟩

theorem processDynamicTrees_work {s t : Inflate} (h : processDynamicTrees s = (.ok (), t)) :
    t.work ≤ s.work := by
  refine loop_rule (d := dynamicPass_dec) (P := fun (s : Inflate) (p : Rc Unit × Inflate) =>
    ∀ t, p = (.ok (), t) → t.work ≤ s.work) ?_ ?_ s t h
  · rintro s p hs t rfl
    obtain ⟨-, hb⟩ := dynamicPass_ok hs
    obtain ⟨_, _, rfl⟩ := dynamicBuildTrees_ok hb
    exact resetCodeReaders_work s.rd
  · intro s t p hn ih u hu
    exact (ih u hu).trans (dynamicPass_work hn)

theorem storedHeaderPass_ok {s t : Inflate} (h : storedHeaderPass s = .stop (.ok (), t)) :
    ¬ s.storedHeaderIndex < 4 ∧ t = { s with storedHeaderIndex := 0 } := by
  unfold storedHeaderPass at h
  split at h
  · obtain ⟨_, _, -, hk⟩ := onRead_ok h
    cases hk
  · simp only [failWith] at h
    split at h <;> cases h
    exact ⟨‹_›, rfl⟩

theorem processStoredHeader_work {s t : Inflate} (h : processStoredHeader s = (.ok (), t)) :
    t.work ≤ s.work := by
  refine loop_rule (d := storedHeaderPass_dec)
    (P := fun (s : Inflate) (p : Rc Unit × Inflate) => ∀ t, p = (.ok (), t) → t.work ≤ s.work)
    ?_ ?_ s t h
  · rintro s p hs t rfl
    obtain ⟨-, rfl⟩ := storedHeaderPass_ok hs
    exact Nat.le_refl _
  · intro s t p hn ih u hu
    exact (ih u hu).trans (storedHeaderPass_dec s t hn).le

theorem onData_stop {α : Type} {f : BitReader → Rc α × BitReader} {out : Bytes} {s : Inflate}
    {rc : DataRc} {w : Work} {k : α → Inflate → DataIter}
    (h : onData out (s.read f) k = .stop (rc, w)) (hn : rc ≠ .need) (hf : rc ≠ .fail) :
    ∃ a r, f s.rd = (.ok a, r) ∧ k a { s with rd := r } = .stop (rc, w) := by
  unfold onData Inflate.read at h
  cases hb : f s.rd with
  | mk rc' r =>
    rw [hb] at h
    cases rc' with
    | ok a => exact ⟨a, r, rfl, h⟩
    | need => cases h; exact absurd rfl hn
    | fail e => cases h; exact absurd rfl hf

theorem onPut_stop {byte : UInt8} {capacity : Nat} {out : Bytes} {s : Inflate} {rc : DataRc}
    {w : Work} {k : Work → DataIter}
    (h : onPut (putOutputByte byte capacity (out, s)) k = .stop (rc, w))
    (hu : rc ≠ .full) (hf : rc ≠ .fail) :
    out.length < capacity ∧ s.outputCount < s.expectedOutput ∧
      k (out ++ [byte], recordOutputByte byte s) = .stop (rc, w) := by
  simp only [putOutputByte] at h
  split_ifs at h with h1 h2
  · simp only [onPut] at h
    split_ifs at h <;> cases h
    · exact absurd rfl hf
    · exact absurd rfl hu
  · simp only [onPut, setError, if_true] at h
    cases h
    exact absurd rfl hf
  · exact ⟨by omega, UInt32.not_le.mp h2, h⟩

theorem storedDataPass_ok {capacity : Nat} {w w' : Work}
    (h : storedDataPass capacity w = .stop (.ok, w')) : w.2.storedLen = 0 ∧ w' = w := by
  simp only [storedDataPass] at h
  split_ifs at h with h0 h1
  · cases h
    exact ⟨h0, rfl⟩
  · cases h
  · obtain ⟨_, _, -, hk⟩ := onData_stop h nofun nofun
    obtain ⟨-, -, hk⟩ := onPut_stop hk nofun nofun
    cases hk

theorem storedDataPass_endBlock {capacity : Nat} {w w' : Work} :
    storedDataPass capacity w ≠ .stop (.endBlock, w') := by
  intro h
  simp only [storedDataPass] at h
  split_ifs at h
  · cases h
  · cases h
  · obtain ⟨_, _, -, hk⟩ := onData_stop h nofun nofun
    obtain ⟨-, -, hk⟩ := onPut_stop hk nofun nofun
    cases hk

theorem processStoredData_work {capacity : Nat} {w w' : Work} {rc : DataRc}
    (h : processStoredData capacity w = (rc, w')) (hrc : rc = .ok ∨ rc = .endBlock) :
    w'.2.work ≤ w.2.work := by
  refine loop_rule (d := storedDataPass_dec capacity)
    (P := fun (w : Work) (p : DataRc × Work) => ∀ rc w', p = (rc, w') →
      rc = .ok ∨ rc = .endBlock → w'.2.work ≤ w.2.work) ?_ ?_ w rc w' h hrc
  · rintro w p hs rc w' rfl (rfl | rfl)
    · obtain ⟨-, rfl⟩ := storedDataPass_ok hs
      exact Nat.le_refl _
    · exact absurd hs storedDataPass_endBlock
  · intro w t p hn ih rc w' hp hrc
    exact (ih rc w' hp hrc).trans (storedDataPass_dec capacity w t hn).le

theorem blockPass_work {capacity : Nat} {w w' : Work} (h : blockPass capacity w = .next w') :
    w'.2.work ≤ w.2.work := by
  have hd := blockPass_dec capacity w w' h
  have hr : w.2.blockStage.rank ≤ 4 := by cases w.2.blockStage <;> decide
  have hq : 8 * w'.2.work + w'.2.blockStage.rank ≤ 8 * w.2.work + w.2.blockStage.rank := by
    by_contra hlt
    have := Nat.mul_le_mul_right (capacity + 1) (Nat.lt_of_not_le hlt)
    simp only [blockWork, Nat.succ_mul] at hd this
    omega
  omega

/-- The compressed-data loop returns to poll for a literal or the end of the
block, and either way it has read a symbol. -/
theorem blockPass_stop {capacity : Nat} {w w' : Work} {rc : DataRc}
    (h : blockPass capacity w = .stop (rc, w')) (hrc : rc = .ok ∨ rc = .endBlock) :
    w'.2.work < w.2.work := by
  have hne : rc ≠ .full ∧ rc ≠ .need ∧ rc ≠ .fail := by
    obtain rfl | rfl := hrc <;> exact ⟨nofun, nofun, nofun⟩
  obtain ⟨hu, hn, hf⟩ := hne
  obtain ⟨out, s⟩ := w
  simp only [blockPass] at h
  split at h
  · cases h; exact absurd rfl hu
  split at h
  case h_1 =>
    obtain ⟨sym, r, hr, hk⟩ := onData_stop h hn hf
    have hw := decodeSymbol_work hr
    simp only [blockSymbol] at hk
    split_ifs at hk
    · obtain ⟨-, -, hk⟩ := onPut_stop hk hu hf
      cases hk
      exact hw
    · cases hk; exact hw
    · cases hk; exact absurd rfl hf
  case h_5 =>
    split_ifs at h
    obtain ⟨-, -, hk⟩ := onPut_stop h hu hf
    cases hk
  all_goals
    obtain ⟨_, _, -, hk⟩ := onData_stop h hn hf
    try simp only [blockDistSymbol, blockDistExtra] at hk
    first | cases hk | (split_ifs at hk; cases hk; exact absurd rfl hf)

theorem processBlockData_work {capacity : Nat} {w w' : Work} {rc : DataRc}
    (h : processBlockData capacity w = (rc, w')) (hrc : rc = .ok ∨ rc = .endBlock) :
    w'.2.work < w.2.work := by
  refine loop_rule (d := blockPass_dec capacity)
    (P := fun (w : Work) (p : DataRc × Work) => ∀ rc w', p = (rc, w') →
      rc = .ok ∨ rc = .endBlock → w'.2.work < w.2.work) ?_ ?_ w rc w' h hrc
  · rintro w p hs rc w' rfl hrc
    exact blockPass_stop hs hrc
  · intro w t p hn ih rc w' hp hrc
    exact (ih rc w' hp hrc).trans_le (blockPass_work hn)

end Data

section Poll

inductive ZlibStatus where
  | needsInput | outputReady | done | error
deriving DecidableEq

abbrev PollIter := Iter Work (ZlibStatus × Work)

def onPoll {α : Type} (out : Bytes) (p : Rc α × Inflate) (k : α → Inflate → Work) : PollIter :=
  match p with
  | (.ok a, s) =>
    let w := k a s
    if w.2.stage = .error then .stop (.error, w) else .next w
  | (.need, s) => .stop (.needsInput, out, s)
  | (.fail _, s) => .stop (.error, out, s)

def pollFlg (byte : UInt8) (s : Inflate) : Inflate :=
  match odZlibHeaderCheck s.cmf byte with
  | .bad => setError "invalid zlib header" s
  | .windowTooBig => setError "zlib stream window exceeds firmware limit" s
  | .ok => { s with stage := .blockFinal }

def pollBlockType (btype : Nat) (s : Inflate) : Inflate :=
  let s := { s with btype := btype }
  if btype = 0 then
    { s with
      rd := { s.rd with bitCount := 0 }
      storedHeaderIndex := 0, storedLen := 0, storedInvlen := 0, stage := .storedLen }
  else if btype = 1 then
    { buildFixedTrees s with
      blockStage := .symbol, rd := resetCodeReaders s.rd, stage := .blockData }
  else if btype = 2 then
    { s with dynamicStage := .hlit, rd := resetCodeReaders s.rd, stage := .dynamicTrees }
  else setError "invalid deflate block type" s

def endBlock (s : Inflate) : Inflate :=
  { s with stage := if s.bfinal ≠ 0 then .trailer else .blockFinal }

/-- A pause in the middle of the data hands over what there is of it. -/
def waiting (w : Work) : ZlibStatus := if w.1 = [] then .needsInput else .outputReady

def pollPass (capacity : Nat) (w : Work) : PollIter :=
  let (out, s) := w
  if capacity ≤ out.length then .stop (.outputReady, w)
  else
    match s.stage with
    | .zlibCmf => onPoll out (s.read readByte) fun byte s =>
        (out, { s with cmf := byte, stage := .zlibFlg })
    | .zlibFlg => onPoll out (s.read readByte) fun byte s => (out, pollFlg byte s)
    | .blockFinal => onPoll out (s.read readBit) fun v s =>
        (out, { s with bfinal := v, stage := .blockType })
    | .blockType => onPoll out (s.read (readBits 2 0)) fun v s => (out, pollBlockType v s)
    | .dynamicTrees => onPoll out (processDynamicTrees s) fun _ s =>
        (out, { s with blockStage := .symbol, stage := .blockData })
    | .storedLen => onPoll out (processStoredHeader s) fun _ s =>
        (out, { s with stage := .storedData })
    | .storedData =>
      match processStoredData capacity w with
      | (.fail, w) => .stop (.error, w)
      | (.need, w) => .stop (waiting w, w)
      | (.full, w) => .stop (.outputReady, w)
      | (_, w) => .next (w.1, endBlock w.2)
    | .blockData =>
      match processBlockData capacity w with
      | (.fail, w) => .stop (.error, w)
      | (.need, w) => .stop (waiting w, w)
      | (.full, w) => .stop (.outputReady, w)
      | (.ok, w) => .next w
      | (.endBlock, w) => .next (w.1, endBlock w.2)
    | .trailer =>
      match processTrailer s with
      | (.fail _, s) => .stop (.error, out, s)
      | (.need, s) => .stop (waiting (out, s), out, s)
      | (.ok _, s) => .stop (.done, out, s)
    | .done => .stop (.done, w)
    | .error => .stop (.error, w)

theorem onPoll_next {α : Type} {out : Bytes} {p : Rc α × Inflate} {k : α → Inflate → Work}
    {w : Work} (h : onPoll out p k = .next w) :
    ∃ a s, p = (.ok a, s) ∧ w = k a s ∧ w.2.stage ≠ .error := by
  obtain ⟨rc, s⟩ := p
  cases rc with
  | ok a =>
    simp only [onPoll] at h
    split_ifs at h with he
    obtain rfl := Iter.next.inj h
    exact ⟨a, s, rfl, rfl, he⟩
  | need => cases h
  | fail e => cases h

theorem Inflate.read_ok {α : Type} {f : BitReader → Rc α × BitReader} {s t : Inflate} {a : α}
    (h : s.read f = (.ok a, t)) : ∃ r, f s.rd = (.ok a, r) ∧ t = { s with rd := r } := by
  unfold Inflate.read at h
  cases hf : f s.rd with
  | mk rc r =>
    rw [hf] at h
    cases rc with
    | ok a' => cases h; exact ⟨r, rfl, rfl⟩
    | need => cases h
    | fail e => cases h

def Stage.rank : Stage → Nat
  | .zlibCmf => 8 | .zlibFlg => 7 | .blockType => 6 | .dynamicTrees => 5 | .storedLen => 5
  | .storedData => 4 | .blockData => 4 | .blockFinal => 3 | .trailer => 2 | .done => 1
  | .error => 0

def pollWork (w : Work) : Nat := 8 * w.2.work + w.2.stage.rank

theorem endBlock_rank (s : Inflate) : (endBlock s).stage.rank ≤ 3 := by
  unfold endBlock
  split_ifs <;> simp [Stage.rank]

theorem pollFlg_next {byte : UInt8} {s : Inflate} (h : (pollFlg byte s).stage ≠ .error) :
    pollFlg byte s = { s with stage := .blockFinal } := by
  unfold pollFlg at h ⊢
  split at h <;> simp_all [setError]

theorem pollBlockType_work (v : Nat) (s : Inflate) : (pollBlockType v s).work ≤ s.work := by
  have := resetCodeReaders_work s.rd
  simp only [pollBlockType]
  split_ifs
  · simp only [Inflate.work, BitReader.work, BitReader.bitsLeft]
    omega
  · exact this
  · exact this
  · exact Nat.le_refl _

theorem pollBlockType_rank (v : Nat) (s : Inflate) : (pollBlockType v s).stage.rank ≤ 5 := by
  simp only [pollBlockType]
  split_ifs <;> simp [setError, Stage.rank]

theorem pollPass_dec (capacity : Nat) (w w' : Work) (h : pollPass capacity w = .next w') :
    pollWork w' < pollWork w := by
  obtain ⟨out, s⟩ := w
  simp only [pollPass] at h
  split at h
  · cases h
  split at h
  case h_1 hs =>
    obtain ⟨byte, t, hr, rfl, -⟩ := onPoll_next h
    obtain ⟨r, hrd, rfl⟩ := Inflate.read_ok hr
    have := readByte_work hrd
    simp only [pollWork, Inflate.work, hs, Stage.rank]
    omega
  case h_2 hs =>
    obtain ⟨byte, t, hr, rfl, he⟩ := onPoll_next h
    obtain ⟨r, hrd, rfl⟩ := Inflate.read_ok hr
    have := readByte_work hrd
    have hw : pollWork (out, pollFlg byte { s with rd := r }) = 8 * r.work + 3 := by
      rw [pollFlg_next he]; rfl
    rw [hw]
    simp only [pollWork, Inflate.work, hs, Stage.rank]
    omega
  case h_3 hs =>
    obtain ⟨bit, t, hr, rfl, -⟩ := onPoll_next h
    obtain ⟨r, hrd, rfl⟩ := Inflate.read_ok hr
    have := readBit_work hrd
    simp only [pollWork, Inflate.work, hs, Stage.rank]
    omega
  case h_4 hs =>
    obtain ⟨v, t, hr, rfl, -⟩ := onPoll_next h
    obtain ⟨r, hrd, rfl⟩ := Inflate.read_ok hr
    have h1 := (readBits_work hrd).1
    have h2 := pollBlockType_work v { s with rd := r }
    have h3 := pollBlockType_rank v { s with rd := r }
    simp only [pollWork, hs, Stage.rank, Inflate.work] at h2 h3 ⊢
    omega
  case h_5 hs =>
    obtain ⟨_, t, hr, rfl, -⟩ := onPoll_next h
    have := processDynamicTrees_work hr
    simp only [pollWork, Inflate.work, hs, Stage.rank] at this ⊢
    omega
  case h_6 hs =>
    obtain ⟨_, t, hr, rfl, -⟩ := onPoll_next h
    have := processStoredHeader_work hr
    simp only [pollWork, Inflate.work, hs, Stage.rank] at this ⊢
    omega
  case h_7 hs =>
    cases hp : processStoredData capacity (out, s) with
    | mk rc w =>
      rw [hp] at h
      cases rc with
      | ok | endBlock =>
        obtain rfl := Iter.next.inj h
        have h1 := processStoredData_work hp (by simp)
        have h2 := endBlock_rank w.2
        simp only [pollWork, hs, Stage.rank, Inflate.work, endBlock] at h1 h2 ⊢
        omega
      | need | full | fail => cases h
  case h_8 hs =>
    cases hp : processBlockData capacity (out, s) with
    | mk rc w =>
      rw [hp] at h
      cases rc with
      | ok =>
        obtain rfl := Iter.next.inj h
        have h1 := processBlockData_work hp (by simp)
        have h2 : w.2.stage.rank ≤ 8 := by cases w.2.stage <;> decide
        have h3 : s.stage.rank = 4 := congrArg Stage.rank hs
        simp only [pollWork, h3] at h1 ⊢
        omega
      | endBlock =>
        obtain rfl := Iter.next.inj h
        have h1 := processBlockData_work hp (by simp)
        have h2 := endBlock_rank w.2
        simp only [pollWork, hs, Stage.rank, Inflate.work, endBlock] at h1 h2 ⊢
        omega
      | need | full | fail => cases h
  case h_9 hs => split at h <;> cases h
  case h_10 hs => cases h
  case h_11 hs => cases h

def odZlibStreamPoll (capacity : Nat) (s : Inflate) : ZlibStatus × Work :=
  if s.initialized = false then (.error, [], setError "zlib stream not initialized" s)
  else if s.stage = .error then (.error, [], s)
  else if s.stage = .done then (.done, [], s)
  else loop (pollPass capacity) pollWork (pollPass_dec capacity) ([], s)

def odZlibStreamReset (expectedOutputSize : UInt32) : Inflate :=
  { expectedOutput := expectedOutputSize, adler := 1, initialized := true }

def odZlibStreamPush (input : Bytes) (final : Bool) (s : Inflate) : ZlibStatus × Inflate :=
  if s.initialized = false then (.error, setError "zlib stream not initialized" s)
  else if s.rd.input ≠ [] then (.error, setError "previous input not fully consumed" s)
  else
    let s := { s with rd := { s.rd with input := input, inputFinal := final } }
    if s.stage = .done then
      if input ≠ [] then (.error, setError "input after end of zlib stream" s) else (.done, s)
    else (.needsInput, s)

end Poll

end OpenDisplay
