import OpenDisplay.Inflate.Poll
import OpenDisplay.Lib.Resume

/-! The inflater as a resumable machine. A tick is one pass of whichever loop
the decoder is in, with room for one byte of output; it does not see how the
input was cut up or how large the output buffer is. -/

namespace OpenDisplay

open Loops Resumable

abbrev InflateTick := Tick Inflate UInt8

def Inflate.feed (ys : Bytes) (b : Bool) (s : Inflate) : Inflate :=
  { s with rd := s.rd.feed ys b }

def onTick {α : Type} (p : Rc α × Inflate) (k : α → Inflate → InflateTick) : InflateTick :=
  match p with
  | (.ok a, s) => k a s
  | (.need, s) => .need s
  | (.fail _, _) => .fail

def headerTick (fin : Inflate → InflateTick) : HeaderIter → InflateTick
  | .next t => .next t
  | .stop (.ok _, t) => fin t
  | .stop (.need, t) => .need t
  | .stop (.fail _, _) => .fail

def dataTick : DataIter → InflateTick
  | .next ([], t) => .next t
  | .next (b :: _, t) => .emit b t
  | .stop (.ok, [], t) => .next (endBlock t)
  | .stop (.ok, b :: _, t) => .emit b t
  | .stop (.endBlock, _, t) => .next (endBlock t)
  | .stop (.need, _, t) => .need t
  | .stop (.full, _, _) => .fail
  | .stop (.fail, _, _) => .fail

def nextUnlessError (s : Inflate) : InflateTick := if s.stage = .error then .fail else .next s

def tick (s : Inflate) : InflateTick :=
  match s.stage with
  | .zlibCmf => onTick (s.read readByte) fun byte s => .next { s with cmf := byte, stage := .zlibFlg }
  | .zlibFlg => onTick (s.read readByte) fun byte s => nextUnlessError (pollFlg byte s)
  | .blockFinal => onTick (s.read readBit) fun v s => .next { s with bfinal := v, stage := .blockType }
  | .blockType => onTick (s.read (readBits 2 0)) fun v s => nextUnlessError (pollBlockType v s)
  | .dynamicTrees =>
    headerTick (fun t => .next { t with blockStage := .symbol, stage := .blockData }) (dynamicPass s)
  | .storedLen => headerTick (fun t => .next { t with stage := .storedData }) (storedHeaderPass s)
  | .storedData => dataTick (storedDataPass 1 ([], s))
  | .blockData => dataTick (blockPass 1 ([], s))
  | .trailer => headerTick (fun _ => .done) (trailerPass s)
  | .done => .done
  | .error => .fail

section Spec

/-- What a tick becomes when more input arrives. The last tick of the trailer
rejects a stream that has anything after it. -/
def fedTick (ys : Bytes) (b : Bool) : InflateTick → InflateTick
  | .next t => .next (t.feed ys b)
  | .emit x t => .emit x (t.feed ys b)
  | .need t => tick (t.feed ys b)
  | .fail => .fail
  | .done => if ys = [] then .done else .fail

/-- The bookkeeping that ticks share: they keep the flags, count what they
write, and wait only for input that may still come. -/
structure Kept (n : Nat) (s t : Inflate) : Prop where
  initialized : t.initialized = s.initialized
  expectedOutput : t.expectedOutput = s.expectedOutput
  inputFinal : t.rd.inputFinal = s.rd.inputFinal
  outputCount : t.outputCount.toNat = s.outputCount.toNat + n
  room : 0 < n → t.outputCount.toNat ≤ t.expectedOutput.toNat

def Live (s : Inflate) : Prop := s.stage ≠ .error ∧ s.stage ≠ .done

def Keeps (s : Inflate) : InflateTick → Prop
  | .next t => Kept 0 s t ∧ Live t
  | .emit _ t => Kept 1 s t ∧ Live t
  | .need t => Kept 0 s t ∧ s.rd.inputFinal = false ∧ t.rd.input = [] ∧ t.stage = s.stage
  | .fail => True
  | .done => s.outputCount = s.expectedOutput ∧ s.rd.input = []

/-- A tick with its bookkeeping, that commutes with the arrival of input. -/
structure Regular (s : Inflate) : Prop where
  keeps : Keeps s (tick s)
  feed : s.rd.inputFinal = false → ∀ ys b, tick (s.feed ys b) = fedTick ys b (tick s)

theorem Kept.zero {s t : Inflate} (h1 : t.initialized = s.initialized)
    (h2 : t.expectedOutput = s.expectedOutput) (h3 : t.rd.inputFinal = s.rd.inputFinal)
    (h4 : t.outputCount = s.outputCount) : Kept 0 s t :=
  ⟨h1, h2, h3, by rw [h4]; rfl, nofun⟩

theorem Kept.of_rd {s : Inflate} {r : BitReader} (h : r.inputFinal = s.rd.inputFinal) :
    Kept 0 s { s with rd := r } := .zero rfl rfl h rfl

theorem Kept.trans {m n : Nat} {s t u : Inflate} (h : Kept m s t) (h' : Kept n t u) :
    Kept (m + n) s u where
  initialized := h'.initialized.trans h.initialized
  expectedOutput := h'.expectedOutput.trans h.expectedOutput
  inputFinal := h'.inputFinal.trans h.inputFinal
  outputCount := by rw [h'.outputCount, h.outputCount]; omega
  room hmn := by
    by_cases hn : 0 < n
    · exact h'.room hn
    · have hm := h.room (by omega)
      rw [h'.outputCount, h'.expectedOutput]
      omega

theorem regular_read {α : Type} {f : BitReader → Rc α × BitReader} {k : α → Inflate → InflateTick} {s : Inflate}
    (hf : Reads f) (heq : ∀ r, tick { s with rd := r } = onTick (Inflate.read f { s with rd := r }) k)
    (hk : ∀ a r, r.inputFinal = s.rd.inputFinal → Keeps s (k a { s with rd := r }))
    (hfeed : ∀ a r ys b, k a (Inflate.feed ys b { s with rd := r }) = fedTick ys b (k a { s with rd := r })) :
    Regular s := by
  have hs : tick s = onTick (s.read f) k := heq s.rd
  constructor
  · rw [hs]
    unfold onTick Inflate.read
    cases hr : f s.rd with
    | mk rc r =>
      have hfin := hf.final_eq hr
      cases rc with
      | ok a => exact hk a r hfin
      | need =>
        obtain ⟨h1, h2⟩ := hf.need_input hr
        exact ⟨.zero rfl rfl hfin rfl, h1, h2, rfl⟩
      | fail e => trivial
  · intro hfin ys b
    have hr := hf.resume hfin ys b
    rw [hs, show s.feed ys b = { s with rd := s.rd.feed ys b } from rfl, heq]
    unfold onTick Inflate.read
    cases hb : f s.rd with
    | mk rc r =>
      rw [hb] at hr
      cases rc with
      | ok a =>
        simp only [hr, resumed]
        exact hfeed a r ys b
      | need =>
        simp only [hr, resumed, fedTick]
        exact (heq (r.feed ys b)).symm
      | fail e => simp only [hr, resumed, fedTick]

theorem headerTick_onRead {α : Type} (fin : Inflate → InflateTick) (p : Rc α × Inflate)
    (k : α → Inflate → HeaderIter) :
    headerTick fin (onRead p k) = onTick p fun a s => headerTick fin (k a s) := by
  obtain ⟨rc, s⟩ := p
  cases rc <;> rfl

theorem dataTick_onData {α : Type} (p : Rc α × Inflate) (k : α → Inflate → DataIter) :
    dataTick (onData [] p k) = onTick p fun a s => dataTick (k a s) := by
  obtain ⟨rc, s⟩ := p
  cases rc <;> rfl

theorem regular_next {s t : Inflate} (ht : tick s = .next t) (hk : Kept 0 s t)
    (he : Live t) (hfeed : ∀ ys b, tick (s.feed ys b) = .next (t.feed ys b)) :
    Regular s where
  keeps := by rw [ht]; exact ⟨hk, he⟩
  feed _ ys b := by rw [ht, hfeed]; rfl

theorem regular_fail {s : Inflate} (hs : tick s = .fail)
    (hfeed : ∀ ys b, tick (s.feed ys b) = .fail) : Regular s where
  keeps := by rw [hs]; trivial
  feed _ ys b := by rw [hs, hfeed]; rfl

theorem buildTrees_regular {s : Inflate} (hs : s.stage = .dynamicTrees)
    (hd : s.dynamicStage = .buildTrees) : Regular s := by
  by_cases h0 : s.lengths.getD 256 0 = 0
  · refine regular_fail ?_ fun ys b => ?_ <;>
      simp only [tick, Inflate.feed, hs, dynamicPass, hd, dynamicBuildTrees, h0, if_true, failWith,
        headerTick]
  cases h1 : buildTree s.ltree 288 (s.lengths.take s.hlit) with
  | error e =>
    refine regular_fail ?_ fun ys b => ?_ <;>
      simp only [tick, Inflate.feed, hs, dynamicPass, hd, dynamicBuildTrees, h0, if_false, h1,
        failWith, headerTick]
  | ok ltree =>
    cases h2 : buildTree s.tree 32 ((s.lengths.drop s.hlit).take s.hdist) with
    | error e =>
      refine regular_fail ?_ fun ys b => ?_ <;>
        simp only [tick, Inflate.feed, hs, dynamicPass, hd, dynamicBuildTrees, h0, if_false, h1, h2,
          failWith, headerTick]
    | ok dtree =>
      have ht : ∀ r, tick { s with rd := r } = .next { s with
          rd := resetCodeReaders r, ltree := ltree, tree := dtree, dynamicStage := .hlit
          blockStage := .symbol, stage := .blockData } := by
        intro r
        simp only [tick, hs, dynamicPass, hd, dynamicBuildTrees, h0, if_false, h1, h2, headerTick]
      exact regular_next (ht s.rd) (.zero rfl rfl rfl rfl) ⟨by simp, by simp⟩ fun ys b => ht (s.rd.feed ys b)

theorem buildCltree_regular {s : Inflate} (hs : s.stage = .dynamicTrees)
    (hd : s.dynamicStage = .buildCltree) : Regular s := by
  cases h1 : buildTree s.tree 19 (s.lengths.take 19) with
  | error e =>
    refine regular_fail ?_ fun ys b => ?_ <;>
      simp only [tick, Inflate.feed, hs, dynamicPass, hd, h1, failWith, headerTick]
  | ok cltree =>
    have ht : ∀ r, tick { s with rd := r } = .next { s with
        rd := resetCodeReaders r, tree := cltree, hlimit := s.hlit + s.hdist, dynNum := 0
        dynamicStage := .readLengths } := by
      intro r
      simp only [tick, hs, dynamicPass, hd, h1, headerTick]
    exact regular_next (ht s.rd) (.zero rfl rfl rfl rfl) (by simp [Live, hs])
      fun ys b => ht (s.rd.feed ys b)

theorem dynamicTrees_regular {s : Inflate} (hs : s.stage = .dynamicTrees) : Regular s := by
  have hne : Live s := by simp [Live, hs]
  cases hd : s.dynamicStage with
  | hlit =>
    refine regular_read (readBits_reads 5 257)
      (fun r => by simp only [tick, hs, dynamicPass, hd, headerTick_onRead]; rfl)
      (fun v r hr => ?_) fun _ _ _ _ => ?_
    · exact ⟨.zero rfl rfl hr rfl, hne⟩
    · rfl
  | hdist =>
    refine regular_read (readBits_reads 5 1)
      (fun r => by simp only [tick, hs, dynamicPass, hd, headerTick_onRead]; rfl)
      (fun v r hr => ?_) fun _ _ _ _ => ?_
    · exact ⟨.zero rfl rfl hr rfl, hne⟩
    · rfl
  | hclen =>
    refine regular_read (readBits_reads 4 4)
      (fun r => by simp only [tick, hs, dynamicPass, hd, headerTick_onRead]; rfl)
      (fun v r hr => ?_) fun v r ys b => ?_
    · simp only [dynamicSizes, failWith]
      split_ifs
      · trivial
      · exact ⟨.zero rfl rfl hr rfl, hne⟩
    · by_cases h : s.hlit > 286 ∨ s.hdist > 32 ∨ s.hlit + s.hdist > 320 <;>
        simp only [dynamicSizes, failWith, Inflate.feed, h, if_true, if_false] <;> rfl
  | clearClen =>
    have ht : ∀ r, tick { s with rd := r } = .next { s with
        rd := r, lengths := fillLengths s.dynI (19 - s.dynI) 0 s.lengths, dynI := 0
        dynamicStage := .readClen } := by
      intro r
      simp only [tick, hs, dynamicPass, hd, headerTick]
    exact regular_next (ht s.rd) (.zero rfl rfl rfl rfl) hne fun ys b => ht (s.rd.feed ys b)
  | readClen =>
    by_cases hi : s.dynI < s.hclen
    · refine regular_read (readBits_reads 3 0)
        (fun r => by simp only [tick, hs, dynamicPass, hd, hi, if_true, headerTick_onRead]; rfl)
        (fun v r hr => ?_) fun _ _ _ _ => ?_
      · exact ⟨.zero rfl rfl hr rfl, hne⟩
      · rfl
    · have ht : ∀ r, tick { s with rd := r } = .next { s with
          rd := r, dynamicStage := .buildCltree } := by
        intro r
        simp only [tick, hs, dynamicPass, hd, hi, if_false, headerTick]
      exact regular_next (ht s.rd) (.zero rfl rfl rfl rfl) hne fun ys b => ht (s.rd.feed ys b)
  | buildCltree => exact buildCltree_regular hs hd
  | readLengths =>
    by_cases hi : s.dynNum < s.hlimit
    · refine regular_read (decodeSymbol_reads s.tree 19)
        (fun r => by simp only [tick, hs, dynamicPass, hd, hi, if_true, headerTick_onRead]; rfl)
        (fun v r hr => ?_) fun v r ys b => ?_
      · simp only [dynamicLength, failWith]
        split_ifs
        all_goals first | trivial | exact ⟨.zero rfl rfl hr rfl, hne⟩
      · by_cases h : v < 16
        · simp only [dynamicLength, Inflate.feed, h, if_true]; rfl
        by_cases h16 : v = 16
        · by_cases h0 : s.dynNum = 0 <;>
            simp only [dynamicLength, failWith, Inflate.feed, h16, h0, if_true, if_false] <;> rfl
        by_cases h17 : v = 17
        · simp only [dynamicLength, Inflate.feed, h17, if_true]; rfl
        by_cases h18 : v = 18 <;>
          simp only [dynamicLength, failWith, Inflate.feed, h, h16, h17, h18, if_true, if_false] <;>
          rfl
    · have ht : ∀ r, tick { s with rd := r } = .next { s with
          rd := r, dynamicStage := .buildTrees } := by
        intro r
        simp only [tick, hs, dynamicPass, hd, hi, if_false, headerTick]
      exact regular_next (ht s.rd) (.zero rfl rfl rfl rfl) hne fun ys b => ht (s.rd.feed ys b)
  | repeatBits =>
    refine regular_read (readBits_reads s.dynRepeatBits s.dynRepeatBase)
      (fun r => by simp only [tick, hs, dynamicPass, hd, headerTick_onRead]; rfl)
      (fun v r hr => ?_) fun v r ys b => ?_
    · simp only [dynamicRepeat, failWith]
      split_ifs
      · trivial
      · exact ⟨.zero rfl rfl hr rfl, hne⟩
    · by_cases h : s.dynNum + v > s.hlimit <;>
        simp only [dynamicRepeat, failWith, Inflate.feed, h, if_true, if_false] <;> rfl
  | buildTrees => exact buildTrees_regular hs hd

theorem storedLen_regular {s : Inflate} (hs : s.stage = .storedLen) : Regular s := by
  have hne : Live s := by simp [Live, hs]
  by_cases hi : s.storedHeaderIndex < 4
  · refine regular_read readByte_reads
      (fun r => by simp only [tick, hs, storedHeaderPass, hi, if_true, headerTick_onRead]; rfl)
      (fun v r hr => ?_) fun v r ys b => ?_
    · simp only [headerTick]
      split_ifs <;> exact ⟨.zero rfl rfl hr rfl, hne⟩
    · by_cases h0 : s.storedHeaderIndex = 0
      · simp only [Inflate.feed, h0, if_true, fedTick, headerTick]
      by_cases h1 : s.storedHeaderIndex = 1
      · simp [Inflate.feed, h1, fedTick, headerTick]
      by_cases h2 : s.storedHeaderIndex = 2
      · simp [Inflate.feed, h2, fedTick, headerTick]
      · simp only [Inflate.feed, h0, h1, h2, if_false, fedTick, headerTick]
  by_cases hl : s.storedLen = ~~~s.storedInvlen
  swap
  · refine regular_fail ?_ fun ys b => ?_ <;>
      simp only [tick, Inflate.feed, hs, storedHeaderPass, hi, ne_eq, hl, not_false_eq_true, if_true,
        if_false, failWith, headerTick]
  · have ht : ∀ r, tick { s with rd := r } = .next { s with
        rd := r, storedHeaderIndex := 0, stage := .storedData } := by
      intro r
      simp only [tick, hs, storedHeaderPass, hi, ne_eq, hl, not_true_eq_false, if_false, headerTick]
    exact regular_next (ht s.rd) (.zero rfl rfl rfl rfl) ⟨by simp, by simp⟩ fun ys b => ht (s.rd.feed ys b)

theorem trailer_regular {s : Inflate} (hs : s.stage = .trailer) : Regular s := by
  have hne : Live s := by simp [Live, hs]
  by_cases hi : s.trailerIndex < 4
  · refine regular_read readByte_reads
      (fun r => by simp only [tick, hs, trailerPass, hi, if_true, headerTick_onRead]; rfl)
      (fun v r hr => ?_) fun v r ys b => ?_
    · exact ⟨.zero rfl rfl hr rfl, hne⟩
    · rfl
  by_cases ha : s.trailerValue = s.adler
  swap
  · refine regular_fail ?_ fun ys b => ?_ <;>
      simp only [tick, Inflate.feed, hs, trailerPass, hi, ne_eq, ha, not_false_eq_true, if_true,
        if_false, failWith, headerTick]
  by_cases hc : s.outputCount = s.expectedOutput
  swap
  · refine regular_fail ?_ fun ys b => ?_ <;>
      simp only [tick, Inflate.feed, hs, trailerPass, hi, ne_eq, ha, hc, not_true_eq_false,
        not_false_eq_true, if_true, if_false, failWith, headerTick]
  have ht : ∀ r, tick { s with rd := r } = if r.input ≠ [] then .fail else .done := by
    intro r
    by_cases hr : r.input = [] <;>
      simp only [tick, hs, trailerPass, hi, ne_eq, ha, hc, hr, not_true_eq_false, not_false_eq_true,
        if_true, if_false, failWith, headerTick]
  have hts : tick s = if s.rd.input ≠ [] then .fail else .done := ht s.rd
  by_cases hr : s.rd.input ≠ []
  · refine regular_fail (by rw [hts, if_pos hr]) fun ys b => ?_
    refine (ht (s.rd.feed ys b)).trans (if_pos ?_)
    simp [BitReader.feed, hr]
  · refine ⟨?_, fun _ ys b => (ht (s.rd.feed ys b)).trans ?_⟩
    · rw [hts, if_neg hr]
      exact ⟨hc, not_not.mp hr⟩
    · rw [hts, if_neg hr]
      have hi : (s.rd.feed ys b).input = ys := by simp [BitReader.feed, not_not.mp hr]
      rw [hi]
      by_cases hy : ys = [] <;> simp [fedTick, hy]

/-- Putting a byte into an empty buffer fails only when the stream writes more
than it announced. -/
theorem dataTick_onPut (byte : UInt8) (s : Inflate) (k : Work → DataIter) :
    dataTick (onPut (putOutputByte byte 1 ([], s)) k) =
      if s.expectedOutput ≤ s.outputCount then .fail
      else dataTick (k ([byte], recordOutputByte byte s)) := by
  by_cases h : s.expectedOutput ≤ s.outputCount <;>
    simp [putOutputByte, h, onPut, setError, dataTick]

theorem recordOutputByte_kept (byte : UInt8) {s : Inflate}
    (h : ¬ s.expectedOutput ≤ s.outputCount) : Kept 1 s (recordOutputByte byte s) := by
  have hlt : s.outputCount.toNat < s.expectedOutput.toNat := UInt32.not_le.mp h
  have hmax := s.expectedOutput.toNat_lt
  have hc : (s.outputCount + 1).toNat = s.outputCount.toNat + 1 := by
    rw [UInt32.toNat_add]
    exact Nat.mod_eq_of_lt (by change s.outputCount.toNat + 1 < 2 ^ 32; omega)
  refine ⟨rfl, rfl, rfl, hc, fun _ => ?_⟩
  change (s.outputCount + 1).toNat ≤ s.expectedOutput.toNat
  omega

theorem endBlock_live (s : Inflate) : Live (endBlock s) := by
  unfold endBlock Live
  split_ifs <;> exact ⟨nofun, nofun⟩

theorem storedData_regular {s : Inflate} (hs : s.stage = .storedData) : Regular s := by
  have hne : Live s := by simp [Live, hs]
  by_cases h0 : s.storedLen = 0
  · have ht : ∀ r, tick { s with rd := r } = .next (endBlock { s with rd := r }) := by
      intro r
      simp only [tick, hs, storedDataPass, h0, if_true, dataTick]
    exact regular_next (ht s.rd) (.zero rfl rfl rfl rfl) (endBlock_live s)
      fun ys b => ht (s.rd.feed ys b)
  · refine regular_read readByte_reads
      (fun r => by
        simp only [tick, hs, storedDataPass, h0, if_false, List.length_nil, Nat.le_zero,
          Nat.one_ne_zero, dataTick_onData, dataTick_onPut]
        rfl)
      (fun v r hr => ?_) fun v r ys b => ?_
    · by_cases he : s.expectedOutput ≤ s.outputCount
      · simp only [he, if_true, Keeps]
      · have hk := recordOutputByte_kept v he
        simp only [he, if_false]
        exact ⟨⟨hk.initialized, hk.expectedOutput, hr, hk.outputCount, hk.room⟩, hne⟩
    · by_cases he : s.expectedOutput ≤ s.outputCount <;>
        simp only [Inflate.feed, he, if_true, if_false, dataTick, fedTick, recordOutputByte]

theorem blockSymbol_regular {s : Inflate} (hs : s.stage = .blockData)
    (hb : s.blockStage = .symbol) : Regular s := by
  have hne : Live s := by simp [Live, hs]
  refine regular_read (decodeSymbol_reads s.ltree 288)
    (fun r => by
      simp only [tick, hs, blockPass, hb, if_false, List.length_nil, Nat.le_zero, Nat.one_ne_zero,
        dataTick_onData]
      rfl)
    (fun v r hr => ?_) fun v r ys b => ?_
  · by_cases h1 : v < 256
    · simp only [blockSymbol, h1, if_true]
      rw [dataTick_onPut]
      by_cases he : s.expectedOutput ≤ s.outputCount
      · simp only [he, if_true, Keeps]
      · have hk := recordOutputByte_kept v.toUInt8 he
        simp only [he, if_false]
        exact ⟨⟨hk.initialized, hk.expectedOutput, hr, hk.outputCount, hk.room⟩, hne⟩
    by_cases h2 : v = 256
    · simp only [blockSymbol, h2, if_true]
      exact ⟨.zero rfl rfl hr rfl, endBlock_live _⟩
    by_cases h3 : 29 ≤ v - 257
    · simp only [blockSymbol, h1, h2, h3, if_true, if_false, dataTick, Keeps]
    · simp only [blockSymbol, h1, h2, h3, if_false]
      exact ⟨.zero rfl rfl hr rfl, hne⟩
  · by_cases h1 : v < 256
    · simp only [blockSymbol, h1, if_true]
      rw [dataTick_onPut, dataTick_onPut]
      by_cases he : s.expectedOutput ≤ s.outputCount <;>
        simp only [Inflate.feed, he, if_true, if_false, dataTick, fedTick, recordOutputByte]
    by_cases h2 : v = 256
    · simp [blockSymbol, h2, Inflate.feed, dataTick, fedTick, endBlock]
    by_cases h3 : 29 ≤ v - 257 <;>
      simp only [blockSymbol, h1, h2, h3, if_true, if_false, Inflate.feed, dataTick, fedTick]

theorem blockData_regular {s : Inflate} (hs : s.stage = .blockData) : Regular s := by
  have hne : Live s := by simp [Live, hs]
  cases hb : s.blockStage with
  | symbol => exact blockSymbol_regular hs hb
  | lenExtra =>
    refine regular_read
      (readBits_reads (lengthBits.getD s.lengthSym 0) (lengthBase.getD s.lengthSym 0))
      (fun r => by
        simp only [tick, hs, blockPass, hb, if_false, List.length_nil, Nat.le_zero,
          Nat.one_ne_zero, dataTick_onData]
        rfl)
      (fun v r hr => ?_) fun v r ys b => ?_
    · exact ⟨.zero rfl rfl hr rfl, hne⟩
    · rfl
  | distSymbol =>
    refine regular_read (decodeSymbol_reads s.tree 32)
      (fun r => by
        simp only [tick, hs, blockPass, hb, if_false, List.length_nil, Nat.le_zero,
          Nat.one_ne_zero, dataTick_onData]
        rfl)
      (fun v r hr => ?_) fun v r ys b => ?_
    · simp only [blockDistSymbol]
      split_ifs
      · trivial
      · exact ⟨.zero rfl rfl hr rfl, hne⟩
    · by_cases h : 30 ≤ v <;>
        simp only [blockDistSymbol, h, if_true, if_false, Inflate.feed, dataTick, fedTick]
  | distExtra =>
    refine regular_read (readBits_reads (distBits.getD s.distSym 0) (distBase.getD s.distSym 0))
      (fun r => by
        simp only [tick, hs, blockPass, hb, if_false, List.length_nil, Nat.le_zero,
          Nat.one_ne_zero, dataTick_onData]
        rfl)
      (fun v r hr => ?_) fun v r ys b => ?_
    · simp only [blockDistExtra]
      split_ifs
      · trivial
      · exact ⟨.zero rfl rfl hr rfl, hne⟩
    · by_cases h : v = 0 ∨ v > zlibWindowSize ∨ v > s.outputCount.toNat <;>
        simp only [blockDistExtra, h, if_true, if_false, Inflate.feed, dataTick, fedTick]
  | matchCopy =>
    by_cases hm : s.matchLen = 0
    · have ht : ∀ r, tick { s with rd := r } = .next { s with rd := r, blockStage := .symbol } := by
        intro r
        simp only [tick, hs, blockPass, hb, hm, if_true, if_false, List.length_nil, Nat.le_zero,
          Nat.one_ne_zero, dataTick]
      exact regular_next (ht s.rd) (.zero rfl rfl rfl rfl) hne fun ys b => ht (s.rd.feed ys b)
    by_cases he : s.expectedOutput ≤ s.outputCount
    · refine regular_fail ?_ fun ys b => ?_ <;>
        simp only [tick, hs, blockPass, hb, hm, if_true, if_false, List.length_nil, Nat.le_zero,
          Nat.one_ne_zero, dataTick_onPut, he, Inflate.feed]
    · have ht : ∀ r, tick { s with rd := r } = .emit (matchByte s)
          { recordOutputByte (matchByte s) { s with rd := r } with matchLen := s.matchLen - 1 } := by
        intro r
        simp only [tick, hs, blockPass, hb, hm, if_false, List.length_nil, Nat.le_zero,
          Nat.one_ne_zero, dataTick_onPut, he]
        simp only [dataTick, recordOutputByte, matchByte]
      have hk := recordOutputByte_kept (matchByte s) he
      have hts : tick s = _ := ht s.rd
      refine ⟨?_, fun _ ys b => (ht (s.rd.feed ys b)).trans ?_⟩
      · rw [hts]
        exact ⟨⟨hk.initialized, hk.expectedOutput, hk.inputFinal, hk.outputCount, hk.room⟩, hne⟩
      · rw [hts]; rfl

theorem nextUnlessError_keeps {s t : Inflate} (h : Kept 0 s t) (hd : t.stage ≠ .done) :
    Keeps s (nextUnlessError t) := by
  unfold nextUnlessError
  split_ifs with he
  · trivial
  · exact ⟨h, he, hd⟩

theorem nextUnlessError_feed (s : Inflate) (ys : Bytes) (b : Bool) :
    nextUnlessError (s.feed ys b) = fedTick ys b (nextUnlessError s) := by
  by_cases he : s.stage = .error <;> simp [nextUnlessError, Inflate.feed, he, fedTick]

theorem pollFlg_feed (byte : UInt8) (s : Inflate) (ys : Bytes) (b : Bool) :
    pollFlg byte (s.feed ys b) = (pollFlg byte s).feed ys b := by
  cases h : odZlibHeaderCheck s.cmf byte <;> simp only [pollFlg, Inflate.feed, h, setError]

theorem pollFlg_kept (byte : UInt8) (s : Inflate) :
    Kept 0 s (pollFlg byte s) ∧ (pollFlg byte s).stage ≠ .done := by
  cases h : odZlibHeaderCheck s.cmf byte <;> simp only [pollFlg, h, setError] <;>
    exact ⟨.zero rfl rfl rfl rfl, by simp⟩

theorem pollBlockType_feed (v : Nat) (s : Inflate) (ys : Bytes) (b : Bool) :
    pollBlockType v (s.feed ys b) = (pollBlockType v s).feed ys b := by
  simp only [pollBlockType]
  split_ifs <;> rfl

theorem pollBlockType_kept (v : Nat) (s : Inflate) :
    Kept 0 s (pollBlockType v s) ∧ (pollBlockType v s).stage ≠ .done := by
  simp only [pollBlockType]
  split_ifs <;> exact ⟨.zero rfl rfl rfl rfl, by rintro ⟨⟩⟩

theorem regular {s : Inflate} (hd : s.stage ≠ .done) : Regular s := by
  cases hs : s.stage with
  | zlibCmf =>
    refine regular_read readByte_reads (fun r => by simp only [tick, hs]; rfl)
      (fun v r hr => ?_) fun v r ys b => ?_
    · exact ⟨.zero rfl rfl hr rfl, nofun, nofun⟩
    · rfl
  | zlibFlg =>
    refine regular_read readByte_reads (fun r => by simp only [tick, hs]; rfl)
      (fun v r hr => ?_) fun v r ys b => ?_
    · obtain ⟨hk, hne⟩ := pollFlg_kept v { s with rd := r }
      exact nextUnlessError_keeps ((Kept.of_rd hr).trans hk) hne
    · simp only [pollFlg_feed, nextUnlessError_feed]
  | blockFinal =>
    refine regular_read readBit_reads (fun r => by simp only [tick, hs]; rfl)
      (fun v r hr => ?_) fun v r ys b => ?_
    · exact ⟨.zero rfl rfl hr rfl, nofun, nofun⟩
    · rfl
  | blockType =>
    refine regular_read (readBits_reads 2 0) (fun r => by simp only [tick, hs]; rfl)
      (fun v r hr => ?_) fun v r ys b => ?_
    · obtain ⟨hk, hne⟩ := pollBlockType_kept v { s with rd := r }
      exact nextUnlessError_keeps ((Kept.of_rd hr).trans hk) hne
    · simp only [pollBlockType_feed, nextUnlessError_feed]
  | dynamicTrees => exact dynamicTrees_regular hs
  | storedLen => exact storedLen_regular hs
  | storedData => exact storedData_regular hs
  | blockData => exact blockData_regular hs
  | trailer => exact trailer_regular hs
  | done => exact absurd hs hd
  | error =>
    refine regular_fail ?_ fun ys b => ?_ <;> simp only [tick, Inflate.feed, hs]

end Spec

end OpenDisplay
