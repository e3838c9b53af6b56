import OpenDisplay.Inflate.Codes
import OpenDisplay.Inflate.Decode

/-! The inflater reads what the format says: each part of a stream takes the machine from
one stage to the next, with the bits of the part read and its bytes written. -/

namespace OpenDisplay

open Loops Resumable Huffman Deflate

section Output

theorem adlerUpdateByte_toNat {adler : UInt32} {p : Nat × Nat} (hp : p.1 < 65521 ∧ p.2 < 65521)
    (h : adler.toNat = p.2 * 2 ^ 16 + p.1) (byte : UInt8) :
    (adlerUpdateByte adler byte).toNat = (adlerStep p byte).2 * 2 ^ 16 + (adlerStep p byte).1 := by
  obtain ⟨a, b⟩ := p
  dsimp only at hp h ⊢
  have hbyte := byte.toNat_lt
  have hlow : (adler &&& 0xffff).toNat = a := by
    rw [UInt32.toNat_and]
    show adler.toNat &&& (2 ^ 16 - 1) = a
    rw [Nat.and_two_pow_sub_one_eq_mod]
    omega
  have hhigh : (adler >>> 16).toNat = b := by
    rw [UInt32.toNat_shiftRight]
    show adler.toNat >>> 16 = b
    rw [Nat.shiftRight_eq_div_pow]
    omega
  have hs1 : ((adler &&& 0xffff) + byte.toUInt32).toNat = a + byte.toNat := by
    rw [UInt32.toNat_add, hlow, UInt8.toNat_toUInt32]
    exact Nat.mod_eq_of_lt (by omega)
  have hsum : (if 65521 ≤ (adler &&& 0xffff) + byte.toUInt32 then (adler &&& 0xffff) + byte.toUInt32 - 65521
      else (adler &&& 0xffff) + byte.toUInt32).toNat = (a + byte.toNat) % 65521 := by
    by_cases hle : 65521 ≤ (adler &&& 0xffff) + byte.toUInt32
    · have hle' : 65521 ≤ a + byte.toNat := by
        rw [← hs1]
        exact UInt32.le_iff_toNat_le.mp hle
      rw [if_pos hle, UInt32.toNat_sub_of_le _ _ hle, hs1]
      show a + byte.toNat - 65521 = _
      omega
    · have hlt : a + byte.toNat < 65521 := by
        rw [← hs1]
        exact UInt32.lt_iff_toNat_lt.mp (UInt32.not_le.mp hle)
      rw [if_neg hle, hs1, Nat.mod_eq_of_lt hlt]
  unfold adlerUpdateByte
  dsimp only
  generalize (if 65521 ≤ (adler &&& 0xffff) + byte.toUInt32 then (adler &&& 0xffff) + byte.toUInt32 - 65521
      else (adler &&& 0xffff) + byte.toUInt32) = s1 at hsum ⊢
  have hlt1 : s1.toNat < 65521 := by
    rw [hsum]
    exact Nat.mod_lt _ (by decide)
  have hs2 : ((adler >>> 16 + s1) % 65521).toNat = (b + (a + byte.toNat) % 65521) % 65521 := by
    rw [UInt32.toNat_mod, UInt32.toNat_add, hhigh, hsum]
    show (b + (a + byte.toNat) % 65521) % 2 ^ 32 % 65521 = _
    rw [Nat.mod_eq_of_lt (a := b + (a + byte.toNat) % 65521) (by omega)]
  have hlt2 : ((adler >>> 16 + s1) % 65521).toNat < 65521 := by
    rw [hs2]
    exact Nat.mod_lt _ (by decide)
  rw [UInt32.toNat_or, UInt32.toNat_shiftLeft]
  show ((adler >>> 16 + s1) % 65521).toNat <<< 16 % 2 ^ 32 ||| s1.toNat = _
  rw [Nat.mod_eq_of_lt (by rw [Nat.shiftLeft_eq]; omega), ← Nat.shiftLeft_add_eq_or_of_lt (by omega),
    Nat.shiftLeft_eq, hs2, hsum]
  rfl

/-- What the decoder knows of the bytes it has written. -/
structure Written (s : Inflate) (out : Bytes) : Prop where
  count : s.outputCount.toNat = out.length
  adler : s.adler.toNat = adler32 out
  size : s.window.length = zlibWindowSize
  pos : s.windowPos = out.length % zlibWindowSize
  window : ∀ d, 0 < d → d ≤ zlibWindowSize → d ≤ out.length →
    s.window.getD ((s.windowPos + zlibWindowSize - d) % zlibWindowSize) 0 = out.getD (out.length - d) 0

theorem Written.start (expected : UInt32) : Written (odZlibStreamReset expected) [] where
  count := rfl
  adler := rfl
  size := List.length_replicate
  pos := rfl
  window d hpos _ hle := by
    rw [List.length_nil] at hle
    omega

theorem Written.put {s : Inflate} {out : Bytes} (h : Written s out) (hroom : out.length + 1 < 2 ^ 32) (b : UInt8) :
    Written (recordOutputByte b s) (out ++ [b]) := by
  have hpos : s.windowPos < zlibWindowSize := by
    rw [h.pos]
    exact Nat.mod_lt _ (by decide)
  refine ⟨?_, ?_, ?_, ?_, ?_⟩
  · show (s.outputCount + 1).toNat = _
    rw [UInt32.toNat_add, h.count, List.length_append, List.length_singleton]
    exact Nat.mod_eq_of_lt hroom
  · show (adlerUpdateByte s.adler b).toNat = _
    rw [adlerUpdateByte_toNat (adlerPair_lt out) h.adler, adler32, adlerPair_append]
  · show (s.window.set s.windowPos b).length = _
    rw [List.length_set, h.size]
  · show (s.windowPos + 1) % zlibWindowSize = _
    rw [h.pos, List.length_append, List.length_singleton, Nat.mod_add_mod]
  · intro d hd hle hlen
    show (s.window.set s.windowPos b).getD
      (((s.windowPos + 1) % zlibWindowSize + zlibWindowSize - d) % zlibWindowSize) 0 = _
    rw [List.length_append, List.length_singleton] at hlen ⊢
    by_cases hone : d = 1
    · subst hone
      have hat : ((s.windowPos + 1) % zlibWindowSize + zlibWindowSize - 1) % zlibWindowSize = s.windowPos := by
        simp only [zlibWindowSize, zlibWindowBits] at hpos ⊢
        omega
      rw [hat, Nat.add_sub_cancel]
      simp [h.size, hpos]
    · have hat : ((s.windowPos + 1) % zlibWindowSize + zlibWindowSize - d) % zlibWindowSize =
          (s.windowPos + zlibWindowSize - (d - 1)) % zlibWindowSize := by
        simp only [zlibWindowSize, zlibWindowBits] at hpos hle ⊢
        omega
      have hne : s.windowPos ≠ (s.windowPos + zlibWindowSize - (d - 1)) % zlibWindowSize := by
        simp only [zlibWindowSize, zlibWindowBits] at hpos hle ⊢
        omega
      have hold := h.window (d - 1) (by omega) (by omega) (by omega)
      have hback : out.length + 1 - d = out.length - (d - 1) := by omega
      have hget : (out ++ [b]).getD (out.length - (d - 1)) 0 = out.getD (out.length - (d - 1)) 0 := by
        rw [List.getD_append _ _ _ _ (by omega)]
      rw [hat, hback, hget, ← hold]
      simp [hne]

end Output

section Runs

/-- The machine goes from `s` with `out` written to `t` with `out'` written. -/
def Runs (s : Inflate) (out : Bytes) (t : Inflate) (out' : Bytes) : Prop := ∃ o, Path tick s o t ∧ out' = out ++ o

variable {s t u : Inflate} {out out' out'' : Bytes}

theorem Runs.refl (s : Inflate) (out : Bytes) : Runs s out s out := ⟨[], .refl, (List.append_nil _).symm⟩

theorem Runs.trans (h : Runs s out t out') (h' : Runs t out' u out'') : Runs s out u out'' := by
  obtain ⟨o, hp, rfl⟩ := h
  obtain ⟨o', hp', rfl⟩ := h'
  exact ⟨o ++ o', hp.trans hp', List.append_assoc _ _ _⟩

theorem Runs.next (ht : tick s = .next t) (h : Runs t out u out') : Runs s out u out' := by
  obtain ⟨o, hp, rfl⟩ := h
  exact ⟨o, .next ht hp, rfl⟩

theorem Runs.emit {b : UInt8} (ht : tick s = .emit b t) (h : Runs t (out ++ [b]) u out') : Runs s out u out' := by
  obtain ⟨o, hp, rfl⟩ := h
  exact ⟨b :: o, .emit ht hp, by rw [List.append_assoc, List.singleton_append]⟩

/-- The decoder between two fields: the bits to come, the bytes written, and what every
stage leaves alone. -/
structure Stands (expected : UInt32) (s : Inflate) (bs : List Bool) (out : Bytes) : Prop where
  ready : AtField s.rd bs
  written : Written s out
  target : s.expectedOutput = expected
  literals : s.ltree.trans.length = 288
  distances : s.tree.trans.length = 32
  lengths : s.lengths.length = 320
  trailer : s.trailerIndex = 0 ∧ s.trailerValue = 0

theorem Written.same (h : Written s out) (hcount : t.outputCount = s.outputCount) (hadler : t.adler = s.adler)
    (hwindow : t.window = s.window) (hpos : t.windowPos = s.windowPos) : Written t out where
  count := by rw [hcount, h.count]
  adler := by rw [hadler, h.adler]
  size := by rw [hwindow, h.size]
  pos := by rw [hpos, h.pos]
  window := by
    rw [hwindow, hpos]
    exact h.window

variable {expected : UInt32} {bs rest : List Bool}

theorem Stands.room (h : Stands expected s bs out) (hlen : out.length < expected.toNat) :
    ¬ s.expectedOutput ≤ s.outputCount := by
  rw [h.target, UInt32.le_iff_toNat_le, h.written.count]
  omega

theorem Stands.put (h : Stands expected s bs out) (hlen : out.length < expected.toNat) (b : UInt8) :
    Stands expected (recordOutputByte b s) bs (out ++ [b]) :=
  ⟨h.ready, h.written.put (by have := expected.toNat_lt; omega) b, h.target, h.literals, h.distances, h.lengths,
    h.trailer⟩

theorem Inflate.read_eq {α : Type} {f : BitReader → Rc α × BitReader} {a : α} {r : BitReader}
    (h : f s.rd = (.ok a, r)) : s.read f = (.ok a, { s with rd := r }) := by
  rw [Inflate.read, h]

theorem putOutputByte_room (h : ¬ s.expectedOutput ≤ s.outputCount) (b : UInt8) :
    putOutputByte b 1 ([], s) = (true, [b], recordOutputByte b s) := by
  simp [putOutputByte, h]

end Runs

section Data

variable {s : Inflate} {out : Bytes} {expected : UInt32} {bs rest : List Bool} {lit dist : List Nat}

/-- The decoder is about to read a literal or a length of compressed data. -/
structure InData (s : Inflate) (lit dist : List Nat) : Prop where
  stage : s.stage = .blockData
  blockStage : s.blockStage = .symbol
  literals : s.ltree.Decodes 288 lit
  distances : s.tree.Decodes 32 dist

theorem tick_blockData (hs : s.stage = .blockData) : tick s = dataTick (blockPass 1 ([], s)) := by
  simp [tick, hs]

theorem tick_symbol {sym : Nat} (hd : InData s lit dist) (hr : Stands expected s (bs ++ rest) out)
    (hs : Sends lit sym bs) :
    ∃ r, Stands expected { s with rd := r } rest out ∧ tick s = dataTick (blockSymbol 1 [] sym { s with rd := r }) := by
  obtain ⟨r, hread, hready⟩ := decodeSymbol_ready hd.literals hs hr.ready
  refine ⟨r, ⟨hready, hr.written.same rfl rfl rfl rfl, hr.target, hr.literals, hr.distances, hr.lengths,
    hr.trailer⟩, ?_⟩
  rw [tick_blockData hd.stage]
  simp [blockPass, hd.blockStage, Inflate.read_eq hread, onData]

theorem copy_runs {d n : Nat} (hd : 0 < d) (hwindow : d ≤ zlibWindowSize) (hs : s.stage = .blockData)
    (hb : s.blockStage = .matchCopy) (hoffset : s.matchOffset = d) (hlen : s.matchLen = n)
    (h : Stands expected s rest out) (hle : d ≤ out.length) (hroom : out.length + n ≤ expected.toNat) :
    ∃ t, Runs s out t (copied d n out) ∧ Stands expected t rest (copied d n out) ∧ t.stage = .blockData ∧
      t.blockStage = .symbol ∧ t.ltree = s.ltree ∧ t.tree = s.tree ∧ t.bfinal = s.bfinal := by
  induction n generalizing s out with
  | zero =>
    have htick : tick s = .next { s with blockStage := .symbol } := by
      rw [tick_blockData hs]
      simp [blockPass, hb, hlen, dataTick]
    exact ⟨_, .next htick (.refl _ _), ⟨h.ready, h.written.same rfl rfl rfl rfl, h.target, h.literals, h.distances,
      h.lengths, h.trailer⟩, hs, rfl, rfl, rfl, rfl⟩
  | succ n ih =>
    have hbyte : matchByte s = out.getD (out.length - d) 0 := by
      rw [matchByte, hoffset]
      exact h.written.window d hd hwindow hle
    have hfree := h.room (by omega)
    have htick : tick s = .emit (matchByte s) { recordOutputByte (matchByte s) s with matchLen := n } := by
      rw [tick_blockData hs]
      simp [blockPass, hb, hlen, putOutputByte_room hfree, onPut, dataTick, recordOutputByte]
    have hput := h.put (by omega) (matchByte s)
    obtain ⟨t, hruns, hstands, hstage, hblock, hl, ht, hf⟩ := @ih
      { recordOutputByte (matchByte s) s with matchLen := n } (out ++ [out.getD (out.length - d) 0]) hs hb hoffset rfl
      ⟨hput.ready, hbyte ▸ hput.written.same rfl rfl rfl rfl, hput.target, hput.literals, hput.distances, hput.lengths,
        hput.trailer⟩ (by simp; omega) (by simp; omega)
    refine ⟨t, .emit htick ?_, hstands, hstage, hblock, hl, ht, hf⟩
    rw [hbyte] at hruns ⊢
    exact hruns

theorem lengthTable {i : Nat} (hi : i < 29) :
    lengthBits.getD i 0 = lengthExtra.getD i 0 ∧ OpenDisplay.lengthBase.getD i 0 = Deflate.lengthBase.getD i 0 := by
  revert i
  decide

theorem distanceTable (j : Nat) :
    distBits.getD j 0 = distanceExtra.getD j 0 ∧ distBase.getD j 0 = distanceBase.getD j 0 := ⟨rfl, rfl⟩

theorem distanceBase_pos {j : Nat} (hj : j < 30) : 0 < distanceBase.getD j 0 := by
  revert j
  decide

/-- The length and the distance of a match are read, up to the first byte of the copy. -/
theorem match_runs {i j x y : Nat} {ls ds : List Bool} (hd : InData s lit dist) (hi : i < 29) (hj : j < 30)
    (hx : x < 2 ^ lengthExtra.getD i 0) (hy : y < 2 ^ distanceExtra.getD j 0) (hls : Sends lit (257 + i) ls)
    (hds : Sends dist j ds) (hwindow : distanceBase.getD j 0 + y ≤ zlibWindowSize)
    (hle : distanceBase.getD j 0 + y ≤ out.length)
    (h : Stands expected s
      (ls ++ (lowBits (lengthExtra.getD i 0) x ++ (ds ++ (lowBits (distanceExtra.getD j 0) y ++ rest)))) out) :
    ∃ t, Runs s out t out ∧ Stands expected t rest out ∧ t.stage = .blockData ∧ t.blockStage = .matchCopy ∧
      t.matchOffset = distanceBase.getD j 0 + y ∧ t.matchLen = Deflate.lengthBase.getD i 0 + x ∧
      t.ltree = s.ltree ∧ t.tree = s.tree ∧ t.bfinal = s.bfinal := by
  obtain ⟨r₁, h₁, htick₁⟩ := tick_symbol hd h hls
  have hlength : blockSymbol 1 [] (257 + i) { s with rd := r₁ } =
      .next ([], { s with rd := r₁, lengthSym := i, blockStage := .lenExtra }) := by
    have hsub : 257 + i - 257 = i := by omega
    rw [blockSymbol, if_neg (by omega), if_neg (by omega), hsub, if_neg (by omega)]
  rw [hlength] at htick₁
  obtain ⟨r₂, hread₂, h₂⟩ := readBits_ready (OpenDisplay.lengthBase.getD i 0) hx h₁.ready
  obtain ⟨hbits, hbase⟩ := lengthTable hi
  have htick₂ : tick { s with rd := r₁, lengthSym := i, blockStage := .lenExtra } = .next
      { s with
        rd := r₂, lengthSym := i, matchLen := x + Deflate.lengthBase.getD i 0, blockStage := .distSymbol } := by
    rw [tick_blockData (by exact hd.stage), ← hbase]
    rw [← hbits] at hread₂
    simp only [blockPass, Inflate.read, onData, hread₂, dataTick]
    rfl
  obtain ⟨r₃, hread₃, h₃⟩ := decodeSymbol_ready hd.distances hds h₂
  have htick₃ : tick { s with
        rd := r₂, lengthSym := i, matchLen := x + Deflate.lengthBase.getD i 0, blockStage := .distSymbol } = .next
      { s with
        rd := r₃, lengthSym := i, matchLen := x + Deflate.lengthBase.getD i 0, distSym := j
        blockStage := .distExtra } := by
    rw [tick_blockData (by exact hd.stage)]
    simp only [blockPass, Inflate.read, onData, hread₃, blockDistSymbol]
    rw [if_neg (by simp), if_neg (by omega)]
    rfl
  obtain ⟨r₄, hread₄, h₄⟩ := readBits_ready (distBase.getD j 0) hy h₃
  have hcount := h.written.count
  have hpos := distanceBase_pos hj
  have htick₄ : tick { s with
        rd := r₃, lengthSym := i, matchLen := x + Deflate.lengthBase.getD i 0, distSym := j
        blockStage := .distExtra } = .next
      { s with
        rd := r₄, lengthSym := i, matchLen := x + Deflate.lengthBase.getD i 0, distSym := j
        matchOffset := y + distanceBase.getD j 0, blockStage := .matchCopy } := by
    rw [tick_blockData (by exact hd.stage)]
    rw [← (distanceTable j).1] at hread₄
    simp only [blockPass, Inflate.read, onData, hread₄, blockDistExtra]
    rw [if_neg (by simp), (distanceTable j).2, if_neg (by omega)]
    rfl
  refine ⟨_, .next htick₁ (.next htick₂ (.next htick₃ (.next htick₄ (.refl _ _)))),
    ⟨h₄, h.written.same rfl rfl rfl rfl, h.target, h.literals, h.distances, h.lengths, h.trailer⟩, hd.stage, rfl,
    Nat.add_comm _ _, Nat.add_comm _ _, rfl, rfl, rfl⟩

theorem data_runs {window : Nat} {out' : Bytes} (hdata : Data window lit dist out bs out')
    (hwindow : window ≤ zlibWindowSize) (hd : InData s lit dist) (h : Stands expected s (bs ++ rest) out)
    (hroom : out'.length ≤ expected.toNat) :
    ∃ t, Runs s out (endBlock t) out' ∧ Stands expected t rest out' ∧ t.bfinal = s.bfinal := by
  induction hdata generalizing s with
  | finish hs =>
    obtain ⟨r, hr, htick⟩ := tick_symbol hd h hs
    refine ⟨{ s with rd := r, blockStage := .symbol }, .next htick (.refl _ _), ?_, rfl⟩
    exact ⟨hr.ready, hr.written.same rfl rfl rfl rfl, hr.target, hr.literals, hr.distances, hr.lengths, hr.trailer⟩
  | @literal out out' bs bs' b hs hrest ih =>
    rw [List.append_assoc] at h
    obtain ⟨r, hr, htick⟩ := tick_symbol hd h hs
    have hlen := hrest.grows.length_le
    rw [List.length_append, List.length_singleton] at hlen
    have hfree := hr.room (by omega)
    have hemit : tick s = .emit b (recordOutputByte b { s with rd := r }) := by
      rw [htick, blockSymbol, if_pos b.toNat_lt]
      have hbyte : b.toNat.toUInt8 = b := by simp
      rw [hbyte, putOutputByte_room hfree]
      rfl
    obtain ⟨t, hruns, hstands, hfinal⟩ := @ih (recordOutputByte b { s with rd := r })
      ⟨hd.stage, hd.blockStage, hd.literals, hd.distances⟩ (hr.put (by omega) b) hroom
    exact ⟨t, .emit hemit hruns, hstands, hfinal⟩
  | @copy out out' ls ds bs' i j x y hi hj hx hy hls hds hw hle hrest ih =>
    simp only [List.append_assoc] at h
    obtain ⟨t, hruns, hstands, hstage, hblock, hoffset, hlen, hl, ht, hf⟩ :=
      match_runs hd hi hj hx hy hls hds (hw.trans hwindow) hle h
    have hpos := distanceBase_pos hj
    have hgrow := hrest.grows.length_le
    rw [copied_length] at hgrow
    obtain ⟨u, hruns', hstands', hstage', hblock', hl', ht', hf'⟩ := copy_runs (by omega) (hw.trans hwindow) hstage
      hblock hoffset hlen hstands hle (by omega)
    have hin : InData u lit dist :=
      ⟨hstage', hblock', by rw [hl', hl]; exact hd.literals, by rw [ht', ht]; exact hd.distances⟩
    obtain ⟨v, hruns'', hstands'', hf''⟩ := ih hin hstands' hroom
    exact ⟨v, (hruns.trans hruns').trans hruns'', hstands'', by rw [hf'', hf', hf]⟩

end Data

end OpenDisplay
