import OpenDisplay.Inflate.Reach

/-! Every index that the inflater forms, on hostile input. The code checks no table for
being a prefix code, so that the places it reads of a table rest on the counts alone. -/

namespace OpenDisplay

open Loops Huffman

/-- The arrays of the decoder, and the output buffer of a poll. -/
inductive Arr where
  | table (c : Code)
  | trans (c : Code)
  | offs | lengths | clcidx | lengthBits | lengthBase | distBits | distBase | window
  | output (capacity : Nat)

def Arr.size : Arr → Nat
  | .table _ | .offs => 16
  | .trans c => c.size
  | .lengths => 288 + 32
  | .clcidx => 19
  | .lengthBits | .lengthBase | .distBits | .distBase => 30
  | .window => zlibWindowSize
  | .output capacity => capacity

/-- Where decode_symbol has got to with a codeword when it stops. -/
def symbolIndex (t : Tree) (bit : Nat) (r : BitReader) : Int :=
  r.symSum + t.table.getD (r.symLen + 1) 0 + (2 * r.symCur + bit - t.table.getD (r.symLen + 1) 0)

/-- A call of decode_symbol from `r` reads `bit`, and stands at `r'` when it has. -/
inductive SymbolBit (t : Tree) (size : Nat) : BitReader → Nat → BitReader → Prop where
  | bit {r bit r'} : readBit r = (.ok bit, r') → SymbolBit t size r bit r'
  | next {r u bit r'} : onBit (decodeSymbolBit t size) r = .next u → SymbolBit t size u bit r' →
    SymbolBit t size r bit r'

/-- The elements that decode_symbol reads. -/
inductive DecodeTouches (c : Code) (t : Tree) (r : BitReader) : Arr → Int → Prop where
  | count {bit r'} : SymbolBit t c.size r bit r' → r'.symLen + 1 ≠ 16 →
    DecodeTouches c t r (.table c) (r'.symLen + 1 : Nat)
  | symbol {bit r'} : SymbolBit t c.size r bit r' → r'.symLen + 1 ≠ 16 →
    2 * r'.symCur + bit - t.table.getD (r'.symLen + 1) 0 < 0 →
    DecodeTouches c t r (.trans c) (symbolIndex t bit r')

/-- The next places of the symbols, once those with the lengths `pre` are placed. -/
def nextPlaces (lens pre trans : List Nat) : List Nat :=
  (pre.zipIdx.foldl placeSymbol ((List.range 16).map fun i => ((countLengths lens).take i).sum, trans)).1

/-- The elements that build_tree reads and writes, for the `num` lengths from `start` on. -/
inductive BuildTouches (c : Code) (t : Tree) (start num : Nat) (lens : List Nat) : Arr → Int → Prop where
  | clear {i : Nat} : i < 16 → BuildTouches c t start num lens (.table c) i
  | length {i : Nat} : i < num → BuildTouches c t start num lens .lengths (start + i : Nat)
  | count {len : Nat} : len ∈ lens → len < 16 → BuildTouches c t start num lens (.table c) len
  | sum {i : Nat} : i < 16 → BuildTouches c t start num lens .offs i
  | offset {len : Nat} {t'} : buildTree t c.size lens = .ok t' → len ∈ lens →
    BuildTouches c t start num lens .offs len
  | place {pre post : List Nat} {len : Nat} {t'} : buildTree t c.size lens = .ok t' → lens = pre ++ len :: post →
    len ≠ 0 → BuildTouches c t start num lens (.trans c) ((nextPlaces lens pre t.trans).getD len 0 : Nat)

/-- The elements that a decoder in the state `s` touches before it is in the next state, in a
poll with `buf` of its `capacity` filled. -/
inductive Touches (capacity : Nat) (buf : Bytes) (s : Inflate) : Arr → Int → Prop where
  -- build_fixed_trees
  | fixedTable {n : Nat} : s.stage = .blockType → n = 7 ∨ n = 8 ∨ n = 9 → Touches capacity buf s (.table .literal) n
  | fixedTrans {i : Nat} : s.stage = .blockType → i < 24 + 144 + 8 + 112 → Touches capacity buf s (.trans .literal) i
  | fixedDistTable : s.stage = .blockType → Touches capacity buf s (.table .distance) 5
  | fixedDistTrans {i : Nat} : s.stage = .blockType → i < 32 → Touches capacity buf s (.trans .distance) i
  -- process_dynamic_trees
  | clearClen {i : Nat} : s.stage = .dynamicTrees → s.dynamicStage = .clearClen → s.dynI ≤ i → i < 19 →
    Touches capacity buf s .lengths i
  | order : s.stage = .dynamicTrees → s.dynamicStage = .readClen → s.dynI < s.hclen →
    Touches capacity buf s .clcidx s.dynI
  | readClen : s.stage = .dynamicTrees → s.dynamicStage = .readClen → s.dynI < s.hclen →
    Touches capacity buf s .lengths (clcidx.getD s.dynI 0)
  | buildCltree {a i} : s.stage = .dynamicTrees → s.dynamicStage = .buildCltree →
    BuildTouches .codelen s.tree 0 19 (s.lengths.take 19) a i → Touches capacity buf s a i
  | readLength {a i} : s.stage = .dynamicTrees → s.dynamicStage = .readLengths → s.dynNum < s.hlimit →
    DecodeTouches .codelen s.tree (decodeSymbolBegin s.rd) a i → Touches capacity buf s a i
  | length : s.stage = .dynamicTrees → s.dynamicStage = .readLengths → s.dynNum < s.hlimit →
    Touches capacity buf s .lengths s.dynNum
  | repeated : s.stage = .dynamicTrees → s.dynamicStage = .readLengths → s.dynNum < s.hlimit → s.dynNum ≠ 0 →
    Touches capacity buf s .lengths (s.dynNum - 1)
  | fill {len i : Nat} : s.stage = .dynamicTrees → s.dynamicStage = .repeatBits → s.dynNum + len ≤ s.hlimit →
    i < len → Touches capacity buf s .lengths (s.dynNum + i)
  | endOfBlock : s.stage = .dynamicTrees → s.dynamicStage = .buildTrees → Touches capacity buf s .lengths 256
  | buildLtree {a i} : s.stage = .dynamicTrees → s.dynamicStage = .buildTrees →
    BuildTouches .literal s.ltree 0 s.hlit (s.lengths.take s.hlit) a i → Touches capacity buf s a i
  | buildDtree {a i} : s.stage = .dynamicTrees → s.dynamicStage = .buildTrees →
    BuildTouches .distance s.tree s.hlit s.hdist ((s.lengths.drop s.hlit).take s.hdist) a i → Touches capacity buf s a i
  -- process_block_data
  | symbol {a i} : s.stage = .blockData → s.blockStage = .symbol →
    DecodeTouches .literal s.ltree (decodeSymbolBegin s.rd) a i → Touches capacity buf s a i
  | lenExtra {a} : s.stage = .blockData → s.blockStage = .lenExtra → a = .lengthBits ∨ a = .lengthBase →
    Touches capacity buf s a s.lengthSym
  | distSymbol {a i} : s.stage = .blockData → s.blockStage = .distSymbol →
    DecodeTouches .distance s.tree (decodeSymbolBegin s.rd) a i → Touches capacity buf s a i
  | distExtra {a} : s.stage = .blockData → s.blockStage = .distExtra → a = .distBits ∨ a = .distBase →
    Touches capacity buf s a s.distSym
  | source : s.stage = .blockData → s.blockStage = .matchCopy →
    Touches capacity buf s .window ((s.windowPos + zlibWindowSize - s.matchOffset) % zlibWindowSize : Nat)
  -- put_output_byte
  | put : s.stage = .storedData ∨ s.stage = .blockData → buf.length < capacity →
    Touches capacity buf s (.output capacity) buf.length
  | slide : s.stage = .storedData ∨ s.stage = .blockData → Touches capacity buf s .window s.windowPos

/-- The readers of one symbol, from its start on, through all that is pushed until it ends. -/
inductive Decoding (t : Tree) (size : Nat) : BitReader → Prop where
  | start {r} : r.symActive = false → Decoding t size (decodeSymbolBegin r)
  | next {r u} : Decoding t size r → onBit (decodeSymbolBit t size) r = .next u → Decoding t size u
  | push {r input final} : Decoding t size r → Decoding t size { r with input := input, inputFinal := final }

section Decoding

variable {t : Tree} {size bit : Nat} {r r' : BitReader}

theorem SymbolPart.read (h : SymbolPart t r) (hread : BitRead r (.ok bit) r') :
    SymbolPart t r' ∧ bit < 2 ∧ r'.symActive = r.symActive := by
  obtain ⟨input, tag, n, rfl⟩ := hread.shape
  exact ⟨⟨h.len, h.sum, h.nonneg, h.bound⟩, hread.bit bit rfl, rfl⟩

theorem SymbolBit.part (ht : Stored size t) (h : SymbolBit t size r bit r') (hr : SymbolPart t r)
    (ha : r.symActive = true) : SymbolPart t r' ∧ bit < 2 := by
  induction h with
  | bit hb =>
    obtain ⟨hpart, hbit, -⟩ := hr.read (readBit_read hb)
    exact ⟨hpart, hbit⟩
  | next hn _ ih =>
    have hpass := hr.pass ht ha
    rw [hn] at hpass
    exact ih hpass.1 hpass.2.1

theorem Decoding.part (ht : Stored size t) (h : Decoding t size r) : SymbolPart t r ∧ r.symActive = true := by
  induction h with
  | start ha =>
    obtain ⟨hpart, hactive, -⟩ := decodeSymbolBegin_part ht fun hr => absurd (ha.symm.trans hr) Bool.false_ne_true
    exact ⟨hpart, hactive⟩
  | next _ hn ih =>
    have hpass := ih.1.pass ht ih.2
    rw [hn] at hpass
    exact ⟨hpass.1, hpass.2.1⟩
  | push _ ih => exact ⟨⟨ih.1.len, ih.1.sum, ih.1.nonneg, ih.1.bound⟩, ih.2⟩

/-- How far a codeword is past those it can be, with its next bit. -/
theorem SymbolPart.cur_range (h : SymbolPart t r) (hbit : bit < 2) :
    0 ≤ 2 * r.symCur + bit ∧ 2 * r.symCur + bit < 2 ^ (r.symLen + 1) := by
  have hnonneg := h.nonneg
  have hbound := h.bound
  rw [pow_succ]
  omega

theorem symbolIndex_range (ht : Stored size t) (hr : SymbolPart t r) (hlen : r.symLen + 1 ≠ 16)
    (hend : 2 * r.symCur + bit - t.table.getD (r.symLen + 1) 0 < 0) :
    0 ≤ symbolIndex t bit r ∧ symbolIndex t bit r < t.table.sum := by
  have hindex := hr.index ht bit hlen (by omega)
  unfold symbolIndex
  omega

theorem DecodeTouches.range {c : Code} {a : Arr} {i : Int} (h : DecodeTouches c t r a i) (ht : Stored c.size t)
    (hr : SymbolPart t r) (ha : r.symActive = true) : 0 ≤ i ∧ i < a.size := by
  cases h with
  | count hb hlen =>
    have hle := (hb.part ht hr ha).1.len
    simp only [Arr.size]
    omega
  | symbol hb hlen hend =>
    have hindex := symbolIndex_range ht (hb.part ht hr ha).1 hlen hend
    have hsum := ht.sum
    simp only [Arr.size]
    omega

end Decoding

section Building

variable {c : Code} {t : Tree} {start num : Nat} {lens : List Nat}

theorem countLengths_sum_le (lens : List Nat) : (countLengths lens).sum ≤ lens.countP (· ≠ 0) := by
  rw [countLengths_sum, shorter_eq_countP]
  apply List.countP_mono_left
  intro len _ hlen
  simp only [decide_eq_true_eq] at hlen
  simp [hlen.1]

theorem nextPlaces_lt {pre post : List Nat} {len : Nat} {t' : Tree} (hbuild : buildTree t c.size lens = .ok t')
    (hroom : c.size ≤ t.trans.length) (hlens : lens = pre ++ len :: post) (hlen : len ≠ 0) :
    (nextPlaces lens pre t.trans).getD len 0 < c.size := by
  obtain ⟨hall, hsum, -⟩ := buildTree_ok hbuild
  rw [countLengths_sum] at hsum
  have hshort : ∀ sym < lens.length, lens.getD sym 0 < 16 := by
    intro sym hsym
    rw [List.getD_eq_getElem _ _ hsym]
    exact hall _ (List.getElem_mem hsym)
  have hplaced := placeSymbols_placed hshort (hsum.trans hroom) (.start lens t.trans) pre (len :: post) hlens
  have hknown : pre.length < lens.length := by simp [hlens]
  have hget : lens.getD pre.length 0 = len := by simp [hlens]
  have hlt : len < 16 := hget ▸ hshort _ hknown
  have hslot := slot_lt hknown (by rwa [hget]) (hshort _ hknown)
  have htake : lens.take pre.length = pre := by rw [hlens, List.take_left]
  rw [slot, rank, hget, htake] at hslot
  rw [nextPlaces, hplaced.offs len (by omega) hlt]
  omega

theorem BuildTouches.range {a : Arr} {i : Int} (h : BuildTouches c t start num lens a i)
    (hroom : c.size ≤ t.trans.length) (hnum : start + num ≤ 288 + 32) : 0 ≤ i ∧ i < a.size := by
  cases h with
  | clear hi =>
    simp only [Arr.size]
    omega
  | length hi =>
    simp only [Arr.size]
    omega
  | count _ hlt =>
    simp only [Arr.size]
    omega
  | sum hi =>
    simp only [Arr.size]
    omega
  | @offset len t' hbuild hlen =>
    have hlt := (buildTree_ok hbuild).1 len hlen
    simp only [Arr.size]
    omega
  | place hbuild hlens hlen =>
    have hlt := nextPlaces_lt hbuild hroom hlens hlen
    simp only [Arr.size]
    omega

end Building

section States

variable {s : Inflate} {out : Bytes}

theorem InStage.symbolTable (h : InStage s out) {c : Code} (hc : s.symbol = some c) :
    Stored c.size (s.code c) ∧ (s.rd.symActive = true → SymbolPart (s.code c) s.rd) := by
  have hne : s.stage ≠ .error := by
    intro he
    simp [Inflate.symbol, he] at hc
  have hstored : Stored c.size (s.code c) := by
    unfold Inflate.symbol at hc
    split at hc
    · next hs =>
      split_ifs at hc with hd
      obtain rfl := Option.some.inj hc
      exact ⟨h.tree.table, h.tree.zero, h.codelen hs (.inl hd.1)⟩
    · split_ifs at hc
      · obtain rfl := Option.some.inj hc
        exact h.ltree
      · obtain rfl := Option.some.inj hc
        exact h.tree
    · simp at hc
  refine ⟨hstored, fun ha => ?_⟩
  obtain ⟨c', hc', hpart⟩ := (h.symbolPart ha).resolve_left hne
  obtain rfl : c = c' := Option.some.inj (hc.symm.trans hc')
  exact hpart

theorem InStage.decode_range (h : InStage s out) {c : Code} (hc : s.symbol = some c) {a : Arr} {i : Int}
    (ht : DecodeTouches c (s.code c) (decodeSymbolBegin s.rd) a i) : 0 ≤ i ∧ i < a.size := by
  obtain ⟨hstored, hpart⟩ := h.symbolTable hc
  obtain ⟨hbegin, hactive, -⟩ := decodeSymbolBegin_part hstored hpart
  exact ht.range hstored hbegin hactive

theorem clcidx_lt (i : Nat) : clcidx.getD i 0 < 19 := by
  rcases Nat.lt_or_ge i 19 with hi | hi
  · revert i
    decide
  · rw [List.getD_eq_default _ _ hi]
    decide

theorem Touches.range {capacity : Nat} {buf : Bytes} {a : Arr} {i : Int} (ht : Touches capacity buf s a i)
    (h : InStage s out) : 0 ≤ i ∧ i < a.size := by
  have hhlit := h.hlit
  have hhdist := h.hdist
  have hnum := h.dynNum
  have hlimit := h.hlimit
  cases ht with
  | fixedTable _ hn =>
    simp only [Arr.size]
    omega
  | fixedTrans _ hi =>
    simp only [Arr.size, Code.size]
    omega
  | fixedDistTable => decide
  | fixedDistTrans _ hi =>
    simp only [Arr.size, Code.size]
    omega
  | clearClen _ _ _ hi =>
    simp only [Arr.size]
    omega
  | order _ _ hi =>
    have hhclen := h.hclen
    simp only [Arr.size]
    omega
  | readClen =>
    have hlt := clcidx_lt s.dynI
    simp only [Arr.size]
    omega
  | buildCltree _ _ hb => exact hb.range (by rw [h.distances]; decide) (by decide)
  | readLength hs hd hroom hb => exact h.decode_range (c := .codelen) (by simp [Inflate.symbol, hs, hd, hroom]) hb
  | length _ _ hroom =>
    simp only [Arr.size]
    omega
  | repeated _ _ hroom hne =>
    simp only [Arr.size]
    omega
  | fill _ _ hroom hi =>
    simp only [Arr.size]
    omega
  | endOfBlock => decide
  | buildLtree _ _ hb => exact hb.range (by rw [h.literals]; decide) (by omega)
  | buildDtree _ _ hb => exact hb.range (by rw [h.distances]; decide) (by omega)
  | symbol hs hd hb => exact h.decode_range (c := .literal) (by simp [Inflate.symbol, hs, hd]) hb
  | lenExtra _ _ ha =>
    have hlt := h.lengthSym
    rcases ha with rfl | rfl
    · simp only [Arr.size]
      omega
    · simp only [Arr.size]
      omega
  | distSymbol hs hd hb => exact h.decode_range (c := .distance) (by simp [Inflate.symbol, hs, hd]) hb
  | distExtra hs _ ha =>
    have hlt := h.distSym.resolve_left (by simp [hs])
    rcases ha with rfl | rfl
    · simp only [Arr.size]
      omega
    · simp only [Arr.size]
      omega
  | source =>
    have hlt := Nat.mod_lt (s.windowPos + zlibWindowSize - s.matchOffset) (show 0 < zlibWindowSize by decide)
    simp only [Arr.size]
    omega
  | put _ hroom =>
    simp only [Arr.size]
    omega
  | slide =>
    have hlt := Nat.mod_lt out.length (show 0 < zlibWindowSize by decide)
    rw [← h.written.pos] at hlt
    simp only [Arr.size]
    omega

/-- What a back-reference reads was written since the reset, and is still there. -/
theorem Fits.source (h : Fits s out) (hcopy : s.blockStage = .matchCopy) :
    ∃ j < out.length, out.length ≤ j + zlibWindowSize ∧
      (s.windowPos + zlibWindowSize - s.matchOffset) % zlibWindowSize = j % zlibWindowSize ∧
      matchByte s = out.getD j 0 := by
  obtain ⟨hpos, hwindow, hlen⟩ := h.copy hcopy
  refine ⟨out.length - s.matchOffset, by omega, by omega, ?_, h.written.window _ hpos hwindow hlen⟩
  rw [h.written.pos]
  simp only [zlibWindowSize, zlibWindowBits] at hwindow ⊢
  omega

end States

/-- Whatever is pushed and polled after a reset, and wherever it is cut, every element that
is touched is in its array; a symbol that ends is one that its table stores, for any lengths
that the table was built from; and a copy reads what was written since the reset. The count
of the lengths is within its limit, and the limit is that of the sizes except from the first
size of a header to its code-length table. -/
theorem inflater_indices_in_range :
    (∀ expected s out, Visited expected s out →
      (∀ capacity buf a i, Touches capacity buf s a i → 0 ≤ i ∧ i < a.size) ∧
      (∀ c bit r, s.symbol = some c → SymbolBit (s.code c) c.size (decodeSymbolBegin s.rd) bit r →
        r.symLen ≤ 15 ∧ 0 ≤ 2 * r.symCur + bit ∧ 2 * r.symCur + bit < 2 ^ (r.symLen + 1)) ∧
      (∀ c r, s.symbol = some c → decodeSymbol (s.code c) c.size s.rd ≠ (.fail "invalid huffman symbol", r)) ∧
      (s.blockStage = .matchCopy → ∃ j < out.length, out.length ≤ j + zlibWindowSize ∧
        (s.windowPos + zlibWindowSize - s.matchOffset) % zlibWindowSize = j % zlibWindowSize ∧
        matchByte s = out.getD j 0) ∧
      s.dynNum ≤ s.hlimit ∧ s.hlit + s.hdist ≤ 320 ∧
      (s.dynamicStage.stale = false → s.dynNum ≤ s.hlit + s.hdist)) ∧
    ∀ t t' size lens, buildTree t size lens = .ok t' → ∀ r bit r', Decoding t' size r → readBit r = (.ok bit, r') →
      r'.symLen ≤ 15 ∧ 0 ≤ 2 * r'.symCur + bit ∧ 2 * r'.symCur + bit < 2 ^ (r'.symLen + 1) ∧
      (r'.symLen + 1 ≠ 16 → 2 * r'.symCur + bit - t'.table.getD (r'.symLen + 1) 0 < 0 →
        0 ≤ symbolIndex t' bit r' ∧ symbolIndex t' bit r' < lens.countP (· ≠ 0)) ∧
      ∀ u, decodeSymbolBit t' size bit r' ≠ .stop (.fail "invalid huffman symbol", u) := by
  constructor
  · intro expected s out hvisited
    have h := hvisited.inStage
    refine ⟨fun capacity buf a i ht => ht.range h, ?_, ?_, h.source, h.dynNum, ?_, ?_⟩
    · intro c bit r hc hb
      obtain ⟨hstored, hpart⟩ := h.symbolTable hc
      obtain ⟨hbegin, hactive, -⟩ := decodeSymbolBegin_part hstored hpart
      obtain ⟨hpart', hbit⟩ := hb.part hstored hbegin hactive
      exact ⟨hpart'.len, hpart'.cur_range hbit⟩
    · intro c r hc hfail
      obtain ⟨hstored, hpart⟩ := h.symbolTable hc
      have hend := (decodeSymbol_symbol hstored hpart).1
      rw [hfail] at hend
      exact hend rfl
    · have hhlit := h.hlit
      have hhdist := h.hdist
      omega
    · intro hstale
      rw [← h.fresh hstale]
      exact h.dynNum
  · intro t t' size lens hbuild r bit r' hr hb
    obtain ⟨hstored, -⟩ := buildTree_stored hbuild
    obtain ⟨-, -, rfl⟩ := buildTree_ok hbuild
    obtain ⟨hold, hactive⟩ := hr.part hstored
    obtain ⟨hpart, hbit, hkept⟩ := hold.read (readBit_read hb)
    have hcur := hpart.cur_range hbit
    refine ⟨hpart.len, hcur.1, hcur.2, fun hlen hend => ?_, fun u hfail => ?_⟩
    · have hindex := symbolIndex_range hstored hpart hlen hend
      exact ⟨hindex.1, hindex.2.trans_le (Int.ofNat_le.mpr (countLengths_sum_le lens))⟩
    · have hpass := hpart.bit hstored (hkept.trans hactive) hbit
      rw [hfail] at hpass
      exact hpass.1 rfl

/-- Three codewords of a single bit: a set bit ends at the second. -/
theorem inflater_indices_in_range_oversubscribed :
    let t : Tree := ⟨[0, 3, 0, 0, 0, 0, 0, 0, 0, 0, 0, 0, 0, 0, 0, 0], [0, 1, 2]⟩
    let r : BitReader := { bitTag := 0, bitCount := 7, symActive := true }
    0 ≤ symbolIndex t 1 r ∧ symbolIndex t 1 r < [1, 1, 1].countP (· ≠ 0) := by
  intro t r
  have hbuild : buildTree (Tree.zero 3) 3 [1, 1, 1] = .ok t := rfl
  have hread : readBit { bitTag := 1, bitCount := 8, symActive := true } = (.ok 1, r) := rfl
  have hrun := inflater_indices_in_range.2 (Tree.zero 3) t 3 [1, 1, 1] hbuild _ 1 r
    (@Decoding.start t 3 { bitTag := 1, bitCount := 8 } rfl) hread
  exact hrun.2.2.2.1 (by decide) (by decide)

/-- A block with 259 lengths and, of the header of the next one, a smaller first size. -/
def shrinkingHeader : Bytes :=
  [0x18, 0x19, 0x0c, 0xc0, 0x81, 0x08, 0x00, 0x00, 0x00, 0x00, 0x20, 0x7f, 0xeb, 0x0b, 0x01]

/-- The count of the lengths is still that of the block before. -/
theorem stale_dyn_num :
    let s := (odZlibStreamPoll 1 (odZlibStreamPush shrinkingHeader false (odZlibStreamReset 0)).2).2.2
    Visited 0 s [] ∧ ¬ (s.dynNum ≤ s.hlit + s.hdist ∧ s.hlit + s.hdist ≤ 320) := by
  have hrun :
      let w := (odZlibStreamPoll 1 (odZlibStreamPush shrinkingHeader false (odZlibStreamReset 0)).2).2
      w.1 = [] ∧ ¬ (w.2.dynNum ≤ w.2.hlit + w.2.hdist ∧ w.2.hlit + w.2.hdist ≤ 320) := by
    decide +kernel
  exact ⟨(Visited.reset.pushed _ _).polled hrun.1, hrun.2⟩

end OpenDisplay
