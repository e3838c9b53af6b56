import OpenDisplay.Inflate.Model
import OpenDisplay.Lib.Deflate

/-! The readers of the inflater against the format: fields, codewords and the tables
that the codewords are decoded with. -/

namespace OpenDisplay

open Loops Huffman Deflate

section Reader

/-- The bits that are still to be read. -/
def BitReader.bits (r : BitReader) : List Bool := lowBits r.bitCount r.bitTag.toNat ++ bytesBits r.input

/-- The reader is between two fields, and these bits are still to be read. -/
structure AtField (r : BitReader) (bs : List Bool) : Prop where
  bits : r.bits = bs
  count : r.bitCount < 8
  field : r.readBitsActive = false
  symbol : r.symActive = false

variable {r : BitReader} {b : Bool} {bs rest : List Bool}

theorem takeBit_bits {n : Nat} (hcount : r.bitCount = n + 1) (h : r.bits = b :: rest) :
    takeBit r = (.ok b.toNat, { r with bitTag := r.bitTag >>> 1, bitCount := n }) ∧
      lowBits n (r.bitTag >>> 1).toNat ++ bytesBits r.input = rest := by
  rw [BitReader.bits, hcount, lowBits, List.cons_append] at h
  obtain ⟨hbit, hrest⟩ := List.cons.inj h
  have hhalf : (r.bitTag >>> 1).toNat = r.bitTag.toNat / 2 := by
    rw [UInt8.toNat_shiftRight]
    exact Nat.shiftRight_one _
  have hmod : r.bitTag.toNat % 2 = b.toNat := by
    rw [← hbit, Nat.testBit_zero]
    rcases Nat.mod_two_eq_zero_or_one r.bitTag.toNat with h0 | h0 <;> simp [h0]
  rw [hhalf]
  refine ⟨?_, hrest⟩
  rw [takeBit, hmod, hcount, Nat.add_sub_cancel]

theorem readBit_bits (hcount : r.bitCount < 8) (h : r.bits = b :: rest) :
    ∃ input tag n, readBit r = (.ok b.toNat, { r with input := input, bitTag := tag, bitCount := n }) ∧
      lowBits n tag.toNat ++ bytesBits input = rest ∧ n < 8 := by
  rcases hn : r.bitCount with - | n
  · have hinput : bytesBits r.input = b :: rest := by
      rw [BitReader.bits, hn] at h
      exact h
    rcases hi : r.input with - | ⟨byte, input⟩
    · rw [hi] at hinput
      simp [bytesBits] at hinput
    · have hr : (BitReader.bits { r with input := input, bitTag := byte, bitCount := 8 }) = b :: rest := by
        rw [← hinput, hi]
        rfl
      obtain ⟨htake, hrest⟩ := takeBit_bits (n := 7) rfl hr
      refine ⟨input, byte >>> 1, 7, ?_, hrest, by decide⟩
      rw [← htake]
      simp [readBit, readByte, hn, hi]
  · obtain ⟨htake, hrest⟩ := takeBit_bits hn h
    refine ⟨r.input, r.bitTag >>> 1, n, ?_, hrest, by omega⟩
    rw [readBit, if_neg (by omega), htake]

theorem readBit_ready (h : AtField r (b :: rest)) : ∃ r', readBit r = (.ok b.toNat, r') ∧ AtField r' rest := by
  obtain ⟨input, tag, n, hread, hrest, hn⟩ := readBit_bits h.count h.bits
  exact ⟨_, hread, hrest, hn, h.field, h.symbol⟩

theorem readBits_rest (num v left : Nat) (r : BitReader) (hleft : r.readBitsPos + left = num)
    (hnum : r.readBitsNum = num) (hvalue : r.readBitsValue = v % 2 ^ r.readBitsPos) (hcount : r.bitCount < 8)
    (h : r.bits = lowBits left (v / 2 ^ r.readBitsPos) ++ rest) :
    ∃ r', loop readBitsPass BitReader.bitsLeft readBitsPass_dec r = (.ok (v % 2 ^ num + r.readBitsBase), r') ∧
      r'.bits = rest ∧ r'.bitCount < 8 ∧ r'.readBitsActive = false ∧ r'.symActive = r.symActive := by
  induction left generalizing r with
  | zero =>
    have hstop :
        readBitsPass r = .stop (.ok (r.readBitsValue + r.readBitsBase), { r with readBitsActive := false }) := by
      rw [readBitsPass, if_neg (by omega)]
    have hpos : r.readBitsPos = num := by omega
    rw [loop_stop hstop, hvalue, hpos]
    exact ⟨_, rfl, h, hcount, rfl, rfl⟩
  | succ left ih =>
    rw [lowBits, List.cons_append] at h
    obtain ⟨input, tag, n, hread, hrest, hn⟩ := readBit_bits hcount h
    have hnext : readBitsPass r = .next
        { r with
          input := input, bitTag := tag, bitCount := n, readBitsPos := r.readBitsPos + 1
          readBitsValue := v % 2 ^ (r.readBitsPos + 1) } := by
      have hbit : v % 2 ^ (r.readBitsPos + 1) = if (v / 2 ^ r.readBitsPos).testBit 0 then
          r.readBitsValue + 2 ^ r.readBitsPos else r.readBitsValue := by
        rw [hvalue, Nat.mod_pow_succ, Nat.testBit_zero]
        rcases Nat.mod_two_eq_zero_or_one (v / 2 ^ r.readBitsPos) with h0 | h0 <;> simp [h0]
      rw [readBitsPass, if_pos (by omega), onBit, hread, hbit]
      cases (v / 2 ^ r.readBitsPos).testBit 0 <;> rfl
    rw [loop_next hnext]
    refine ih
      { r with
        input := input, bitTag := tag, bitCount := n, readBitsPos := r.readBitsPos + 1
        readBitsValue := v % 2 ^ (r.readBitsPos + 1) } ?_ hnum rfl hn ?_
    · show r.readBitsPos + 1 + left = num
      omega
    · show lowBits n tag.toNat ++ bytesBits input = _
      rw [hrest, Nat.pow_succ, Nat.div_div_eq_div_mul]

theorem readBits_ready (base : Nat) {num v : Nat} (hv : v < 2 ^ num) (h : AtField r (lowBits num v ++ rest)) :
    ∃ r', readBits num base r = (.ok (v + base), r') ∧ AtField r' rest := by
  have hbegin : readBitsBegin num base r =
      { r with
        readBitsActive := true, readBitsNum := num, readBitsPos := 0, readBitsBase := base
        readBitsValue := 0 } := by
    rw [readBitsBegin, if_neg (by rw [h.field]; decide)]
  obtain ⟨r', hread, hbits, hcount, hfield, hsymbol⟩ := readBits_rest num v num
    { r with
      readBitsActive := true, readBitsNum := num, readBitsPos := 0, readBitsBase := base
      readBitsValue := 0 } (Nat.zero_add _) rfl (Nat.mod_one v).symm h.count
    (by rw [Nat.pow_zero, Nat.div_one]; exact h.bits)
  rw [Nat.mod_eq_of_lt hv] at hread
  exact ⟨r', by rw [readBits, hbegin, hread], hbits, hcount, hfield, hsymbol.trans h.symbol⟩

theorem readByte_ready {byte : UInt8} {xs : Bytes} (hcount : r.bitCount = 0)
    (h : AtField r (bytesBits (byte :: xs) ++ rest)) :
    ∃ r', readByte r = (.ok byte, r') ∧ r'.bitCount = 0 ∧ AtField r' (bytesBits xs ++ rest) := by
  have hbits : bytesBits r.input = bytesBits [byte] ++ (bytesBits xs ++ rest) := by
    rw [← List.append_assoc, ← bytesBits_append, List.singleton_append, ← h.bits, BitReader.bits, hcount]
    rfl
  obtain ⟨input, hinput, hrest⟩ := bytesBits_split hbits
  refine ⟨{ r with input := input }, ?_, hcount, ?_, h.count, h.field, h.symbol⟩
  · rw [readByte, hinput]
    rfl
  · rw [BitReader.bits, hcount]
    exact hrest

end Reader

section Symbols

/-- A table that decodes the code with these lengths. -/
structure Tree.Decodes (t : Tree) (size : Nat) (lens : List Nat) : Prop where
  valid : Valid lens 15
  table : ∀ n, 0 < n → n < 16 → t.table.getD n 0 = countOf lens n
  trans : ∀ sym < lens.length, lens.getD sym 0 ≠ 0 → t.trans.getD (slot lens sym) 0 = sym
  total : shorter (countOf lens) 16 ≤ size

variable {t : Tree} {size sym : Nat} {lens : List Nat} {rest bs : List Bool}

theorem Tree.Decodes.length_le (h : t.Decodes size lens) (hsym : sym < lens.length) : lens.getD sym 0 ≤ 15 := by
  rw [List.getD_eq_getElem _ _ hsym]
  exact h.valid.length_le _ (List.getElem_mem hsym)

/-- All but `left` bits of a codeword are read: the reader has counted the codewords that
are no longer, and how far it is past them. -/
structure Midway (lens : List Nat) (sym left : Nat) (rest : List Bool) (r : BitReader) : Prop where
  len : r.symLen + left = lens.getD sym 0
  sum : r.symSum = shorter (countOf lens) (r.symLen + 1)
  cur : r.symCur = ahead (countOf lens) (lens.getD sym 0) (code lens sym) r.symLen
  count : r.bitCount < 8
  bits : r.bits = highBits left (code lens sym) ++ rest

theorem Midway.step {left : Nat} {r : BitReader} (h : t.Decodes size lens) (hsym : sym < lens.length)
    (hr : Midway lens sym (left + 1) rest r) :
    ∃ r', Midway lens sym left rest r' ∧ r'.readBitsActive = r.readBitsActive ∧
      onBit (decodeSymbolBit t size) r =
        if 0 ≤ r'.symCur then .next r'
        else if r'.symSum + r'.symCur < 0 ∨ (size : Int) ≤ r'.symSum + r'.symCur then
          .stop (.fail "invalid huffman symbol", { r' with symSum := r'.symSum + r'.symCur })
        else
          .stop (.ok (t.trans.getD (r'.symSum + r'.symCur).toNat 0),
            { r' with symSum := r'.symSum + r'.symCur, symActive := false }) := by
  have hlen := h.length_le hsym
  have hleft := hr.len
  have hbits := hr.bits
  rw [highBits, List.cons_append] at hbits
  obtain ⟨input, tag, n, hread, hrest, hn⟩ := readBit_bits hr.count hbits
  have hahead := @ahead_succ (countOf lens) (lens.getD sym 0) (code lens sym) r.symLen (by omega)
  have htable := h.table (r.symLen + 1) (by omega) (by omega)
  have hbit : lens.getD sym 0 - (r.symLen + 1) = left := by omega
  rw [hbit, ← hr.cur, ← htable] at hahead
  refine ⟨{ r with
      input := input, bitTag := tag, bitCount := n, symLen := r.symLen + 1
      symSum := shorter (countOf lens) (r.symLen + 2)
      symCur := ahead (countOf lens) (lens.getD sym 0) (code lens sym) (r.symLen + 1) },
    ⟨?_, rfl, rfl, hn, hrest⟩, rfl, ?_⟩
  · show r.symLen + 1 + left = _
    omega
  · rw [onBit, hread]
    dsimp only [decodeSymbolBit]
    rw [if_neg (by omega), ← hahead, hr.sum, htable]
    norm_cast

theorem Midway.decode {left : Nat} {r : BitReader} (h : t.Decodes size lens) (hsym : sym < lens.length)
    (hused : lens.getD sym 0 ≠ 0) (hr : Midway lens sym (left + 1) rest r) :
    ∃ r', loop (onBit (decodeSymbolBit t size)) BitReader.bitsLeft (decodeSymbolPass_dec t size) r = (.ok sym, r') ∧
      r'.bits = rest ∧ r'.bitCount < 8 ∧ r'.readBitsActive = r.readBitsActive ∧ r'.symActive = false := by
  induction left generalizing r with
  | zero =>
    obtain ⟨r', hr', hactive, hpass⟩ := hr.step h hsym
    have hcode := code_lt hsym hused
    have hfull : r'.symLen = lens.getD sym 0 := hr'.len
    have hcur : r'.symCur < 0 := by
      rw [hr'.cur, hfull]
      exact ahead_last hcode
    -- the place of the symbol among those of its length and all shorter ones
    have hslot : r'.symSum + r'.symCur = slot lens sym := by
      rw [hr'.cur, hr'.sum, hfull]
      simp only [ahead, shorter, slot, code, Nat.sub_self, Nat.pow_zero, Nat.div_one]
      omega
    have hsize : slot lens sym < size :=
      (slot_lt hsym hused (Nat.lt_succ_of_le (h.length_le hsym))).trans_le h.total
    rw [hslot, if_neg (by omega), if_neg (by omega), Int.toNat_natCast, h.trans sym hsym hused] at hpass
    rw [loop_stop hpass]
    exact ⟨_, rfl, hr'.bits, hr'.count, hactive, rfl⟩
  | succ left ih =>
    obtain ⟨r', hr', hactive, hpass⟩ := hr.step h hsym
    have hlen := hr'.len
    have hcur : 0 ≤ r'.symCur := by
      rw [hr'.cur]
      exact ahead_nonneg (by omega) (Nat.le_add_right _ _)
    rw [if_pos hcur] at hpass
    rw [loop_next hpass, ← hactive]
    exact ih hr'

theorem decodeSymbol_ready {r : BitReader} (h : t.Decodes size lens) (hs : Sends lens sym bs)
    (hr : AtField r (bs ++ rest)) : ∃ r', decodeSymbol t size r = (.ok sym, r') ∧ AtField r' rest := by
  have hbegin : decodeSymbolBegin r = { r with symActive := true, symSum := 0, symCur := 0, symLen := 0 } := by
    rw [decodeSymbolBegin, if_neg (by rw [hr.symbol]; decide)]
  obtain ⟨left, hleft⟩ := Nat.exists_eq_succ_of_ne_zero hs.used
  have hcode : code lens sym < 2 ^ lens.getD sym 0 :=
    (code_lt hs.known hs.used).trans_le (h.valid.fits (h.length_le hs.known))
  have hmid : Midway lens sym (left + 1) rest
      { r with symActive := true, symSum := 0, symCur := 0, symLen := 0 } := by
    refine ⟨?_, rfl, (ahead_zero rfl hcode).symm, hr.count, ?_⟩
    · show 0 + (left + 1) = _
      omega
    · show r.bits = _
      rw [hr.bits, hs.bits, codeword, hleft]
  obtain ⟨r', hread, hbits, hcount, hfield, hsymbol⟩ := hmid.decode h hs.known hs.used
  exact ⟨r', by rw [decodeSymbol, hbegin, hread], hbits, hcount, hfield.trans hr.field, hsymbol⟩

end Symbols

section Tables

theorem foldl_modify_length (lens table : List Nat) :
    (lens.foldl (fun table len => table.modify len (· + 1)) table).length = table.length := by
  induction lens generalizing table with
  | nil => rfl
  | cons l lens ih => rw [List.foldl_cons, ih, List.length_modify]

theorem foldl_modify_getD (lens table : List Nat) {n : Nat} (hn : n < table.length) :
    (lens.foldl (fun table len => table.modify len (· + 1)) table).getD n 0 = table.getD n 0 + lens.count n := by
  induction lens generalizing table with
  | nil => simp
  | cons l lens ih =>
    rw [List.foldl_cons, ih _ (by rwa [List.length_modify]), List.count_cons]
    by_cases heq : l = n
    · subst heq
      simp [hn]
      omega
    · simp [heq]

theorem countLengths_length (lens : List Nat) : (countLengths lens).length = 16 := by
  rw [countLengths, List.length_set, foldl_modify_length, List.length_replicate]

theorem countLengths_getD (lens : List Nat) {n : Nat} (hn : n < 16) :
    (countLengths lens).getD n 0 = countOf lens n := by
  have hfold := foldl_modify_getD lens (List.replicate 16 0) (n := n) (by simpa using hn)
  have hzero : (List.replicate 16 0).getD n 0 = 0 := by
    rw [List.getD_eq_getElem?_getD, List.getElem?_replicate, if_pos hn]
    rfl
  rw [hzero, Nat.zero_add] at hfold
  rw [countLengths, countOf]
  by_cases h0 : n = 0
  · subst h0
    simp [foldl_modify_length]
  · rw [if_neg h0, ← hfold]
    simp [Ne.symm h0]

/-- The counts before a place add up to the number of shorter codewords. -/
theorem take_countLengths_sum (lens : List Nat) {i : Nat} (hi : i ≤ 16) :
    ((countLengths lens).take i).sum = shorter (countOf lens) i := by
  induction i with
  | zero => rfl
  | succ i ih =>
    have hlt : i < (countLengths lens).length := by
      rw [countLengths_length]
      omega
    rw [List.take_succ_eq_append_getElem hlt, List.sum_append, ih (by omega), shorter, List.sum_singleton,
      ← countLengths_getD lens (by omega), List.getD_eq_getElem _ _ hlt]

theorem countLengths_sum (lens : List Nat) : (countLengths lens).sum = shorter (countOf lens) 16 := by
  rw [← take_countLengths_sum lens (Nat.le_refl 16), List.take_of_length_le (countLengths_length lens).le]

/-- One pass of the loop that places the symbols. -/
def placeSymbol (acc : List Nat × List Nat) (p : Nat × Nat) : List Nat × List Nat :=
  if p.1 ≠ 0 then (acc.1.modify p.1 (· + 1), acc.2.set (acc.1.getD p.1 0) p.2) else acc

/-- The symbols up to some point are in their places, and the next place of each length is
known. -/
structure Placed (lens pre : List Nat) (size : Nat) (acc : List Nat × List Nat) : Prop where
  offs_length : acc.1.length = 16
  trans_length : acc.2.length = size
  offs : ∀ n, 0 < n → n < 16 → acc.1.getD n 0 = shorter (countOf lens) n + pre.count n
  trans : ∀ sym < pre.length, lens.getD sym 0 ≠ 0 → acc.2.getD (slot lens sym) 0 = sym

theorem Placed.start (lens trans : List Nat) :
    Placed lens [] trans.length ((List.range 16).map fun i => ((countLengths lens).take i).sum, trans) where
  offs_length := by simp
  trans_length := rfl
  offs n _ hn := by simp [hn, take_countLengths_sum lens hn.le]
  trans sym hsym := absurd hsym (Nat.not_lt_zero sym)

theorem Placed.step {lens pre suf : List Nat} {x size : Nat} {acc : List Nat × List Nat}
    (hlens : lens = pre ++ x :: suf) (hx : x < 16) (hsize : shorter (countOf lens) 16 ≤ size)
    (h : Placed lens pre size acc) :
    Placed lens (pre ++ [x]) size (placeSymbol acc (x, pre.length)) := by
  have hget : lens.getD pre.length 0 = x := by simp [hlens]
  have hknown : pre.length < lens.length := by simp [hlens]
  by_cases hzero : x = 0
  · have hsame : placeSymbol acc (x, pre.length) = acc := by simp [placeSymbol, hzero]
    rw [hsame]
    refine ⟨h.offs_length, h.trans_length, ?_, ?_⟩
    · intro n hpos hn
      rw [h.offs n hpos hn, List.count_append, hzero, List.count_singleton, if_neg (by simp; omega), Nat.add_zero]
    · intro sym hsym hused
      rw [List.length_append, List.length_singleton] at hsym
      rcases Nat.lt_succ_iff_lt_or_eq.mp hsym with hlt | rfl
      · exact h.trans sym hlt hused
      · exact absurd (hget.trans hzero) hused
  · have hslot : acc.1.getD x 0 = slot lens pre.length := by
      rw [h.offs x (by omega) hx, slot, rank, hget, hlens, List.take_left]
    have hroom : slot lens pre.length < acc.2.length := by
      rw [h.trans_length]
      exact (slot_lt hknown (by rwa [hget]) (by rwa [hget])).trans_le hsize
    have hstep : placeSymbol acc (x, pre.length) =
        (acc.1.modify x (· + 1), acc.2.set (slot lens pre.length) pre.length) := by
      rw [placeSymbol, if_pos hzero, hslot]
    rw [hstep]
    refine ⟨by rw [List.length_modify, h.offs_length], by rw [List.length_set, h.trans_length], ?_, ?_⟩
    · intro n hpos hn
      have hoffs := h.offs n hpos hn
      have hlt : n < acc.1.length := by rw [h.offs_length]; exact hn
      rw [List.count_append, List.count_singleton]
      by_cases heq : x = n
      · subst heq
        rw [if_pos (by simp), ← Nat.add_assoc, ← hoffs]
        simp [hlt]
      · rw [if_neg (by simpa using heq), Nat.add_zero, ← hoffs]
        simp [heq]
    · intro sym hsym hused
      rw [List.length_append, List.length_singleton] at hsym
      rcases Nat.lt_succ_iff_lt_or_eq.mp hsym with hlt | rfl
      · have hne := slot_ne_of_lt (by omega) hused hlt hknown (by rwa [hget])
        have hkept : (acc.2.set (slot lens pre.length) pre.length).getD (slot lens sym) 0 =
            acc.2.getD (slot lens sym) 0 := by simp [hne.symm]
        rw [hkept]
        exact h.trans sym hlt hused
      · simp [hroom]

theorem placeSymbols_placed {lens : List Nat} {size : Nat} {offs trans : List Nat}
    (hle : ∀ sym < lens.length, lens.getD sym 0 < 16) (hsize : shorter (countOf lens) 16 ≤ size)
    (hoffs : Placed lens [] size (offs, trans)) (pre suf : List Nat) (hlens : lens = pre ++ suf) :
    Placed lens pre size (pre.zipIdx.foldl placeSymbol (offs, trans)) := by
  induction pre using List.reverseRecOn generalizing suf with
  | nil => exact hoffs
  | append_singleton pre x ih =>
    have hpre : lens = pre ++ x :: suf := by rw [hlens, List.append_assoc, List.singleton_append]
    have hx : x < 16 := by
      have hknown := hle pre.length (by simp [hpre])
      simpa [hpre] using hknown
    rw [List.zipIdx_append, List.foldl_append, Nat.zero_add]
    exact (ih (x :: suf) hpre).step hpre hx hsize

/-- A table that is built decodes the code with the lengths it is built from. -/
theorem buildTree_decodes {t : Tree} {size : Nat} {lens : List Nat} (hvalid : Valid lens 15)
    (hsize : lens.length ≤ size) (hroom : size ≤ t.trans.length) :
    ∃ t', buildTree t size lens = .ok t' ∧ t'.Decodes size lens ∧ t'.trans.length = t.trans.length := by
  have hle : ∀ sym < lens.length, lens.getD sym 0 < 16 := by
    intro sym hsym
    rw [List.getD_eq_getElem _ _ hsym]
    exact Nat.lt_succ_of_le (hvalid.length_le _ (List.getElem_mem hsym))
  have hany : lens.any (16 ≤ ·) = false := by
    rw [List.any_eq_false]
    intro n hn
    have := hvalid.length_le n hn
    simp only [decide_eq_true_eq]
    omega
  have htotal : shorter (countOf lens) 16 ≤ size := (shorter_le_length lens 16).trans hsize
  have hsum : ¬ size < (countLengths lens).sum := by
    rw [countLengths_sum]
    omega
  have hplaced := placeSymbols_placed hle (htotal.trans hroom) (.start lens t.trans) lens [] (List.append_nil _).symm
  refine ⟨_, by rw [buildTree, if_neg (by simp [hany]), if_neg hsum], ⟨hvalid, ?_, ?_, htotal⟩, hplaced.trans_length⟩
  · intro n _ hn
    exact countLengths_getD lens hn
  · exact hplaced.trans

end Tables

end OpenDisplay
