import OpenDisplay.Inflate.Accept
import OpenDisplay.Inflate.Fields
import OpenDisplay.Lib.Lenient

/-! The readers of the inflater from their results: what a field, a byte or a symbol that
was read says of the bits it was read from, and what a table that was built decodes. -/

namespace OpenDisplay

open Loops Resumable Huffman Deflate

section Reader

variable {r r' : BitReader} {bs : List Bool}

theorem AtField.bits_length (h : AtField r bs) : bs.length = r.bitsLeft := by
  rw [← h.bits, BitReader.bits, List.length_append, lowBits_length, bytesBits_length, BitReader.bitsLeft]
  omega

/-- A bit that was read is the first of those that were left. -/
theorem readBit_ends {bit : Nat} (hcount : r.bitCount < 8) (h : readBit r = (.ok bit, r')) :
    ∃ b, bit = b.toNat ∧ r.bits = b :: r'.bits ∧ r'.bitCount < 8 := by
  have hleft := readBit_left h
  rcases hbits : r.bits with - | ⟨b, rest⟩
  · have hlen := congrArg List.length hbits
    rw [BitReader.bits, List.length_append, lowBits_length, bytesBits_length, List.length_nil] at hlen
    rw [BitReader.bitsLeft, BitReader.bitsLeft] at hleft
    omega
  · obtain ⟨input, tag, n, hread, hrest, hn⟩ := readBit_bits hcount hbits
    obtain ⟨hbit, rfl⟩ := Prod.mk.inj (h.symm.trans hread)
    exact ⟨b, Rc.ok.inj hbit, by rw [← hrest]; rfl, hn⟩

theorem AtField.bitRead {bit : Nat} (h : AtField r bs) (hread : readBit r = (.ok bit, r')) :
    ∃ b rest, bit = b.toNat ∧ bs = b :: rest ∧ AtField r' rest := by
  obtain ⟨b, hbit, hbits, hcount⟩ := readBit_ends h.count hread
  obtain ⟨hfield, hsymbol⟩ := readBit_frame hread
  exact ⟨b, r'.bits, hbit, h.bits.symm.trans hbits, rfl, hcount, hfield.trans h.field, hsymbol.trans h.symbol⟩

/-- A field that was read took as many bits as it has. -/
theorem readBits_left {num base v : Nat} (hfield : r.readBitsActive = false) (h : readBits num base r = (.ok v, r')) :
    r'.bitsLeft + num = r.bitsLeft := by
  have hbegin : readBitsBegin num base r =
      { r with
        readBitsActive := true, readBitsNum := num, readBitsPos := 0, readBitsBase := base
        readBitsValue := 0 } := by
    rw [readBitsBegin, if_neg (by rw [hfield]; decide)]
  have hloop := loop_rule (d := readBitsPass_dec) (P := fun (r : BitReader) (p : Rc Nat × BitReader) =>
    ∀ v u, p = (.ok v, u) → r.readBitsPos ≤ r.readBitsNum →
      u.bitsLeft + (r.readBitsNum - r.readBitsPos) = r.bitsLeft) ?_ ?_ (readBitsBegin num base r)
  · have hleft := hloop v r' h
    rw [hbegin] at hleft
    exact hleft (Nat.zero_le _)
  · rintro r p hs v u rfl hpos
    unfold readBitsPass at hs
    split_ifs at hs
    · obtain ⟨bit, u', -, hk⟩ := onBit_ok hs
      cases hk
    · cases hs
      show r.bitsLeft + (r.readBitsNum - r.readBitsPos) = r.bitsLeft
      omega
  · intro r t p hn ih v u hu hpos
    unfold readBitsPass at hn
    split_ifs at hn
    obtain ⟨bit, u', hread, hk⟩ := onBit_next hn
    obtain rfl := Iter.next.inj hk
    obtain ⟨input, tag, n, rfl⟩ := (readBit_read hread).shape
    have hleft := readBit_left hread
    have hlast : u.bitsLeft + (r.readBitsNum - (r.readBitsPos + 1)) = _ := ih v u hu (by
      show r.readBitsPos + 1 ≤ r.readBitsNum
      omega)
    simp only [BitReader.bitsLeft] at hleft hlast ⊢
    omega

theorem AtField.fieldRead {num base v : Nat} (h : AtField r bs) (hread : readBits num base r = (.ok v, r')) :
    ∃ x < 2 ^ num, ∃ rest, v = x + base ∧ bs = lowBits num x ++ rest ∧ AtField r' rest := by
  have hleft := readBits_left h.field hread
  have hlen : (bs.take num).length = num := by
    rw [List.length_take, h.bits_length]
    omega
  obtain ⟨x, hx, hbits⟩ := exists_lowBits (bs.take num)
  rw [hlen] at hx hbits
  have hsplit : bs = lowBits num x ++ bs.drop num := by rw [← hbits, List.take_append_drop]
  obtain ⟨u, hread', hu⟩ := readBits_ready base hx (hsplit ▸ h)
  obtain ⟨hv, rfl⟩ := Prod.mk.inj (hread.symm.trans hread')
  exact ⟨x, hx, bs.drop num, Rc.ok.inj hv, hsplit, hu⟩

theorem readByte_ends {byte : UInt8} (h : readByte r = (.ok byte, r')) :
    r.input = byte :: r'.input ∧ r' = { r with input := r'.input } := by
  unfold readByte at h
  split at h
  · next hinput =>
    obtain ⟨hb, rfl⟩ := Prod.mk.inj h
    rw [hinput, Rc.ok.inj hb]
    exact ⟨rfl, rfl⟩
  · split_ifs at h
    · cases (Prod.mk.inj h).1
    · cases (Prod.mk.inj h).1

theorem AtField.byteRead {byte : UInt8} (hcount : r.bitCount = 0) (h : AtField r bs)
    (hread : readByte r = (.ok byte, r')) :
    ∃ rest, bs = bytesBits [byte] ++ rest ∧ AtField r' rest ∧ r'.bitCount = 0 := by
  obtain ⟨hinput, hr⟩ := readByte_ends hread
  rw [hr]
  refine ⟨bytesBits r'.input, ?_, ⟨?_, h.count, h.field, h.symbol⟩, hcount⟩
  · rw [← bytesBits_append, List.singleton_append, ← hinput, ← h.bits, BitReader.bits, hcount]
    rfl
  · rw [BitReader.bits, hcount]
    rfl

end Reader

section Symbols

/-- A table of the code with these lengths, which need not be a code. -/
structure Tree.Codes (t : Tree) (size : Nat) (lens : List Nat) : Prop where
  length_le : ∀ n ∈ lens, n ≤ 15
  table : ∀ n, 0 < n → n < 16 → t.table.getD n 0 = countOf lens n
  trans : ∀ sym < lens.length, lens.getD sym 0 ≠ 0 → t.trans.getD (slot lens sym) 0 = sym

variable {t t' : Tree} {size : Nat} {lens : List Nat}

theorem Tree.Decodes.codes (h : t.Decodes size lens) : t.Codes size lens :=
  ⟨h.valid.length_le, h.table, h.trans⟩

theorem buildTree_codes (hbuild : buildTree t size lens = .ok t') (hroom : size ≤ t.trans.length) :
    t'.Codes size lens ∧ t'.trans.length = t.trans.length := by
  obtain ⟨hlt, hsum, rfl⟩ := buildTree_ok hbuild
  rw [countLengths_sum] at hsum
  have hle : ∀ sym < lens.length, lens.getD sym 0 < 16 := by
    intro sym hsym
    rw [List.getD_eq_getElem _ _ hsym]
    exact hlt _ (List.getElem_mem hsym)
  have hplaced := placeSymbols_placed hle (hsum.trans hroom) (.start lens t.trans) lens [] (List.append_nil _).symm
  exact ⟨⟨fun n hn => Nat.le_of_lt_succ (hlt n hn), fun n _ hn => countLengths_getD lens hn, hplaced.trans⟩,
    hplaced.trans_length⟩

/-- The bits of a symbol that are read so far, as a number past every codeword that is no
longer. -/
structure Walked (lens : List Nat) (bs : List Bool) (v : Nat) (r : BitReader) : Prop where
  bits : bs = highBits r.symLen v ++ r.bits
  sum : r.symSum = shorter (countOf lens) (r.symLen + 1)
  cur : r.symCur = v - (firstCode (countOf lens) r.symLen + countOf lens r.symLen : Nat)
  past : firstCode (countOf lens) r.symLen + countOf lens r.symLen ≤ v
  count : r.bitCount < 8

/-- The bits of a symbol with one more. -/
theorem highBits_snoc (n v : Nat) (b : Bool) : highBits (n + 1) (2 * v + b.toNat) = highBits n v ++ [b] := by
  have hb := b.toNat_lt
  have hhalf : (2 * v + b.toNat) / 2 ^ 1 = v := by omega
  have hlow : (2 * v + b.toNat).testBit 0 = b := by
    rw [Nat.testBit_zero, Nat.mul_add_mod]
    cases b <;> rfl
  rw [highBits_add, hhalf, highBits, highBits, hlow]

/-- Where reading a symbol ends, when it ends with one. -/
def SymbolRead (lens : List Nat) (bs : List Bool) (field : Bool) (sym : Nat) (r : BitReader) : Prop :=
  ∃ cs, bs = cs ++ r.bits ∧ Sends lens sym cs ∧ r.bitCount < 8 ∧ r.readBitsActive = field ∧ r.symActive = false

/-- What one more bit of a symbol comes to. -/
def WalkedPass (lens : List Nat) (bs : List Bool) (field : Bool) :
    Iter BitReader (Rc Nat × BitReader) → Prop
  | .next u => (∃ v, Walked lens bs v u) ∧ u.readBitsActive = field
  | .stop (.ok sym, u) => SymbolRead lens bs field sym u
  | .stop _ => True

theorem Walked.pass {bs : List Bool} {v : Nat} {r : BitReader} (ht : t.Codes size lens) (hw : Walked lens bs v r)
    (hlen : r.symLen < 16) : WalkedPass lens bs r.readBitsActive (onBit (decodeSymbolBit t size) r) := by
  unfold onBit
  rcases hread : readBit r with ⟨rc, u⟩
  cases rc with
  | need => trivial
  | fail e => trivial
  | ok bit =>
    obtain ⟨b, rfl, hbits, hcount⟩ := readBit_ends hw.count hread
    obtain ⟨input, tag, n, rfl⟩ := (readBit_read hread).shape
    have hword : bs = highBits (r.symLen + 1) (2 * v + b.toNat) ++
        BitReader.bits { r with input := input, bitTag := tag, bitCount := n } := by
      rw [hw.bits, hbits, highBits_snoc, List.append_assoc]
      rfl
    have hfirst : firstCode (countOf lens) (r.symLen + 1) ≤ 2 * v + b.toNat :=
      (Nat.mul_le_mul_left 2 hw.past).trans (Nat.le_add_right _ _)
    have hcodes : firstCode (countOf lens) (r.symLen + 1) =
        2 * (firstCode (countOf lens) r.symLen + countOf lens r.symLen) := rfl
    have hshort : shorter (countOf lens) (r.symLen + 1 + 1) =
        shorter (countOf lens) (r.symLen + 1) + countOf lens (r.symLen + 1) := rfl
    have hcur := hw.cur
    have hsum := hw.sum
    unfold decodeSymbolBit
    dsimp only
    split_ifs with hfull hpast hrange
    · trivial
    · rw [ht.table (r.symLen + 1) (by omega) (by omega)] at hpast ⊢
      refine ⟨⟨2 * v + b.toNat, hword, ?_, ?_, ?_, hcount⟩, rfl⟩
      · show r.symSum + (countOf lens (r.symLen + 1) : Int) = shorter (countOf lens) (r.symLen + 1 + 1)
        omega
      · show 2 * r.symCur + (b.toNat : Int) - (countOf lens (r.symLen + 1) : Int) =
          ((2 * v + b.toNat : Nat) : Int) -
            (firstCode (countOf lens) (r.symLen + 1) + countOf lens (r.symLen + 1) : Nat)
        omega
      · show firstCode (countOf lens) (r.symLen + 1) + countOf lens (r.symLen + 1) ≤ 2 * v + b.toNat
        omega
    · trivial
    · -- the bits are before the end of the codewords of their length, and so one of them
      rw [ht.table (r.symLen + 1) (by omega) (by omega)] at hpast ⊢
      obtain ⟨sym, hsends, hslot⟩ := exists_sends (n := r.symLen + 1) (by omega) hfirst (by omega)
      have hat : r.symSum + (countOf lens (r.symLen + 1) : Int) +
          (2 * r.symCur + (b.toNat : Int) - (countOf lens (r.symLen + 1) : Int)) = slot lens sym := by
        omega
      rw [hat, Int.toNat_natCast, ht.trans sym hsends.known hsends.used]
      exact ⟨_, hword, hsends, hcount, rfl, rfl⟩

/-- A symbol that was read is that of the codeword it was read from. -/
theorem AtField.symbolRead {sym : Nat} {r r' : BitReader} {bs : List Bool} (ht : t.Codes size lens) (h : AtField r bs)
    (hread : decodeSymbol t size r = (.ok sym, r')) :
    ∃ cs rest, bs = cs ++ rest ∧ Sends lens sym cs ∧ AtField r' rest := by
  have hbegin : decodeSymbolBegin r = { r with symActive := true, symSum := 0, symCur := 0, symLen := 0 } := by
    rw [decodeSymbolBegin, if_neg (by rw [h.symbol]; decide)]
  have hstart : Walked lens bs 0 (decodeSymbolBegin r) := by
    rw [hbegin]
    exact ⟨h.bits.symm, rfl, rfl, Nat.le_refl _, h.count⟩
  have hloop := loop_rule (d := decodeSymbolPass_dec t size) (P := fun (r : BitReader) (p : Rc Nat × BitReader) =>
    ∀ sym u, p = (.ok sym, u) → ∀ v, Walked lens bs v r → r.symLen < 16 → SymbolRead lens bs r.readBitsActive sym u)
    ?_ ?_ (decodeSymbolBegin r)
  · obtain ⟨cs, hbs, hsends, hcount, hfield, hsymbol⟩ := hloop sym r' hread 0 hstart
      (by rw [hbegin]; exact Nat.zero_lt_succ 15)
    rw [hbegin] at hfield
    exact ⟨cs, r'.bits, hbs, hsends, rfl, hcount, hfield.trans h.field, hsymbol⟩
  · rintro r p hs sym u rfl v hw hlen
    have hpass := hw.pass ht hlen
    rw [hs] at hpass
    exact hpass
  · intro r t' p hn ih sym u hu v hw hlen
    have hpass := hw.pass ht hlen
    rw [hn] at hpass
    obtain ⟨⟨v', hw'⟩, hfield⟩ := hpass
    obtain ⟨bit, u', hread', hk⟩ := onBit_next hn
    obtain ⟨input, tag, n, rfl⟩ := (readBit_read hread').shape
    unfold decodeSymbolBit at hk
    dsimp only at hk
    split_ifs at hk with hfull
    obtain rfl := Iter.next.inj hk
    exact ih sym u hu v' hw' (by
      show r.symLen + 1 < 16
      omega)

end Symbols

end OpenDisplay
