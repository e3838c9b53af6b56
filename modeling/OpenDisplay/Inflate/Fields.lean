import OpenDisplay.Inflate.Correct

/-! Fields and symbols that are read in parts. A push or a full buffer can cut a read
anywhere; what is kept of it bounds the value that it ends with, whatever the table that a
symbol is read from. -/

namespace OpenDisplay

open Loops

section Reader

theorem readByte_shape {r r' : BitReader} {rc : Rc UInt8} (h : readByte r = (rc, r')) :
    (∃ input, r' = { r with input := input }) ∧ ∀ e, rc = .fail e → e = "truncated zlib stream" := by
  unfold readByte at h
  split at h
  · obtain ⟨rfl, rfl⟩ := Prod.mk.inj h
    exact ⟨⟨_, rfl⟩, by simp⟩
  · split_ifs at h
    · obtain ⟨rfl, rfl⟩ := Prod.mk.inj h
      exact ⟨⟨r.input, rfl⟩, fun e he => (Rc.fail.inj he).symm⟩
    · obtain ⟨rfl, rfl⟩ := Prod.mk.inj h
      exact ⟨⟨r.input, rfl⟩, by simp⟩

/-- Reading a bit moves on in the input and leaves what is under way alone. -/
structure BitRead (r : BitReader) (rc : Rc Nat) (r' : BitReader) : Prop where
  shape : ∃ input tag n, r' = { r with input := input, bitTag := tag, bitCount := n }
  bit : ∀ bit, rc = .ok bit → bit < 2
  error : ∀ e, rc = .fail e → e = "truncated zlib stream"

theorem takeBit_read {r u r' : BitReader} {rc : Rc Nat} {input : Bytes} {tag : UInt8} {n : Nat}
    (hu : u = { r with input := input, bitTag := tag, bitCount := n }) (h : takeBit u = (rc, r')) :
    BitRead r rc r' := by
  subst hu
  obtain ⟨rfl, rfl⟩ := Prod.mk.inj h
  refine ⟨⟨_, _, _, rfl⟩, fun bit hbit => ?_, by simp⟩
  obtain rfl := Rc.ok.inj hbit
  exact Nat.mod_lt _ (by decide)

theorem readBit_read {r r' : BitReader} {rc : Rc Nat} (h : readBit r = (rc, r')) : BitRead r rc r' := by
  unfold readBit at h
  split_ifs at h
  · cases hb : readByte r with
    | mk rc' u =>
      rw [hb] at h
      obtain ⟨⟨input, rfl⟩, herror⟩ := readByte_shape hb
      cases rc' with
      | ok byte => exact takeBit_read rfl h
      | need =>
        obtain ⟨rfl, rfl⟩ := Prod.mk.inj h
        exact ⟨⟨_, _, _, rfl⟩, by simp, by simp⟩
      | fail e =>
        obtain ⟨rfl, rfl⟩ := Prod.mk.inj h
        exact ⟨⟨_, _, _, rfl⟩, by simp, fun e' he => herror e' (congrArg Rc.fail (Rc.fail.inj he))⟩
  · exact takeBit_read rfl h

/-- A field of `num` bits is under way. -/
structure FieldPart (num base : Nat) (r : BitReader) : Prop where
  width : r.readBitsNum = num
  offset : r.readBitsBase = base
  pos : r.readBitsPos ≤ num
  value : r.readBitsValue < 2 ^ r.readBitsPos

/-- Neither a field nor a symbol is under way. -/
def BitReader.Quiet (r : BitReader) : Prop := r.symActive = false ∧ r.readBitsActive = false

theorem resetCodeReaders_quiet (r : BitReader) : (resetCodeReaders r).Quiet := ⟨rfl, rfl⟩

/-- Where reading a field leaves the reader. -/
def FieldEnd (num base : Nat) : Rc Nat × BitReader → Prop
  | (.ok v, r) => r.readBitsActive = false ∧ v < base + 2 ^ num
  | (_, r) => r.readBitsActive = true ∧ FieldPart num base r

/-- What a pass over a field that is under way comes to. -/
def FieldPass (num base : Nat) (r : BitReader) : Iter BitReader (Rc Nat × BitReader) → Prop
  | .next u => FieldPart num base u ∧ u.readBitsActive = true ∧ u.symActive = r.symActive
  | .stop p => FieldEnd num base p ∧ p.2.symActive = r.symActive

theorem FieldPart.pass {num base : Nat} {r : BitReader} (h : FieldPart num base r) (ha : r.readBitsActive = true) :
    FieldPass num base r (readBitsPass r) := by
  unfold readBitsPass
  split_ifs with hpos
  · unfold onBit
    cases hb : readBit r with
    | mk rc u =>
      obtain ⟨input, tag, n, rfl⟩ := (readBit_read hb).shape
      cases rc with
      | ok bit =>
        have hlt := h.value
        have hnum := h.width
        refine ⟨⟨h.width, h.offset, ?_, ?_⟩, ha, rfl⟩
        · change r.readBitsPos + 1 ≤ num
          omega
        · change (if bit ≠ 0 then r.readBitsValue + 2 ^ r.readBitsPos else r.readBitsValue) <
            2 ^ (r.readBitsPos + 1)
          rw [Nat.pow_succ]
          split_ifs
          · omega
          · omega
      | need => exact ⟨⟨ha, h.width, h.offset, h.pos, h.value⟩, rfl⟩
      | fail e => exact ⟨⟨ha, h.width, h.offset, h.pos, h.value⟩, rfl⟩
  · have hlt := h.value
    have hfull : r.readBitsPos = num := by
      have hnum := h.width
      have hle := h.pos
      omega
    refine ⟨⟨rfl, ?_⟩, rfl⟩
    rw [hfull] at hlt
    rw [h.offset]
    omega

/-- A field that is read from its start or from where it was cut is in its range. -/
theorem readBits_field {num base : Nat} {r : BitReader}
    (h : r.readBitsActive = true → FieldPart num base r) :
    FieldEnd num base (readBits num base r) ∧ (readBits num base r).2.symActive = r.symActive := by
  have hbegin : FieldPart num base (readBitsBegin num base r) ∧
      (readBitsBegin num base r).readBitsActive = true ∧ (readBitsBegin num base r).symActive = r.symActive := by
    unfold readBitsBegin
    split_ifs with ha
    · exact ⟨h ha, ha, rfl⟩
    · exact ⟨⟨rfl, rfl, Nat.zero_le _, Nat.one_pos⟩, rfl, rfl⟩
  obtain ⟨hpart, hactive, hsym⟩ := hbegin
  rw [← hsym]
  refine loop_rule (d := readBitsPass_dec) (P := fun (r : BitReader) (p : Rc Nat × BitReader) =>
    FieldPart num base r → r.readBitsActive = true → FieldEnd num base p ∧ p.2.symActive = r.symActive)
    ?_ ?_ (readBitsBegin num base r) hpart hactive
  · intro r p hs hpart ha
    have hpass := hpart.pass ha
    rw [hs] at hpass
    exact hpass
  · intro r u p hn ih hpart ha
    have hpass := hpart.pass ha
    rw [hn] at hpass
    obtain ⟨hpart', ha', hsym⟩ := hpass
    rw [← hsym]
    exact ih hpart' ha'

/-- A table of counts with room for its symbols. -/
structure Stored (size : Nat) (t : Tree) : Prop where
  table : t.table.length = 16
  zero : t.table.getD 0 0 = 0
  sum : t.table.sum ≤ size

/-- A symbol is under way: its codewords so far are counted, and how far it is past them is
within the bits that are read. -/
structure SymbolPart (t : Tree) (r : BitReader) : Prop where
  len : r.symLen ≤ 15
  sum : r.symSum = (t.table.take (r.symLen + 1)).sum
  nonneg : 0 ≤ r.symCur
  bound : r.symCur < 2 ^ r.symLen

variable {t : Tree} {size : Nat}

theorem Stored.take_succ (h : Stored size t) {n : Nat} (hn : n < 16) :
    (t.table.take (n + 1)).sum = (t.table.take n).sum + t.table.getD n 0 := by
  have hlt : n < t.table.length := by
    rw [h.table]
    exact hn
  rw [List.take_succ_eq_append_getElem hlt, List.sum_append, List.sum_singleton, List.getD_eq_getElem _ _ hlt]

theorem take_sum_le (l : List Nat) (n : Nat) : (l.take n).sum ≤ l.sum := by
  have hsplit := congrArg List.sum (List.take_append_drop n l)
  rw [List.sum_append] at hsplit
  omega

/-- The index at which a codeword ends is that of a stored symbol. -/
theorem SymbolPart.index (ht : Stored size t) {r : BitReader} (h : SymbolPart t r) (bit : Nat)
    (hlen : r.symLen + 1 ≠ 16) (hend : 2 * r.symCur + bit < t.table.getD (r.symLen + 1) 0) :
    0 ≤ r.symSum + (2 * r.symCur + bit) ∧ r.symSum + (2 * r.symCur + bit) < t.table.sum := by
  have hnonneg := h.nonneg
  have hle := h.len
  have hsucc := ht.take_succ (n := r.symLen + 1) (by omega)
  have hsum := take_sum_le t.table (r.symLen + 1 + 1)
  rw [h.sum]
  omega

theorem SymbolPart.next (ht : Stored size t) {r : BitReader} (h : SymbolPart t r) {bit : Nat} (hbit : bit < 2)
    (hlen : r.symLen + 1 ≠ 16) {r' : BitReader} (hr' : r'.symLen = r.symLen + 1)
    (hsum : r'.symSum = r.symSum + t.table.getD (r.symLen + 1) 0)
    (hcur : r'.symCur = 2 * r.symCur + bit - t.table.getD (r.symLen + 1) 0) (hpos : 0 ≤ r'.symCur) :
    SymbolPart t r' := by
  have hle := h.len
  have hbound := h.bound
  refine ⟨by omega, ?_, hpos, ?_⟩
  · rw [hsum, h.sum, hr', ht.take_succ (n := r.symLen + 1) (by omega)]
    norm_cast
  · rw [hcur, hr', pow_succ]
    omega

/-- Where reading a symbol leaves the reader. -/
def SymbolEnd (t : Tree) : Rc Nat × BitReader → Prop
  | (.ok _, r) => r.symActive = false
  | (.need, r) => r.symActive = true ∧ SymbolPart t r
  | (.fail e, _) => e ≠ "invalid huffman symbol"

/-- What a pass over a symbol that is under way comes to. -/
def SymbolPass (t : Tree) (field : Bool) : Iter BitReader (Rc Nat × BitReader) → Prop
  | .next u => SymbolPart t u ∧ u.symActive = true ∧ u.readBitsActive = field
  | .stop p => SymbolEnd t p ∧ p.2.readBitsActive = field

theorem SymbolPart.bit (ht : Stored size t) {r : BitReader} (h : SymbolPart t r) (ha : r.symActive = true) {bit : Nat}
    (hbit : bit < 2) : SymbolPass t r.readBitsActive (decodeSymbolBit t size bit r) := by
  unfold decodeSymbolBit
  dsimp only
  split_ifs with hlen hcur hrange
  · exact ⟨by simp [SymbolEnd], rfl⟩
  · exact ⟨h.next ht hbit hlen rfl rfl rfl hcur, ha, rfl⟩
  · have hindex := h.index ht bit hlen (by omega)
    have hsum := ht.sum
    omega
  · exact ⟨rfl, rfl⟩

theorem SymbolPart.pass (ht : Stored size t) {r : BitReader} (h : SymbolPart t r) (ha : r.symActive = true) :
    SymbolPass t r.readBitsActive (onBit (decodeSymbolBit t size) r) := by
  unfold onBit
  cases hb : readBit r with
  | mk rc u =>
    have hread := readBit_read hb
    obtain ⟨input, tag, n, rfl⟩ := hread.shape
    cases rc with
    | ok bit =>
      have hpart : SymbolPart t { r with input := input, bitTag := tag, bitCount := n } :=
        ⟨h.len, h.sum, h.nonneg, h.bound⟩
      exact hpart.bit ht ha (hread.bit bit rfl)
    | need => exact ⟨⟨ha, h.len, h.sum, h.nonneg, h.bound⟩, rfl⟩
    | fail e =>
      refine ⟨?_, rfl⟩
      change e ≠ "invalid huffman symbol"
      rw [hread.error e rfl]
      decide

theorem decodeSymbolBegin_part (ht : Stored size t) {r : BitReader} (h : r.symActive = true → SymbolPart t r) :
    SymbolPart t (decodeSymbolBegin r) ∧ (decodeSymbolBegin r).symActive = true ∧
      (decodeSymbolBegin r).readBitsActive = r.readBitsActive := by
  unfold decodeSymbolBegin
  split_ifs with ha
  · exact ⟨h ha, ha, rfl⟩
  · refine ⟨⟨Nat.zero_le _, ?_, Int.le_refl _, by simp⟩, rfl, rfl⟩
    rw [ht.take_succ (Nat.zero_lt_succ 15), ht.zero]
    rfl

/-- A symbol that is read from its start or from where it was cut is a stored one. -/
theorem decodeSymbol_symbol (ht : Stored size t) {r : BitReader} (h : r.symActive = true → SymbolPart t r) :
    SymbolEnd t (decodeSymbol t size r) ∧ (decodeSymbol t size r).2.readBitsActive = r.readBitsActive := by
  obtain ⟨hpart, hactive, hbits⟩ := decodeSymbolBegin_part ht h
  rw [← hbits]
  refine loop_rule (d := decodeSymbolPass_dec t size) (P := fun (r : BitReader) (p : Rc Nat × BitReader) =>
    SymbolPart t r → r.symActive = true → SymbolEnd t p ∧ p.2.readBitsActive = r.readBitsActive)
    ?_ ?_ (decodeSymbolBegin r) hpart hactive
  · intro r p hs hpart ha
    have hpass := hpart.pass ht ha
    rw [hs] at hpass
    exact hpass
  · intro r u p hn ih hpart ha
    have hpass := hpart.pass ht ha
    rw [hn] at hpass
    obtain ⟨hpart', ha', hbits⟩ := hpass
    rw [← hbits]
    exact ih hpart' ha'

end Reader

section Trees

variable {t t' : Tree} {size : Nat} {lens : List Nat}

theorem buildTree_ok (h : buildTree t size lens = .ok t') :
    (∀ len ∈ lens, len < 16) ∧ (countLengths lens).sum ≤ size ∧
      t' = ⟨countLengths lens, placeSymbols lens ((List.range 16).map fun i => ((countLengths lens).take i).sum)
        t.trans⟩ := by
  unfold buildTree at h
  dsimp only at h
  split_ifs at h with hany hsum
  refine ⟨fun len hlen => ?_, Nat.not_lt.mp hsum, (Except.ok.inj h).symm⟩
  by_contra hlt
  exact hany (List.any_eq_true.mpr ⟨len, hlen, decide_eq_true (Nat.not_lt.mp hlt)⟩)

theorem placeSymbols_length (offs trans : List Nat) : (placeSymbols lens offs trans).length = trans.length := by
  have hfold : ∀ (ps : List (Nat × Nat)) (acc : List Nat × List Nat),
      (ps.foldl placeSymbol acc).2.length = acc.2.length := by
    intro ps
    induction ps with
    | nil => exact fun acc => rfl
    | cons p ps ih =>
      intro acc
      rw [List.foldl_cons, ih]
      unfold placeSymbol
      split_ifs
      · exact List.length_set
      · rfl
  exact hfold lens.zipIdx (offs, trans)

theorem buildTree_stored (h : buildTree t size lens = .ok t') :
    Stored size t' ∧ t'.trans.length = t.trans.length := by
  obtain ⟨-, hsum, rfl⟩ := buildTree_ok h
  refine ⟨⟨countLengths_length lens, ?_, hsum⟩, placeSymbols_length _ _⟩
  rw [countLengths_getD lens (Nat.zero_lt_succ 15)]
  rfl

theorem fixedLiteralTree_stored : Stored 288 fixedLiteralTree := ⟨rfl, rfl, by decide⟩

theorem fixedDistanceTree_stored : Stored 32 fixedDistanceTree := ⟨rfl, rfl, by decide⟩

end Trees

end OpenDisplay
