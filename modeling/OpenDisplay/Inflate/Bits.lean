import Mathlib.Algebra.GroupWithZero.Nat
import Mathlib.Order.Nat
import OpenDisplay.Lib.Loop

/-! The bit reader of the streaming inflater: bytes, bits, multi-bit fields and
Huffman symbols. Each read can stop for want of input in the middle of a field
and keeps what it has so far in the reader. -/

namespace OpenDisplay

open Loops

abbrev Bytes := List UInt8

/-- The return codes 1, 0 and -1 of the readers. -/
inductive Rc (α : Type) where
  | ok (a : α)
  | need
  | fail (error : String)

structure BitReader where
  input : Bytes := []
  inputFinal : Bool := false
  bitTag : UInt8 := 0
  bitCount : Nat := 0
  readBitsActive : Bool := false
  readBitsNum : Nat := 0
  readBitsPos : Nat := 0
  readBitsBase : Nat := 0
  readBitsValue : Nat := 0
  symActive : Bool := false
  symSum : Int := 0
  symCur : Int := 0
  symLen : Nat := 0

def readByte (r : BitReader) : Rc UInt8 × BitReader :=
  match r.input with
  | byte :: rest => (.ok byte, { r with input := rest })
  | [] => if r.inputFinal then (.fail "truncated zlib stream", r) else (.need, r)

def takeBit (r : BitReader) : Rc Nat × BitReader :=
  (.ok (r.bitTag.toNat % 2), { r with bitTag := r.bitTag >>> 1, bitCount := r.bitCount - 1 })

def readBit (r : BitReader) : Rc Nat × BitReader :=
  if r.bitCount = 0 then
    match readByte r with
    | (.ok byte, r) => takeBit { r with bitTag := byte, bitCount := 8 }
    | (.need, r) => (.need, r)
    | (.fail e, r) => (.fail e, r)
  else takeBit r

/-- One pass of a loop that starts by reading a bit. -/
def onBit {α : Type} (k : Nat → BitReader → Iter BitReader (Rc α × BitReader))
    (r : BitReader) : Iter BitReader (Rc α × BitReader) :=
  match readBit r with
  | (.ok bit, r) => k bit r
  | (.need, r) => .stop (.need, r)
  | (.fail e, r) => .stop (.fail e, r)

def BitReader.bitsLeft (r : BitReader) : Nat := 8 * r.input.length + r.bitCount

theorem readBit_left {r r' : BitReader} {bit : Nat} (h : readBit r = (.ok bit, r')) :
    r'.bitsLeft + 1 = r.bitsLeft := by
  by_cases hc : r.bitCount = 0
  · cases hi : r.input <;> cases hf : r.inputFinal <;>
      simp only [readBit, readByte, takeBit, hc, hi, hf, if_true, if_false, Bool.false_eq_true,
        Prod.mk.injEq, reduceCtorEq, false_and] at h
    all_goals
      obtain ⟨-, rfl⟩ := h
      simp only [BitReader.bitsLeft, hi, hc, List.length_cons]
      omega
  · simp only [readBit, hc, if_false, takeBit, Prod.mk.injEq] at h
    obtain ⟨-, rfl⟩ := h
    simp only [BitReader.bitsLeft]
    omega

/-- More input, and whether it is the last. -/
def BitReader.feed (ys : Bytes) (b : Bool) (r : BitReader) : BitReader :=
  { r with input := r.input ++ ys, inputFinal := b }

/-- What a pass, a pause, a result or an error becomes when more input arrives. -/
def fedPass {α : Type} (pass : BitReader → Iter BitReader (Rc α × BitReader)) (ys : Bytes)
    (b : Bool) : Iter BitReader (Rc α × BitReader) → Iter BitReader (Rc α × BitReader)
  | .next t => .next (t.feed ys b)
  | .stop (.need, t) => pass (t.feed ys b)
  | .stop (.ok a, t) => .stop (.ok a, t.feed ys b)
  | .stop (.fail e, t) => .stop (.fail e, t.feed ys b)

/-- What the code does with a bit leaves the input alone. -/
structure Passive {α : Type} (k : Nat → BitReader → Iter BitReader (Rc α × BitReader)) :
    Prop where
  next : ∀ {bit r t}, k bit r = .next t → t.input = r.input ∧ t.bitCount = r.bitCount ∧
    t.inputFinal = r.inputFinal
  stop : ∀ {bit r rc t}, k bit r = .stop (rc, t) → t.input = r.input ∧
    t.bitCount = r.bitCount ∧ t.inputFinal = r.inputFinal ∧ rc ≠ .need
  feed : ∀ bit r ys b, k bit (r.feed ys b) = fedPass (k bit) ys b (k bit r)

theorem onBit_next_left {α : Type} {k : Nat → BitReader → Iter BitReader (Rc α × BitReader)}
    (hk : Passive k) {r t : BitReader} (h : onBit k r = .next t) : t.bitsLeft < r.bitsLeft := by
  unfold onBit at h
  cases hb : readBit r with
  | mk rc r' =>
    rw [hb] at h
    cases rc with
    | ok bit =>
      have hl := readBit_left hb
      obtain ⟨h1, h2, -⟩ := hk.next h
      simp only [BitReader.bitsLeft, h1, h2] at hl ⊢
      omega
    | need => simp at h
    | fail e => simp at h

def readBitsBit (bit : Nat) (r : BitReader) : Iter BitReader (Rc Nat × BitReader) :=
  .next { r with
    readBitsValue := if bit ≠ 0 then r.readBitsValue + 2 ^ r.readBitsPos else r.readBitsValue
    readBitsPos := r.readBitsPos + 1 }

theorem readBitsBit_passive : Passive readBitsBit where
  next {bit r t} h := by obtain rfl := Iter.next.inj h; exact ⟨rfl, rfl, rfl⟩
  stop {bit r rc t} h := by cases h
  feed _ _ _ _ := rfl

def readBitsPass (r : BitReader) : Iter BitReader (Rc Nat × BitReader) :=
  if r.readBitsPos < r.readBitsNum then onBit readBitsBit r
  else .stop (.ok (r.readBitsValue + r.readBitsBase), { r with readBitsActive := false })

theorem readBitsPass_dec (r t : BitReader) (h : readBitsPass r = .next t) :
    t.bitsLeft < r.bitsLeft := by
  unfold readBitsPass at h
  split at h
  · exact onBit_next_left readBitsBit_passive h
  · cases h

def readBitsBegin (num base : Nat) (r : BitReader) : BitReader :=
  if r.readBitsActive then r else
    { r with
      readBitsActive := true, readBitsNum := num, readBitsPos := 0
      readBitsBase := base, readBitsValue := 0 }

def readBits (num base : Nat) (r : BitReader) : Rc Nat × BitReader :=
  loop readBitsPass BitReader.bitsLeft readBitsPass_dec (readBitsBegin num base r)

/-- A canonical Huffman table: `table` counts the codes of each length and
`trans` lists the symbols in code order. -/
structure Tree where
  table : List Nat
  trans : List Nat

def decodeSymbolBit (t : Tree) (transSize bit : Nat) (r : BitReader) :
    Iter BitReader (Rc Nat × BitReader) :=
  let cur := 2 * r.symCur + bit
  let len := r.symLen + 1
  if len = 16 then
    .stop (.fail "invalid huffman code", { r with symCur := cur, symLen := len })
  else
    let sum := r.symSum + t.table.getD len 0
    let cur := cur - t.table.getD len 0
    if 0 ≤ cur then .next { r with symSum := sum, symCur := cur, symLen := len }
    else
      let sum := sum + cur
      let r := { r with symSum := sum, symCur := cur, symLen := len }
      if sum < 0 ∨ (transSize : Int) ≤ sum then .stop (.fail "invalid huffman symbol", r)
      else .stop (.ok (t.trans.getD sum.toNat 0), { r with symActive := false })

theorem decodeSymbolBit_passive (t : Tree) (n : Nat) : Passive (decodeSymbolBit t n) where
  next {bit r u} h := by
    simp only [decodeSymbolBit] at h
    split at h
    · cases h
    · split at h
      · obtain rfl := Iter.next.inj h; exact ⟨rfl, rfl, rfl⟩
      · split at h <;> cases h
  stop {bit r rc u} h := by
    simp only [decodeSymbolBit] at h
    split at h
    · cases h; exact ⟨rfl, rfl, rfl, nofun⟩
    · split at h
      · cases h
      · split at h <;> cases h <;> exact ⟨rfl, rfl, rfl, nofun⟩
  feed bit r ys b := by
    by_cases h16 : r.symLen + 1 = 16
    · simp [decodeSymbolBit, BitReader.feed, fedPass, h16]
    by_cases hcur : 0 ≤ 2 * r.symCur + bit - t.table.getD (r.symLen + 1) 0
    · simp only [decodeSymbolBit, BitReader.feed, h16, hcur, if_true, if_false, fedPass]
    by_cases hsum : r.symSum + t.table.getD (r.symLen + 1) 0 +
        (2 * r.symCur + bit - t.table.getD (r.symLen + 1) 0) < 0 ∨
        (n : Int) ≤ r.symSum + t.table.getD (r.symLen + 1) 0 +
          (2 * r.symCur + bit - t.table.getD (r.symLen + 1) 0)
    · simp only [decodeSymbolBit, BitReader.feed, h16, hcur, hsum, if_true, if_false, fedPass]
    · simp only [decodeSymbolBit, BitReader.feed, h16, hcur, hsum, if_false, fedPass]

theorem decodeSymbolPass_dec (t : Tree) (n : Nat) (r u : BitReader)
    (h : onBit (decodeSymbolBit t n) r = .next u) : u.bitsLeft < r.bitsLeft :=
  onBit_next_left (decodeSymbolBit_passive t n) h

def decodeSymbolBegin (r : BitReader) : BitReader :=
  if r.symActive then r else { r with symActive := true, symSum := 0, symCur := 0, symLen := 0 }

def decodeSymbol (t : Tree) (transSize : Nat) (r : BitReader) : Rc Nat × BitReader :=
  loop (onBit (decodeSymbolBit t transSize)) BitReader.bitsLeft
    (decodeSymbolPass_dec t transSize) (decodeSymbolBegin r)

def resetCodeReaders (r : BitReader) : BitReader :=
  { r with readBitsActive := false, symActive := false }

/-- What a pause, a result or an error becomes when more input arrives. -/
def resumed {α : Type} (f : BitReader → Rc α × BitReader) (ys : Bytes) (b : Bool) :
    Rc α × BitReader → Rc α × BitReader
  | (.need, r) => f (r.feed ys b)
  | (.ok a, r) => (.ok a, r.feed ys b)
  | (.fail e, r) => (.fail e, r.feed ys b)

/-- What a reader owes its caller: it only consumes, it waits only for input
that may still come, and a pause resumes as if all input had been there. -/
structure Reads {α : Type} (f : BitReader → Rc α × BitReader) : Prop where
  left_le : ∀ {r rc t}, f r = (rc, t) → t.bitsLeft ≤ r.bitsLeft
  final_eq : ∀ {r rc t}, f r = (rc, t) → t.inputFinal = r.inputFinal
  need_input : ∀ {r t}, f r = (.need, t) → r.inputFinal = false ∧ t.input = []
  resume : ∀ {r}, r.inputFinal = false → ∀ ys b, f (r.feed ys b) = resumed f ys b (f r)

theorem readByte_reads : Reads readByte where
  left_le {r rc t} h := by
    cases hi : r.input <;> cases hf : r.inputFinal <;>
      simp only [readByte, hi, hf, if_true, if_false, Bool.false_eq_true, Prod.mk.injEq] at h <;>
      obtain ⟨-, rfl⟩ := h <;>
      simp only [BitReader.bitsLeft, hi, List.length_cons, List.length_nil] <;> omega
  final_eq {r rc t} h := by
    cases hi : r.input <;> cases hf : r.inputFinal <;>
      simp only [readByte, hi, hf, if_true, if_false, Bool.false_eq_true, Prod.mk.injEq] at h <;>
      obtain ⟨-, rfl⟩ := h <;> simp [hf]
  need_input {r t} h := by
    cases hi : r.input <;> cases hf : r.inputFinal <;> simp [readByte, hi, hf] at h
    exact ⟨rfl, h ▸ hi⟩
  resume {r} hf ys b := by
    cases hi : r.input <;> simp [readByte, BitReader.feed, resumed, hi, hf]

theorem readBit_need {r t : BitReader} (h : readBit r = (.need, t)) :
    t = r ∧ r.inputFinal = false ∧ r.input = [] := by
  by_cases hc : r.bitCount = 0
  · cases hi : r.input <;> cases hf : r.inputFinal <;>
      simp [readBit, readByte, takeBit, hc, hi, hf] at h
    exact ⟨h.symm, rfl, rfl⟩
  · simp [readBit, hc, takeBit] at h

theorem readBit_frame {r r' : BitReader} {rc : Rc Nat} (h : readBit r = (rc, r')) :
    r'.readBitsActive = r.readBitsActive ∧ r'.symActive = r.symActive := by
  by_cases hc : r.bitCount = 0
  · cases hi : r.input <;> cases hf : r.inputFinal <;>
      simp only [readBit, readByte, takeBit, hc, hi, hf, if_true, if_false, Bool.false_eq_true,
        Prod.mk.injEq] at h <;>
      obtain ⟨-, rfl⟩ := h <;> exact ⟨rfl, rfl⟩
  · simp only [readBit, hc, if_false, takeBit, Prod.mk.injEq] at h
    obtain ⟨-, rfl⟩ := h
    exact ⟨rfl, rfl⟩

theorem onBit_next {α : Type} {k : Nat → BitReader → Iter BitReader (Rc α × BitReader)}
    {r t : BitReader} (h : onBit k r = .next t) :
    ∃ bit r', readBit r = (.ok bit, r') ∧ k bit r' = .next t := by
  unfold onBit at h
  cases hb : readBit r with
  | mk rc r' =>
    rw [hb] at h
    cases rc with
    | ok bit => exact ⟨bit, r', rfl, h⟩
    | need => cases h
    | fail e => cases h

theorem readBit_reads : Reads readBit where
  left_le {r rc t} h := by
    cases rc with
    | ok bit => have := readBit_left h; omega
    | need => exact (congrArg BitReader.bitsLeft (readBit_need h).1).le
    | fail e =>
      by_cases hc : r.bitCount = 0
      · cases hi : r.input <;> cases hf : r.inputFinal <;>
          simp [readBit, readByte, takeBit, hc, hi, hf] at h
        exact (congrArg BitReader.bitsLeft h.2.symm).le
      · simp [readBit, hc, takeBit] at h
  final_eq {r rc t} h := by
    by_cases hc : r.bitCount = 0
    · cases hi : r.input <;> cases hf : r.inputFinal <;>
        simp only [readBit, readByte, takeBit, hc, hi, hf, if_true, if_false, Bool.false_eq_true,
          Prod.mk.injEq] at h <;>
        obtain ⟨-, rfl⟩ := h <;> simp [hf]
    · simp only [readBit, hc, if_false, takeBit, Prod.mk.injEq] at h
      obtain ⟨-, rfl⟩ := h
      rfl
  need_input {r t} h := by
    obtain ⟨rfl, h1, h2⟩ := readBit_need h
    exact ⟨h1, h2⟩
  resume {r} hf ys b := by
    by_cases hc : r.bitCount = 0
    · cases hi : r.input <;> simp [readBit, readByte, BitReader.feed, resumed, takeBit, hi, hf, hc]
    · simp [readBit, BitReader.feed, resumed, takeBit, hc]

/-- One pass of a reading loop: like a reader, and a pause changes nothing. -/
structure ReadPass {α : Type} (pass : BitReader → Iter BitReader (Rc α × BitReader)) :
    Prop where
  next_final : ∀ {r t}, pass r = .next t → t.inputFinal = r.inputFinal
  stop_left : ∀ {r rc t}, pass r = .stop (rc, t) → t.bitsLeft ≤ r.bitsLeft
  stop_final : ∀ {r rc t}, pass r = .stop (rc, t) → t.inputFinal = r.inputFinal
  need : ∀ {r t}, pass r = .stop (.need, t) → t = r ∧ r.inputFinal = false ∧ r.input = []
  feed : ∀ {r}, r.inputFinal = false → ∀ ys b,
    pass (r.feed ys b) = fedPass pass ys b (pass r)

theorem onBit_readPass {α : Type} {k : Nat → BitReader → Iter BitReader (Rc α × BitReader)}
    (hk : Passive k) : ReadPass (onBit k) where
  next_final {r t} h := by
    unfold onBit at h
    cases hb : readBit r with
    | mk rc r' =>
      have hl := readBit_reads.final_eq hb
      rw [hb] at h
      cases rc with
      | ok bit => exact (hk.next h).2.2.trans hl
      | need => cases h
      | fail e => cases h
  stop_left {r rc t} h := by
    unfold onBit at h
    cases hb : readBit r with
    | mk rc' r' =>
      have hl := readBit_reads.left_le hb
      rw [hb] at h
      cases rc' with
      | ok bit =>
        obtain ⟨h1, h2, -⟩ := hk.stop h
        simpa only [BitReader.bitsLeft, h1, h2] using hl
      | need => cases h; exact hl
      | fail e => cases h; exact hl
  stop_final {r rc t} h := by
    unfold onBit at h
    cases hb : readBit r with
    | mk rc' r' =>
      have hl := readBit_reads.final_eq hb
      rw [hb] at h
      cases rc' with
      | ok bit => exact (hk.stop h).2.2.1.trans hl
      | need => cases h; exact hl
      | fail e => cases h; exact hl
  need {r t} h := by
    unfold onBit at h
    cases hb : readBit r with
    | mk rc r' =>
      rw [hb] at h
      cases rc with
      | ok bit => exact absurd rfl (hk.stop h).2.2.2
      | need => cases h; exact readBit_need hb
      | fail e => cases h
  feed {r} hf ys b := by
    have hr := readBit_reads.resume hf ys b
    unfold onBit
    cases hb : readBit r with
    | mk rc r' =>
      rw [hb] at hr
      cases rc with
      | ok bit =>
        simp only [hr, resumed]
        refine (hk.feed bit r' ys b).trans ?_
        cases hkb : k bit r' with
        | next t => rfl
        | stop p =>
          obtain ⟨rc, t⟩ := p
          cases rc with
          | ok a => rfl
          | fail e => rfl
          | need => exact absurd rfl (hk.stop hkb).2.2.2
      | need => simp only [fedPass, (readBit_need hb).1]
      | fail e => simp only [hr, resumed, fedPass]

/-- A reading loop with a field of the reader that says it is under way. -/
theorem loop_reads {α : Type} {pass : BitReader → Iter BitReader (Rc α × BitReader)}
    {hdec : ∀ r t, pass r = .next t → t.bitsLeft < r.bitsLeft}
    {start : BitReader → BitReader} {a : BitReader → Bool}
    (hp : ReadPass pass) (hact : ∀ {r t}, pass r = .next t → a t = a r)
    (hstart : ∀ r, a (start r) = true)
    (hsame : ∀ r, a r = true → start r = r)
    (hleft : ∀ r, (start r).bitsLeft = r.bitsLeft)
    (hfinal : ∀ r, (start r).inputFinal = r.inputFinal)
    (hfeed : ∀ r ys b, start (r.feed ys b) = (start r).feed ys b)
    (hactf : ∀ r ys b, a (BitReader.feed ys b r) = a r) :
    Reads (fun r => loop pass BitReader.bitsLeft hdec (start r)) where
  left_le {r rc t} h := by
    have hl := loop_rule (μ := BitReader.bitsLeft) (d := hdec)
      (P := fun (r : BitReader) (p : Rc α × BitReader) => p.2.bitsLeft ≤ r.bitsLeft)
      (fun r p hs => hp.stop_left hs)
      (fun r t p hn ih => Nat.le_trans ih (Nat.le_of_lt (hdec r t hn))) (start r)
    rw [show loop pass BitReader.bitsLeft hdec (start r) = (rc, t) from h, hleft r] at hl
    exact hl
  final_eq {r rc t} h := by
    have hl := loop_rule (μ := BitReader.bitsLeft) (d := hdec)
      (P := fun (r : BitReader) (p : Rc α × BitReader) => p.2.inputFinal = r.inputFinal)
      (fun r p hs => hp.stop_final hs) (fun r t p hn ih => ih.trans (hp.next_final hn)) (start r)
    rw [show loop pass BitReader.bitsLeft hdec (start r) = (rc, t) from h] at hl
    exact hl.trans (hfinal r)
  need_input {r t} h := by
    have hl := loop_rule (μ := BitReader.bitsLeft) (d := hdec)
      (P := fun (r : BitReader) (p : Rc α × BitReader) => ∀ t, p = (.need, t) →
        r.inputFinal = false ∧ t.input = []) ?_ ?_ (start r)
    · obtain ⟨h1, h2⟩ := hl t h
      exact ⟨(hfinal r).symm.trans h1, h2⟩
    · rintro r p hs t rfl
      obtain ⟨rfl, h1, h2⟩ := hp.need hs
      exact ⟨h1, h2⟩
    · intro r u p hn ih t ht
      obtain ⟨h1, h2⟩ := ih t ht
      exact ⟨(hp.next_final hn).symm.trans h1, h2⟩
  resume {r} hf ys b := by
    have hl : ∀ r, r.inputFinal = false → a r = true →
        loop pass BitReader.bitsLeft hdec (r.feed ys b) =
          resumed (fun r => loop pass BitReader.bitsLeft hdec (start r)) ys b
            (loop pass BitReader.bitsLeft hdec r) := by
      intro r
      refine loop_rule (P := fun (r : BitReader) p => r.inputFinal = false → a r = true →
        loop pass BitReader.bitsLeft hdec (r.feed ys b) =
          resumed (fun r => loop pass BitReader.bitsLeft hdec (start r)) ys b p) ?_ ?_ r
      · rintro r ⟨rc, t⟩ hs hf ha
        have hfed := hp.feed hf ys b
        rw [hs] at hfed
        cases rc with
        | ok v => exact loop_stop hfed
        | fail e => exact loop_stop hfed
        | need =>
          obtain ⟨rfl, -, -⟩ := hp.need hs
          simp only [resumed]
          rw [hsame _ ((hactf t ys b).trans ha)]
      · intro r t p hn ih hf ha
        have hfed := hp.feed hf ys b
        rw [hn] at hfed
        exact (loop_next hfed).trans (ih ((hp.next_final hn).trans hf) ((hact hn).trans ha))
    simpa only [hfeed] using hl (start r) ((hfinal r).trans hf) (hstart r)

theorem readBitsPass_readPass : ReadPass readBitsPass where
  next_final {r t} h := by
    unfold readBitsPass at h
    split at h
    · exact (onBit_readPass readBitsBit_passive).next_final h
    · cases h
  stop_left {r rc t} h := by
    unfold readBitsPass at h
    split at h
    · exact (onBit_readPass readBitsBit_passive).stop_left h
    · cases h; exact Nat.le_refl _
  stop_final {r rc t} h := by
    unfold readBitsPass at h
    split at h
    · exact (onBit_readPass readBitsBit_passive).stop_final h
    · cases h; rfl
  need {r t} h := by
    unfold readBitsPass at h
    split at h
    · exact (onBit_readPass readBitsBit_passive).need h
    · cases h
  feed {r} hf ys b := by
    by_cases hc : r.readBitsPos < r.readBitsNum
    · have hc' : (r.feed ys b).readBitsPos < (r.feed ys b).readBitsNum := hc
      have hb := (onBit_readPass readBitsBit_passive).feed hf ys b
      simp only [readBitsPass, hc, hc', if_true, hb]
      cases hk : onBit readBitsBit r with
      | next t => rfl
      | stop p =>
        obtain ⟨rc, t⟩ := p
        cases rc with
        | ok a => rfl
        | fail e => rfl
        | need =>
          obtain ⟨rfl, -, -⟩ := (onBit_readPass readBitsBit_passive).need hk
          simp only [fedPass, readBitsPass, hc', if_true]
    · simp [readBitsPass, BitReader.feed, fedPass, hc]

theorem readBits_reads (num base : Nat) : Reads (readBits num base) := by
  refine loop_reads (a := BitReader.readBitsActive) readBitsPass_readPass
    ?_ ?_ ?_ ?_ ?_ ?_ fun _ _ _ => rfl
  · intro r t h
    unfold readBitsPass at h
    split at h
    · obtain ⟨bit, r', hb, hk⟩ := onBit_next h
      obtain rfl := Iter.next.inj hk
      exact (readBit_frame hb).1
    · cases h
  · intro r; unfold readBitsBegin; split <;> simp_all
  · intro r h; simp [readBitsBegin, h]
  · intro r; unfold readBitsBegin; split <;> rfl
  · intro r; unfold readBitsBegin; split <;> rfl
  · intro r ys b; unfold readBitsBegin BitReader.feed; split <;> rfl

theorem decodeSymbolBit_active {t : Tree} {n bit : Nat} {r u : BitReader}
    (h : decodeSymbolBit t n bit r = .next u) :
    u.symActive = r.symActive ∧ u.readBitsActive = r.readBitsActive := by
  simp only [decodeSymbolBit] at h
  split at h
  · cases h
  · split at h
    · obtain rfl := Iter.next.inj h; exact ⟨rfl, rfl⟩
    · split at h <;> cases h

theorem decodeSymbol_reads (t : Tree) (n : Nat) : Reads (decodeSymbol t n) := by
  refine loop_reads (a := BitReader.symActive)
    (onBit_readPass (decodeSymbolBit_passive t n)) ?_ ?_ ?_ ?_ ?_ ?_ fun _ _ _ => rfl
  · intro r u h
    obtain ⟨bit, r', hb, hk⟩ := onBit_next h
    exact (decodeSymbolBit_active hk).1.trans (readBit_frame hb).2
  · intro r; unfold decodeSymbolBegin; split <;> simp_all
  · intro r h; simp [decodeSymbolBegin, h]
  · intro r; unfold decodeSymbolBegin; split <;> rfl
  · intro r; unfold decodeSymbolBegin; split <;> rfl
  · intro r ys b; unfold decodeSymbolBegin BitReader.feed; split <;> rfl

theorem decodeSymbolBit_ok_active {t : Tree} {n bit sym : Nat} {r u : BitReader}
    (h : decodeSymbolBit t n bit r = .stop (.ok sym, u)) :
    u.readBitsActive = r.readBitsActive := by
  simp only [decodeSymbolBit] at h
  split at h
  · cases h
  · split at h
    · cases h
    · split at h <;> cases h
      rfl

theorem onBit_ok {α : Type} {k : Nat → BitReader → Iter BitReader (Rc α × BitReader)}
    {r t : BitReader} {a : α} (h : onBit k r = .stop (.ok a, t)) :
    ∃ bit r', readBit r = (.ok bit, r') ∧ k bit r' = .stop (.ok a, t) := by
  unfold onBit at h
  cases hb : readBit r with
  | mk rc r' =>
    rw [hb] at h
    cases rc with
    | ok bit => exact ⟨bit, r', rfl, h⟩
    | need => cases h
    | fail e => cases h

/-- The bits left, and one more for a field that is under way: what a field
that may be empty still spends when it completes. -/
def BitReader.work (r : BitReader) : Nat := r.bitsLeft + if r.readBitsActive then 1 else 0

theorem readByte_work {r r' : BitReader} {byte : UInt8} (h : readByte r = (.ok byte, r')) :
    r'.work < r.work := by
  cases hi : r.input <;> cases hf : r.inputFinal <;>
    simp only [readByte, hi, hf, if_true, if_false, Bool.false_eq_true, Prod.mk.injEq,
      reduceCtorEq, false_and] at h
  all_goals
    obtain ⟨-, rfl⟩ := h
    simp only [BitReader.work, BitReader.bitsLeft, hi, List.length_cons]
    omega

theorem readBit_work {r r' : BitReader} {bit : Nat} (h : readBit r = (.ok bit, r')) :
    r'.work < r.work := by
  have hl := readBit_left h
  simp only [BitReader.work, (readBit_frame h).1]
  omega

theorem readBits_work {num base v : Nat} {r r' : BitReader}
    (h : readBits num base r = (.ok v, r')) :
    r'.work ≤ r.work ∧ (0 < num → r'.work < r.work) := by
  have hl := loop_rule (f := readBitsPass) (μ := BitReader.bitsLeft)
    (d := readBitsPass_dec) (P := fun (r : BitReader) (p : Rc Nat × BitReader) =>
      ∀ v u, p = (.ok v, u) → u.readBitsActive = false ∧ u.bitsLeft ≤ r.bitsLeft ∧
        (r.readBitsPos < r.readBitsNum → u.bitsLeft < r.bitsLeft)) ?_ ?_ (readBitsBegin num base r)
  · obtain ⟨ha, hle, hlt⟩ := hl v r' h
    cases hr : r.readBitsActive with
    | true =>
      simp only [readBitsBegin, hr, if_true] at hle
      simp only [BitReader.work, ha, hr, Bool.false_eq_true, if_true, if_false]
      omega
    | false =>
      simp only [readBitsBegin, hr, Bool.false_eq_true, if_false, BitReader.bitsLeft] at hle hlt
      simp only [BitReader.work, BitReader.bitsLeft, ha, hr, Bool.false_eq_true, if_false]
      omega
  · rintro r p hs v u rfl
    unfold readBitsPass at hs
    split at hs
    · obtain ⟨bit, r', -, hk⟩ := onBit_ok hs
      cases hk
    · cases hs
      exact ⟨rfl, Nat.le_refl _, fun hlt => absurd hlt ‹_›⟩
  · intro r t p hn ih v u hu
    obtain ⟨ha, hle, -⟩ := ih v u hu
    have hlt := readBitsPass_dec r t hn
    exact ⟨ha, by omega, fun _ => by omega⟩

theorem decodeSymbol_work {t : Tree} {n sym : Nat} {r r' : BitReader}
    (h : decodeSymbol t n r = (.ok sym, r')) : r'.work < r.work := by
  have hl := loop_rule (f := onBit (decodeSymbolBit t n)) (μ := BitReader.bitsLeft)
    (d := decodeSymbolPass_dec t n) (P := fun (r : BitReader) (p : Rc Nat × BitReader) =>
      ∀ sym u, p = (.ok sym, u) → u.work < r.work) ?_ ?_ (decodeSymbolBegin r)
  · have hb : (decodeSymbolBegin r).work = r.work := by
      unfold decodeSymbolBegin; split <;> rfl
    exact hb ▸ hl sym r' h
  · rintro r p hs sym u rfl
    obtain ⟨bit, r', hb, hk⟩ := onBit_ok hs
    have hw := readBit_work hb
    obtain ⟨h1, h2, -⟩ := (decodeSymbolBit_passive t n).stop hk
    simpa only [BitReader.work, BitReader.bitsLeft, h1, h2, decodeSymbolBit_ok_active hk] using hw
  · intro r u p hn ih sym w hw
    obtain ⟨bit, r', hb, hk⟩ := onBit_next hn
    have hlt := readBit_work hb
    obtain ⟨h1, h2, -⟩ := (decodeSymbolBit_passive t n).next hk
    simp only [BitReader.work, BitReader.bitsLeft, ← h1, ← h2,
      ← (decodeSymbolBit_active hk).2] at hlt
    exact (ih sym w hw).trans hlt

theorem resetCodeReaders_work (r : BitReader) : (resetCodeReaders r).work ≤ r.work := by
  simp only [BitReader.work, BitReader.bitsLeft, resetCodeReaders, Bool.false_eq_true, if_false]
  omega

end OpenDisplay
