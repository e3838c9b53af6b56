import OpenDisplay.Inflate.Fields

/-! The state of the inflater on hostile input: the tables and the counters fit the
arrays, and a field or a symbol that is under way belongs to the stage the decoder is in.
Every pass of the decoder's loops keeps this. -/

namespace OpenDisplay

open Loops

section State

/-- The codes that the decoder keeps tables of. The last two share their storage. -/
inductive Code where
  | literal | distance | codelen
deriving DecidableEq

def Code.size : Code → Nat
  | .literal => 288
  | .distance => 32
  | .codelen => 19

def Inflate.code (s : Inflate) : Code → Tree
  | .literal => s.ltree
  | .distance | .codelen => s.tree

/-- The code of the symbol that the decoder reads in its stage. -/
def Inflate.symbol (s : Inflate) : Option Code :=
  match s.stage with
  | .dynamicTrees => if s.dynamicStage = .readLengths ∧ s.dynNum < s.hlimit then some .codelen else none
  | .blockData =>
    if s.blockStage = .symbol then some .literal
    else if s.blockStage = .distSymbol then some .distance
    else none
  | _ => none

/-- The width and the base of the field that the decoder reads in its stage. -/
def Inflate.field (s : Inflate) : Option (Nat × Nat) :=
  match s.stage with
  | .blockType => some (2, 0)
  | .dynamicTrees =>
    match s.dynamicStage with
    | .hlit => some (5, 257)
    | .hdist => some (5, 1)
    | .hclen => some (4, 4)
    | .readClen => if s.dynI < s.hclen then some (3, 0) else none
    | .repeatBits => some (s.dynRepeatBits, s.dynRepeatBase)
    | _ => none
  | .blockData =>
    match s.blockStage with
    | .lenExtra => some (lengthBits.getD s.lengthSym 0, lengthBase.getD s.lengthSym 0)
    | .distExtra => some (distBits.getD s.distSym 0, distBase.getD s.distSym 0)
    | _ => none
  | _ => none

/-- From the first size of a dynamic header to its code-length table, the count of the
lengths is that of the header before it. -/
def DynamicStage.stale : DynamicStage → Bool
  | .hdist | .hclen | .clearClen | .readClen | .buildCltree => true
  | _ => false

/-- The tables and the counters fit the arrays, in every stage and after every error. -/
structure Fits (s : Inflate) (out : Bytes) : Prop where
  written : Written s out
  ltree : Stored 288 s.ltree
  literals : s.ltree.trans.length = 288
  tree : Stored 32 s.tree
  distances : s.tree.trans.length = 32
  lengths : s.lengths.length = 288 + 32
  hlit : s.hlit ≤ 288
  hdist : s.hdist ≤ 32
  hclen : s.hclen ≤ 19
  dynI : s.dynI ≤ 19
  dynNum : s.dynNum ≤ s.hlimit
  hlimit : s.hlimit ≤ 320
  fresh : s.dynamicStage.stale = false → s.hlimit = s.hlit + s.hdist
  lengthSym : s.lengthSym < 29
  copy : s.blockStage = .matchCopy →
    0 < s.matchOffset ∧ s.matchOffset ≤ zlibWindowSize ∧ s.matchOffset ≤ out.length

/-- What holds while the decoder has not failed: what is under way belongs to its stage. -/
structure InStage (s : Inflate) (out : Bytes) : Prop extends Fits s out where
  idle : s.stage = .error ∨ s.stage = .dynamicTrees ∨ s.dynamicStage = .hlit
  codelen : s.stage = .dynamicTrees → s.dynamicStage = .readLengths ∨ s.dynamicStage = .repeatBits →
    s.tree.table.sum ≤ 19
  distSym : s.stage = .error ∨ s.distSym < 30
  symbolPart : s.rd.symActive = true → s.stage = .error ∨ ∃ c, s.symbol = some c ∧ SymbolPart (s.code c) s.rd
  fieldPart : s.rd.readBitsActive = true →
    s.stage = .error ∨ ∃ num base, s.field = some (num, base) ∧ FieldPart num base s.rd

variable {s : Inflate} {out : Bytes}

theorem InStage.quiet (h : InStage s out) (he : s.stage ≠ .error) (hs : s.symbol = none) (hf : s.field = none) :
    s.rd.Quiet := by
  constructor
  · by_contra ha
    rw [Bool.not_eq_false] at ha
    obtain herror | ⟨c, hc, -⟩ := h.symbolPart ha
    · exact he herror
    · simp [hs] at hc
  · by_contra ha
    rw [Bool.not_eq_false] at ha
    obtain herror | ⟨num, base, hp, -⟩ := h.fieldPart ha
    · exact he herror
    · simp [hf] at hp

theorem Fits.inStage (h : Fits s out) (hq : s.rd.Quiet) (hidle : s.stage = .dynamicTrees ∨ s.dynamicStage = .hlit)
    (hcodelen : s.stage = .dynamicTrees → s.dynamicStage = .readLengths ∨ s.dynamicStage = .repeatBits →
      s.tree.table.sum ≤ 19) (hdist : s.distSym < 30)  : InStage s out := by
  refine ⟨h, .inr hidle, hcodelen, .inr hdist, fun ha => ?_, fun ha => ?_⟩
  · rw [hq.1] at ha
    exact absurd ha Bool.false_ne_true
  · rw [hq.2] at ha
    exact absurd ha Bool.false_ne_true

theorem Fits.read (h : Fits s out) (r : BitReader) : Fits { s with rd := r } out :=
  { h with written := h.written.same rfl rfl rfl rfl }

theorem Fits.fail (h : Fits s out) (e : String) : InStage (setError e s) out :=
  ⟨{ h with written := h.written.same rfl rfl rfl rfl }, .inl rfl, by simp [setError], .inl rfl, fun _ => .inl rfl,
    fun _ => .inl rfl⟩

theorem InStage.readSymbol (h : InStage s out) {c : Code} (hc : s.symbol = some c) (hf : s.field = none)
    (he : s.stage ≠ .error) (ht : Stored c.size (s.code c)) {rc : Rc Nat} {r : BitReader}
    (hr : decodeSymbol (s.code c) c.size s.rd = (rc, r)) :
    (∀ sym, rc = .ok sym → r.Quiet) ∧ (rc = .need → InStage { s with rd := r } out) := by
  have hactive : s.rd.readBitsActive = false := by
    by_contra ha
    rw [Bool.not_eq_false] at ha
    obtain herror | ⟨num, base, hp, -⟩ := h.fieldPart ha
    · exact he herror
    · simp [hf] at hp
  have hpart : s.rd.symActive = true → SymbolPart (s.code c) s.rd := by
    intro ha
    obtain herror | ⟨c', hc', hpart⟩ := h.symbolPart ha
    · exact absurd herror he
    · obtain rfl : c = c' := Option.some.inj (hc.symm.trans hc')
      exact hpart
  obtain ⟨hend, hbits⟩ := decodeSymbol_symbol ht hpart
  rw [hr] at hend hbits
  constructor
  · rintro sym rfl
    exact ⟨hend, hbits.trans hactive⟩
  · rintro rfl
    refine ⟨h.read r, h.idle, h.codelen, h.distSym,
      fun _ => .inr ⟨c, hc, hend.2⟩, fun ha => ?_⟩
    rw [hbits.trans hactive] at ha
    exact absurd ha Bool.false_ne_true

theorem InStage.readField (h : InStage s out) {num base : Nat} (hf : s.field = some (num, base)) (hs : s.symbol = none)
    (he : s.stage ≠ .error) {rc : Rc Nat} {r : BitReader} (hr : readBits num base s.rd = (rc, r)) :
    (∀ v, rc = .ok v → r.Quiet ∧ v < base + 2 ^ num) ∧ (rc = .need → InStage { s with rd := r } out) := by
  have hactive : s.rd.symActive = false := by
    by_contra ha
    rw [Bool.not_eq_false] at ha
    obtain herror | ⟨c, hc, -⟩ := h.symbolPart ha
    · exact he herror
    · simp [hs] at hc
  have hpart : s.rd.readBitsActive = true → FieldPart num base s.rd := by
    intro ha
    obtain herror | ⟨num', base', hf', hpart⟩ := h.fieldPart ha
    · exact absurd herror he
    · obtain ⟨rfl, rfl⟩ := Prod.mk.inj (Option.some.inj (hf.symm.trans hf'))
      exact hpart
  obtain ⟨hend, hsym⟩ := readBits_field hpart
  rw [hr] at hend hsym
  constructor
  · rintro v rfl
    exact ⟨⟨hsym.trans hactive, hend.1⟩, hend.2⟩
  · rintro rfl
    refine ⟨h.read r, h.idle, h.codelen, h.distSym,
      fun ha => ?_, fun _ => .inr ⟨num, base, hf, hend.2⟩⟩
    rw [hsym.trans hactive] at ha
    exact absurd ha Bool.false_ne_true

/-- The decoder between two stages. -/
def Inflate.Settled (s : Inflate) : Prop := s.rd.Quiet ∧ s.dynamicStage = .hlit ∧ s.stage ≠ .error

theorem InStage.settled (h : InStage s out) (he : s.stage ≠ .error) (hd : s.stage ≠ .dynamicTrees)
    (hs : s.symbol = none) (hf : s.field = none) : s.Settled :=
  ⟨h.quiet he hs hf, (h.idle.resolve_left he).resolve_left hd, he⟩

theorem InStage.enter (h : InStage s out) (hs : s.Settled) {stage : Stage} (hd : stage ≠ .dynamicTrees) :
    InStage { s with stage := stage } out :=
  Fits.inStage { h with written := h.written.same rfl rfl rfl rfl } hs.1 (.inr hs.2.1) (fun he => absurd he hd)
    (h.distSym.resolve_left hs.2.2)

end State

section Headers

variable {s : Inflate} {out : Bytes}

/-- What a pass of a header leaves behind. -/
def HeaderKept (out : Bytes) : HeaderIter → Prop
  | .next t => InStage t out
  | .stop (rc, t) => InStage t out ∧ (rc = .ok () → t.Settled)

theorem failWith_kept (h : Fits s out) (e : String) : HeaderKept out (failWith e s) := ⟨h.fail e, by simp⟩

theorem onRead_kept {α : Type} {f : BitReader → Rc α × BitReader} {k : α → Inflate → HeaderIter} (h : InStage s out)
    (hneed : ∀ r, f s.rd = (.need, r) → InStage { s with rd := r } out)
    (hok : ∀ a r, f s.rd = (.ok a, r) → HeaderKept out (k a { s with rd := r })) :
    HeaderKept out (onRead (s.read f) k) := by
  unfold onRead Inflate.read
  cases hf : f s.rd with
  | mk rc r =>
    cases rc with
    | ok a => exact hok a r hf
    | need => exact ⟨hneed r hf, by simp⟩
    | fail e => exact ⟨(h.read r).fail e, by simp⟩

theorem onField_kept {num base : Nat} {k : Nat → Inflate → HeaderIter} (h : InStage s out)
    (hf : s.field = some (num, base)) (hs : s.symbol = none) (he : s.stage ≠ .error)
    (hok : ∀ v r, r.Quiet → v < base + 2 ^ num → HeaderKept out (k v { s with rd := r })) :
    HeaderKept out (onRead (s.read (readBits num base)) k) := by
  apply onRead_kept h
  · intro r hr
    exact (h.readField hf hs he hr).2 rfl
  · intro v r hr
    obtain ⟨hq, hv⟩ := (h.readField hf hs he hr).1 v rfl
    exact hok v r hq hv

theorem InStage.readByte (h : InStage s out) (hs : s.Settled) (hd : s.stage ≠ .dynamicTrees) {rc : Rc UInt8}
    {r : BitReader} (hr : OpenDisplay.readByte s.rd = (rc, r)) : InStage { s with rd := r } out ∧ r.Quiet := by
  obtain ⟨⟨input, rfl⟩, -⟩ := readByte_shape hr
  exact ⟨(h.read _).inStage hs.1 (.inr hs.2.1) (fun he => absurd he hd) (h.distSym.resolve_left hs.2.2), hs.1⟩

theorem readByte_kept {k : UInt8 → Inflate → HeaderIter} (h : InStage s out) (hq : s.Settled)
    (hd : s.stage ≠ .dynamicTrees)
    (hok : ∀ byte r, InStage { s with rd := r } out → r.Quiet → HeaderKept out (k byte { s with rd := r })) :
    HeaderKept out (onRead (s.read readByte) k) := by
  apply onRead_kept h
  · intro r hr
    exact (h.readByte hq hd hr).1
  · intro byte r hr
    obtain ⟨hstage, hquiet⟩ := h.readByte hq hd hr
    exact hok byte r hstage hquiet

theorem dynamicSizes_kept (h : Fits s out) (hq : s.rd.Quiet) (hs : s.stage = .dynamicTrees)
    (hdist : s.distSym < 30) {v : Nat} (hv : v ≤ 19) :
    HeaderKept out (dynamicSizes v s) := by
  have hfits : Fits { s with hclen := v } out := { h with written := h.written.same rfl rfl rfl rfl, hclen := hv }
  unfold dynamicSizes
  dsimp only
  split_ifs
  · exact failWith_kept hfits _
  · exact Fits.inStage
      { hfits with
        written := hfits.written.same rfl rfl rfl rfl, dynI := Nat.zero_le _
        fresh := by simp [DynamicStage.stale] }
      hq (.inl hs) (by simp) hdist

theorem dynamicLength_kept (h : Fits s out) (hq : s.rd.Quiet) (hs : s.stage = .dynamicTrees)
    (hd : s.dynamicStage = .readLengths) (hdist : s.distSym < 30) (hcodelen : s.tree.table.sum ≤ 19)
    (hroom : s.dynNum < s.hlimit) (sym : Nat) : HeaderKept out (dynamicLength sym s) := by
  have hfresh : s.hlimit = s.hlit + s.hdist := h.fresh (by rw [hd]; rfl)
  unfold dynamicLength
  split_ifs
  · exact Fits.inStage
      { h with
        written := h.written.same rfl rfl rfl rfl, dynNum := hroom
        lengths := by rw [List.length_set, h.lengths] }
      hq (.inl hs) (fun _ _ => hcodelen) hdist
  · exact failWith_kept h _
  · exact Fits.inStage { h with written := h.written.same rfl rfl rfl rfl, fresh := fun _ => hfresh } hq (.inl hs)
      (fun _ _ => hcodelen) hdist
  · exact Fits.inStage { h with written := h.written.same rfl rfl rfl rfl, fresh := fun _ => hfresh } hq (.inl hs)
      (fun _ _ => hcodelen) hdist
  · exact Fits.inStage { h with written := h.written.same rfl rfl rfl rfl, fresh := fun _ => hfresh } hq (.inl hs)
      (fun _ _ => hcodelen) hdist
  · exact failWith_kept h _

theorem dynamicRepeat_kept (h : Fits s out) (hq : s.rd.Quiet) (hs : s.stage = .dynamicTrees)
    (hd : s.dynamicStage = .repeatBits) (hdist : s.distSym < 30) (hcodelen : s.tree.table.sum ≤ 19) (len : Nat) :
    HeaderKept out (dynamicRepeat len s) := by
  have hfresh : s.hlimit = s.hlit + s.hdist := h.fresh (by rw [hd]; rfl)
  unfold dynamicRepeat
  split_ifs with hroom
  · exact failWith_kept h _
  · exact Fits.inStage
      { h with
        written := h.written.same rfl rfl rfl rfl, dynNum := Nat.not_lt.mp hroom, fresh := fun _ => hfresh
        lengths := by rw [fillLengths_length, h.lengths] }
      hq (.inl hs) (fun _ _ => hcodelen) hdist

theorem dynamicBuildTrees_kept (h : Fits s out) (hs : s.stage = .dynamicTrees) (hd : s.dynamicStage = .buildTrees)
    (hdist : s.distSym < 30) : HeaderKept out (dynamicBuildTrees s) := by
  have hfresh : s.hlimit = s.hlit + s.hdist := h.fresh (by rw [hd]; rfl)
  have hne : s.stage ≠ .error := by simp [hs]
  unfold dynamicBuildTrees
  split
  · exact failWith_kept h _
  split
  · exact failWith_kept h _
  · next ltree hl =>
    split
    · exact failWith_kept h _
    · next dtree ht =>
      obtain ⟨hlit, hliterals⟩ := buildTree_stored hl
      obtain ⟨htree, hdistances⟩ := buildTree_stored ht
      refine ⟨Fits.inStage ?_ (resetCodeReaders_quiet _) (.inr rfl) (by simp) hdist,
        fun _ => ⟨resetCodeReaders_quiet _, rfl, hne⟩⟩
      exact { h with
        written := h.written.same rfl rfl rfl rfl, ltree := hlit, tree := htree, fresh := fun _ => hfresh
        literals := hliterals.trans h.literals, distances := hdistances.trans h.distances }

theorem dynamicPass_kept (h : InStage s out) (hs : s.stage = .dynamicTrees) : HeaderKept out (dynamicPass s) := by
  have hne : s.stage ≠ .error := by simp [hs]
  have hdist := h.distSym.resolve_left hne
  have hquiet : s.symbol = none → s.field = none → s.rd.Quiet := h.quiet hne
  unfold dynamicPass
  split
  case h_1 hd =>
    apply onField_kept h (by simp [Inflate.field, hs, hd]) (by simp [Inflate.symbol, hs, hd]) hne
    intro v r hq hv
    exact Fits.inStage
      { h.read r with
        written := h.written.same rfl rfl rfl rfl, hlit := by change v ≤ 288; omega
        fresh := by simp [DynamicStage.stale] }
      hq (.inl hs) (by simp) hdist
  case h_2 hd =>
    apply onField_kept h (by simp [Inflate.field, hs, hd]) (by simp [Inflate.symbol, hs, hd]) hne
    intro v r hq hv
    exact Fits.inStage
      { h.read r with
        written := h.written.same rfl rfl rfl rfl, hdist := by change v ≤ 32; omega
        fresh := by simp [DynamicStage.stale] }
      hq (.inl hs) (by simp) hdist
  case h_3 hd =>
    apply onField_kept h (by simp [Inflate.field, hs, hd]) (by simp [Inflate.symbol, hs, hd]) hne
    intro v r hq hv
    exact dynamicSizes_kept (h.read r) hq hs hdist (by omega)
  case h_4 hd =>
    have hq := hquiet (by simp [Inflate.symbol, hs, hd]) (by simp [Inflate.field, hs, hd])
    exact Fits.inStage
      { h.toFits with
        written := h.written.same rfl rfl rfl rfl, dynI := Nat.zero_le _
        lengths := by rw [fillLengths_length, h.lengths]
        fresh := by simp [DynamicStage.stale] }
      hq (.inl hs) (by simp) hdist
  case h_5 hd =>
    split_ifs with hi
    · apply onField_kept h (by simp [Inflate.field, hs, hd, hi]) (by simp [Inflate.symbol, hs, hd]) hne
      intro v r hq hv
      have hle := h.hclen
      exact Fits.inStage
        { h.read r with
          written := h.written.same rfl rfl rfl rfl, dynI := by change s.dynI + 1 ≤ 19; omega
          lengths := by rw [List.length_set, h.lengths] }
        hq (.inl hs) (by simp [hd]) hdist
    · have hq := hquiet (by simp [Inflate.symbol, hs, hd]) (by simp [Inflate.field, hs, hd, hi])
      exact Fits.inStage
        { h.toFits with
          written := h.written.same rfl rfl rfl rfl, fresh := by simp [DynamicStage.stale] }
        hq (.inl hs) (by simp) hdist
  case h_6 hd =>
    split
    · exact failWith_kept h.toFits _
    · next cltree hb =>
      obtain ⟨hstored, hdistances⟩ := buildTree_stored hb
      have hsum := hstored.sum
      have hhlit := h.hlit
      have hhdist := h.hdist
      exact Fits.inStage
        { h.toFits with
          written := h.written.same rfl rfl rfl rfl, tree := ⟨hstored.table, hstored.zero, hsum.trans (by decide)⟩
          distances := hdistances.trans h.distances, dynNum := Nat.zero_le _
          hlimit := by change s.hlit + s.hdist ≤ 320; omega
          fresh := fun _ => rfl }
        (resetCodeReaders_quiet _) (.inl hs) (fun _ _ => hsum) hdist
  case h_7 hd =>
    have hcodelen := h.codelen hs (.inl hd)
    split_ifs with hroom
    · have hsym : s.symbol = some .codelen := by simp [Inflate.symbol, hs, hd, hroom]
      have hread : ∀ {rc r}, decodeSymbol (s.code .codelen) 19 s.rd = (rc, r) → _ := fun hr =>
        h.readSymbol hsym (by simp [Inflate.field, hs, hd]) hne ⟨h.tree.table, h.tree.zero, hcodelen⟩ hr
      apply onRead_kept h
      · intro r hr
        exact (hread hr).2 rfl
      · intro sym r hr
        exact dynamicLength_kept (h.read r) ((hread hr).1 sym rfl) hs hd hdist hcodelen hroom sym
    · have hq := hquiet (by simp [Inflate.symbol, hs, hd, hroom]) (by simp [Inflate.field, hs, hd])
      have hfresh : s.hlimit = s.hlit + s.hdist := h.fresh (by rw [hd]; rfl)
      exact Fits.inStage
        { h.toFits with
          written := h.written.same rfl rfl rfl rfl, fresh := fun _ => hfresh }
        hq (.inl hs) (by simp) hdist
  case h_8 hd =>
    apply onField_kept h (by simp [Inflate.field, hs, hd]) (by simp [Inflate.symbol, hs, hd]) hne
    intro v r hq hv
    exact dynamicRepeat_kept (h.read r) hq hs hd hdist (h.codelen hs (.inr hd)) v
  case h_9 hd => exact dynamicBuildTrees_kept h.toFits hs hd hdist

theorem storedHeaderPass_kept (h : InStage s out) (hs : s.stage = .storedLen) :
    HeaderKept out (storedHeaderPass s) := by
  have hsettled : s.Settled := h.settled (by simp [hs]) (by simp [hs]) (by simp [Inflate.symbol, hs])
    (by simp [Inflate.field, hs])
  have hd : s.stage ≠ .dynamicTrees := by simp [hs]
  have hdist := h.distSym.resolve_left hsettled.2.2
  unfold storedHeaderPass
  split_ifs
  · apply readByte_kept h hsettled hd
    intro byte r hr hq
    have hnext : ∀ len inv i,
        InStage { s with rd := r, storedLen := len, storedInvlen := inv, storedHeaderIndex := i } out := fun _ _ _ =>
      Fits.inStage { hr.toFits with written := h.written.same rfl rfl rfl rfl } hq (.inr hsettled.2.1)
        (fun he => absurd he hd) hdist
    dsimp only [HeaderKept]
    split_ifs
    · exact hnext _ _ _
    · exact hnext _ _ _
    · exact hnext _ _ _
    · exact hnext _ _ _
  · exact failWith_kept h.toFits _
  · refine ⟨Fits.inStage { h.toFits with written := h.written.same rfl rfl rfl rfl } hsettled.1 (.inr hsettled.2.1)
      (fun he => absurd he hd) hdist, fun _ => hsettled⟩

theorem trailerPass_kept (h : InStage s out) (hs : s.stage = .trailer) : HeaderKept out (trailerPass s) := by
  have hsettled : s.Settled := h.settled (by simp [hs]) (by simp [hs]) (by simp [Inflate.symbol, hs])
    (by simp [Inflate.field, hs])
  have hd : s.stage ≠ .dynamicTrees := by simp [hs]
  have hdist := h.distSym.resolve_left hsettled.2.2
  unfold trailerPass
  split_ifs
  · apply readByte_kept h hsettled hd
    intro byte r hr hq
    exact Fits.inStage { hr.toFits with written := h.written.same rfl rfl rfl rfl } hq (.inr hsettled.2.1)
      (fun he => absurd he hd) hdist
  · exact failWith_kept h.toFits _
  · exact failWith_kept h.toFits _
  · exact failWith_kept h.toFits _
  · exact ⟨h.enter hsettled (by simp), fun _ => ⟨hsettled.1, hsettled.2.1, by simp⟩⟩

end Headers

section Blocks

variable {s : Inflate} {out : Bytes}

/-- A decoder that goes on from `s` with `out` written and `buf` in the buffer. -/
def Grown (out buf : Bytes) (w : Work) : Prop := ∃ new, w.1 = buf ++ new ∧ InStage w.2 (out ++ new)

theorem Grown.same {buf : Bytes} (h : InStage s out) : Grown out buf (buf, s) :=
  ⟨[], (List.append_nil _).symm, by rwa [List.append_nil]⟩

/-- What a pass of a data loop leaves behind. -/
def DataKept (out buf : Bytes) : DataIter → Prop
  | .next w => Grown out buf w
  | .stop (rc, w) => Grown out buf w ∧ (rc = .ok ∨ rc = .endBlock → w.2.Settled)

theorem dataFail_kept {buf : Bytes} (h : Fits s out) (e : String) :
    DataKept out buf (.stop (.fail, buf, setError e s)) :=
  ⟨.same (h.fail e), by simp⟩

theorem onData_kept {α : Type} {f : BitReader → Rc α × BitReader} {buf : Bytes} {k : α → Inflate → DataIter}
    (h : InStage s out) (hneed : ∀ r, f s.rd = (.need, r) → InStage { s with rd := r } out)
    (hok : ∀ a r, f s.rd = (.ok a, r) → DataKept out buf (k a { s with rd := r })) :
    DataKept out buf (onData buf (s.read f) k) := by
  unfold onData Inflate.read
  cases hf : f s.rd with
  | mk rc r =>
    cases rc with
    | ok a => exact hok a r hf
    | need => exact ⟨.same (hneed r hf), by simp⟩
    | fail e => exact ⟨.same ((h.read r).fail e), by simp⟩

theorem onDataField_kept {num base : Nat} {buf : Bytes} {k : Nat → Inflate → DataIter} (h : InStage s out)
    (hf : s.field = some (num, base)) (hs : s.symbol = none) (he : s.stage ≠ .error)
    (hok : ∀ v r, r.Quiet → DataKept out buf (k v { s with rd := r })) :
    DataKept out buf (onData buf (s.read (readBits num base)) k) := by
  apply onData_kept h
  · intro r hr
    exact (h.readField hf hs he hr).2 rfl
  · intro v r hr
    exact hok v r ((h.readField hf hs he hr).1 v rfl).1

theorem onSymbol_kept {c : Code} {buf : Bytes} {k : Nat → Inflate → DataIter} (h : InStage s out)
    (hc : s.symbol = some c) (hf : s.field = none) (he : s.stage ≠ .error) (ht : Stored c.size (s.code c))
    (hok : ∀ sym r, r.Quiet → DataKept out buf (k sym { s with rd := r })) :
    DataKept out buf (onData buf (s.read (decodeSymbol (s.code c) c.size)) k) := by
  apply onData_kept h
  · intro r hr
    exact (h.readSymbol hc hf he ht hr).2 rfl
  · intro sym r hr
    exact hok sym r ((h.readSymbol hc hf he ht hr).1 sym rfl)

theorem Fits.put (h : Fits s out) (hroom : s.outputCount < s.expectedOutput) (byte : UInt8) :
    Fits (recordOutputByte byte s) (out ++ [byte]) where
  written := by
    apply h.written.put
    have hlt := UInt32.lt_iff_toNat_lt.mp hroom
    have hmax := s.expectedOutput.toNat_lt
    rw [h.written.count] at hlt
    omega
  ltree := h.ltree
  literals := h.literals
  tree := h.tree
  distances := h.distances
  lengths := h.lengths
  hlit := h.hlit
  hdist := h.hdist
  hclen := h.hclen
  dynI := h.dynI
  dynNum := h.dynNum
  hlimit := h.hlimit
  fresh := h.fresh
  lengthSym := h.lengthSym
  copy hc := by
    have hcopy := h.copy hc
    refine ⟨hcopy.1, hcopy.2.1, ?_⟩
    rw [List.length_append]
    exact hcopy.2.2.trans (Nat.le_add_right _ _)

theorem onPut_kept {buf : Bytes} {byte : UInt8} {capacity : Nat} {k : Work → DataIter} (h : InStage s out)
    (hk : s.outputCount < s.expectedOutput →
      DataKept (out ++ [byte]) (buf ++ [byte]) (k (buf ++ [byte], recordOutputByte byte s))) :
    DataKept out buf (onPut (putOutputByte byte capacity (buf, s)) k) := by
  unfold putOutputByte
  dsimp only
  split_ifs with hfull hover
  · refine ⟨.same h, fun hrc => ?_⟩
    split_ifs at hrc <;> simp at hrc
  · refine ⟨.same (h.toFits.fail _), fun hrc => ?_⟩
    split_ifs at hrc <;> simp at hrc
  · have hnext := hk (UInt32.not_le.mp hover)
    have hgrown : ∀ {w}, Grown (out ++ [byte]) (buf ++ [byte]) w → Grown out buf w := by
      rintro w ⟨new, hbuf, hstage⟩
      rw [List.append_assoc] at hbuf hstage
      exact ⟨[byte] ++ new, hbuf, hstage⟩
    unfold onPut
    dsimp only
    cases hi : k (buf ++ [byte], recordOutputByte byte s) with
    | next w =>
      rw [hi] at hnext
      exact hgrown hnext
    | stop p =>
      obtain ⟨rc, w⟩ := p
      rw [hi] at hnext
      exact ⟨hgrown hnext.1, hnext.2⟩

theorem storedDataPass_kept {capacity : Nat} {buf : Bytes} (h : InStage s out) (hs : s.stage = .storedData) :
    DataKept out buf (storedDataPass capacity (buf, s)) := by
  have hsettled : s.Settled := h.settled (by simp [hs]) (by simp [hs]) (by simp [Inflate.symbol, hs])
    (by simp [Inflate.field, hs])
  have hd : s.stage ≠ .dynamicTrees := by simp [hs]
  have hdist := h.distSym.resolve_left hsettled.2.2
  unfold storedDataPass
  dsimp only
  split_ifs
  · exact ⟨.same h, fun _ => hsettled⟩
  · exact ⟨.same h, by simp⟩
  · apply onData_kept h
    · intro r hr
      exact (h.readByte hsettled hd hr).1
    · intro byte r hr
      obtain ⟨hstage, hquiet⟩ := h.readByte hsettled hd hr
      apply onPut_kept hstage
      intro hroom
      have hput := (h.read r).put hroom byte
      refine Grown.same (Fits.inStage ?_ hquiet (.inr hsettled.2.1) (fun he => absurd he hd) hdist)
      exact { hput with written := hput.written.same rfl rfl rfl rfl }

/-- The decoder in compressed data, with nothing under way. -/
structure InBlock (s : Inflate) (out : Bytes) : Prop extends Fits s out where
  quiet : s.rd.Quiet
  stage : s.stage = .blockData
  idle : s.dynamicStage = .hlit
  known : s.distSym < 30

theorem InBlock.inStage (h : InBlock s out) : InStage s out :=
  Fits.inStage h.toFits h.quiet (.inr h.idle) (fun he => absurd (h.stage.symm.trans he) (by simp)) h.known

theorem InBlock.settled (h : InBlock s out) : s.Settled := ⟨h.quiet, h.idle, by simp [h.stage]⟩

theorem InBlock.put (h : InBlock s out) (hroom : s.outputCount < s.expectedOutput) (byte : UInt8) :
    InBlock (recordOutputByte byte s) (out ++ [byte]) :=
  ⟨h.toFits.put hroom byte, h.quiet, h.stage, h.idle, h.known⟩

theorem blockSymbol_kept (h : InBlock s out) (capacity : Nat) (buf : Bytes) (sym : Nat) :
    DataKept out buf (blockSymbol capacity buf sym s) := by
  unfold blockSymbol
  by_cases hbyte : sym < 256
  · rw [if_pos hbyte]
    apply onPut_kept h.inStage
    intro hroom
    have hput := h.put hroom sym.toUInt8
    exact ⟨.same hput.inStage, fun _ => hput.settled⟩
  rw [if_neg hbyte]
  by_cases hlast : sym = 256
  · rw [if_pos hlast]
    have hend : InBlock { s with blockStage := .symbol } out :=
      ⟨{ h.toFits with written := h.written.same rfl rfl rfl rfl, copy := by simp }, h.quiet, h.stage, h.idle, h.known⟩
    exact ⟨.same hend.inStage, fun _ => hend.settled⟩
  rw [if_neg hlast]
  generalize sym - 257 = i
  by_cases hlength : 29 ≤ i
  · rw [if_pos hlength]
    exact dataFail_kept h.toFits _
  · rw [if_neg hlength]
    have hnext : InBlock { s with lengthSym := i, blockStage := .lenExtra } out :=
      ⟨{ h.toFits with
          written := h.written.same rfl rfl rfl rfl, copy := by simp, lengthSym := Nat.not_le.mp hlength },
        h.quiet, h.stage, h.idle, h.known⟩
    exact .same hnext.inStage

theorem blockDistSymbol_kept (h : InBlock s out) (buf : Bytes) (sym : Nat) :
    DataKept out buf (blockDistSymbol buf sym s) := by
  unfold blockDistSymbol
  dsimp only
  split_ifs with hknown
  · have hfits : Fits { s with distSym := sym } out := { h.toFits with written := h.written.same rfl rfl rfl rfl }
    exact dataFail_kept hfits _
  · have hnext : InBlock { s with distSym := sym, blockStage := .distExtra } out :=
      ⟨{ h.toFits with written := h.written.same rfl rfl rfl rfl, copy := by simp }, h.quiet, h.stage, h.idle,
        Nat.not_le.mp hknown⟩
    exact .same hnext.inStage

theorem blockDistExtra_kept (h : InBlock s out) (hb : s.blockStage = .distExtra) (buf : Bytes) (v : Nat) :
    DataKept out buf (blockDistExtra buf v s) := by
  unfold blockDistExtra
  dsimp only
  split_ifs with hfar
  · have hfits : Fits { s with matchOffset := v } out :=
      { h.toFits with written := h.written.same rfl rfl rfl rfl, copy := by simp [hb] }
    exact dataFail_kept hfits _
  · have hcount := h.written.count
    have hnext : InBlock { s with matchOffset := v, blockStage := .matchCopy } out :=
      ⟨{ h.toFits with
          written := h.written.same rfl rfl rfl rfl
          copy := fun _ => by
            change 0 < v ∧ v ≤ zlibWindowSize ∧ v ≤ out.length
            omega },
        h.quiet, h.stage, h.idle, h.known⟩
    exact .same hnext.inStage

theorem blockPass_kept {capacity : Nat} {buf : Bytes} (h : InStage s out) (hs : s.stage = .blockData) :
    DataKept out buf (blockPass capacity (buf, s)) := by
  have he : s.stage ≠ .error := by simp [hs]
  have hidle := (h.idle.resolve_left he).resolve_left (by simp [hs])
  have hdist := h.distSym.resolve_left he
  have hread : ∀ {r : BitReader}, r.Quiet → InBlock { s with rd := r } out := fun hq =>
    ⟨h.read _, hq, hs, hidle, hdist⟩
  unfold blockPass
  dsimp only
  split
  · exact ⟨.same h, by simp⟩
  split
  case h_1 hb =>
    apply onSymbol_kept (c := .literal) h (by simp [Inflate.symbol, hs, hb])
      (by simp [Inflate.field, hs, hb]) he h.ltree
    intro sym r hq
    exact blockSymbol_kept (hread hq) capacity buf sym
  case h_2 hb =>
    apply onDataField_kept h (by simp [Inflate.field, hs, hb]) (by simp [Inflate.symbol, hs, hb]) he
    intro v r hq
    have hblock := hread hq
    have hnext : InBlock { s with rd := r, matchLen := v, blockStage := .distSymbol } out :=
      ⟨{ hblock.toFits with written := h.written.same rfl rfl rfl rfl, copy := by simp }, hblock.quiet, hs, hidle,
        hdist⟩
    exact .same hnext.inStage
  case h_3 hb =>
    apply onSymbol_kept (c := .distance) h (by simp [Inflate.symbol, hs, hb])
      (by simp [Inflate.field, hs, hb]) he h.tree
    intro sym r hq
    exact blockDistSymbol_kept (hread hq) buf sym
  case h_4 hb =>
    apply onDataField_kept h (by simp [Inflate.field, hs, hb]) (by simp [Inflate.symbol, hs, hb]) he
    intro v r hq
    exact blockDistExtra_kept (hread hq) hb buf v
  case h_5 hb =>
    have hblock : InBlock s out :=
      hread (h.quiet he (by simp [Inflate.symbol, hs, hb]) (by simp [Inflate.field, hs, hb]))
    split_ifs
    · have hnext : InBlock { s with blockStage := .symbol } out :=
        ⟨{ h.toFits with written := h.written.same rfl rfl rfl rfl, copy := by simp }, hblock.quiet, hs, hidle, hdist⟩
      exact .same hnext.inStage
    · apply onPut_kept h
      intro hroom
      have hput := hblock.put hroom (matchByte s)
      have hnext : InBlock { recordOutputByte (matchByte s) s with matchLen := s.matchLen - 1 }
          (out ++ [matchByte s]) :=
        ⟨{ hput.toFits with written := hput.written.same rfl rfl rfl rfl }, hput.quiet, hs, hidle, hdist⟩
      exact .same hnext.inStage

end Blocks

end OpenDisplay
