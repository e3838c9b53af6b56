import OpenDisplay.Inflate.Inverse

/-! What an accepted run has read: the compressed data of a block and the header of a block
with transmitted codes, from the ticks of the run. -/

namespace OpenDisplay

open Loops Resumable Huffman Deflate

section Steps

variable {s : Inflate} {total out : Bytes} {expected : UInt32} {bs rest : List Bool}

/-- An accepted run does not wait or fail at a read. -/
theorem accepted_read {α : Type} {f : BitReader → Rc α × BitReader} {k : α → Inflate → InflateTick}
    (h : AcceptsTick tick total out (onTick (s.read f) k)) :
    ∃ a r, f s.rd = (.ok a, r) ∧ AcceptsTick tick total out (k a { s with rd := r }) := by
  unfold onTick Inflate.read at h
  rcases hf : f s.rd with ⟨rc, r⟩
  rw [hf] at h
  cases rc with
  | ok a => exact ⟨a, r, rfl, h⟩
  | need => exact h.elim
  | fail e => exact h.elim

/-- An accepted run has room for what it writes. -/
theorem accepted_put {b : UInt8} {k : Work → DataIter}
    (h : AcceptsTick tick total out (dataTick (onPut (putOutputByte b 1 ([], s)) k))) :
    ¬ s.expectedOutput ≤ s.outputCount ∧ AcceptsTick tick total out (dataTick (k ([b], recordOutputByte b s))) := by
  rw [dataTick_onPut] at h
  split_ifs at h with hfull
  · exact h.elim
  · exact ⟨hfull, h⟩

theorem Stands.lt_expected (h : Stands expected s bs out) (hroom : ¬ s.expectedOutput ≤ s.outputCount) :
    out.length < expected.toNat := by
  rw [h.target, UInt32.le_iff_toNat_le, h.written.count] at hroom
  omega

theorem Stands.read {r : BitReader} (h : Stands expected s bs out) (hr : AtField r rest) :
    Stands expected { s with rd := r } rest out :=
  ⟨hr, h.written.same rfl rfl rfl rfl, h.target, h.literals, h.distances, h.lengths, h.trailer⟩

end Steps

section Data

variable {s : Inflate} {total out : Bytes} {expected : UInt32} {bs rest : List Bool} {lit dist : List Nat}

theorem tick_dataSymbol (hs : s.stage = .blockData) (hb : s.blockStage = .symbol) :
    tick s = onTick (s.read (decodeSymbol s.ltree 288)) fun sym s => dataTick (blockSymbol 1 [] sym s) := by
  rw [tick_blockData hs, ← dataTick_onData]
  simp [blockPass, hb]

theorem tick_dataLength (hs : s.stage = .blockData) (hb : s.blockStage = .lenExtra) :
    tick s = onTick (s.read (readBits (lengthBits.getD s.lengthSym 0) (OpenDisplay.lengthBase.getD s.lengthSym 0)))
      fun v s => dataTick (.next ([], { s with matchLen := v, blockStage := .distSymbol })) := by
  rw [tick_blockData hs, ← dataTick_onData]
  simp [blockPass, hb]

theorem tick_dataDistance (hs : s.stage = .blockData) (hb : s.blockStage = .distSymbol) :
    tick s = onTick (s.read (decodeSymbol s.tree 32)) fun sym s => dataTick (blockDistSymbol [] sym s) := by
  rw [tick_blockData hs, ← dataTick_onData]
  simp [blockPass, hb]

theorem tick_dataExtra (hs : s.stage = .blockData) (hb : s.blockStage = .distExtra) :
    tick s = onTick (s.read (readBits (distBits.getD s.distSym 0) (distBase.getD s.distSym 0)))
      fun v s => dataTick (blockDistExtra [] v s) := by
  rw [tick_blockData hs, ← dataTick_onData]
  simp [blockPass, hb]

theorem tick_dataCopy (hs : s.stage = .blockData) (hb : s.blockStage = .matchCopy) (hlen : s.matchLen ≠ 0) :
    tick s = dataTick (onPut (putOutputByte (matchByte s) 1 ([], s)) fun w =>
      .next (w.1, { w.2 with matchLen := w.2.matchLen - 1 })) := by
  rw [tick_blockData hs]
  simp [blockPass, hb, hlen]

/-- The decoder is about to read a literal or a length of data that is compressed with these
lengths. -/
structure TreesHold (s : Inflate) (lit dist : List Nat) : Prop where
  stage : s.stage = .blockData
  blockStage : s.blockStage = .symbol
  literals : s.ltree.Codes 288 lit
  distances : s.tree.Codes 32 dist

theorem symbol_accepted (hd : TreesHold s lit dist) (h : Stands expected s bs out) (ha : Accepts tick total s out) :
    ∃ sym cs rest r, bs = cs ++ rest ∧ Sends lit sym cs ∧ Stands expected { s with rd := r } rest out ∧
      AcceptsTick tick total out (dataTick (blockSymbol 1 [] sym { s with rd := r })) := by
  have hstep := ha.step
  rw [tick_dataSymbol hd.stage hd.blockStage] at hstep
  obtain ⟨sym, r, hread, hstep⟩ := accepted_read hstep
  obtain ⟨cs, rest, hbs, hsends, hready⟩ := h.ready.symbolRead hd.literals hread
  exact ⟨sym, cs, rest, r, hbs, hsends, h.read hready, hstep⟩

/-- The decoder is in the middle of a match, at this stage of it. -/
structure InMatch (s t : Inflate) (part : BlockStage) : Prop where
  stage : t.stage = .blockData
  blockStage : t.blockStage = part
  ltree : t.ltree = s.ltree
  tree : t.tree = s.tree
  bfinal : t.bfinal = s.bfinal

theorem InMatch.trans {t u : Inflate} {part part' : BlockStage} (h : InMatch s t part) (h' : InMatch t u part') :
    InMatch s u part' :=
  ⟨h'.stage, h'.blockStage, h'.ltree.trans h.ltree, h'.tree.trans h.tree, h'.bfinal.trans h.bfinal⟩

theorem copy_accepted {d n : Nat} (hd : 0 < d) (hwindow : d ≤ zlibWindowSize) (hs : s.stage = .blockData)
    (hb : s.blockStage = .matchCopy) (hoffset : s.matchOffset = d) (hlen : s.matchLen = n)
    (h : Stands expected s rest out) (hle : d ≤ out.length) (ha : Accepts tick total s out) :
    ∃ t, Accepts tick total t (copied d n out) ∧ Stands expected t rest (copied d n out) ∧ InMatch s t .symbol := by
  induction n generalizing s out with
  | zero =>
    have htick : tick s = .next { s with blockStage := .symbol } := by
      rw [tick_blockData hs]
      simp [blockPass, hb, hlen, dataTick]
    exact ⟨_, ha.next htick, ⟨h.ready, h.written.same rfl rfl rfl rfl, h.target, h.literals, h.distances, h.lengths,
      h.trailer⟩, ⟨hs, rfl, rfl, rfl, rfl⟩⟩
  | succ n ih =>
    have hbyte : matchByte s = out.getD (out.length - d) 0 := by
      rw [matchByte, hoffset]
      exact h.written.window d hd hwindow hle
    have hstep := ha.step
    rw [tick_dataCopy hs hb (by rw [hlen]; exact Nat.succ_ne_zero n)] at hstep
    obtain ⟨hroom, hnext⟩ := accepted_put hstep
    have hput := h.put (h.lt_expected hroom) (matchByte s)
    obtain ⟨t, haccepts, hstands, hin⟩ := @ih
      { recordOutputByte (matchByte s) s with matchLen := s.matchLen - 1 } (out ++ [out.getD (out.length - d) 0]) hs hb
      hoffset (by rw [hlen]; rfl)
      ⟨hput.ready, hbyte ▸ hput.written.same rfl rfl rfl rfl, hput.target, hput.literals, hput.distances, hput.lengths,
        hput.trailer⟩ (by simp; omega) (by rw [← hbyte]; exact hnext)
    exact ⟨t, haccepts, hstands, ⟨hin.stage, hin.blockStage, hin.ltree, hin.tree, hin.bfinal⟩⟩

theorem length_accepted {i : Nat} (hi : i < 29) (hs : s.stage = .blockData) (hb : s.blockStage = .lenExtra)
    (hsym : s.lengthSym = i) (h : Stands expected s bs out) (ha : Accepts tick total s out) :
    ∃ x < 2 ^ lengthExtra.getD i 0, ∃ rest t, bs = lowBits (lengthExtra.getD i 0) x ++ rest ∧
      Accepts tick total t out ∧ Stands expected t rest out ∧ InMatch s t .distSymbol ∧
      t.matchLen = Deflate.lengthBase.getD i 0 + x := by
  obtain ⟨hbits, hbase⟩ := lengthTable hi
  have hstep := ha.step
  rw [tick_dataLength hs hb, hsym] at hstep
  obtain ⟨v, r, hread, hnext⟩ := accepted_read hstep
  obtain ⟨x, hx, rest, rfl, hbs, hready⟩ := h.ready.fieldRead hread
  rw [hbits] at hx hbs
  rw [hbase] at hnext
  exact ⟨x, hx, rest, _, hbs, hnext, ⟨hready, h.written.same rfl rfl rfl rfl, h.target, h.literals, h.distances,
    h.lengths, h.trailer⟩, ⟨hs, rfl, rfl, rfl, rfl⟩, Nat.add_comm _ _⟩

theorem distance_accepted (hs : s.stage = .blockData) (hb : s.blockStage = .distSymbol) (ht : s.tree.Codes 32 dist)
    (h : Stands expected s bs out) (ha : Accepts tick total s out) :
    ∃ j < 30, ∃ ds rest t, bs = ds ++ rest ∧ Sends dist j ds ∧ Accepts tick total t out ∧ Stands expected t rest out ∧
      InMatch s t .distExtra ∧ t.distSym = j ∧ t.matchLen = s.matchLen := by
  have hstep := ha.step
  rw [tick_dataDistance hs hb] at hstep
  obtain ⟨j, r, hread, hnext⟩ := accepted_read hstep
  obtain ⟨ds, rest, hbs, hsends, hready⟩ := h.ready.symbolRead ht hread
  unfold blockDistSymbol at hnext
  split_ifs at hnext with hj
  · exact hnext.elim
  · exact ⟨j, by omega, ds, rest, _, hbs, hsends, hnext, ⟨hready, h.written.same rfl rfl rfl rfl, h.target, h.literals,
      h.distances, h.lengths, h.trailer⟩, ⟨hs, rfl, rfl, rfl, rfl⟩, rfl, rfl⟩

theorem extra_accepted {j : Nat} (hs : s.stage = .blockData) (hb : s.blockStage = .distExtra) (hsym : s.distSym = j)
    (h : Stands expected s bs out) (ha : Accepts tick total s out) :
    ∃ y < 2 ^ distanceExtra.getD j 0, ∃ rest t, bs = lowBits (distanceExtra.getD j 0) y ++ rest ∧
      0 < distanceBase.getD j 0 + y ∧ distanceBase.getD j 0 + y ≤ zlibWindowSize ∧
      distanceBase.getD j 0 + y ≤ out.length ∧ Accepts tick total t out ∧ Stands expected t rest out ∧
      InMatch s t .matchCopy ∧ t.matchOffset = distanceBase.getD j 0 + y ∧ t.matchLen = s.matchLen := by
  obtain ⟨hbits, hbase⟩ := distanceTable j
  have hstep := ha.step
  rw [tick_dataExtra hs hb, hsym] at hstep
  obtain ⟨v, r, hread, hnext⟩ := accepted_read hstep
  obtain ⟨y, hy, rest, rfl, hbs, hready⟩ := h.ready.fieldRead hread
  rw [hbits] at hy hbs
  rw [hbase] at hnext
  have hcount := h.written.count
  dsimp only [blockDistExtra] at hnext
  split_ifs at hnext with hfar
  · exact hnext.elim
  · exact ⟨y, hy, rest, _, hbs, by omega, by omega, by omega, hnext, ⟨hready, h.written.same rfl rfl rfl rfl, h.target,
      h.literals, h.distances, h.lengths, h.trailer⟩, ⟨hs, rfl, rfl, rfl, rfl⟩, Nat.add_comm _ _, rfl⟩

/-- What is left of a match after its length symbol: the bits of its fields and of its
distance symbol, and then its copy. -/
theorem match_accepted {i : Nat} (hi : i < 29) (hs : s.stage = .blockData) (hb : s.blockStage = .lenExtra)
    (hsym : s.lengthSym = i) (ht : s.tree.Codes 32 dist) (h : Stands expected s bs out)
    (ha : Accepts tick total s out) :
    ∃ j < 30, ∃ x < 2 ^ lengthExtra.getD i 0, ∃ y < 2 ^ distanceExtra.getD j 0, ∃ ds rest t,
      bs = lowBits (lengthExtra.getD i 0) x ++ (ds ++ (lowBits (distanceExtra.getD j 0) y ++ rest)) ∧
      Sends dist j ds ∧ distanceBase.getD j 0 + y ≤ zlibWindowSize ∧ distanceBase.getD j 0 + y ≤ out.length ∧
      Accepts tick total t (copied (distanceBase.getD j 0 + y) (Deflate.lengthBase.getD i 0 + x) out) ∧
      Stands expected t rest (copied (distanceBase.getD j 0 + y) (Deflate.lengthBase.getD i 0 + x) out) ∧
      InMatch s t .symbol := by
  obtain ⟨x, hx, bs₁, t₁, rfl, ha₁, h₁, hin₁, hlen₁⟩ := length_accepted hi hs hb hsym h ha
  obtain ⟨j, hj, ds, bs₂, t₂, rfl, hsends, ha₂, h₂, hin₂, hsym₂, hlen₂⟩ :=
    distance_accepted hin₁.stage hin₁.blockStage (by rwa [hin₁.tree]) h₁ ha₁
  obtain ⟨y, hy, rest, t₃, rfl, hpos, hwindow, hle, ha₃, h₃, hin₃, hoffset, hlen₃⟩ :=
    extra_accepted hin₂.stage hin₂.blockStage hsym₂ h₂ ha₂
  obtain ⟨t, haccepts, hstands, hin⟩ := copy_accepted hpos hwindow hin₃.stage hin₃.blockStage hoffset
    (hlen₃.trans (hlen₂.trans hlen₁)) h₃ hle ha₃
  exact ⟨j, hj, x, hx, y, hy, ds, rest, t, rfl, hsends, hwindow, hle, haccepts, hstands,
    hin₁.trans (hin₂.trans (hin₃.trans hin))⟩

theorem Sends.length_pos {lens : List Nat} {sym : Nat} (h : Sends lens sym bs) : 0 < bs.length := by
  rw [h.length_eq]
  exact Nat.pos_of_ne_zero h.used

theorem data_accepted {n : Nat} (hn : bs.length = n) (hd : TreesHold s lit dist) (h : Stands expected s bs out)
    (ha : Accepts tick total s out) :
    ∃ cs rest out' t, bs = cs ++ rest ∧ Data zlibWindowSize lit dist out cs out' ∧
      Accepts tick total (endBlock t) out' ∧ Stands expected t rest out' ∧ t.bfinal = s.bfinal := by
  induction n using Nat.strongRecOn generalizing s out bs with
  | _ n ih =>
    obtain ⟨sym, cs, rest, r, rfl, hsends, hstands, hstep⟩ := symbol_accepted hd h ha
    have hpos := Sends.length_pos hsends
    rw [List.length_append] at hn
    rw [blockSymbol] at hstep
    split_ifs at hstep with hliteral hend hbad
    · obtain ⟨hroom, hnext⟩ := accepted_put hstep
      have hput := hstands.put (hstands.lt_expected hroom) sym.toUInt8
      obtain ⟨cs', rest', out', t, rfl, hdata, hrest⟩ := ih rest.length (by omega) rfl
        (s := recordOutputByte sym.toUInt8 { s with rd := r }) ⟨hd.stage, hd.blockStage, hd.literals, hd.distances⟩
        hput hnext
      have hsym : sym = sym.toUInt8.toNat := by
        show sym = sym % 2 ^ 8
        omega
      rw [hsym] at hsends
      exact ⟨cs ++ cs', rest', out', t, (List.append_assoc _ _ _).symm, .literal hsends hdata, hrest⟩
    · subst hend
      exact ⟨cs, rest, out, { s with rd := r, blockStage := .symbol }, rfl, .finish hsends, hstep,
        ⟨hstands.ready, hstands.written.same rfl rfl rfl rfl, hstands.target, hstands.literals, hstands.distances,
          hstands.lengths, hstands.trailer⟩, rfl⟩
    · exact hstep.elim
    · obtain ⟨j, hj, x, hx, y, hy, ds, rest', t, hbs, hds, hwindow, hle, haccepts, hstands', hin⟩ :=
        @match_accepted { s with rd := r, lengthSym := sym - 257, blockStage := .lenExtra } total out expected rest dist
          (sym - 257) (by omega) hd.stage rfl rfl hd.distances
          ⟨hstands.ready, hstands.written.same rfl rfl rfl rfl, hstands.target, hstands.literals, hstands.distances,
            hstands.lengths, hstands.trailer⟩ hstep
      have hlen := congrArg List.length hbs
      simp only [List.length_append] at hlen
      obtain ⟨cs', rest'', out', u, hbs', hdata, hrest⟩ := ih rest'.length (by omega) rfl
        ⟨hin.stage, hin.blockStage, by rw [hin.ltree]; exact hd.literals, by rw [hin.tree]; exact hd.distances⟩ hstands'
        haccepts
      have hsym : sym = 257 + (sym - 257) := by omega
      rw [hsym] at hsends
      have hfinal : t.bfinal = s.bfinal := hin.bfinal
      rw [hfinal] at hrest
      refine ⟨_, rest'', out', u, ?_, .copy (i := sym - 257) (by omega) hj hx hy hsends hds hwindow hle hdata, hrest⟩
      rw [hbs, hbs']
      simp only [List.append_assoc]

end Data

section Header

variable {s : Inflate} {total out : Bytes} {expected : UInt32} {bs rest : List Bool} {hlit hdist hclen bfinal : Nat}

theorem accepted_runs {t : Inflate} {out' : Bytes} (hr : Runs s out t out') (ha : Accepts tick total s out) :
    Accepts tick total t out' := by
  obtain ⟨o, hp, rfl⟩ := hr
  exact ha.path hp

theorem sizes_accepted (hs : s.stage = .dynamicTrees) (hd : s.dynamicStage = .hlit) (h : Stands expected s bs out)
    (ha : Accepts tick total s out) :
    ∃ a < 30, ∃ b < 32, ∃ c < 16, ∃ rest t, bs = lowBits 5 a ++ (lowBits 5 b ++ (lowBits 4 c ++ rest)) ∧
      Accepts tick total t out ∧ Stands expected t rest out ∧
      InHeader t .clearClen (a + 257) (b + 1) (c + 4) s.bfinal ∧ t.dynI = 0 := by
  have hstep₁ := ha.step
  rw [tick_dynamic hs, dynamicPass, hd] at hstep₁
  dsimp only at hstep₁
  rw [headerTick_onRead] at hstep₁
  obtain ⟨v, r₁, hread₁, ha₁⟩ := accepted_read hstep₁
  obtain ⟨a, _, bs₁, rfl, rfl, h₁⟩ := h.ready.fieldRead hread₁
  have hstep₂ := Accepts.step ha₁
  rw [tick_dynamic (by exact hs), dynamicPass] at hstep₂
  dsimp only at hstep₂
  rw [headerTick_onRead] at hstep₂
  obtain ⟨v, r₂, hread₂, ha₂⟩ := accepted_read hstep₂
  obtain ⟨b, hb, bs₂, rfl, rfl, h₂⟩ := h₁.fieldRead hread₂
  have hstep₃ := Accepts.step ha₂
  rw [tick_dynamic (by exact hs), dynamicPass] at hstep₃
  dsimp only at hstep₃
  rw [headerTick_onRead] at hstep₃
  obtain ⟨v, r₃, hread₃, ha₃⟩ := accepted_read hstep₃
  obtain ⟨c, hc, rest, rfl, rfl, h₃⟩ := h₂.fieldRead hread₃
  dsimp only [dynamicSizes, failWith] at ha₃
  split_ifs at ha₃ with hsizes
  · exact ha₃.elim
  · exact ⟨a, by omega, b, hb, c, hc, rest, _, rfl, ha₃, ⟨h₃, h.written.same rfl rfl rfl rfl, h.target, h.literals,
      h.distances, h.lengths, h.trailer⟩, ⟨hs, rfl, rfl, rfl, rfl, rfl⟩, rfl⟩

theorem sent_accepted (sent : List Nat) {n : Nat} (hin : InHeader s .readClen hlit hdist hclen bfinal)
    (hi : s.dynI = sent.length) (hsent : Sent s.lengths sent) (hn : sent.length + n = hclen) (hclen_le : hclen ≤ 19)
    (h : Stands expected s bs out) (ha : Accepts tick total s out) :
    ∃ more rest t, bs = more.flatMap (lowBits 3) ++ rest ∧ (sent ++ more).length = hclen ∧ (∀ v ∈ more, v < 8) ∧
      Accepts tick total t out ∧ Stands expected t rest out ∧ InHeader t .buildCltree hlit hdist hclen bfinal ∧
      t.lengths.take 19 = codeLengths (sent ++ more) := by
  induction n generalizing s bs sent with
  | zero =>
    have htick : tick s = .next { s with dynamicStage := .buildCltree } := by
      rw [tick_dynamic hin.stage, dynamicPass, hin.dynamicStage]
      dsimp only
      rw [if_neg (by rw [hi, hin.hclen]; omega)]
      rfl
    refine ⟨[], bs, _, rfl, ?_, by simp, ha.next htick, ⟨h.ready, h.written.same rfl rfl rfl rfl, h.target, h.literals,
      h.distances, h.lengths, h.trailer⟩, ⟨hin.stage, rfl, hin.hlit, hin.hdist, hin.hclen, hin.bfinal⟩, ?_⟩
    · rw [List.append_nil]
      exact hn
    · rw [List.append_nil]
      exact hsent.take (by rw [h.lengths]; decide)
  | succ n ih =>
    have hstep := ha.step
    rw [tick_dynamic hin.stage, dynamicPass, hin.dynamicStage] at hstep
    dsimp only at hstep
    rw [if_pos (by rw [hi, hin.hclen]; omega), headerTick_onRead] at hstep
    obtain ⟨v, r, hread, hnext⟩ := accepted_read hstep
    obtain ⟨_, hv, rest, rfl, rfl, hready⟩ := h.ready.fieldRead hread
    rw [hi, Nat.mod_eq_of_lt (by omega)] at hnext
    obtain ⟨more, rest, t, rfl, hlen, hmore, haccepts, hstands, hheader, htake⟩ := ih
      (s := { s with
        rd := r, lengths := s.lengths.set (clcidx.getD sent.length 0) v, dynI := sent.length + 1 }) (sent ++ [v])
      ⟨hin.stage, hin.dynamicStage, hin.hlit, hin.hdist, hin.hclen, hin.bfinal⟩ (by simp)
      (hsent.set (by rw [h.lengths]; decide) (by omega)) (by simp; omega)
      ⟨hready, h.written.same rfl rfl rfl rfl, h.target, h.literals, h.distances, List.length_set.trans h.lengths,
        h.trailer⟩ hnext
    rw [List.append_assoc, List.singleton_append] at hlen htake
    refine ⟨v :: more, rest, t, ?_, hlen, ?_, haccepts, hstands, hheader, htake⟩
    · rw [List.flatMap_cons, List.append_assoc]
    · simp only [List.mem_cons, forall_eq_or_imp]
      exact ⟨by omega, hmore⟩

theorem cltree_accepted (hin : InHeader s .buildCltree hlit hdist hclen bfinal) (h : Stands expected s bs out)
    (ha : Accepts tick total s out) :
    ∃ t, Accepts tick total t out ∧ Stands expected t bs out ∧ InHeader t .readLengths hlit hdist hclen bfinal ∧
      HasLengths t [] (hlit + hdist) ∧ t.tree.Codes 19 (s.lengths.take 19) := by
  have hstep := ha.step
  rw [tick_dynamic hin.stage, dynamicPass, hin.dynamicStage] at hstep
  dsimp only at hstep
  rcases hbuild : buildTree s.tree 19 (s.lengths.take 19) with e | cltree
  · rw [hbuild] at hstep
    exact hstep.elim
  · rw [hbuild] at hstep
    obtain ⟨hcodes, htrans⟩ := buildTree_codes hbuild (by rw [h.distances]; decide)
    refine ⟨_, hstep, ⟨⟨h.ready.bits, h.ready.count, rfl, rfl⟩, h.written.same rfl rfl rfl rfl, h.target, h.literals,
      htrans.trans h.distances, h.lengths, h.trailer⟩, ⟨hin.stage, rfl, hin.hlit, hin.hdist, hin.hclen, hin.bfinal⟩,
      ⟨rfl, rfl, ?_⟩, hcodes⟩
    show s.hlit + s.hdist = _
    rw [hin.hlit, hin.hdist]

/-- A run of code lengths: its bits, and the lengths with those that it stands for. -/
theorem repeat_accepted {num base value limit : Nat} {lens : List Nat}
    (hin : InHeader s .repeatBits hlit hdist hclen bfinal) (hl : HasLengths s lens limit) (hlimit : limit ≤ 320)
    (hbits : s.dynRepeatBits = num) (hbase : s.dynRepeatBase = base) (hvalue : s.dynFillValue = value)
    (h : Stands expected s bs out) (ha : Accepts tick total s out) :
    ∃ x < 2 ^ num, ∃ rest t, bs = lowBits num x ++ rest ∧ lens.length + (x + base) ≤ limit ∧
      Accepts tick total t out ∧ Stands expected t rest out ∧ InHeader t .readLengths hlit hdist hclen bfinal ∧
      HasLengths t (lens ++ List.replicate (x + base) value) limit ∧ t.tree = s.tree := by
  have hstep := ha.step
  rw [tick_dynamic hin.stage, dynamicPass, hin.dynamicStage] at hstep
  dsimp only at hstep
  rw [headerTick_onRead, hbits, hbase] at hstep
  obtain ⟨v, r, hread, hnext⟩ := accepted_read hstep
  obtain ⟨x, hx, rest, rfl, hbs, hready⟩ := h.ready.fieldRead hread
  dsimp only [dynamicRepeat, failWith] at hnext
  rw [hl.num, hl.limit, hvalue] at hnext
  split_ifs at hnext with hfits
  · exact hnext.elim
  have htake := @fillLengths_take lens.length (x + base) value s.lengths (by rw [h.lengths]; omega)
  have hsize := fillLengths_length lens.length (x + base) value s.lengths
  generalize fillLengths lens.length (x + base) value s.lengths = filled at hnext htake hsize
  refine ⟨x, hx, rest, _, hbs, by omega, hnext, ⟨hready, h.written.same rfl rfl rfl rfl, h.target, h.literals,
    h.distances, hsize.trans h.lengths, h.trailer⟩, ⟨hin.stage, rfl, hin.hlit, hin.hdist, hin.hclen, hin.bfinal⟩,
    ⟨?_, ?_, rfl⟩, rfl⟩
  · rw [List.length_append, List.length_replicate]
  · show filled.take (lens ++ List.replicate (x + base) value).length = _
    rw [List.length_append, List.length_replicate, htake, hl.lengths]

theorem lengths_accepted {cl lens : List Nat} {limit n : Nat} (hn : limit - lens.length = n)
    (hin : InHeader s .readLengths hlit hdist hclen bfinal) (hl : HasLengths s lens limit) (hle : lens.length ≤ limit)
    (hlimit : limit ≤ 320) (ht : s.tree.Codes 19 cl) (h : Stands expected s bs out) (ha : Accepts tick total s out) :
    ∃ cs rest all t, bs = cs ++ rest ∧ Lengths cl lens cs all ∧ all.length = limit ∧ Accepts tick total t out ∧
      Stands expected t rest out ∧ InHeader t .buildTrees hlit hdist hclen bfinal ∧ t.lengths.take limit = all := by
  induction n using Nat.strongRecOn generalizing s bs lens with
  | _ n ih =>
    have hstep := ha.step
    rw [tick_dynamic hin.stage, dynamicPass, hin.dynamicStage] at hstep
    dsimp only at hstep
    rw [hl.num, hl.limit] at hstep
    split_ifs at hstep with hmore
    · rw [headerTick_onRead] at hstep
      obtain ⟨sym, r, hread, hnext⟩ := accepted_read hstep
      obtain ⟨cs, rest, hbs, hsends, hready⟩ := h.ready.symbolRead ht hread
      -- a run of lengths, from the state that its symbol leads to
      have hrun : ∀ num base value, 0 < base → (∀ x < 2 ^ num, ∀ rest all : List _, Lengths cl
          (lens ++ List.replicate (x + base) value) rest all → Lengths cl lens (cs ++ (lowBits num x ++ rest)) all) →
          Accepts tick total { s with
            rd := r, dynFillValue := value, dynRepeatBits := num, dynRepeatBase := base
            dynamicStage := .repeatBits } out →
          ∃ cs rest all t, bs = cs ++ rest ∧ Lengths cl lens cs all ∧ all.length = limit ∧
            Accepts tick total t out ∧ Stands expected t rest out ∧ InHeader t .buildTrees hlit hdist hclen bfinal ∧
            t.lengths.take limit = all := by
        intro num base value hbase hlens hrepeat
        obtain ⟨x, hx, rest', t, hbs', hfits, haccepts, hstands, hheader, hl', htree⟩ := repeat_accepted
          (s := { s with
            rd := r, dynFillValue := value, dynRepeatBits := num, dynRepeatBase := base, dynamicStage := .repeatBits })
          ⟨hin.stage, rfl, hin.hlit, hin.hdist, hin.hclen, hin.bfinal⟩ ⟨hl.num, hl.lengths, hl.limit⟩ hlimit rfl rfl rfl
          ⟨hready, h.written.same rfl rfl rfl rfl, h.target, h.literals, h.distances, h.lengths, h.trailer⟩ hrepeat
        have htree' : t.tree = s.tree := htree
        obtain ⟨cs', rest'', all, u, hbs'', hall, hlast⟩ := ih _ (by simp; omega) rfl hheader hl'
          (by simp; omega) (by rwa [htree']) hstands haccepts
        exact ⟨cs ++ (lowBits num x ++ cs'), rest'', all, u, by rw [hbs, hbs', hbs'']; simp only [List.append_assoc],
          hlens x hx cs' all hall, hlast⟩
      unfold dynamicLength at hnext
      dsimp only [failWith] at hnext
      split_ifs at hnext with hlen h16 hnone h17 h18
      · rw [hl.num] at hnext
        have htake : (s.lengths.set lens.length sym).take (lens ++ [sym]).length = lens ++ [sym] := by
          have hlt : lens.length < s.lengths.length := by
            rw [h.lengths]
            omega
          rw [List.length_append, List.length_singleton, List.take_succ_eq_append_getElem (by rwa [List.length_set]),
            List.take_set_of_le (Nat.le_refl _), hl.lengths, List.getElem_set_self]
        obtain ⟨cs', rest', all, t, hbs', hall, hlast⟩ := ih (limit - (lens ++ [sym]).length) (by simp; omega) rfl
          (s := { s with rd := r, lengths := s.lengths.set lens.length sym, dynNum := lens.length + 1 })
          ⟨hin.stage, hin.dynamicStage, hin.hlit, hin.hdist, hin.hclen, hin.bfinal⟩
          ⟨by rw [List.length_append, List.length_singleton], htake, hl.limit⟩ (by simp; omega) ht
          ⟨hready, h.written.same rfl rfl rfl rfl, h.target, h.literals, h.distances, List.length_set.trans h.lengths,
            h.trailer⟩ hnext
        exact ⟨cs ++ cs', rest', all, t, by rw [hbs, hbs', List.append_assoc], .length hlen hsends hall, hlast⟩
      · exact hnext.elim
      · subst h16
        have hlens : lens ≠ [] := by
          rw [hl.num] at hnone
          exact fun hnil => hnone (congrArg List.length hnil)
        obtain ⟨front, value, rfl⟩ := List.eq_nil_or_concat lens |>.resolve_left hlens
        have hvalue : s.lengths.getD (s.dynNum - 1) 0 = value := by
          have hget := congrArg (fun ls : List Nat => ls[front.length]?.getD 0) hl.lengths
          rw [hl.num]
          simpa using hget
        rw [hvalue] at hnext
        exact hrun 2 3 value (by decide) (fun x hx rest all hall => .again (by simp) hx hsends hall) hnext
      · subst h17
        exact hrun 3 3 0 (by decide) (fun x hx rest all hall => .zeros hx hsends hall) hnext
      · subst h18
        exact hrun 7 11 0 (by decide) (fun x hx rest all hall => .moreZeros hx hsends hall) hnext
      · exact hnext.elim
    · have hfull : lens.length = limit := by omega
      exact ⟨[], bs, lens, _, rfl, .finish, hfull, hstep,
        ⟨h.ready, h.written.same rfl rfl rfl rfl, h.target, h.literals,
        h.distances, h.lengths, h.trailer⟩, ⟨hin.stage, rfl, hin.hlit, hin.hdist, hin.hclen, hin.bfinal⟩,
        hfull ▸ hl.lengths⟩

theorem trees_accepted (hin : InHeader s .buildTrees hlit hdist hclen bfinal) (h : Stands expected s bs out)
    (ha : Accepts tick total s out) :
    ∃ t, Accepts tick total t out ∧ Stands expected t bs out ∧
      TreesHold t (s.lengths.take hlit) ((s.lengths.drop hlit).take hdist) ∧ t.bfinal = bfinal := by
  have hstep := ha.step
  rw [tick_dynamic hin.stage, dynamicPass, hin.dynamicStage] at hstep
  dsimp only [dynamicBuildTrees, failWith] at hstep
  rw [hin.hlit, hin.hdist] at hstep
  split_ifs at hstep with hend
  · exact hstep.elim
  rcases hbuild : buildTree s.ltree 288 (s.lengths.take hlit) with e | ltree
  · rw [hbuild] at hstep
    exact hstep.elim
  rcases hbuild' : buildTree s.tree 32 ((s.lengths.drop hlit).take hdist) with e | dtree
  · rw [hbuild, hbuild'] at hstep
    exact hstep.elim
  rw [hbuild, hbuild'] at hstep
  obtain ⟨hcodes, htrans⟩ := buildTree_codes hbuild (by rw [h.literals])
  obtain ⟨hcodes', htrans'⟩ := buildTree_codes hbuild' (by rw [h.distances])
  exact ⟨_, hstep, ⟨⟨h.ready.bits, h.ready.count, rfl, rfl⟩, h.written.same rfl rfl rfl rfl, h.target,
    htrans.trans h.literals, htrans'.trans h.distances, h.lengths, h.trailer⟩, ⟨rfl, rfl, hcodes, hcodes'⟩, hin.bfinal⟩

/-- No codeword of the lengths is longer than the decoder allows. -/
def Bounded (lens : List Nat) : Prop := ∀ n ∈ lens, n ≤ 15

theorem header_accepted (hs : s.stage = .dynamicTrees) (hd : s.dynamicStage = .hlit) (h : Stands expected s bs out)
    (ha : Accepts tick total s out) :
    ∃ cs rest lit dist t, bs = cs ++ rest ∧ HeaderOf Bounded cs lit dist ∧ Accepts tick total t out ∧
      Stands expected t rest out ∧ TreesHold t lit dist ∧ t.bfinal = s.bfinal := by
  obtain ⟨a, ha₁, b, hb, c, hc, bs₁, t₁, rfl, hacc₁, h₁, hin₁, hi₁⟩ := sizes_accepted hs hd h ha
  obtain ⟨t₂, hruns₂, h₂, hin₂, hi₂, hsent₂⟩ := clear_runs hin₁ hi₁ h₁
  obtain ⟨sent, bs₃, t₃, rfl, hlen, hsent, hacc₃, h₃, hin₃, htake₃⟩ := sent_accepted [] hin₂ hi₂ hsent₂
    (Nat.zero_add (c + 4)) (by omega) h₂ (accepted_runs hruns₂ hacc₁)
  obtain ⟨t₄, hacc₄, h₄, hin₄, hlens₄, hcodes⟩ := cltree_accepted hin₃ h₃ hacc₃
  rw [htake₃] at hcodes
  obtain ⟨cs, rest, all, t₅, rfl, hall, hsize, hacc₅, h₅, hin₅, htake₅⟩ := lengths_accepted rfl hin₄ hlens₄
    (Nat.zero_le _) (by omega) hcodes h₄ hacc₄
  obtain ⟨t₆, hacc₆, h₆, hdec, hfinal⟩ := trees_accepted hin₅ h₅ hacc₅
  rw [List.nil_append] at hlen hall hcodes
  have hlit : (t₅.lengths.take (a + 257)).length = a + 257 := by
    rw [List.length_take, h₅.lengths]
    omega
  have hdist : ((t₅.lengths.drop (a + 257)).take (b + 1)).length = b + 1 := by
    rw [List.length_take, List.length_drop, h₅.lengths]
    omega
  have hsplit : all = t₅.lengths.take (a + 257) ++ (t₅.lengths.drop (a + 257)).take (b + 1) := by
    rw [← htake₅, List.take_add]
  rw [hsplit] at hall
  have hheader := @HeaderOf.mk Bounded _ _ _ _ (by omega) (by omega) (by omega) (by omega) (by omega) (by omega) hsent
    hcodes.length_le hall hdec.literals.length_le hdec.distances.length_le
  rw [hlit, hdist, hlen, Nat.add_sub_cancel, Nat.add_sub_cancel, Nat.add_sub_cancel] at hheader
  refine ⟨_, rest, _, _, t₆, ?_, hheader, hacc₆, h₆, hdec, hfinal⟩
  simp only [List.append_assoc]

end Header

end OpenDisplay
