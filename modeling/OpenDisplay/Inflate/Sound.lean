import OpenDisplay.Inflate.Grammar

/-! The decoder accepts nothing else: when a pump comes to its end, the bytes it was given
are a stream of the format and the bytes it delivered are what the stream stands for. Of the
format's conditions the decoder leaves out two. It takes lengths for which there is no code,
and copies from further back than the window that the stream declares, though never from
further back than its own. -/

namespace OpenDisplay

open Loops Resumable Huffman Deflate

section Stored

variable {s : Inflate} {total out : Bytes} {expected : UInt32} {bs rest : List Bool}

theorem word_toNat (a b : UInt8) : (a.toUInt16 ||| (b.toUInt16 <<< 8)).toNat = a.toNat + 2 ^ 8 * b.toNat := by
  have ha := a.toNat_lt
  have hb := b.toNat_lt
  have hshift : b.toNat <<< 8 < 2 ^ 16 := by
    rw [Nat.shiftLeft_eq]
    omega
  rw [UInt16.toNat_or, UInt16.toNat_shiftLeft, UInt8.toNat_toUInt16, UInt8.toNat_toUInt16]
  show a.toNat ||| b.toNat <<< 8 % 2 ^ 16 = _
  rw [Nat.mod_eq_of_lt hshift, Nat.or_comm, ← Nat.shiftLeft_add_eq_or_of_lt (by omega), Nat.shiftLeft_eq]
  omega

theorem littleEndian_word (a b : UInt8) : littleEndian (a.toNat + 2 ^ 8 * b.toNat) = [a, b] := by
  have ha := a.toNat_lt
  have hb := b.toNat_lt
  have hlow : UInt8.ofNat (a.toNat + 2 ^ 8 * b.toNat) = a := by
    apply UInt8.toNat_inj.mp
    rw [UInt8.toNat_ofNat']
    omega
  have hhigh : UInt8.ofNat ((a.toNat + 2 ^ 8 * b.toNat) / 2 ^ 8) = b := by
    apply UInt8.toNat_inj.mp
    rw [UInt8.toNat_ofNat']
    omega
  rw [littleEndian, hlow, hhigh]

/-- The decoder before and after a byte of the header of a stored block. -/
structure StoredByte (s t : Inflate) (b : UInt8) : Prop where
  stage : t.stage = .storedLen
  index : t.storedHeaderIndex = s.storedHeaderIndex + 1
  aligned : t.rd.bitCount = 0
  bfinal : t.bfinal = s.bfinal
  len : t.storedLen = if s.storedHeaderIndex = 0 then b.toUInt16
    else if s.storedHeaderIndex = 1 then s.storedLen ||| (b.toUInt16 <<< 8) else s.storedLen
  invlen : t.storedInvlen = if s.storedHeaderIndex = 2 then b.toUInt16
    else if s.storedHeaderIndex = 3 then s.storedInvlen ||| (b.toUInt16 <<< 8) else s.storedInvlen

theorem storedByte_accepted (hs : s.stage = .storedLen) (hi : s.storedHeaderIndex < 4) (hcount : s.rd.bitCount = 0)
    (h : Stands expected s bs out) (ha : Accepts tick total s out) :
    ∃ b rest t, bs = bytesBits [b] ++ rest ∧ Accepts tick total t out ∧ Stands expected t rest out ∧
      StoredByte s t b := by
  have hstep := ha.step
  rw [tick_storedLen hs, storedHeaderPass, if_pos hi, headerTick_onRead] at hstep
  obtain ⟨b, r, hread, hnext⟩ := accepted_read hstep
  obtain ⟨rest, hbs, hready, hcount'⟩ := h.ready.byteRead hcount hread
  dsimp only [headerTick] at hnext
  obtain hat | hat | hat | hat : s.storedHeaderIndex = 0 ∨ s.storedHeaderIndex = 1 ∨ s.storedHeaderIndex = 2 ∨
    s.storedHeaderIndex = 3 := by omega
  all_goals
    simp only [hat] at hnext
    refine ⟨b, rest, _, hbs, hnext, ⟨hready, h.written.same rfl rfl rfl rfl, h.target, h.literals, h.distances,
      h.lengths, h.trailer⟩, hs, ?_, hcount', rfl, ?_, ?_⟩
    all_goals simp [hat]

/-- The header of a stored block is its length and the complement of its length. -/
theorem storedLen_accepted (hs : s.stage = .storedLen) (hi : s.storedHeaderIndex = 0) (hcount : s.rd.bitCount = 0)
    (h : Stands expected s bs out) (ha : Accepts tick total s out) :
    ∃ n < 2 ^ 16, ∃ rest t, bs = bytesBits (littleEndian n ++ littleEndian (2 ^ 16 - 1 - n)) ++ rest ∧
      Accepts tick total t out ∧ Stands expected t rest out ∧ InStored t n s.bfinal := by
  obtain ⟨a, bs₁, t₁, rfl, ha₁, h₁, hb₁⟩ := storedByte_accepted hs (by omega) hcount h ha
  have hi₁ := hb₁.index
  obtain ⟨b, bs₂, t₂, rfl, ha₂, h₂, hb₂⟩ := storedByte_accepted hb₁.stage (by omega) hb₁.aligned h₁ ha₁
  have hi₂ := hb₂.index
  obtain ⟨c, bs₃, t₃, rfl, ha₃, h₃, hb₃⟩ := storedByte_accepted hb₂.stage (by omega) hb₂.aligned h₂ ha₂
  have hi₃ := hb₃.index
  obtain ⟨d, rest, t, rfl, ha₄, h₄, hb₄⟩ := storedByte_accepted hb₃.stage (by omega) hb₃.aligned h₃ ha₃
  have hlen : t.storedLen = a.toUInt16 ||| (b.toUInt16 <<< 8) := by
    simp [hb₄.len, hb₃.len, hb₂.len, hb₁.len, hi, hi₁, hi₂, hi₃]
  have hinvlen : t.storedInvlen = c.toUInt16 ||| (d.toUInt16 <<< 8) := by
    simp [hb₄.invlen, hb₃.invlen, hi, hi₁, hi₂, hi₃]
  have hfinal : t.bfinal = s.bfinal := by rw [hb₄.bfinal, hb₃.bfinal, hb₂.bfinal, hb₁.bfinal]
  have hstep := ha₄.step
  rw [tick_storedLen hb₄.stage, storedHeaderPass, if_neg (by rw [hb₄.index]; omega)] at hstep
  dsimp only [failWith] at hstep
  split_ifs at hstep with hinverse
  · exact hstep.elim
  have hn : a.toNat + 2 ^ 8 * b.toNat < 2 ^ 16 := by
    have ha := a.toNat_lt
    have hb := b.toNat_lt
    omega
  have hword := congrArg UInt16.toNat (not_not.mp hinverse)
  rw [UInt16.toNat_not, hlen, hinvlen, word_toNat, word_toNat] at hword
  have hother : 2 ^ 16 - 1 - (a.toNat + 2 ^ 8 * b.toNat) = c.toNat + 2 ^ 8 * d.toNat := by
    have hc := c.toNat_lt
    have hd := d.toNat_lt
    have hsize : UInt16.size = 2 ^ 16 := rfl
    omega
  refine ⟨a.toNat + 2 ^ 8 * b.toNat, hn, rest, _, ?_, hstep, ⟨h₄.ready, h₄.written.same rfl rfl rfl rfl,
    h₄.target, h₄.literals, h₄.distances, h₄.lengths, h₄.trailer⟩, rfl, ?_, hb₄.aligned, hfinal⟩
  · rw [hother, littleEndian_word, littleEndian_word]
    simp only [bytesBits, List.flatMap_append, List.flatMap_cons, List.flatMap_nil, List.append_nil, List.append_assoc]
  · apply UInt16.toNat_inj.mp
    rw [UInt16.toNat_ofNat_of_lt' hn, ← word_toNat, ← hlen]

theorem storedData_accepted {n bfinal : Nat} (hn : n < 2 ^ 16) (hin : InStored s n bfinal)
    (h : Stands expected s bs out) (ha : Accepts tick total s out) :
    ∃ data rest t, data.length = n ∧ bs = bytesBits data ++ rest ∧ Accepts tick total (endBlock t) (out ++ data) ∧
      Stands expected t rest (out ++ data) ∧ t.bfinal = bfinal := by
  induction n generalizing s out bs with
  | zero =>
    have htick : tick s = .next (endBlock s) := by
      rw [tick_storedData hin.stage, storedDataPass, if_pos (by exact hin.left)]
      rfl
    exact ⟨[], bs, s, rfl, rfl, by rw [List.append_nil]; exact ha.next htick, by rwa [List.append_nil], hin.bfinal⟩
  | succ n ih =>
    have hcounted : s.storedLen = UInt16.ofNat (n + 1) := hin.left
    have hleft : s.storedLen ≠ 0 := by
      rw [hcounted, ne_eq, ← UInt16.toNat_inj, UInt16.toNat_ofNat_of_lt' hn]
      exact Nat.succ_ne_zero _
    have hone : (1 : UInt16) ≤ UInt16.ofNat (n + 1) := by
      rw [UInt16.le_iff_toNat_le, UInt16.toNat_ofNat_of_lt' hn]
      exact Nat.succ_le_succ (Nat.zero_le _)
    have hnext : s.storedLen - 1 = UInt16.ofNat n := by
      rw [hcounted]
      apply UInt16.toNat_inj.mp
      rw [UInt16.toNat_sub_of_le _ _ hone, UInt16.toNat_ofNat_of_lt' hn,
        UInt16.toNat_ofNat_of_lt' (Nat.lt_of_succ_lt hn),
        UInt16.toNat_one, Nat.add_sub_cancel]
    have hstep := ha.step
    rw [tick_storedData hin.stage, storedDataPass, if_neg hleft, if_neg (by simp), dataTick_onData] at hstep
    obtain ⟨b, r, hread, hput⟩ := accepted_read hstep
    obtain ⟨rest, hbs, hready, hcount⟩ := h.ready.byteRead hin.aligned hread
    obtain ⟨hroom, hput⟩ := accepted_put hput
    have hstands := h.read hready
    have hwritten := hstands.put (hstands.lt_expected hroom) b
    obtain ⟨data, rest', t, hlen, hbs', haccepts, hrest⟩ := ih (by omega)
      (s := { recordOutputByte b { s with rd := r } with storedLen := s.storedLen - 1 })
      ⟨hin.stage, hnext, hcount, hin.bfinal⟩
      ⟨hwritten.ready, hwritten.written.same rfl rfl rfl rfl, hwritten.target, hwritten.literals, hwritten.distances,
        hwritten.lengths, hwritten.trailer⟩ hput
    rw [List.append_assoc, List.singleton_append] at haccepts hrest
    refine ⟨b :: data, rest', t, by rw [List.length_cons, hlen], ?_, haccepts, hrest⟩
    rw [hbs, hbs', ← List.append_assoc, ← bytesBits_append, List.singleton_append]

end Stored

section Blocks

variable {s : Inflate} {total out : Bytes} {expected : UInt32} {bs rest : List Bool} {pos : Nat}

theorem blockType_accepted (hs : s.stage = .blockFinal) (h : Stands expected s bs out) (ha : Accepts tick total s out) :
    ∃ final v rest r, bs = final :: (lowBits 2 v ++ rest) ∧ v < 3 ∧ AtField r rest ∧
      Accepts tick total (pollBlockType v { s with rd := r, bfinal := Bool.toNat final, stage := .blockType }) out := by
  have hstep₁ := ha.step
  simp only [tick, hs] at hstep₁
  obtain ⟨bit, r₁, hread₁, ha₁⟩ := accepted_read hstep₁
  obtain ⟨final, bs₁, rfl, rfl, h₁⟩ := h.ready.bitRead hread₁
  have hstep₂ := Accepts.step ha₁
  simp only [tick] at hstep₂
  obtain ⟨v, r₂, hread₂, hstep₂⟩ := accepted_read hstep₂
  obtain ⟨v, hv, rest, rfl, rfl, h₂⟩ := h₁.fieldRead hread₂
  unfold nextUnlessError at hstep₂
  split_ifs at hstep₂ with herror
  · exact hstep₂.elim
  refine ⟨final, v, rest, r₂, rfl, ?_, h₂, hstep₂⟩
  by_contra hle
  obtain rfl : v = 3 := by omega
  exact herror rfl

/-- An accepted block, and what follows it. -/
theorem block_accepted (hs : s.stage = .blockFinal) (haligned : 8 ∣ pos + bs.length) (h : Stands expected s bs out)
    (ha : Accepts tick total s out) :
    ∃ final cs rest out' t, bs = cs ++ rest ∧ 0 < cs.length ∧ BlockOf Bounded zlibWindowSize pos final out cs out' ∧
      Accepts tick total t out' ∧ Stands expected t rest out' ∧ t.stage = if final then .trailer else .blockFinal := by
  obtain ⟨final, v, bs', r, rfl, hv, hr, ha'⟩ := blockType_accepted hs h ha
  suffices hblock : ∃ cs rest out' t, bs' = cs ++ rest ∧
      BlockOf Bounded zlibWindowSize pos final out (final :: (lowBits 2 v ++ cs)) out' ∧
      Accepts tick total (endBlock t) out' ∧ Stands expected t rest out' ∧ t.bfinal = final.toNat by
    obtain ⟨cs, rest, out', t, rfl, hof, haccepts, hstands, hfinal⟩ := hblock
    refine ⟨final, final :: (lowBits 2 v ++ cs), rest, out', endBlock t, ?_, Nat.succ_pos _, hof, haccepts,
      endBlock_stands hstands, ?_⟩
    · rw [List.cons_append, List.append_assoc]
    · rw [endBlock, hfinal]
      cases final <;> rfl
  obtain rfl | rfl | rfl : v = 0 ∨ v = 1 ∨ v = 2 := by omega
  · obtain ⟨n, hn, bs₁, t, hbs₁, ha₁, h₁, hin⟩ := @storedLen_accepted
      (pollBlockType 0 { s with rd := r, bfinal := final.toNat, stage := .blockType }) total out expected
      (bytesBits r.input) rfl rfl rfl
      ⟨⟨rfl, Nat.zero_lt_succ 7, hr.field, hr.symbol⟩, h.written.same rfl rfl rfl rfl, h.target, h.literals,
        h.distances, h.lengths, h.trailer⟩ ha'
    obtain ⟨data, rest, u, rfl, rfl, ha₂, h₂, hfinal⟩ := storedData_accepted hn hin h₁ ha₁
    have hbits : bs' = lowBits r.bitCount r.bitTag.toNat ++ (bytesBits (littleEndian data.length ++
        (littleEndian (2 ^ 16 - 1 - data.length) ++ data)) ++ rest) := by
      rw [← hr.bits, BitReader.bits, hbs₁, ← List.append_assoc (littleEndian _), bytesBits_append _ data,
        List.append_assoc]
    refine ⟨_, rest, _, u, by rw [hbits, ← List.append_assoc], .stored hn ?_ ?_, ha₂, h₂, hfinal⟩
    · rw [lowBits_length]
      exact hr.count
    · have hlen := congrArg List.length hbits
      simp only [List.length_append, List.length_cons, lowBits_length, bytesBits_length] at hlen haligned ⊢
      have hrest := congrArg List.length hbs₁
      simp only [List.length_append, bytesBits_length] at hrest
      omega
  · obtain ⟨cs, rest, out', t, rfl, hdata, ha₁, h₁, hfinal⟩ := @data_accepted
      (pollBlockType 1 { s with rd := r, bfinal := final.toNat, stage := .blockType }) total out expected bs' fixedLit
      fixedDist _ rfl ⟨rfl, rfl, fixedLiteralTree_decodes.codes, fixedDistanceTree_decodes.codes⟩
      ⟨⟨hr.bits, hr.count, rfl, rfl⟩, h.written.same rfl rfl rfl rfl, h.target, fixedLiteralTree_size,
        fixedDistanceTree_size, h.lengths, h.trailer⟩ ha'
    exact ⟨cs, rest, out', t, rfl, .fixed hdata, ha₁, h₁, hfinal⟩
  · obtain ⟨hs', bs₁, lit, dist, t, rfl, hheader, ha₁, h₁, hdec, hfinal₁⟩ := @header_accepted
      (pollBlockType 2 { s with rd := r, bfinal := final.toNat, stage := .blockType }) total out expected bs' rfl rfl
      ⟨⟨hr.bits, hr.count, rfl, rfl⟩, h.written.same rfl rfl rfl rfl, h.target, h.literals, h.distances, h.lengths,
        h.trailer⟩ ha'
    obtain ⟨cs, rest, out', u, rfl, hdata, ha₂, h₂, hfinal₂⟩ := data_accepted rfl hdec h₁ ha₁
    exact ⟨hs' ++ cs, rest, out', u, (List.append_assoc _ _ _).symm, .dynamic hheader hdata, ha₂, h₂,
      hfinal₂.trans hfinal₁⟩

theorem blocks_accepted {n : Nat} (hn : bs.length = n) (hs : s.stage = .blockFinal) (haligned : 8 ∣ pos + bs.length)
    (h : Stands expected s bs out) (ha : Accepts tick total s out) :
    ∃ cs rest out' t, bs = cs ++ rest ∧ BlocksOf Bounded zlibWindowSize pos out cs out' ∧ Accepts tick total t out' ∧
      Stands expected t rest out' ∧ t.stage = .trailer := by
  induction n using Nat.strongRecOn generalizing s out bs pos with
  | _ n ih =>
    obtain ⟨final, cs, rest, out', t, rfl, hpos, hblock, haccepts, hstands, hstage⟩ := block_accepted hs haligned h ha
    rw [List.length_append] at hn haligned
    cases final with
    | true => exact ⟨cs, rest, out', t, rfl, .last hblock, haccepts, hstands, hstage⟩
    | false =>
      obtain ⟨cs', rest', out'', u, rfl, hblocks, hend⟩ := ih rest.length (by omega) rfl hstage
        (by rwa [Nat.add_assoc]) hstands haccepts
      exact ⟨cs ++ cs', rest', out'', u, (List.append_assoc _ _ _).symm, .more hblock hblocks, hend⟩

end Blocks

section Stream

variable {expected : UInt32} {stream out : Bytes}

theorem odZlibHeaderCheck_accepts {cmf flg : UInt8} (h : odZlibHeaderCheck cmf flg = .ok) :
    cmf.toNat % 16 = 8 ∧ declaredWindow cmf ≤ zlibWindowSize ∧ (256 * cmf.toNat + flg.toNat) % 31 = 0 ∧
      flg.toNat.testBit 5 = false := by
  unfold odZlibHeaderCheck at h
  split_ifs at h with hbad hbig
  rw [not_or, not_or] at hbad
  obtain ⟨hcheck, hmethod, hdictionary⟩ := hbad
  refine ⟨?_, ?_, not_not.mp hcheck, ?_⟩
  · have hlow := congrArg UInt8.toNat (not_not.mp hmethod)
    rw [UInt8.toNat_and] at hlow
    have hmod : cmf.toNat &&& (2 ^ 4 - 1) = 8 := hlow
    rwa [Nat.and_two_pow_sub_one_eq_mod] at hmod
  · rw [UInt8.toNat_shiftRight] at hbig
    have hshift : ¬ cmf.toNat >>> 4 + 8 > zlibWindowBits := hbig
    rw [Nat.shiftRight_eq_div_pow] at hshift
    exact Nat.pow_le_pow_right (by decide) (Nat.not_lt.mp hshift)
  · have hbit := congrArg UInt8.toNat (not_not.mp hdictionary)
    rw [UInt8.toNat_and] at hbit
    have hand : flg.toNat &&& 2 ^ 5 = 0 := hbit
    rw [Nat.and_two_pow] at hand
    cases hflag : flg.toNat.testBit 5 with
    | false => rfl
    | true =>
      rw [hflag] at hand
      cases hand

/-- An accepted run past the blocks has the padding of the last byte and the checksum to
read. -/
theorem trailer_left {t : Inflate} {rest : List Bool} (hs : t.stage = .trailer) (h : Stands expected t rest out)
    {total : Bytes} (ha : Accepts tick total t out) :
    total = out ∧ out.length = expected.toNat ∧ ∃ pad : List Bool, pad.length < 8 ∧
      rest = pad ++ bytesBits (bigEndian (adler32 out)) := by
  obtain ⟨o, rfl, he⟩ := ha
  obtain ⟨rfl, hlen, hfold, hcount⟩ := trailer_accepted he rfl hs (by rw [h.trailer.1]; decide)
  rw [h.trailer.1, Nat.zero_add] at hlen
  rw [h.trailer.2] at hfold
  have hinput := bigEndian_trailerFold hlen (n := adler32 out) (by rw [hfold, h.written.adler])
  refine ⟨List.append_nil out, ?_, lowBits t.rd.bitCount t.rd.bitTag.toNat, ?_, ?_⟩
  · rw [← h.written.count, hcount, h.target]
  · rw [lowBits_length]
    exact h.ready.count
  · rw [← h.ready.bits, BitReader.bits, hinput]

/-- What the machine accepts is a stream, and what it writes is the output of the stream. -/
theorem eval_zlib (h : Eval tick ((odZlibStreamReset expected).feed stream true) out true) :
    ZlibOf Bounded (fun _ => zlibWindowSize) zlibWindowSize stream out ∧ out.length = expected.toNat := by
  generalize hs : (odZlibStreamReset expected).feed stream true = s at h
  have hstage : s.stage = .zlibCmf := by rw [← hs]; rfl
  have hready : AtField s.rd (bytesBits stream) := by
    rw [← hs]
    exact ⟨rfl, Nat.zero_lt_succ 7, rfl, rfl⟩
  have ha : Accepts tick out s [] := ⟨out, rfl, h⟩
  have hstep₁ := ha.step
  simp only [tick, hstage] at hstep₁
  obtain ⟨cmf, r₁, hread₁, ha₁⟩ := accepted_read hstep₁
  obtain ⟨hinput₁, -⟩ := readByte_ends hread₁
  obtain ⟨bs₁, hbs₁, h₁, hcount₁⟩ := hready.byteRead (by rw [← hs]; rfl) hread₁
  have hstep₂ := Accepts.step ha₁
  simp only [tick] at hstep₂
  obtain ⟨flg, r₂, hread₂, hstep₂⟩ := accepted_read hstep₂
  obtain ⟨hinput₂, -⟩ := readByte_ends hread₂
  obtain ⟨bs₂, hbs₂, h₂, hcount₂⟩ := h₁.byteRead hcount₁ hread₂
  have hstream : stream = cmf :: flg :: r₂.input := by
    rw [← hinput₂, ← hinput₁, ← hs]
    rfl
  have hcheck : odZlibHeaderCheck cmf flg = .ok := by
    unfold nextUnlessError pollFlg at hstep₂
    dsimp only at hstep₂
    cases hc : odZlibHeaderCheck cmf flg with
    | ok => rfl
    | bad =>
      rw [hc] at hstep₂
      exact hstep₂.elim
    | windowTooBig =>
      rw [hc] at hstep₂
      exact hstep₂.elim
  simp only [nextUnlessError, pollFlg, hcheck, reduceCtorEq, if_false] at hstep₂
  obtain ⟨method, declared, check, dictionary⟩ := odZlibHeaderCheck_accepts hcheck
  have hbits₂ : bs₂ = bytesBits r₂.input := by
    rw [← h₂.bits, BitReader.bits, hcount₂]
    rfl
  subst hbits₂
  obtain ⟨cs, rest, out', t, hcs, hblocks, ha', hstands, htrailer⟩ := @blocks_accepted
    { s with rd := r₂, cmf := cmf, stage := .blockFinal } out [] expected (bytesBits r₂.input) 0 _ rfl rfl
    (by rw [bytesBits_length, Nat.zero_add]; exact ⟨_, rfl⟩)
    (by
      subst hs
      exact ⟨h₂, (Written.start expected).same rfl rfl rfl rfl, rfl, List.length_replicate, List.length_replicate,
        List.length_replicate, rfl, rfl⟩)
    hstep₂
  obtain ⟨rfl, hlen, pad, hpad, rfl⟩ := trailer_left htrailer hstands ha'
  rw [← List.append_assoc] at hcs
  obtain ⟨data, hdata, hbody⟩ := bytesBits_split_last hcs
  rw [hstream, hdata]
  exact ⟨.mk method declared check dictionary hbody hpad hblocks, hlen⟩

/-- Whenever a pump comes to its end, through whatever pushes and into whatever sink, the
bytes it was given are a stream and the bytes it delivered are its output, as many as were
expected. The two conditions of the format that the decoder does not check are that the
transmitted lengths are those of a code, and that copies stay in the declared window. -/
theorem odZlibPump_sound (expected : UInt32) {σ : Type} (sink : Bytes → σ → Bool × σ) (q₀ : σ) {xs input : Bytes}
    {p p' : Pump × (σ × Bytes)} {final : Bool} {scratch : Nat} (hrun : Pumping (recorded sink) expected (q₀, []) xs p)
    (hscratch : 0 < scratch) (hpush : odZlibPumpPush (recorded sink) input final scratch p = (.done, p')) :
    ZlibOf Bounded (fun _ => zlibWindowSize) zlibWindowSize (xs ++ input) p'.2.2 ∧
      p'.2.2.length = expected.toNat := by
  obtain ⟨p', q'⟩ := p'
  obtain ⟨out, -, hout, hinflates, -⟩ := hrun.decoded.push (recorded_sinks sink) rfl hscratch hpush
  obtain rfl : q'.2 = out := hout
  exact eval_zlib hinflates.eval

/-- Three bytes in a stored block, pushed whole. -/
theorem odZlibPump_sound_stored :
    ZlibOf Bounded (fun _ => zlibWindowSize) zlibWindowSize
      [0x18, 0x19, 0x01, 0x03, 0x00, 0xfc, 0xff, 0x61, 0x62, 0x63, 0x02, 0x4d, 0x01, 0x27]
      (odZlibPumpPush (recorded fun _ (q : Unit) => (true, q))
        [0x18, 0x19, 0x01, 0x03, 0x00, 0xfc, 0xff, 0x61, 0x62, 0x63, 0x02, 0x4d, 0x01, 0x27] true 4
        (odZlibPumpReset 3, (), [])).2.2.2 :=
  (odZlibPump_sound 3 (fun _ (q : Unit) => (true, q)) () .reset (Nat.zero_lt_succ 3)
    (Prod.ext (by decide +kernel) rfl)).1

end Stream

end OpenDisplay
