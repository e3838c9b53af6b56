import OpenDisplay.Inflate.Header

/-! The decoder is right: it turns every stream of the format into its output, and what it
accepts has the size and the checksum that it should have and nothing after it. -/

namespace OpenDisplay

open Loops Resumable Huffman Deflate

section Fixed

theorem fixedLit_length : fixedLit.length = 288 := by simp only [fixedLit, List.length_append, List.length_replicate]

deriving instance DecidableEq for Tree

theorem buildTree_fixedLit : (buildTree (.zero 288) 288 fixedLit).toOption = some fixedLiteralTree := by
  decide +kernel

theorem buildTree_fixedDist : (buildTree (.zero 32) 32 fixedDist).toOption = some fixedDistanceTree := by
  decide +kernel

theorem fixedLiteralTree_decodes : fixedLiteralTree.Decodes 288 fixedLit := by
  obtain ⟨t, hbuild, hdecodes, -⟩ := buildTree_decodes (t := .zero 288) fixedLit_valid fixedLit_length.le
    List.length_replicate.ge
  have heq := buildTree_fixedLit
  rw [hbuild] at heq
  rwa [← Option.some.inj heq]

theorem fixedDistanceTree_decodes : fixedDistanceTree.Decodes 32 fixedDist := by
  obtain ⟨t, hbuild, hdecodes, -⟩ := buildTree_decodes (t := .zero 32) fixedDist_valid (List.length_replicate.le)
    List.length_replicate.ge
  have heq := buildTree_fixedDist
  rw [hbuild] at heq
  rwa [← Option.some.inj heq]

theorem fixedLiteralTree_size : fixedLiteralTree.trans.length = 288 := by
  simp only [fixedLiteralTree, List.length_append, List.length_map, List.length_range]

theorem fixedDistanceTree_size : fixedDistanceTree.trans.length = 32 := List.length_range

end Fixed

section Stored

variable {s : Inflate} {out : Bytes} {expected : UInt32} {rest : List Bool}

theorem littleEndian_value {n : Nat} (hn : n < 2 ^ 16) :
    (UInt8.ofNat n).toUInt16 ||| ((UInt8.ofNat (n / 2 ^ 8)).toUInt16 <<< 8) = UInt16.ofNat n := by
  apply UInt16.toNat_inj.mp
  have hlow : (UInt8.ofNat n).toUInt16.toNat = n % 2 ^ 8 := by simp
  have hhigh : (UInt8.ofNat (n / 2 ^ 8)).toUInt16.toNat = n / 2 ^ 8 := by
    simp
    omega
  rw [UInt16.toNat_or, UInt16.toNat_shiftLeft, hlow, hhigh, UInt16.toNat_ofNat_of_lt' hn]
  show n % 2 ^ 8 ||| (n / 2 ^ 8) <<< 8 % 2 ^ 16 = n
  have hshift : (n / 2 ^ 8) <<< 8 < 2 ^ 16 := by
    rw [Nat.shiftLeft_eq]
    omega
  rw [Nat.mod_eq_of_lt hshift, Nat.or_comm, ← Nat.shiftLeft_add_eq_or_of_lt (by omega), Nat.shiftLeft_eq]
  omega

theorem stored_inverse {n : Nat} (hn : n < 2 ^ 16) : UInt16.ofNat n = ~~~ UInt16.ofNat (2 ^ 16 - 1 - n) := by
  apply UInt16.toNat_inj.mp
  rw [UInt16.toNat_not, UInt16.toNat_ofNat_of_lt' hn,
    UInt16.toNat_ofNat_of_lt' (Nat.lt_of_le_of_lt (Nat.sub_le _ _) (by decide))]
  show n = 2 ^ 16 - 1 - (2 ^ 16 - 1 - n)
  omega

/-- The decoder is at the data of a stored block, of which so many bytes are left. -/
structure InStored (s : Inflate) (n bfinal : Nat) : Prop where
  stage : s.stage = .storedData
  left : s.storedLen = UInt16.ofNat n
  aligned : s.rd.bitCount = 0
  bfinal : s.bfinal = bfinal

theorem tick_storedLen (hs : s.stage = .storedLen) :
    tick s = headerTick (fun t => .next { t with stage := .storedData }) (storedHeaderPass s) := by
  simp [tick, hs]

theorem storedLen_runs {n : Nat} (hn : n < 2 ^ 16) (hs : s.stage = .storedLen) (hi : s.storedHeaderIndex = 0)
    (hcount : s.rd.bitCount = 0)
    (h : Stands expected s (bytesBits (littleEndian n ++ littleEndian (2 ^ 16 - 1 - n)) ++ rest) out) :
    ∃ t, Runs s out t out ∧ Stands expected t rest out ∧ InStored t n s.bfinal := by
  obtain ⟨r₁, hread₁, hcount₁, h₁⟩ := readByte_ready hcount h.ready
  obtain ⟨r₂, hread₂, hcount₂, h₂⟩ := readByte_ready hcount₁ h₁
  obtain ⟨r₃, hread₃, hcount₃, h₃⟩ := readByte_ready hcount₂ h₂
  obtain ⟨r₄, hread₄, hcount₄, h₄⟩ := readByte_ready hcount₃ h₃
  have htick₁ : tick s = .next { s with rd := r₁, storedLen := (UInt8.ofNat n).toUInt16, storedHeaderIndex := 1 } := by
    rw [tick_storedLen hs, storedHeaderPass]
    simp [hi, Inflate.read, hread₁, onRead, headerTick]
  have htick₂ : tick { s with rd := r₁, storedLen := (UInt8.ofNat n).toUInt16, storedHeaderIndex := 1 } =
      .next { s with rd := r₂, storedLen := UInt16.ofNat n, storedHeaderIndex := 2 } := by
    rw [tick_storedLen (by exact hs), storedHeaderPass, ← littleEndian_value hn]
    simp only [Inflate.read, hread₂, onRead, headerTick]
    rfl
  have htick₃ : tick { s with rd := r₂, storedLen := UInt16.ofNat n, storedHeaderIndex := 2 } =
      .next { s with
        rd := r₃, storedLen := UInt16.ofNat n, storedInvlen := (UInt8.ofNat (2 ^ 16 - 1 - n)).toUInt16
        storedHeaderIndex := 3 } := by
    rw [tick_storedLen (by exact hs), storedHeaderPass]
    simp only [Inflate.read, hread₃, onRead, headerTick]
    rfl
  have htick₄ : tick { s with
        rd := r₃, storedLen := UInt16.ofNat n, storedInvlen := (UInt8.ofNat (2 ^ 16 - 1 - n)).toUInt16
        storedHeaderIndex := 3 } =
      .next { s with
        rd := r₄, storedLen := UInt16.ofNat n, storedInvlen := UInt16.ofNat (2 ^ 16 - 1 - n)
        storedHeaderIndex := 4 } := by
    rw [tick_storedLen (by exact hs), storedHeaderPass, ← littleEndian_value (by omega : 2 ^ 16 - 1 - n < 2 ^ 16)]
    simp only [Inflate.read, hread₄, onRead, headerTick]
    rfl
  have htick₅ : tick { s with
        rd := r₄, storedLen := UInt16.ofNat n, storedInvlen := UInt16.ofNat (2 ^ 16 - 1 - n)
        storedHeaderIndex := 4 } =
      .next { s with
        rd := r₄, storedLen := UInt16.ofNat n, storedInvlen := UInt16.ofNat (2 ^ 16 - 1 - n)
        storedHeaderIndex := 0, stage := .storedData } := by
    rw [tick_storedLen (by exact hs), storedHeaderPass]
    simp only [Nat.lt_irrefl, if_false, ne_eq, ← stored_inverse hn, not_true_eq_false, headerTick]
  exact ⟨_, .next htick₁ (.next htick₂ (.next htick₃ (.next htick₄ (.next htick₅ (.refl _ _))))),
    ⟨h₄, h.written.same rfl rfl rfl rfl, h.target, h.literals, h.distances, h.lengths, h.trailer⟩,
    ⟨rfl, rfl, hcount₄, rfl⟩⟩

theorem tick_storedData (hs : s.stage = .storedData) : tick s = dataTick (storedDataPass 1 ([], s)) := by
  simp [tick, hs]

theorem storedData_runs {bfinal : Nat} (data : Bytes) (hlen : data.length < 2 ^ 16)
    (hin : InStored s data.length bfinal)
    (h : Stands expected s (bytesBits data ++ rest) out) (hroom : (out ++ data).length ≤ expected.toNat) :
    ∃ t, Runs s out (endBlock t) (out ++ data) ∧ Stands expected t rest (out ++ data) ∧ t.bfinal = bfinal := by
  induction data generalizing s out with
  | nil =>
    have htick : tick s = .next (endBlock s) := by
      rw [tick_storedData hin.stage, storedDataPass, if_pos (by exact hin.left)]
      rfl
    rw [List.append_nil]
    exact ⟨s, .next htick (.refl _ _), h, hin.bfinal⟩
  | cons b data ih =>
    obtain ⟨r, hread, hcount, hready⟩ := readByte_ready hin.aligned h.ready
    rw [List.length_append, List.length_cons] at hroom
    rw [List.length_cons] at hlen
    have hcounted : s.storedLen = UInt16.ofNat (data.length + 1) := hin.left
    have hleft : s.storedLen ≠ 0 := by
      rw [hcounted, ne_eq, ← UInt16.toNat_inj, UInt16.toNat_ofNat_of_lt' hlen]
      exact Nat.succ_ne_zero _
    have hread' : Stands expected { s with rd := r } (bytesBits data ++ rest) out :=
      ⟨hready, h.written.same rfl rfl rfl rfl, h.target, h.literals, h.distances, h.lengths, h.trailer⟩
    have hfree := hread'.room (by omega)
    have hput := hread'.put (by omega) b
    have htick : tick s = .emit b { recordOutputByte b { s with rd := r } with storedLen := s.storedLen - 1 } := by
      rw [tick_storedData hin.stage, storedDataPass, if_neg hleft, if_neg (by simp), Inflate.read_eq hread]
      simp only [onData]
      rw [putOutputByte_room hfree]
      rfl
    have hone : (1 : UInt16) ≤ UInt16.ofNat (data.length + 1) := by
      rw [UInt16.le_iff_toNat_le, UInt16.toNat_ofNat_of_lt' hlen]
      exact Nat.succ_le_succ (Nat.zero_le _)
    have hnext : s.storedLen - 1 = UInt16.ofNat data.length := by
      rw [hcounted]
      apply UInt16.toNat_inj.mp
      rw [UInt16.toNat_sub_of_le _ _ hone, UInt16.toNat_ofNat_of_lt' hlen,
        UInt16.toNat_ofNat_of_lt' (Nat.lt_of_succ_lt hlen),
        UInt16.toNat_one, Nat.add_sub_cancel]
    obtain ⟨t, hruns, hstands, hfinal⟩ := @ih
      { recordOutputByte b { s with rd := r } with storedLen := s.storedLen - 1 } (out ++ [b]) (by omega)
      ⟨hin.stage, hnext, hcount, hin.bfinal⟩ ⟨hput.ready, hput.written.same rfl rfl rfl rfl, hput.target, hput.literals,
        hput.distances, hput.lengths, hput.trailer⟩ (by simp; omega)
    rw [List.append_assoc, List.singleton_append] at hruns hstands
    exact ⟨t, .emit htick hruns, hstands, hfinal⟩

end Stored

section Blocks

variable {s : Inflate} {out out' : Bytes} {expected : UInt32} {bs rest : List Bool} {window pos : Nat} {final : Bool}

theorem type_runs {v : Nat} (hv : v < 3) (hs : s.stage = .blockFinal)
    (h : Stands expected s (final :: (lowBits 2 v ++ rest)) out) :
    ∃ r, AtField r rest ∧
      Runs s out (pollBlockType v { s with rd := r, bfinal := final.toNat, stage := .blockType }) out := by
  obtain ⟨r₁, hread₁, h₁⟩ := readBit_ready h.ready
  obtain ⟨r₂, hread₂, h₂⟩ := readBits_ready 0 (by omega : v < 2 ^ 2) h₁
  have htick₁ : tick s = .next { s with rd := r₁, bfinal := final.toNat, stage := .blockType } := by
    simp [tick, hs, Inflate.read, hread₁, onTick]
  have htick₂ : tick { s with rd := r₁, bfinal := final.toNat, stage := .blockType } =
      .next (pollBlockType v { s with rd := r₂, bfinal := final.toNat, stage := .blockType }) := by
    have hfine : (pollBlockType v { s with rd := r₂, bfinal := final.toNat, stage := .blockType }).stage ≠ .error := by
      obtain rfl | rfl | rfl : v = 0 ∨ v = 1 ∨ v = 2 := by omega
      all_goals simp [pollBlockType, buildFixedTrees]
    simp only [tick, Inflate.read, hread₂, onTick, Nat.add_zero, nextUnlessError, hfine, if_false]
  exact ⟨r₂, h₂, .next htick₁ (.next htick₂ (.refl _ _))⟩

theorem endBlock_stands (h : Stands expected s rest out) : Stands expected (endBlock s) rest out :=
  ⟨h.ready, h.written.same rfl rfl rfl rfl, h.target, h.literals, h.distances, h.lengths, h.trailer⟩

/-- One block takes the decoder to the end of the block. The last block is followed by the
trailer, and any other by the next block. -/
theorem block_runs (hblock : Block window pos final out bs out') (hwindow : window ≤ zlibWindowSize)
    (hs : s.stage = .blockFinal) (h : Stands expected s (bs ++ rest) out) (haligned : 8 ∣ pos + (bs ++ rest).length)
    (hroom : out'.length ≤ expected.toNat) :
    ∃ t, Runs s out t out' ∧ Stands expected t rest out' ∧ t.stage = if final then .trailer else .blockFinal := by
  suffices hend : ∃ t, Runs s out (endBlock t) out' ∧ Stands expected t rest out' ∧ t.bfinal = final.toNat by
    obtain ⟨t, hruns, hstands, hfinal⟩ := hend
    refine ⟨_, hruns, endBlock_stands hstands, ?_⟩
    rw [endBlock, hfinal]
    cases final <;> rfl
  cases hblock with
  | @stored data pad hlen hpad hpos =>
    simp only [List.append_assoc] at h haligned
    obtain ⟨r, hready, hruns⟩ := type_runs (v := 0) (by decide) hs h
    -- the bits left of the current byte are exactly the padding
    have hlength := congrArg List.length hready.bits
    simp only [BitReader.bits, List.length_append, List.length_cons, List.length_nil, lowBits_length, bytesBits_length]
      at hlength haligned
    have hcount := hready.count
    have hpadded : r.bitCount = pad.length := by omega
    obtain ⟨-, hinput⟩ := List.append_inj hready.bits (by rw [lowBits_length, hpadded])
    rw [← List.append_assoc (littleEndian _), bytesBits_append, List.append_assoc] at hinput
    obtain ⟨t, hruns₁, hstands₁, hin₁⟩ := @storedLen_runs
      (pollBlockType 0 { s with rd := r, bfinal := final.toNat, stage := .blockType }) out expected
      (bytesBits data ++ rest) data.length hlen rfl rfl rfl
      ⟨⟨hinput, Nat.zero_lt_succ 7, hready.field, hready.symbol⟩, h.written.same rfl rfl rfl rfl, h.target,
        h.literals, h.distances, h.lengths, h.trailer⟩
    obtain ⟨u, hruns₂, hstands₂, hfinal⟩ := storedData_runs data hlen hin₁ hstands₁ hroom
    exact ⟨u, hruns.trans (hruns₁.trans hruns₂), hstands₂, hfinal⟩
  | @fixed _ bs hdata =>
    obtain ⟨r, hready, hruns⟩ := type_runs (v := 1) (by decide) hs h
    obtain ⟨t, hruns₁, hstands, hfinal⟩ := @data_runs
      (pollBlockType 1 { s with rd := r, bfinal := final.toNat, stage := .blockType }) out expected bs rest fixedLit
      fixedDist window out' hdata hwindow ⟨rfl, rfl, fixedLiteralTree_decodes, fixedDistanceTree_decodes⟩
      ⟨⟨hready.bits, hready.count, rfl, rfl⟩, h.written.same rfl rfl rfl rfl, h.target, fixedLiteralTree_size,
        fixedDistanceTree_size, h.lengths, h.trailer⟩ hroom
    exact ⟨t, hruns.trans hruns₁, hstands, hfinal⟩
  | @dynamic _ hs' bs' lit dist hheader hdata =>
    simp only [List.append_assoc] at h
    obtain ⟨r, hready, hruns⟩ := type_runs (v := 2) (by decide) hs h
    obtain ⟨t, hruns₁, hstands₁, hin₁, hfinal₁⟩ := @header_runs
      (pollBlockType 2 { s with rd := r, bfinal := final.toNat, stage := .blockType }) out expected hs'
      (bs' ++ rest) lit dist hheader rfl rfl hdata.ends
      ⟨⟨hready.bits, hready.count, rfl, rfl⟩, h.written.same rfl rfl rfl rfl, h.target, h.literals,
        h.distances, h.lengths, h.trailer⟩
    obtain ⟨u, hruns₂, hstands₂, hfinal₂⟩ := data_runs hdata hwindow hin₁ hstands₁ hroom
    exact ⟨u, hruns.trans (hruns₁.trans hruns₂), hstands₂, hfinal₂.trans hfinal₁⟩

theorem blocks_runs (hblocks : Blocks window pos out bs out') (hwindow : window ≤ zlibWindowSize)
    (hs : s.stage = .blockFinal) (h : Stands expected s (bs ++ rest) out) (haligned : 8 ∣ pos + (bs ++ rest).length)
    (hroom : out'.length ≤ expected.toNat) :
    ∃ t, Runs s out t out' ∧ Stands expected t rest out' ∧ t.stage = .trailer := by
  induction hblocks generalizing s with
  | last hblock => exact block_runs hblock hwindow hs h haligned hroom
  | @more pos out out₁ out₂ bs bs' hblock hrest ih =>
    rw [List.append_assoc] at h haligned
    obtain ⟨t, hruns₁, hstands₁, hstage₁⟩ := block_runs hblock hwindow hs h haligned
      (hrest.grows.length_le.trans hroom)
    rw [List.length_append, ← Nat.add_assoc] at haligned
    obtain ⟨u, hruns₂, hstands₂, hstage₂⟩ := ih hstage₁ hstands₁ haligned hroom
    exact ⟨u, hruns₁.trans hruns₂, hstands₂, hstage₂⟩

end Blocks

section Trailer

variable {s : Inflate} {out : Bytes} {expected : UInt32}

/-- The value of the trailer's bytes, after those that are read. -/
def trailerFold (value : UInt32) (bytes : Bytes) : UInt32 :=
  bytes.foldl (fun value byte => value <<< 8 ||| byte.toUInt32) value

theorem tick_trailer (hs : s.stage = .trailer) : tick s = headerTick (fun _ => .done) (trailerPass s) := by
  simp [tick, hs]

theorem tick_trailer_byte {b : UInt8} {bytes : Bytes} (hs : s.stage = .trailer) (hi : s.trailerIndex < 4)
    (hinput : s.rd.input = b :: bytes) :
    tick s = .next { s with
      rd := { s.rd with input := bytes }, trailerValue := s.trailerValue <<< 8 ||| b.toUInt32
      trailerIndex := s.trailerIndex + 1 } := by
  rw [tick_trailer hs, trailerPass, if_pos hi]
  simp only [Inflate.read, readByte, hinput, onRead, headerTick]

theorem trailer_accepts (bytes : Bytes) (hs : s.stage = .trailer) (hi : s.trailerIndex + bytes.length = 4)
    (hinput : s.rd.input = bytes) (hvalue : trailerFold s.trailerValue bytes = s.adler)
    (hcount : s.outputCount = s.expectedOutput) : Eval tick s [] true := by
  induction bytes generalizing s with
  | nil =>
    refine .done ?_
    have hend : ¬ s.trailerIndex < 4 := by
      rw [List.length_nil] at hi
      omega
    have hsum : s.trailerValue = s.adler := hvalue
    rw [tick_trailer hs, trailerPass, if_neg hend, if_neg (not_not.mpr hsum), if_neg (not_not.mpr hcount),
      if_neg (not_not.mpr hinput)]
    rfl
  | cons b bytes ih =>
    rw [List.length_cons] at hi
    refine .next (tick_trailer_byte hs (by omega) hinput) ?_
    exact ih hs (by show s.trailerIndex + 1 + bytes.length = 4; omega) rfl hvalue hcount

theorem shiftIn_toNat {v : UInt32} (hv : v.toNat < 2 ^ 24) (b : UInt8) :
    (v <<< 8 ||| b.toUInt32).toNat = v.toNat * 2 ^ 8 + b.toNat := by
  have hb := b.toNat_lt
  have hshift : v.toNat <<< 8 < 2 ^ 32 := by
    rw [Nat.shiftLeft_eq]
    omega
  rw [UInt32.toNat_or, UInt32.toNat_shiftLeft, UInt8.toNat_toUInt32]
  show v.toNat <<< 8 % 2 ^ 32 ||| b.toNat = _
  rw [Nat.mod_eq_of_lt hshift, ← Nat.shiftLeft_add_eq_or_of_lt (by omega), Nat.shiftLeft_eq]

theorem trailerFold_toNat (a b c d : UInt8) :
    (trailerFold 0 [a, b, c, d]).toNat = a.toNat * 2 ^ 24 + b.toNat * 2 ^ 16 + c.toNat * 2 ^ 8 + d.toNat := by
  have ha := a.toNat_lt
  have hb := b.toNat_lt
  have hc := c.toNat_lt
  have h₁ := shiftIn_toNat (v := 0) (by decide) a
  rw [UInt32.toNat_zero] at h₁
  have h₂ := shiftIn_toNat (by rw [h₁]; omega) b
  have h₃ := shiftIn_toNat (by rw [h₂, h₁]; omega) c
  have h₄ := shiftIn_toNat (by rw [h₃, h₂, h₁]; omega) d
  show (((((0 : UInt32) <<< 8 ||| a.toUInt32) <<< 8 ||| b.toUInt32) <<< 8 ||| c.toUInt32) <<< 8 |||
    d.toUInt32).toNat = _
  rw [h₄, h₃, h₂, h₁]
  omega

theorem trailerFold_bigEndian {v : UInt32} {n : Nat} (h : v.toNat = n) : trailerFold 0 (bigEndian n) = v := by
  have hv := v.toNat_lt
  apply UInt32.toNat_inj.mp
  rw [bigEndian, trailerFold_toNat]
  simp only [UInt8.toNat_ofNat']
  omega

theorem bigEndian_trailerFold {bytes : Bytes} (hlen : bytes.length = 4) {n : Nat}
    (h : (trailerFold 0 bytes).toNat = n) : bytes = bigEndian n := by
  obtain ⟨a, b, c, d, rfl⟩ := List.length_eq_four.mp hlen
  have ha := a.toNat_lt
  have hb := b.toNat_lt
  have hc := c.toNat_lt
  have hd := d.toNat_lt
  rw [trailerFold_toNat] at h
  have hbyte : ∀ {x : UInt8} {m : Nat}, m % 2 ^ 8 = x.toNat → x = UInt8.ofNat m := by
    intro x m hm
    apply UInt8.toNat_inj.mp
    rw [UInt8.toNat_ofNat', hm]
  rw [bigEndian, ← hbyte (x := a), ← hbyte (x := b), ← hbyte (x := c), ← hbyte (x := d)]
  all_goals omega

end Trailer

section Stream

variable {expected : UInt32} {stream out : Bytes}

theorem odZlibHeaderCheck_ok {cmf flg : UInt8} (method : cmf.toNat % 16 = 8)
    (declared : declaredWindow cmf ≤ zlibWindowSize) (check : (256 * cmf.toNat + flg.toNat) % 31 = 0)
    (dictionary : flg.toNat.testBit 5 = false) : odZlibHeaderCheck cmf flg = .ok := by
  have hmethod : cmf &&& 0x0f = 8 := by
    apply UInt8.toNat_inj.mp
    rw [UInt8.toNat_and]
    show cmf.toNat &&& (2 ^ 4 - 1) = 8
    rw [Nat.and_two_pow_sub_one_eq_mod]
    exact method
  have hdictionary : flg &&& 0x20 = 0 := by
    apply UInt8.toNat_inj.mp
    rw [UInt8.toNat_and]
    show flg.toNat &&& 2 ^ 5 = 0
    rw [Nat.and_two_pow, dictionary]
    rfl
  have hwindow : ¬ (cmf >>> 4).toNat + 8 > zlibWindowBits := by
    rw [UInt8.toNat_shiftRight]
    show ¬ cmf.toNat >>> 4 + 8 > zlibWindowBits
    rw [Nat.shiftRight_eq_div_pow]
    exact Nat.not_lt.mpr ((Nat.pow_le_pow_iff_right (by decide)).mp declared)
  rw [odZlibHeaderCheck, if_neg, if_neg hwindow]
  rintro (h | h | h)
  · exact h check
  · exact h hmethod
  · exact h hdictionary

theorem zlib_eval (h : Zlib zlibWindowSize stream out) (hlen : out.length = expected.toNat) :
    Eval tick ((odZlibStreamReset expected).feed stream true) out true := by
  obtain @⟨cmf, flg, data, out, bs, pad, method, declared, check, dictionary, body, pad_lt, blocks⟩ := h
  generalize hs : (odZlibStreamReset expected).feed (cmf :: flg :: (data ++ bigEndian (adler32 out))) true = s
  have hbits : bytesBits (data ++ bigEndian (adler32 out)) = bs ++ (pad ++ bytesBits (bigEndian (adler32 out))) := by
    rw [bytesBits_append, body, List.append_assoc]
  have hready : AtField s.rd (bytesBits (cmf :: flg :: (data ++ bigEndian (adler32 out))) ++ []) := by
    rw [← hs, List.append_nil]
    exact ⟨rfl, Nat.zero_lt_succ 7, rfl, rfl⟩
  obtain ⟨r₁, hread₁, hcount₁, h₁⟩ := readByte_ready (by rw [← hs]; rfl) hready
  obtain ⟨r₂, hread₂, hcount₂, h₂⟩ := readByte_ready hcount₁ h₁
  rw [List.append_nil, hbits] at h₂
  have htick₁ : tick s = .next { s with rd := r₁, cmf := cmf, stage := .zlibFlg } := by
    have hstage : s.stage = .zlibCmf := by rw [← hs]; rfl
    simp only [tick, hstage, Inflate.read, hread₁, onTick]
  have htick₂ : tick { s with rd := r₁, cmf := cmf, stage := .zlibFlg } =
      .next { s with rd := r₂, cmf := cmf, stage := .blockFinal } := by
    simp only [tick, Inflate.read, hread₂, onTick, pollFlg, odZlibHeaderCheck_ok method declared check dictionary,
      nextUnlessError]
    rfl
  have hstart : Stands expected { s with rd := r₂, cmf := cmf, stage := .blockFinal }
      (bs ++ (pad ++ bytesBits (bigEndian (adler32 out)))) [] := by
    subst hs
    exact ⟨h₂, (Written.start expected).same rfl rfl rfl rfl, rfl, List.length_replicate, List.length_replicate,
      List.length_replicate, rfl, rfl⟩
  have haligned : 8 ∣ 0 + (bs ++ (pad ++ bytesBits (bigEndian (adler32 out)))).length := by
    rw [← hbits, bytesBits_length, Nat.zero_add]
    exact ⟨_, rfl⟩
  obtain ⟨t, ⟨o, hpath, rfl⟩, hstands, hstage⟩ := blocks_runs blocks declared rfl hstart haligned hlen.le
  -- what is left of the current byte is the padding, and the trailer is all there is after it
  have hlength := congrArg List.length hstands.ready.bits
  simp only [BitReader.bits, List.length_append, lowBits_length, bytesBits_length] at hlength
  have hcount := hstands.ready.count
  obtain ⟨-, hinput⟩ := List.append_inj hstands.ready.bits (by rw [lowBits_length]; omega)
  obtain ⟨zs, hzs, hnil⟩ := bytesBits_split (hinput.trans (List.append_nil _).symm)
  have hrest : zs = [] := by
    have hzero := congrArg List.length hnil
    rw [bytesBits_length, List.length_nil] at hzero
    exact List.length_eq_zero_iff.mp (by omega)
  rw [hrest, List.append_nil] at hzs
  have htrailer : Eval tick t [] true := by
    refine trailer_accepts _ hstage ?_ hzs ?_ ?_
    · rw [hstands.trailer.1]
      rfl
    · rw [hstands.trailer.2]
      exact trailerFold_bigEndian hstands.written.adler
    · apply UInt32.toNat_inj.mp
      rw [hstands.written.count, hlen, hstands.target]
  have hfinal : s.rd.inputFinal = true := by rw [← hs]; rfl
  have heval := final_embeds.eval (Path.next htick₁ (.next htick₂ hpath)) hfinal htrailer
  rwa [List.append_nil] at heval

end Stream

end OpenDisplay
