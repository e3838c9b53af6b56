import OpenDisplay.Inflate.Blocks

/-! The header of a block with transmitted codes: its sizes, the code for code lengths,
and the code lengths themselves, read in this order. -/

namespace OpenDisplay

open Loops Resumable Huffman Deflate

section Fill

theorem fillLengths_succ (start count value : Nat) (ls : List Nat) :
    fillLengths start (count + 1) value ls = (fillLengths start count value ls).set (start + count) value := by
  rw [fillLengths, List.range_succ, List.foldl_append]
  rfl

theorem fillLengths_length (start count value : Nat) (ls : List Nat) :
    (fillLengths start count value ls).length = ls.length := by
  induction count with
  | zero => rfl
  | succ count ih => rw [fillLengths_succ, List.length_set, ih]

theorem fillLengths_take (start count value : Nat) {ls : List Nat} (h : start + count ≤ ls.length) :
    (fillLengths start count value ls).take (start + count) = ls.take start ++ List.replicate count value := by
  induction count with
  | zero =>
    rw [List.replicate_zero, List.append_nil]
    rfl
  | succ count ih =>
    have hlt : start + count < (fillLengths start count value ls).length := by
      rw [fillLengths_length]
      omega
    rw [fillLengths_succ, ← Nat.add_assoc, List.take_succ_eq_append_getElem (by rwa [List.length_set]),
      List.take_set_of_le (Nat.le_refl _), ih (by omega), List.getElem_set_self, List.append_assoc,
      ← List.replicate_succ']

end Fill

section Sizes

variable {s : Inflate} {out : Bytes} {expected : UInt32} {rest : List Bool}

theorem tick_dynamic (hs : s.stage = .dynamicTrees) :
    tick s = headerTick (fun t => .next { t with blockStage := .symbol, stage := .blockData }) (dynamicPass s) := by
  simp [tick, hs]

/-- The decoder stands in a header, at this stage of it and with these sizes. -/
structure InHeader (s : Inflate) (part : DynamicStage) (lits dists sizes final : Nat) : Prop where
  stage : s.stage = .dynamicTrees
  dynamicStage : s.dynamicStage = part
  hlit : s.hlit = lits
  hdist : s.hdist = dists
  hclen : s.hclen = sizes
  bfinal : s.bfinal = final

theorem sizes_runs {a b c : Nat} (hs : s.stage = .dynamicTrees) (hd : s.dynamicStage = .hlit) (ha : a < 30)
    (hb : b < 32) (hc : c < 16)
    (h : Stands expected s (lowBits 5 a ++ (lowBits 5 b ++ (lowBits 4 c ++ rest))) out) :
    ∃ t, Runs s out t out ∧ Stands expected t rest out ∧
      InHeader t .clearClen (a + 257) (b + 1) (c + 4) s.bfinal ∧ t.dynI = 0 := by
  obtain ⟨r₁, hread₁, h₁⟩ := readBits_ready 257 (by omega : a < 2 ^ 5) h.ready
  have htick₁ : tick s = .next { s with rd := r₁, hlit := a + 257, dynamicStage := .hdist } := by
    rw [tick_dynamic hs, dynamicPass, hd]
    simp only [Inflate.read, hread₁, onRead, headerTick]
  obtain ⟨r₂, hread₂, h₂⟩ := readBits_ready 1 (by omega : b < 2 ^ 5) h₁
  have htick₂ : tick { s with rd := r₁, hlit := a + 257, dynamicStage := .hdist } =
      .next { s with rd := r₂, hlit := a + 257, hdist := b + 1, dynamicStage := .hclen } := by
    rw [tick_dynamic (by exact hs), dynamicPass]
    simp only [Inflate.read, hread₂, onRead, headerTick]
  obtain ⟨r₃, hread₃, h₃⟩ := readBits_ready 4 (by omega : c < 2 ^ 4) h₂
  have htick₃ : tick { s with rd := r₂, hlit := a + 257, hdist := b + 1, dynamicStage := .hclen } =
      .next { s with
        rd := r₃, hlit := a + 257, hdist := b + 1, hclen := c + 4, dynI := 0, dynamicStage := .clearClen } := by
    have hsizes : ¬ (a + 257 > 286 ∨ b + 1 > 32 ∨ a + 257 + (b + 1) > 320) := by omega
    rw [tick_dynamic (by exact hs), dynamicPass]
    simp only [Inflate.read, hread₃, onRead, dynamicSizes, hsizes, if_false, headerTick]
  exact ⟨_, .next htick₁ (.next htick₂ (.next htick₃ (.refl _ _))),
    ⟨h₃, h.written.same rfl rfl rfl rfl, h.target, h.literals, h.distances, h.lengths, h.trailer⟩,
    ⟨hs, rfl, rfl, rfl, rfl, rfl⟩, rfl⟩

/-- The code lengths that are read so far, each in its place, and 0 for the others. -/
def Sent (lengths sent : List Nat) : Prop :=
  ∀ sym < 19, lengths.getD sym 0 = sent.getD (codeLengthOrder.idxOf sym) 0

theorem clear_runs {hlit hdist hclen bfinal : Nat} (hin : InHeader s .clearClen hlit hdist hclen bfinal)
    (hi : s.dynI = 0) (h : Stands expected s rest out) :
    ∃ t, Runs s out t out ∧ Stands expected t rest out ∧ InHeader t .readClen hlit hdist hclen bfinal ∧
      t.dynI = 0 ∧ Sent t.lengths [] := by
  have hsize : (fillLengths 0 19 0 s.lengths).length = 320 := by rw [fillLengths_length, h.lengths]
  have htake := fillLengths_take 0 19 0 (by rw [h.lengths]; decide)
  have htick : tick s = .next { s with
      lengths := fillLengths 0 19 0 s.lengths, dynI := 0, dynamicStage := .readClen } := by
    rw [tick_dynamic hin.stage, dynamicPass, hin.dynamicStage]
    simp only [hi, headerTick, Nat.sub_zero]
  generalize fillLengths 0 19 0 s.lengths = cleared at hsize htake htick
  refine ⟨_, .next htick (.refl _ _), ⟨h.ready, h.written.same rfl rfl rfl rfl, h.target, h.literals, h.distances,
    hsize, h.trailer⟩, ⟨hin.stage, rfl, hin.hlit, hin.hdist, hin.hclen, hin.bfinal⟩, rfl, ?_⟩
  intro sym hsym
  have hget : cleared.getD sym 0 = (cleared.take (0 + 19)).getD sym 0 := by
    rw [List.getD_eq_getElem?_getD, List.getD_eq_getElem?_getD, List.getElem?_take_of_lt (by omega)]
  show cleared.getD sym 0 = _
  rw [hget, htake, List.take_zero, List.nil_append, List.getD_eq_getElem?_getD, List.getElem?_replicate, if_pos hsym]
  rfl

theorem codeLengthOrder_idxOf : ∀ i < 19, ∀ sym < 19,
    (codeLengthOrder.idxOf sym = i ↔ clcidx.getD i 0 = sym) ∧ clcidx.getD i 0 < 19 := by
  decide

theorem Sent.set {lengths sent : List Nat} {v : Nat} (h : Sent lengths sent) (hsize : 19 ≤ lengths.length)
    (hlen : sent.length < 19) : Sent (lengths.set (clcidx.getD sent.length 0) v) (sent ++ [v]) := by
  intro sym hsym
  obtain ⟨hiff, hlt⟩ := codeLengthOrder_idxOf _ hlen _ hsym
  by_cases hat : codeLengthOrder.idxOf sym = sent.length
  · have hplace := hiff.mp hat
    rw [hat, hplace]
    simp [show sym < lengths.length by omega]
  · have hplace : clcidx.getD sent.length 0 ≠ sym := fun heq => hat (hiff.mpr heq)
    have hold := h sym hsym
    simp only [List.getD_eq_getElem?_getD] at hold hplace ⊢
    rw [List.getElem?_set_ne hplace, hold]
    by_cases hin : codeLengthOrder.idxOf sym < sent.length
    · rw [List.getElem?_append_left hin]
    · rw [List.getElem?_eq_none (by omega), List.getElem?_eq_none (by simp; omega)]

theorem Sent.take {lengths sent : List Nat} (h : Sent lengths sent) (hsize : 19 ≤ lengths.length) :
    lengths.take 19 = codeLengths sent := by
  apply List.ext_getElem
  · simp [codeLengths, hsize]
  · intro i hi hi'
    have hlt : i < 19 := by simp at hi; omega
    have hget := h i hlt
    rw [List.getD_eq_getElem _ _ (by omega)] at hget
    simpa [codeLengths] using hget

theorem sent_runs {hlit hdist hclen bfinal : Nat} (sent more : List Nat)
    (hin : InHeader s .readClen hlit hdist hclen bfinal) (hi : s.dynI = sent.length) (hsent : Sent s.lengths sent)
    (hclen_eq : (sent ++ more).length = hclen) (hclen_le : hclen ≤ 19) (hmore : ∀ n ∈ more, n < 8)
    (h : Stands expected s (more.flatMap (lowBits 3) ++ rest) out) :
    ∃ t, Runs s out t out ∧ Stands expected t rest out ∧ InHeader t .buildCltree hlit hdist hclen bfinal ∧
      t.lengths.take 19 = codeLengths (sent ++ more) := by
  induction more generalizing s sent with
  | nil =>
    rw [List.append_nil] at hclen_eq ⊢
    have htick : tick s = .next { s with dynamicStage := .buildCltree } := by
      have hend : ¬ s.dynI < s.hclen := by
        rw [hi, hin.hclen, hclen_eq]
        exact Nat.lt_irrefl _
      rw [tick_dynamic hin.stage, dynamicPass, hin.dynamicStage]
      simp only [hend, if_false, headerTick]
    exact ⟨_, .next htick (.refl _ _), ⟨h.ready, h.written.same rfl rfl rfl rfl, h.target, h.literals, h.distances,
      h.lengths, h.trailer⟩, ⟨hin.stage, rfl, hin.hlit, hin.hdist, hin.hclen, hin.bfinal⟩,
      hsent.take (by rw [h.lengths]; decide)⟩
  | cons v more ih =>
    rw [List.flatMap_cons, List.append_assoc] at h
    have hv : v < 8 := hmore v List.mem_cons_self
    rw [List.length_append, List.length_cons] at hclen_eq
    obtain ⟨r, hread, hready⟩ := readBits_ready 0 (by omega : v < 2 ^ 3) h.ready
    have htick : tick s = .next { s with
        rd := r, lengths := s.lengths.set (clcidx.getD sent.length 0) v, dynI := sent.length + 1 } := by
      have hlt : sent.length < s.hclen := by
        rw [hin.hclen]
        omega
      rw [tick_dynamic hin.stage, dynamicPass]
      simp only [hin.dynamicStage, hlt, if_true, Inflate.read, hread, onRead, headerTick, hi, Nat.add_zero,
        Nat.mod_eq_of_lt (by omega : v < 256)]
    have hstands : Stands expected { s with
        rd := r, lengths := s.lengths.set (clcidx.getD sent.length 0) v, dynI := sent.length + 1 }
        (more.flatMap (lowBits 3) ++ rest) out :=
      ⟨hready, h.written.same rfl rfl rfl rfl, h.target, h.literals, h.distances,
        (List.length_set).trans h.lengths, h.trailer⟩
    obtain ⟨t, hruns, ht, hheader, hlens⟩ := @ih { s with
        rd := r, lengths := s.lengths.set (clcidx.getD sent.length 0) v, dynI := sent.length + 1 } (sent ++ [v])
      ⟨hin.stage, hin.dynamicStage, hin.hlit, hin.hdist, hin.hclen, hin.bfinal⟩ (by simp)
      (hsent.set (by rw [h.lengths]; decide) (by omega)) (by simp; omega)
      (fun n hn => hmore n (List.mem_cons_of_mem _ hn)) hstands
    refine ⟨t, .next htick hruns, ht, hheader, ?_⟩
    rw [hlens, List.append_assoc, List.singleton_append]

end Sizes

section Lengths

variable {s : Inflate} {out : Bytes} {expected : UInt32} {bs rest : List Bool} {hlit hdist hclen bfinal : Nat}

/-- The decoder has these code lengths, of as many as it expects. -/
structure HasLengths (s : Inflate) (lens : List Nat) (limit : Nat) : Prop where
  num : s.dynNum = lens.length
  lengths : s.lengths.take lens.length = lens
  limit : s.hlimit = limit

theorem cltree_runs {cl : List Nat} (hin : InHeader s .buildCltree hlit hdist hclen bfinal) (hvalid : Valid cl 15)
    (hcl : s.lengths.take 19 = cl) (hlen : cl.length = 19) (h : Stands expected s rest out) :
    ∃ t, Runs s out t out ∧ Stands expected t rest out ∧ InHeader t .readLengths hlit hdist hclen bfinal ∧
      HasLengths t [] (hlit + hdist) ∧ t.tree.Decodes 19 cl := by
  obtain ⟨tree, hbuild, hdecodes, htrans⟩ :=
    buildTree_decodes (t := s.tree) hvalid hlen.le (by rw [h.distances]; decide)
  have htick : tick s = .next { s with
      tree := tree, hlimit := s.hlit + s.hdist, dynNum := 0, dynamicStage := .readLengths
      rd := resetCodeReaders s.rd } := by
    rw [tick_dynamic hin.stage, dynamicPass]
    simp only [hin.dynamicStage, hcl, hbuild, headerTick]
  refine ⟨_, .next htick (.refl _ _),
    ⟨⟨h.ready.bits, h.ready.count, rfl, rfl⟩, h.written.same rfl rfl rfl rfl, h.target,
    h.literals, htrans.trans h.distances, h.lengths, h.trailer⟩,
    ⟨hin.stage, rfl, hin.hlit, hin.hdist, hin.hclen, hin.bfinal⟩, ⟨rfl, rfl, ?_⟩, hdecodes⟩
  show s.hlit + s.hdist = _
  rw [hin.hlit, hin.hdist]

theorem tick_length {cl lens : List Nat} {limit sym : Nat} (hin : InHeader s .readLengths hlit hdist hclen bfinal)
    (hl : HasLengths s lens limit) (ht : s.tree.Decodes 19 cl) (hlt : lens.length < limit) (hs : Sends cl sym bs)
    (h : Stands expected s (bs ++ rest) out) :
    ∃ r, AtField r rest ∧ tick s =
      headerTick (fun t => .next { t with blockStage := .symbol, stage := .blockData })
        (dynamicLength sym { s with rd := r }) := by
  obtain ⟨r, hread, hready⟩ := decodeSymbol_ready ht hs h.ready
  have hmore : s.dynNum < s.hlimit := by rwa [hl.num, hl.limit]
  refine ⟨r, hready, ?_⟩
  rw [tick_dynamic hin.stage, dynamicPass]
  simp only [hin.dynamicStage, hmore, if_true, Inflate.read, hread, onRead]

theorem run_runs (n base value : Nat) {cl lens : List Nat} {limit sym x : Nat}
    (hin : InHeader s .readLengths hlit hdist hclen bfinal) (hl : HasLengths s lens limit) (ht : s.tree.Decodes 19 cl)
    (hs : Sends cl sym bs) (hsym : ∀ r, dynamicLength sym { s with rd := r } = .next { s with
      rd := r, dynFillValue := value, dynRepeatBits := n, dynRepeatBase := base, dynamicStage := .repeatBits })
    (hx : x < 2 ^ n) (hpos : 0 < base) (hroom : lens.length + (x + base) ≤ limit) (hlimit : limit ≤ 320)
    (h : Stands expected s (bs ++ (lowBits n x ++ rest)) out) :
    ∃ t, Runs s out t out ∧ Stands expected t rest out ∧ InHeader t .readLengths hlit hdist hclen bfinal ∧
      HasLengths t (lens ++ List.replicate (x + base) value) limit ∧ t.tree.Decodes 19 cl := by
  obtain ⟨r₁, hready₁, htick₁⟩ := tick_length hin hl ht (by omega) hs h
  rw [hsym r₁] at htick₁
  obtain ⟨r, hread, hready⟩ := readBits_ready base hx hready₁
  have htick : tick { s with
      rd := r₁, dynFillValue := value, dynRepeatBits := n, dynRepeatBase := base, dynamicStage := .repeatBits } =
      .next { s with
        rd := r, dynFillValue := value, dynRepeatBits := n, dynRepeatBase := base
        lengths := fillLengths lens.length (x + base) value s.lengths, dynNum := lens.length + (x + base)
        dynamicStage := .readLengths } := by
    have hfits : ¬ lens.length + (x + base) > s.hlimit := by
      rw [hl.limit]
      omega
    rw [tick_dynamic (by exact hin.stage), dynamicPass]
    simp only [Inflate.read, hread, onRead, dynamicRepeat, hl.num, hfits, if_false, headerTick]
  have htake := @fillLengths_take lens.length (x + base) value s.lengths (by rw [h.lengths]; omega)
  have hsize := fillLengths_length lens.length (x + base) value s.lengths
  generalize fillLengths lens.length (x + base) value s.lengths = filled at htick htake hsize
  refine ⟨_, .next htick₁ (.next htick (.refl _ _)), ⟨hready, h.written.same rfl rfl rfl rfl, h.target, h.literals,
    h.distances, hsize.trans h.lengths, h.trailer⟩, ⟨hin.stage, rfl, hin.hlit, hin.hdist, hin.hclen, hin.bfinal⟩,
    ⟨?_, ?_, hl.limit⟩, ht⟩
  · rw [List.length_append, List.length_replicate]
  · show filled.take (lens ++ List.replicate (x + base) value).length = _
    rw [List.length_append, List.length_replicate, htake, hl.lengths]

/-- The code lengths, one after another and run after run. -/
theorem lengths_runs {cl lens all : List Nat} (hlens : Lengths cl lens bs all)
    (hin : InHeader s .readLengths hlit hdist hclen bfinal) (hl : HasLengths s lens all.length)
    (ht : s.tree.Decodes 19 cl) (hlimit : all.length ≤ 320) (h : Stands expected s (bs ++ rest) out) :
    ∃ t, Runs s out t out ∧ Stands expected t rest out ∧ InHeader t .buildTrees hlit hdist hclen bfinal ∧
      t.lengths.take all.length = all := by
  induction hlens generalizing s with
  | @finish lens =>
    have htick : tick s = .next { s with dynamicStage := .buildTrees } := by
      have hend : ¬ s.dynNum < s.hlimit := by
        rw [hl.num, hl.limit]
        exact Nat.lt_irrefl _
      rw [tick_dynamic hin.stage, dynamicPass]
      simp only [hin.dynamicStage, hend, if_false, headerTick]
    exact ⟨_, .next htick (.refl _ _), ⟨h.ready, h.written.same rfl rfl rfl rfl, h.target, h.literals, h.distances,
      h.lengths, h.trailer⟩, ⟨hin.stage, rfl, hin.hlit, hin.hdist, hin.hclen, hin.bfinal⟩, hl.lengths⟩
  | @length lens all bs bs' n hn hs hrest ih =>
    rw [List.append_assoc] at h
    have hlen := hrest.grows.length_le
    rw [List.length_append, List.length_singleton] at hlen
    obtain ⟨r, hready, htick⟩ := tick_length hin hl ht (by omega) hs h
    have hnext : tick s = .next { s with
        rd := r, lengths := s.lengths.set lens.length n, dynNum := lens.length + 1 } := by
      rw [htick, dynamicLength, if_pos hn]
      simp only [hl.num, headerTick]
    have htake : (s.lengths.set lens.length n).take (lens ++ [n]).length = lens ++ [n] := by
      have hlt : lens.length < s.lengths.length := by
        rw [h.lengths]
        omega
      rw [List.length_append, List.length_singleton, List.take_succ_eq_append_getElem (by rwa [List.length_set]),
        List.take_set_of_le (Nat.le_refl _), hl.lengths, List.getElem_set_self]
    obtain ⟨t, hruns, hstands, hheader, hall⟩ := @ih { s with
        rd := r, lengths := s.lengths.set lens.length n, dynNum := lens.length + 1 }
      ⟨hin.stage, hin.dynamicStage, hin.hlit, hin.hdist, hin.hclen, hin.bfinal⟩
      ⟨by rw [List.length_append, List.length_singleton], htake, hl.limit⟩ ht hlimit
      ⟨hready, h.written.same rfl rfl rfl rfl, h.target, h.literals, h.distances, List.length_set.trans h.lengths,
        h.trailer⟩
    exact ⟨t, .next hnext hruns, hstands, hheader, hall⟩
  | @again lens all bs bs' n x hlast hx hs hrest ih =>
    simp only [List.append_assoc] at h
    have hlen := hrest.grows.length_le
    rw [List.length_append, List.length_replicate] at hlen
    obtain ⟨front, rfl⟩ := List.getLast?_eq_some_iff.mp hlast
    have hvalue : s.lengths[front.length]?.getD 0 = n := by
      have hget := congrArg (fun ls : List Nat => ls[front.length]?.getD 0) hl.lengths
      simpa using hget
    obtain ⟨t, hruns, hstands, hheader, hlens, htree⟩ := run_runs 2 3 n hin hl ht hs
      (fun r => by simp [dynamicLength, hl.num, hvalue]) (by omega) (by decide) hlen hlimit h
    obtain ⟨u, hruns', hrest'⟩ := ih hheader hlens htree hlimit hstands
    exact ⟨u, hruns.trans hruns', hrest'⟩
  | @zeros lens all bs bs' x hx hs hrest ih =>
    simp only [List.append_assoc] at h
    have hlen := hrest.grows.length_le
    rw [List.length_append, List.length_replicate] at hlen
    obtain ⟨t, hruns, hstands, hheader, hlens, htree⟩ := run_runs 3 3 0 hin hl ht hs
      (fun r => by simp [dynamicLength]) (by omega) (by decide) hlen hlimit h
    obtain ⟨u, hruns', hrest'⟩ := ih hheader hlens htree hlimit hstands
    exact ⟨u, hruns.trans hruns', hrest'⟩
  | @moreZeros lens all bs bs' x hx hs hrest ih =>
    simp only [List.append_assoc] at h
    have hlen := hrest.grows.length_le
    rw [List.length_append, List.length_replicate] at hlen
    obtain ⟨t, hruns, hstands, hheader, hlens, htree⟩ := run_runs 7 11 0 hin hl ht hs
      (fun r => by simp [dynamicLength]) (by omega) (by decide) hlen hlimit h
    obtain ⟨u, hruns', hrest'⟩ := ih hheader hlens htree hlimit hstands
    exact ⟨u, hruns.trans hruns', hrest'⟩

theorem trees_runs {lit dist : List Nat} (hin : InHeader s .buildTrees lit.length dist.length hclen bfinal)
    (hlens : s.lengths.take (lit ++ dist).length = lit ++ dist) (hlits : lit.length ≤ 286) (hdists : dist.length ≤ 32)
    (hlit : Valid lit 15) (hdist : Valid dist 15) (hend : lit.getD 256 0 ≠ 0) (h : Stands expected s rest out) :
    ∃ t, Runs s out t out ∧ Stands expected t rest out ∧ InData t lit dist ∧ t.bfinal = bfinal := by
  rw [List.length_append] at hlens
  have hsplit : s.lengths = lit ++ dist ++ s.lengths.drop (lit.length + dist.length) := by
    rw [← hlens, List.take_append_drop]
  have hfirst : s.lengths.take lit.length = lit := by
    rw [hsplit, List.append_assoc, List.take_left]
  have hsecond : (s.lengths.drop lit.length).take dist.length = dist := by
    rw [hsplit, List.append_assoc, List.drop_left, List.take_left]
  have hends : s.lengths.getD 256 0 ≠ 0 := by
    have hknown : 256 < lit.length := by
      by_contra hle
      exact hend (List.getD_eq_default _ _ (by omega))
    rw [hsplit, List.append_assoc, List.getD_append _ _ _ _ hknown]
    exact hend
  obtain ⟨ltree, hbuild, hdecodes, htrans⟩ := buildTree_decodes (t := s.ltree) hlit (by omega : lit.length ≤ 288)
    (by rw [h.literals])
  obtain ⟨dtree, hbuild', hdecodes', htrans'⟩ := buildTree_decodes (t := s.tree) hdist hdists (by rw [h.distances])
  have htick : tick s = .next { s with
      ltree := ltree, tree := dtree, dynamicStage := .hlit, rd := resetCodeReaders s.rd, blockStage := .symbol
      stage := .blockData } := by
    rw [tick_dynamic hin.stage, dynamicPass]
    simp only [hin.dynamicStage, dynamicBuildTrees, hends, if_false, hin.hlit, hin.hdist, hfirst, hsecond, hbuild,
      hbuild', headerTick]
  exact ⟨_, .next htick (.refl _ _), ⟨⟨h.ready.bits, h.ready.count, rfl, rfl⟩, h.written.same rfl rfl rfl rfl, h.target,
    htrans.trans h.literals, htrans'.trans h.distances, h.lengths, h.trailer⟩, ⟨rfl, rfl, hdecodes, hdecodes'⟩,
    hin.bfinal⟩

theorem header_runs {lit dist : List Nat} (hheader : Header bs lit dist) (hs : s.stage = .dynamicTrees)
    (hd : s.dynamicStage = .hlit) (hend : lit.getD 256 0 ≠ 0) (h : Stands expected s (bs ++ rest) out) :
    ∃ t, Runs s out t out ∧ Stands expected t rest out ∧ InData t lit dist ∧ t.bfinal = s.bfinal := by
  obtain @⟨sent, lit, dist, bs, lits, lits_le, dists, dists_le, sent_ge, sent_le, sent_lt, valid, lengths, lit_valid,
    dist_valid⟩ := hheader
  simp only [List.append_assoc] at h
  obtain ⟨t₁, hruns₁, h₁, hin₁, hi₁⟩ := sizes_runs hs hd (by omega) (by omega) (by omega) h
  have hlits : lit.length - 257 + 257 = lit.length := by omega
  have hdists : dist.length - 1 + 1 = dist.length := by omega
  have hsent : sent.length - 4 + 4 = sent.length := by omega
  rw [hlits, hdists, hsent] at hin₁
  obtain ⟨t₂, hruns₂, h₂, hin₂, hi₂, hsent₂⟩ := clear_runs hin₁ hi₁ h₁
  obtain ⟨t₃, hruns₃, h₃, hin₃, hlens₃⟩ := sent_runs [] sent hin₂ hi₂ hsent₂ rfl sent_le sent_lt h₂
  obtain ⟨t₄, hruns₄, h₄, hin₄, hlens₄, htree₄⟩ := cltree_runs hin₃ valid hlens₃ (by simp [codeLengths]) h₃
  rw [← List.length_append] at hlens₄
  obtain ⟨t₅, hruns₅, h₅, hin₅, hlens₅⟩ := lengths_runs lengths hin₄ hlens₄ htree₄ (by simp; omega) h₄
  obtain ⟨t₆, hruns₆, h₆, hin₆, hfinal₆⟩ := trees_runs hin₅ hlens₅ lits_le dists_le lit_valid dist_valid hend h₅
  exact ⟨t₆, hruns₁.trans (hruns₂.trans (hruns₃.trans (hruns₄.trans (hruns₅.trans hruns₆)))), h₆, hin₆, hfinal₆⟩

end Lengths

end OpenDisplay
