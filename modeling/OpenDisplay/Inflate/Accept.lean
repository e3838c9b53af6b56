import OpenDisplay.Inflate.Correct

/-! What the decoder accepts. Whatever it is given, it comes to its end only from a trailer
of four bytes that are the checksum of all it wrote, with nothing after them. -/

namespace OpenDisplay

open Loops Resumable Deflate

section Shrinks

/-- A read takes bytes off the front of the input. -/
def Shrinks {α : Type} (f : BitReader → Rc α × BitReader) : Prop := ∀ r, (f r).2.input <:+ r.input

theorem readByte_shrinks : Shrinks readByte := by
  intro r
  rcases hi : r.input with - | ⟨b, bs⟩
  · rw [readByte, hi]
    dsimp only
    split_ifs <;> exact hi ▸ List.suffix_rfl
  · rw [readByte, hi]
    exact List.suffix_cons b bs

theorem readBit_shrinks : Shrinks readBit := by
  intro r
  by_cases hc : r.bitCount = 0
  · have hbyte := readByte_shrinks r
    rw [readBit, if_pos hc]
    rcases hr : readByte r with ⟨rc, r'⟩
    rw [hr] at hbyte
    cases rc <;> exact hbyte
  · rw [readBit, if_neg hc]
    exact List.suffix_rfl

theorem loop_shrinks {α : Type} {pass : BitReader → Iter BitReader (Rc α × BitReader)} {μ : BitReader → Nat}
    {d : ∀ s t, pass s = .next t → μ t < μ s} (begin : BitReader → BitReader) (hbegin : ∀ r, (begin r).input = r.input)
    (hstop : ∀ r rc t, pass r = .stop (rc, t) → t.input <:+ r.input)
    (hnext : ∀ r t, pass r = .next t → t.input <:+ r.input) : Shrinks fun r => loop pass μ d (begin r) := by
  intro r
  rw [← hbegin r]
  refine loop_rule (P := fun (s : BitReader) (q : Rc α × BitReader) => q.2.input <:+ s.input) ?_ ?_ (begin r)
  · rintro s ⟨rc, t⟩ h
    exact hstop s rc t h
  · intro s t q h ht
    exact ht.trans (hnext s t h)

theorem onBit_shrinks {α : Type} {k : Nat → BitReader → Iter BitReader (Rc α × BitReader)} (hk : Passive k)
    (r : BitReader) :
    (∀ rc t, onBit k r = .stop (rc, t) → t.input <:+ r.input) ∧ (∀ t, onBit k r = .next t → t.input <:+ r.input) := by
  have hbit := readBit_shrinks r
  unfold onBit
  rcases hr : readBit r with ⟨rc, r'⟩
  rw [hr] at hbit
  cases rc with
  | ok bit =>
    refine ⟨fun rc t h => ?_, fun t h => ?_⟩
    · rw [(hk.stop h).1]
      exact hbit
    · rw [(hk.next h).1]
      exact hbit
  | need =>
    refine ⟨fun rc t h => ?_, nofun⟩
    obtain ⟨-, rfl⟩ := Prod.mk.inj (Iter.stop.inj h)
    exact hbit
  | fail e =>
    refine ⟨fun rc t h => ?_, nofun⟩
    obtain ⟨-, rfl⟩ := Prod.mk.inj (Iter.stop.inj h)
    exact hbit

theorem readBits_shrinks (num base : Nat) : Shrinks (readBits num base) := by
  refine loop_shrinks (readBitsBegin num base) ?_ ?_ ?_
  · intro r
    unfold readBitsBegin
    split_ifs <;> rfl
  · intro r rc t h
    unfold readBitsPass at h
    split_ifs at h
    · exact (onBit_shrinks readBitsBit_passive r).1 rc t h
    · obtain ⟨-, rfl⟩ := Prod.mk.inj (Iter.stop.inj h)
      exact List.suffix_rfl
  · intro r t h
    unfold readBitsPass at h
    split_ifs at h
    exact (onBit_shrinks readBitsBit_passive r).2 t h

theorem decodeSymbol_shrinks (tree : Tree) (size : Nat) : Shrinks (decodeSymbol tree size) := by
  refine loop_shrinks decodeSymbolBegin ?_ ?_ ?_
  · intro r
    unfold decodeSymbolBegin
    split_ifs <;> rfl
  · intro r
    exact (onBit_shrinks (decodeSymbolBit_passive tree size) r).1
  · intro r
    exact (onBit_shrinks (decodeSymbolBit_passive tree size) r).2

end Shrinks

section Follows

/-- Nothing has been written or read of the trailer, and the input only got shorter. -/
structure Same (adler : UInt32) (s t : Inflate) : Prop where
  adler : t.adler = adler
  index : t.trailerIndex = s.trailerIndex
  value : t.trailerValue = s.trailerValue
  input : t.rd.input <:+ s.rd.input

/-- Before the trailer, a tick carries the checksum along. -/
def Follows (s : Inflate) : InflateTick → Prop
  | .next t => Same s.adler s t
  | .emit b t => Same (adlerUpdateByte s.adler b) s t
  | .need t => Same s.adler s t
  | .fail => True
  | .done => False

variable {s : Inflate}

theorem Follows.read {α : Type} {f : BitReader → Rc α × BitReader} {k : α → Inflate → InflateTick} (hf : Shrinks f)
    (hk : ∀ a r, r.input <:+ s.rd.input → Follows s (k a { s with rd := r })) : Follows s (onTick (s.read f) k) := by
  have hshrinks := hf s.rd
  unfold onTick Inflate.read
  rcases hr : f s.rd with ⟨rc, r⟩
  rw [hr] at hshrinks
  cases rc with
  | ok a => exact hk a r hshrinks
  | need => exact ⟨rfl, rfl, rfl, hshrinks⟩
  | fail e => trivial

theorem Follows.put {b : UInt8} {r : BitReader} (hr : r.input <:+ s.rd.input) {k : Work → DataIter}
    (hk : ∀ t, Same (adlerUpdateByte s.adler b) s t → Follows s (dataTick (k ([b], t)))) :
    Follows s (dataTick (onPut (putOutputByte b 1 ([], { s with rd := r })) k)) := by
  by_cases hfull : s.expectedOutput ≤ s.outputCount
  · simp only [putOutputByte, List.length_nil, hfull, if_true, onPut, setError, dataTick]
    trivial
  · rw [putOutputByte_room (by exact hfull)]
    exact hk _ ⟨rfl, rfl, rfl, hr⟩

theorem follows_dynamic (hs : s.stage = .dynamicTrees) : Follows s (tick s) := by
  rw [tick_dynamic hs, dynamicPass]
  cases s.dynamicStage with
  | hlit =>
    rw [headerTick_onRead]
    exact .read (readBits_shrinks _ _) fun a r hr => ⟨rfl, rfl, rfl, hr⟩
  | hdist =>
    rw [headerTick_onRead]
    exact .read (readBits_shrinks _ _) fun a r hr => ⟨rfl, rfl, rfl, hr⟩
  | hclen =>
    rw [headerTick_onRead]
    refine .read (readBits_shrinks _ _) fun a r hr => ?_
    unfold dynamicSizes failWith
    dsimp only
    split_ifs
    · trivial
    · exact ⟨rfl, rfl, rfl, hr⟩
  | clearClen => exact ⟨rfl, rfl, rfl, List.suffix_rfl⟩
  | readClen =>
    dsimp only
    split_ifs
    · rw [headerTick_onRead]
      exact .read (readBits_shrinks _ _) fun a r hr => ⟨rfl, rfl, rfl, hr⟩
    · exact ⟨rfl, rfl, rfl, List.suffix_rfl⟩
  | buildCltree =>
    dsimp only
    split
    · trivial
    · exact ⟨rfl, rfl, rfl, List.suffix_rfl⟩
  | readLengths =>
    dsimp only
    split_ifs
    · rw [headerTick_onRead]
      refine .read (decodeSymbol_shrinks _ _) fun a r hr => ?_
      unfold dynamicLength failWith
      split_ifs
      all_goals first | trivial | exact ⟨rfl, rfl, rfl, hr⟩
    · exact ⟨rfl, rfl, rfl, List.suffix_rfl⟩
  | repeatBits =>
    rw [headerTick_onRead]
    refine .read (readBits_shrinks _ _) fun a r hr => ?_
    unfold dynamicRepeat failWith
    split_ifs
    · trivial
    · exact ⟨rfl, rfl, rfl, hr⟩
  | buildTrees =>
    dsimp only [dynamicBuildTrees, failWith]
    split_ifs
    · trivial
    · split
      · trivial
      · split
        · trivial
        · exact ⟨rfl, rfl, rfl, List.suffix_rfl⟩

theorem follows_stored (hs : s.stage = .storedLen) : Follows s (tick s) := by
  rw [tick_storedLen hs, storedHeaderPass]
  split_ifs
  · rw [headerTick_onRead]
    refine .read readByte_shrinks fun a r hr => ?_
    dsimp only
    split_ifs <;> exact ⟨rfl, rfl, rfl, hr⟩
  · trivial
  · exact ⟨rfl, rfl, rfl, List.suffix_rfl⟩

theorem follows_data (hs : s.stage = .blockData) : Follows s (tick s) := by
  rw [tick_blockData hs, blockPass]
  dsimp only
  rw [if_neg (by simp)]
  cases s.blockStage with
  | symbol =>
    dsimp only
    rw [dataTick_onData]
    refine .read (decodeSymbol_shrinks _ _) fun a r hr => ?_
    rw [blockSymbol]
    by_cases hliteral : a < 256
    · rw [if_pos hliteral]
      exact .put hr fun t ht => ht
    by_cases hend : a = 256
    · rw [if_neg hliteral, if_pos hend]
      exact ⟨rfl, rfl, rfl, hr⟩
    by_cases hbad : 29 ≤ a - 257
    · rw [if_neg hliteral, if_neg hend, if_pos hbad]
      trivial
    · rw [if_neg hliteral, if_neg hend, if_neg hbad]
      exact ⟨rfl, rfl, rfl, hr⟩
  | lenExtra =>
    dsimp only
    rw [dataTick_onData]
    exact .read (readBits_shrinks _ _) fun a r hr => ⟨rfl, rfl, rfl, hr⟩
  | distSymbol =>
    dsimp only
    rw [dataTick_onData]
    refine .read (decodeSymbol_shrinks _ _) fun a r hr => ?_
    unfold blockDistSymbol
    dsimp only
    split_ifs
    · trivial
    · exact ⟨rfl, rfl, rfl, hr⟩
  | distExtra =>
    dsimp only
    rw [dataTick_onData]
    refine .read (readBits_shrinks _ _) fun a r hr => ?_
    unfold blockDistExtra
    dsimp only
    split_ifs
    · trivial
    · exact ⟨rfl, rfl, rfl, hr⟩
  | matchCopy =>
    dsimp only
    split_ifs
    · exact ⟨rfl, rfl, rfl, List.suffix_rfl⟩
    · exact .put List.suffix_rfl fun t ht => ⟨ht.adler, ht.index, ht.value, ht.input⟩

/-- Until the trailer, every tick follows the checksum. -/
theorem tick_follows (hlive : Live s) (hs : s.stage ≠ .trailer) : Follows s (tick s) := by
  cases hstage : s.stage with
  | zlibCmf =>
    simp only [tick, hstage]
    exact .read readByte_shrinks fun a r hr => ⟨rfl, rfl, rfl, hr⟩
  | zlibFlg =>
    simp only [tick, hstage]
    refine .read readByte_shrinks fun a r hr => ?_
    unfold nextUnlessError pollFlg
    split_ifs with herror
    · trivial
    · split at herror
      · exact absurd rfl herror
      · exact absurd rfl herror
      · exact ⟨rfl, rfl, rfl, hr⟩
  | blockFinal =>
    simp only [tick, hstage]
    exact .read readBit_shrinks fun a r hr => ⟨rfl, rfl, rfl, hr⟩
  | blockType =>
    simp only [tick, hstage]
    refine .read (readBits_shrinks _ _) fun a r hr => ?_
    unfold nextUnlessError pollBlockType
    dsimp only
    split_ifs <;> first | trivial | exact ⟨rfl, rfl, rfl, hr⟩
  | dynamicTrees => exact follows_dynamic hstage
  | storedLen => exact follows_stored hstage
  | storedData =>
    rw [tick_storedData hstage, storedDataPass]
    dsimp only
    rw [if_neg (c := 1 ≤ _) (by simp)]
    split_ifs
    · exact ⟨rfl, rfl, rfl, List.suffix_rfl⟩
    · rw [dataTick_onData]
      exact .read readByte_shrinks fun a r hr => .put hr fun t ht => ⟨ht.adler, ht.index, ht.value, ht.input⟩
  | blockData => exact follows_data hstage
  | trailer => exact absurd hstage hs
  | done => exact absurd hstage hlive.2
  | error => exact absurd hstage hlive.1

theorem tick_trailer_cases (hs : s.stage = .trailer) :
    (∃ b bytes, s.trailerIndex < 4 ∧ s.rd.input = b :: bytes) ∨
    (¬ s.trailerIndex < 4 ∧ s.trailerValue = s.adler ∧ s.outputCount = s.expectedOutput ∧ s.rd.input = [] ∧
      tick s = .done) ∨
    tick s = .fail ∨ ∃ t, tick s = .need t := by
  rw [tick_trailer hs, trailerPass]
  by_cases hlt : s.trailerIndex < 4
  · rcases hinput : s.rd.input with - | ⟨b, bytes⟩
    · rw [if_pos hlt, headerTick_onRead]
      simp only [Inflate.read, readByte, hinput]
      cases s.rd.inputFinal with
      | false => exact .inr (.inr (.inr ⟨_, rfl⟩))
      | true => exact .inr (.inr (.inl rfl))
    · exact .inl ⟨b, bytes, hlt, rfl⟩
  rw [if_neg hlt]
  by_cases hsum : s.trailerValue = s.adler
  swap
  · exact .inr (.inr (.inl (by rw [if_pos hsum]; rfl)))
  rw [if_neg (not_not.mpr hsum)]
  by_cases hcount : s.outputCount = s.expectedOutput
  swap
  · exact .inr (.inr (.inl (by rw [if_pos hcount]; rfl)))
  rw [if_neg (not_not.mpr hcount)]
  by_cases hinput : s.rd.input = []
  swap
  · exact .inr (.inr (.inl (by rw [if_pos hinput]; rfl)))
  rw [if_neg (not_not.mpr hinput)]
  exact .inr (.inl ⟨hlt, hsum, hcount, hinput, rfl⟩)

theorem trailer_accepted {o : Bytes} {v : Bool} (h : Eval tick s o v) (hv : v = true) (hs : s.stage = .trailer)
    (hi : s.trailerIndex ≤ 4) :
    o = [] ∧ s.trailerIndex + s.rd.input.length = 4 ∧ trailerFold s.trailerValue s.rd.input = s.adler ∧
      s.outputCount = s.expectedOutput := by
  induction h with
  | @done s hd =>
    rcases tick_trailer_cases hs with ⟨b, bytes, hlt, hinput⟩ | ⟨hlt, hsum, hcount, hinput, -⟩ | hf | ⟨t, ht⟩
    · rw [tick_trailer_byte hs hlt hinput] at hd
      cases hd
    · rw [hinput]
      exact ⟨rfl, by rw [List.length_nil]; omega, hsum, hcount⟩
    · rw [hf] at hd
      cases hd
    · rw [ht] at hd
      cases hd
  | fail _ => cases hv
  | @next s t o v hn _ ih =>
    rcases tick_trailer_cases hs with ⟨b, bytes, hlt, hinput⟩ | ⟨-, -, -, -, hd⟩ | hf | ⟨t, ht⟩
    · rw [tick_trailer_byte hs hlt hinput] at hn
      obtain rfl := Tick.next.inj hn
      obtain ⟨ho, hlen, hfold, hcount⟩ := ih hv hs hlt
      have hlen' : s.trailerIndex + 1 + bytes.length = 4 := hlen
      rw [hinput, List.length_cons]
      exact ⟨ho, by omega, hfold, hcount⟩
    · rw [hd] at hn
      cases hn
    · rw [hf] at hn
      cases hn
    · rw [ht] at hn
      cases hn
  | @emit s t b o v hn _ ih =>
    rcases tick_trailer_cases hs with ⟨b, bytes, hlt, hinput⟩ | ⟨-, -, -, -, hd⟩ | hf | ⟨t, ht⟩
    · rw [tick_trailer_byte hs hlt hinput] at hn
      cases hn
    · rw [hd] at hn
      cases hn
    · rw [hf] at hn
      cases hn
    · rw [ht] at hn
      cases hn

/-- What the decoder has written, as its counter and its checksum say. -/
structure Accounts (s : Inflate) (out : Bytes) : Prop where
  count : s.outputCount.toNat = out.length
  adler : s.adler.toNat = adler32 out

/-- The run that accepts from `s` arrives at its trailer with all of its output written, and
the checksum of the output is what is left of the input. -/
def AcceptsAt (s : Inflate) (out o : Bytes) : Prop :=
  ∃ t, Path tick s o t ∧ t.stage = .trailer ∧ t.trailerIndex = 0 ∧ t.rd.input = bigEndian (adler32 (out ++ o)) ∧
    t.rd.input <:+ s.rd.input ∧ (out ++ o).length = s.expectedOutput.toNat

theorem AcceptsAt.trailer {o out : Bytes} (h : Eval tick s o true) (hs : s.stage = .trailer)
    (hindex : s.trailerIndex = 0) (hvalue : s.trailerValue = 0) (ha : Accounts s out) : AcceptsAt s out o := by
  obtain ⟨rfl, hlen, hfold, hcount⟩ := trailer_accepted h rfl hs (by rw [hindex]; decide)
  rw [hindex, Nat.zero_add] at hlen
  rw [hvalue] at hfold
  refine ⟨s, .refl, hs, hindex, ?_, List.suffix_rfl, ?_⟩
  · rw [List.append_nil]
    exact bigEndian_trailerFold hlen (by rw [hfold, ha.adler])
  · rw [List.append_nil, ← ha.count, hcount]

theorem accepted (out : Bytes) {o : Bytes} {v : Bool} (h : Eval tick s o v) (hv : v = true) (hlive : Live s)
    (hindex : s.trailerIndex = 0) (hvalue : s.trailerValue = 0) (ha : Accounts s out) : AcceptsAt s out o := by
  induction h generalizing out with
  | @done s hd =>
    by_cases hs : s.stage = .trailer
    · exact .trailer (.done hd) hs hindex hvalue ha
    · have hf := tick_follows hlive hs
      rw [hd] at hf
      exact hf.elim
  | fail _ => cases hv
  | @next s t o v hn he ih =>
    by_cases hs : s.stage = .trailer
    · exact .trailer (hv ▸ .next hn he) hs hindex hvalue ha
    have hf := tick_follows hlive hs
    have hkeeps := (regular hlive.2).keeps
    rw [hn] at hf hkeeps
    have hat : Accounts t out := ⟨hkeeps.1.outputCount.trans ha.count, by rw [hf.adler, ha.adler]⟩
    obtain ⟨u, hpath, hstage, hzero, hinput, hsuffix, hlen⟩ := ih _ hv hkeeps.2 (hf.index.trans hindex)
      (hf.value.trans hvalue) hat
    exact ⟨u, .next hn hpath, hstage, hzero, hinput, hsuffix.trans hf.input, by rw [hlen, hkeeps.1.expectedOutput]⟩
  | @emit s t b o v hn he ih =>
    by_cases hs : s.stage = .trailer
    · exact .trailer (hv ▸ .emit hn he) hs hindex hvalue ha
    have hf := tick_follows hlive hs
    have hkeeps := (regular hlive.2).keeps
    rw [hn] at hf hkeeps
    have hat : Accounts t (out ++ [b]) := by
      refine ⟨by rw [hkeeps.1.outputCount, ha.count, List.length_append, List.length_singleton], ?_⟩
      rw [hf.adler, adlerUpdateByte_toNat (adlerPair_lt out) ha.adler, adler32, adlerPair_append]
    obtain ⟨u, hpath, hstage, hzero, hinput, hsuffix, hlen⟩ := ih _ hv hkeeps.2 (hf.index.trans hindex)
      (hf.value.trans hvalue) hat
    rw [List.append_assoc, List.singleton_append] at hinput hlen
    exact ⟨u, .emit hn hpath, hstage, hzero, hinput, hsuffix.trans hf.input, by rw [hlen, hkeeps.1.expectedOutput]⟩

end Follows

section Pump

variable {σ : Type}

/-- A sink with a record of the bytes it has accepted. -/
def recorded (sink : Bytes → σ → Bool × σ) (out : Bytes) (q : σ × Bytes) : Bool × σ × Bytes :=
  match sink out q.1 with
  | (true, next) => (true, next, q.2 ++ out)
  | (false, next) => (false, next, q.2)

theorem recorded_sinks (sink : Bytes → σ → Bool × σ) :
    Sinks (recorded sink) (fun o q => q.2 = o) fun _ _ => True where
  accept {o out q q'} ht h := by
    unfold recorded at h
    split at h
    · obtain ⟨-, rfl⟩ := Prod.mk.inj h
      rw [ht]
    · cases h
  refuse {o out q q'} _ h := trivial

/-- What a pump is after some pushes since its reset, none of which was the final one or
failed, and all that was pushed. -/
inductive Pumping (sink : Bytes → σ → Bool × σ) (expected : UInt32) (q₀ : σ) : Bytes → Pump × σ → Prop where
  | reset : Pumping sink expected q₀ [] (odZlibPumpReset expected, q₀)
  | push {xs input : Bytes} {scratch : Nat} {p p' : Pump × σ} {status : PumpStatus} : Pumping sink expected q₀ xs p →
      0 < scratch → odZlibPumpPush sink input false scratch p = (status, p') → status ≠ .error →
      Pumping sink expected q₀ (xs ++ input) p'

theorem Pumping.decoded {sink : Bytes → σ → Bool × σ} {expected : UInt32} {q₀ : σ} {xs : Bytes}
    {p : Pump × (σ × Bytes)} (h : Pumping (recorded sink) expected (q₀, []) xs p) : Decoded expected xs p.2.2 p.1 := by
  induction h with
  | reset => exact .reset expected
  | @push xs input scratch p p' status _ hpos hpush hne ih =>
    have hstop := ih.push (recorded_sinks sink) rfl hpos hpush
    cases status with
    | more =>
      obtain ⟨out, -, rfl, -, hd⟩ := hstop
      exact hd
    | done =>
      obtain ⟨out, -, rfl, -, -, hd⟩ := hstop
      exact hd rfl
    | error => exact absurd rfl hne

theorem Inflates.eval {expected : UInt32} {xs out : Bytes} (h : Inflates expected xs out) :
    Eval tick ((odZlibStreamReset expected).feed xs true) out true := by
  obtain ⟨o, v, hr, he⟩ := pumpPushes_eval [] (by simp : [(xs, 1)] ≠ []) (by simp) (odZlibPumpReset_inv expected) nofun
    rfl
  rw [Inflates, hr] at h
  obtain ⟨hv, ho⟩ := Prod.mk.inj h
  have hx : pushed [(xs, 1)] = xs := by simp [pushed]
  rw [hx] at he
  cases v with
  | false => cases hv
  | true => exact ho ▸ he

/-- The pump turns every stream of the format into its output, however it is pushed; and
whenever it comes to its end, through whatever pushes and into whatever sink, it has
delivered as many bytes as expected, and the decoder came to the trailer of the stream with
the checksum of these bytes, and nothing else, left to read. -/
theorem odZlibPump_correct (expected : UInt32) (sink : Bytes → σ → Bool × σ) (q₀ : σ) :
    (∀ pushes out, pushes ≠ [] → (∀ q ∈ pushes, 0 < q.2) → Zlib zlibWindowSize (pushed pushes) out →
      out.length = expected.toNat → pumpPushes pushes (odZlibPumpReset expected, []) = (.done, out)) ∧
    (∀ xs p input final scratch p', Pumping (recorded sink) expected (q₀, []) xs p → 0 < scratch →
      odZlibPumpPush (recorded sink) input final scratch p = (.done, p') →
      p'.2.2.length = expected.toNat ∧ ∃ body t, xs ++ input = body ++ bigEndian (adler32 p'.2.2) ∧
        Path tick ((odZlibStreamReset expected).feed (xs ++ input) true) p'.2.2 t ∧ t.stage = .trailer ∧
        t.trailerIndex = 0 ∧ t.rd.input = bigEndian (adler32 p'.2.2)) := by
  constructor
  · intro pushes out hne hpos hstream hlen
    obtain ⟨o, v, hr, he⟩ := pumpPushes_eval [] hne hpos (odZlibPumpReset_inv expected) nofun rfl
    obtain ⟨rfl, rfl⟩ := he.unique (zlib_eval hstream hlen)
    exact hr
  · rintro xs p input final scratch ⟨p', q'⟩ hrun hpos hpush
    obtain ⟨out, -, hout, hinflates, hlen, -⟩ := hrun.decoded.push (recorded_sinks sink) rfl hpos hpush
    obtain rfl : q'.2 = out := hout
    obtain ⟨t, hpath, hstage, hindex, hinput, ⟨body, hbody⟩, -⟩ := accepted [] hinflates.eval rfl ⟨nofun, nofun⟩
      rfl rfl ⟨rfl, rfl⟩
    rw [List.nil_append] at hinput
    exact ⟨hlen, body, t, by rw [← hinput]; exact hbody.symm, hpath, hstage, hindex, hinput⟩

/-- Three bytes in a stored block, pushed whole. -/
theorem odZlibPump_correct_stored :
    pumpPushes [([0x18, 0x19, 0x01, 0x03, 0x00, 0xfc, 0xff, 0x61, 0x62, 0x63, 0x02, 0x4d, 0x01, 0x27], 4)]
        (odZlibPumpReset 3, []) = (.done, [0x61, 0x62, 0x63]) ∧
      (odZlibPumpPush (recorded fun _ (q : Unit) => (true, q))
        [0x18, 0x19, 0x01, 0x03, 0x00, 0xfc, 0xff, 0x61, 0x62, 0x63, 0x02, 0x4d, 0x01, 0x27] true 4
        (odZlibPumpReset 3, (), [])).2.2.2.length = 3 := by
  have hboth := odZlibPump_correct 3 (fun _ (q : Unit) => (true, q)) ()
  refine ⟨hboth.1 _ [0x61, 0x62, 0x63] (by decide) (by decide) ?_ rfl, ?_⟩
  · refine @Zlib.mk zlibWindowSize 0x18 0x19 [0x01, 0x03, 0x00, 0xfc, 0xff, 0x61, 0x62, 0x63] [0x61, 0x62, 0x63] _ []
      (by decide) (by decide) (by decide) (by decide) (List.append_nil _).symm (by decide) ?_
    exact .last (@Block.stored _ 0 true [] [0x61, 0x62, 0x63] [false, false, false, false, false] (by decide)
      (by decide) (by decide))
  · exact (hboth.2 [] _ _ true 4 _ .reset (by decide) (Prod.ext (by decide +kernel) rfl)).1

end Pump

end OpenDisplay
