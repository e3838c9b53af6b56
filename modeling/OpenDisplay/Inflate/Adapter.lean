import OpenDisplay.Inflate.Correct
import OpenDisplay.Inflate.Tinfl
import OpenDisplay.Lib.Unique

/-! The adapter keeps the contract of the portable engine with any right decoder behind it,
but for the bytes that follow the end of a stream in the push that ends it: when that push
is the final one, nothing looks at them. -/

namespace OpenDisplay

open Loops Memories Decoders Deflate

section Format

variable {z x rest : Bytes} {window : Nat}

theorem zlib_selfDelimiting (window : Nat) : SelfDelimiting (Zlib window) where
  nonempty h := h.ne_nil rfl
  unique h h' hpre := h.unique h' hpre

theorem zlib_verdict (h : Zlib zlibWindowSize z x) (rest : Bytes) : headerVerdict (z ++ rest) = some .ok := by
  cases h with
  | mk method declared check dictionary _ _ _ =>
    exact congrArg some (odZlibHeaderCheck_ok method declared check dictionary)

theorem odZlibHeaderCheck_window {cmf flg : UInt8} (h : odZlibHeaderCheck cmf flg = .ok) :
    declaredWindow cmf ≤ zlibWindowSize := by
  unfold odZlibHeaderCheck at h
  split_ifs at h with hbad hwide
  rw [UInt8.toNat_shiftRight, show UInt8.toNat 4 % 8 = 4 from rfl, Nat.shiftRight_eq_div_pow] at hwide
  have hdiv : cmf.toNat / 16 + 8 ≤ zlibWindowBits := Nat.not_lt.mp hwide
  exact Nat.pow_le_pow_right (by omega) hdiv

/-- What the observer lets through of the streams of the decoder. -/
theorem HeaderOk.narrow {seen : ZlibHeaderSeen} (h : HeaderOk seen (z ++ rest)) (hz : Zlib tinflDictSize z x) :
    Zlib zlibWindowSize z x := by
  cases hz with
  | mk method _ check dictionary body pad_lt blocks =>
    exact .mk method (odZlibHeaderCheck_window h.2) check dictionary body pad_lt blocks

/-- The verdict on a header does not change with what follows. -/
theorem headerVerdict_append {xs : Bytes} {v : ZlibHeader} (h : headerVerdict xs = some v) (rest : Bytes) :
    headerVerdict (xs ++ rest) = some v := by
  match xs, h with
  | _ :: _ :: _, h => exact h

end Format

/-- What a run of the adapter has had: with the pushes before the last one and with all of
them, and whether the last is the final one. -/
structure TinflFeed where
  expected : UInt32
  before : Bytes
  all : Bytes
  final : Bool

/-- No stream of the right size has been pushed or can still become complete. -/
def Hopeless (f : TinflFeed) : Prop :=
  ∀ z x, Zlib zlibWindowSize z x → x.length = f.expected.toNat →
    ¬ z <+: f.all ∧ (f.final = false → ¬ f.all <+: z)

variable {σ : Type} {d : TinflDecoder σ}

/-- The decoder has gone so far, and its output stands in the ring. -/
structure TinflAt (d : TinflDecoder σ) (c o : Bytes) (s : Tinfl σ) : Prop where
  reached : Served d s.decomp c o
  ring : InRing tinflDictSize s.dict o
  place : s.dictOfs.val = o.length % tinflDictSize

/-- The adapter in the middle of a stream that has put out `o`, with what is not handed
over, or at the end of one. -/
structure Tinflating (d : TinflDecoder σ) (f : TinflFeed) (o : Bytes) (s : Tinfl σ) : Prop where
  initialized : s.initialized = true
  clear : s.error = none
  asked : s.expected = f.expected
  more : s.moreInput = !f.final
  produced : s.produced = UInt32.ofNat o.length
  header : HeaderOk s.header f.all
  inside : s.deliverOfs + s.pending ≤ tinflDictSize
  taken : ∃ c, f.before <+: c ∧ c ++ s.input = f.all ∧
    (s.done = false → TinflAt d c o s) ∧ (s.done = true → Zlib tinflDictSize c o)

/-- Where a poll leaves the adapter. -/
def TinflStopped (d : TinflDecoder σ) (f : TinflFeed) (o : Bytes) (s : Tinfl σ) : ZlibStatus → Prop
  | .outputReady => Tinflating d f o s
  | .needsInput => Tinflating d f o s ∧ s.pending = 0 ∧ s.input = [] ∧ s.done = false ∧ f.final = false ∧
      ∀ x, ¬ Zlib tinflDictSize f.all x
  | .done => Tinflating d f o s ∧ s.pending = 0 ∧ s.done = true
  | .error => s.error ≠ none ∧ Hopeless f

section Call

variable {c o : Bytes} {s : Tinfl σ} {f : TinflFeed}

theorem TinflAt.serves (hd : Correct (Zlib tinflDictSize) d) (h : TinflAt d c o s) :
    Serves (Zlib tinflDictSize) c o s.input (tinflDictSize - s.dictOfs) s.moreInput (tinflCall d s) := by
  have hlt := s.dictOfs.isLt
  have hroom : o.length % tinflDictSize + (tinflDictSize - s.dictOfs) ≤ tinflDictSize := by
    rw [← h.place]
    omega
  unfold tinflCall
  rw [h.place] at hlt ⊢
  exact hd h.reached h.ring (by omega) (by rwa [h.place] at hroom)

theorem TinflAt.took (hd : Correct (Zlib tinflDictSize) d) (h : TinflAt d c o s)
    (hwaits : (tinflCall d s).status.Waits) :
    TinflAt d (c ++ s.input.take (tinflCall d s).consumed) (o ++ (tinflCall d s).out) (s.took (tinflCall d s)) := by
  have hserves := h.serves hd
  have hlt := s.dictOfs.isLt
  have hfit : o.length % tinflDictSize + (tinflCall d s).out.length ≤ tinflDictSize := by
    have hle := hserves.out_le
    rw [h.place] at hle hlt
    omega
  refine ⟨?_, ?_, ?_⟩
  · unfold tinflCall at hwaits ⊢
    rw [h.place] at hlt hwaits ⊢
    exact .call h.reached h.ring (by omega) (by omega) hwaits
  · show InRing _ (store s.dict s.dictOfs _) _
    rw [h.place]
    exact h.ring.write hfit
  · show (s.dictOfs.val + _) % tinflDictSize = _
    rw [h.place, List.length_append, Nat.mod_add_mod]

/-- What a call leaves of the state, with the decoder where it is then. -/
theorem Tinflating.took (hd : Correct (Zlib tinflDictSize) d) (h : Tinflating d f o s) (hdone : s.done = false)
    (ended : Bool)
    (hstatus : (tinflCall d s).status.Waits ∧ ended = false ∨ (tinflCall d s).status = .done ∧ ended = true) :
    Tinflating d f (o ++ (tinflCall d s).out) { s.took (tinflCall d s) with done := ended } := by
  obtain ⟨c, hbefore, hall, hlive, -⟩ := h.taken
  have hat := hlive hdone
  have hserves := hat.serves hd
  refine ⟨h.initialized, h.clear, h.asked, h.more, ?_, h.header, ?_, c ++ s.input.take (tinflCall d s).consumed, ?_, ?_,
    ?_, ?_⟩
  · show s.produced + _ = _
    rw [h.produced, List.length_append, UInt32.ofNat_add]
  · show s.dictOfs.val + (tinflCall d s).out.length ≤ tinflDictSize
    have hle := hserves.out_le
    have hlt := s.dictOfs.isLt
    omega
  · exact hbefore.trans (List.prefix_append _ _)
  · show c ++ s.input.take _ ++ s.input.drop _ = f.all
    rw [List.append_assoc, List.take_append_drop, hall]
  · rintro rfl
    have hwaits := (hstatus.resolve_right fun hend => Bool.noConfusion hend.2).1
    have hnext := hat.took hd hwaits
    exact ⟨hnext.reached, hnext.ring, hnext.place⟩
  · rintro rfl
    exact hserves.done (hstatus.resolve_left fun hwait => Bool.noConfusion hwait.2).1

theorem Tinflating.took_waits (hd : Correct (Zlib tinflDictSize) d) (h : Tinflating d f o s) (hdone : s.done = false)
    (hwaits : (tinflCall d s).status.Waits) :
    Tinflating d f (o ++ (tinflCall d s).out) (s.took (tinflCall d s)) := by
  have hnext := h.took hd hdone false (.inl ⟨hwaits, rfl⟩)
  rwa [← hdone] at hnext

/-- A stream of another size than expected leaves no hope of one of that size. -/
theorem Hopeless.of_size (hc : c <+: f.all) (hcode : Zlib tinflDictSize c o) (hlen : o.length ≠ f.expected.toNat) :
    Hopeless f := by
  intro z x hz hx
  have hz' : Zlib tinflDictSize z x := hz.mono (by decide)
  constructor
  · intro hpre
    obtain ⟨-, rfl⟩ := (zlib_selfDelimiting _).unique_within hcode hz' hc hpre
    exact hlen hx
  · intro _ hpre
    obtain ⟨-, rfl⟩ := hcode.unique hz' (hc.trans hpre)
    exact hlen hx

end Call

section Pass

variable {f : TinflFeed} {o : Bytes} {capacity : Nat} {w v : Bytes × Tinfl σ}

/-- What a pass comes to: every byte that was not handed over has been since, or waits in
the ring still, before those that were decoded. -/
def TinflPassed (d : TinflDecoder σ) (f : TinflFeed) (capacity : Nat) (o : Bytes) (w : Bytes × Tinfl σ) :
    TinflIter σ → Prop
  | .next w' => w'.1.length ≤ capacity ∧
      ∃ fresh, w'.1 ++ w'.2.undelivered = w.1 ++ w.2.undelivered ++ fresh ∧ Tinflating d f (o ++ fresh) w'.2
  | .stop (status, w') => w'.1.length ≤ capacity ∧ w'.2.deliverOfs + w'.2.pending ≤ tinflDictSize ∧
      ∃ fresh, w'.1 ++ w'.2.undelivered = w.1 ++ w.2.undelivered ++ fresh ∧ TinflStopped d f (o ++ fresh) w'.2 status

theorem TinflPassed.same {i : TinflIter σ} (h : TinflPassed d f capacity o v i)
    (hsame : v.1 ++ v.2.undelivered = w.1 ++ w.2.undelivered) : TinflPassed d f capacity o w i := by
  cases i with
  | next w' =>
    unfold TinflPassed at h ⊢
    rwa [← hsame]
  | stop r =>
    unfold TinflPassed at h ⊢
    rwa [← hsame]

theorem tinflDecode_spec (hd : Correct (Zlib tinflDictSize) d) (hlen : w.1.length ≤ capacity)
    (hpending : w.2.pending = 0)
    (hdone : w.2.done = false) (h : Tinflating d f o w.2) : TinflPassed d f capacity o w (tinflDecode d w) := by
  obtain ⟨c, -, hall, hlive, -⟩ := h.taken
  have hserves := (hlive hdone).serves hd
  have hbytes : w.1 ++ (w.2.took (tinflCall d w.2)).undelivered = w.1 ++ w.2.undelivered ++ (tinflCall d w.2).out := by
    rw [Tinfl.took_undelivered, Tinfl.undelivered_nil hpending, List.append_nil]
  have hinside : w.2.dictOfs + (tinflCall d w.2).out.length ≤ tinflDictSize := by
    have hle := hserves.out_le
    have hlt := w.2.dictOfs.isLt
    omega
  unfold tinflDecode
  cases hstatus : (tinflCall d w.2).status with
  | failed reason =>
    refine ⟨hlen, hinside, _, hbytes, Option.some_ne_none _, fun z x hz _ => ?_⟩
    have hfailed := hserves.failed hstatus (hz.mono (by decide))
    rw [hall, h.more] at hfailed
    exact ⟨hfailed.1, fun hfinal => hfailed.2 (by rw [hfinal]; rfl)⟩
  | done => exact ⟨hlen, _, hbytes, h.took hd hdone true (.inr ⟨hstatus, rfl⟩)⟩
  | needsMoreInput =>
    have hnext := h.took_waits hd hdone (by rw [hstatus]; trivial)
    unfold tinflStatus
    dsimp only
    split_ifs with hnone
    · obtain ⟨hmore, hconsumed, hopen⟩ := hserves.needs hstatus
      refine ⟨hlen, hinside, _, hbytes, hnext, hnone, ?_, hdone, ?_, ?_⟩
      · show w.2.input.drop _ = []
        rw [hconsumed, List.drop_length]
      · rw [h.more] at hmore
        exact Bool.not_eq_true' _ ▸ hmore
      · rw [hconsumed, List.take_length, hall] at hopen
        exact hopen
    · exact ⟨hlen, _, hbytes, hnext⟩
  | hasMoreOutput => exact ⟨hlen, _, hbytes, h.took_waits hd hdone (by rw [hstatus]; trivial)⟩

theorem tinflDrained_spec (hd : Correct (Zlib tinflDictSize) d) (hlen : w.1.length ≤ capacity)
    (hpending : w.2.pending = 0)
    (h : Tinflating d f o w.2) : TinflPassed d f capacity o w (tinflDrained d capacity w) := by
  have hsame : w.1 ++ w.2.undelivered = w.1 ++ w.2.undelivered ++ [] := (List.append_nil _).symm
  unfold tinflDrained
  split_ifs with hdone hsize hroom
  · obtain ⟨c, -, hall, -, hended⟩ := h.taken
    have hpre : c <+: f.all := hall ▸ List.prefix_append _ _
    refine ⟨hlen, h.inside, [], hsame, Option.some_ne_none _, .of_size hpre (hended hdone) fun heq => ?_⟩
    rw [h.produced, h.asked, heq, UInt32.ofNat_toNat] at hsize
    exact hsize.2 rfl
  · exact ⟨hlen, h.inside, [], hsame, by rwa [List.append_nil], hpending, hdone⟩
  · refine ⟨hlen, h.inside, [], hsame, ?_⟩
    rw [List.append_nil]
    exact h
  · exact tinflDecode_spec hd hlen hpending (Bool.not_eq_true _ ▸ hdone) h

theorem Tinflating.deliver (h : Tinflating d f o w.2) (capacity : Nat) :
    Tinflating d f o (tinflDeliver capacity w).2 := by
  have hinside := h.inside
  refine ⟨h.initialized, h.clear, h.asked, h.more, h.produced, h.header, ?_, ?_⟩
  · show w.2.deliverOfs + min w.2.pending (capacity - w.1.length) +
      (w.2.pending - min w.2.pending (capacity - w.1.length)) ≤ tinflDictSize
    omega
  · obtain ⟨c, hbefore, hall, hlive, hended⟩ := h.taken
    exact ⟨c, hbefore, hall, fun hdone => ⟨(hlive hdone).reached, (hlive hdone).ring, (hlive hdone).place⟩, hended⟩

theorem tinflPass_spec (hd : Correct (Zlib tinflDictSize) d) (hlen : w.1.length ≤ capacity) (h : Tinflating d f o w.2) :
    TinflPassed d f capacity o w (tinflPass d capacity w) := by
  have hbytes := tinflDeliver_bytes capacity w
  have hlen' : (tinflDeliver capacity w).1.length ≤ capacity := by
    rw [tinflDeliver_length]
    omega
  apply TinflPassed.same _ hbytes
  rcases tinflPass_cases d capacity w with ⟨-, -, hpass⟩ | ⟨hpending, hpass⟩
  · rw [hpass]
    refine ⟨hlen', (h.deliver capacity).inside, [], (List.append_nil _).symm, ?_⟩
    rw [List.append_nil]
    exact h.deliver capacity
  · rw [hpass]
    exact tinflDrained_spec hd hlen' hpending (h.deliver capacity)

/-- What a poll comes to. -/
theorem odInflateTinflPoll_spec (hd : Correct (Zlib tinflDictSize) d) {s t : Tinfl σ} {out : Bytes}
    {status : ZlibStatus}
    (h : Tinflating d f o s) (hpoll : odInflateTinflPoll d capacity s = (status, out, t)) :
    out.length ≤ capacity ∧ t.deliverOfs + t.pending ≤ tinflDictSize ∧
      ∃ fresh, out ++ t.undelivered = s.undelivered ++ fresh ∧ TinflStopped d f (o ++ fresh) t status := by
  have hrun := loop_rule (f := tinflPass d capacity) (d := tinflPass_dec capacity)
    (P := fun w r => ∀ o, w.1.length ≤ capacity → Tinflating d f o w.2 → TinflPassed d f capacity o w (.stop r))
    ?_ ?_ ([], s) o (Nat.zero_le _) h
  · have heq : odInflateTinflPoll d capacity s =
        loop (tinflPass d capacity) (tinflWork capacity) (tinflPass_dec capacity) ([], s) := by
      unfold odInflateTinflPoll
      rw [if_neg (by rw [h.initialized]; exact Bool.noConfusion), if_neg (not_not.mpr h.clear)]
    rw [← heq, hpoll] at hrun
    exact hrun
  · intro w r hstop o hlen h
    have hpass := tinflPass_spec hd hlen h
    rwa [hstop] at hpass
  · intro w w' r hnext ih o hlen h
    have hpass := tinflPass_spec hd hlen h
    rw [hnext] at hpass
    obtain ⟨hlen', fresh, hbytes, hw'⟩ := hpass
    obtain ⟨hlen'', hinside, fresh', hbytes', hstopped⟩ := ih _ hlen' hw'
    refine ⟨hlen'', hinside, fresh ++ fresh', ?_, ?_⟩
    · rw [hbytes', hbytes, List.append_assoc]
    · rwa [List.append_assoc] at hstopped

end Pass

section Push

open InflateApp

variable {f : TinflFeed} {expected : UInt32} {xs o input : Bytes} {s : Tinfl σ} {final : Bool}

/-- The adapter between two pushes, with the stream not complete. -/
def TinflResting (d : TinflDecoder σ) (expected : UInt32) (xs o : Bytes) (s : Tinfl σ) : Prop :=
  ∃ before, TinflStopped d ⟨expected, before, xs, false⟩ o s .needsInput

theorem odInflateTinflReset_resting (d : TinflDecoder σ) (expected : UInt32) (s : Tinfl σ) :
    TinflResting d expected [] [] (odInflateTinflReset d expected s) := by
  refine ⟨[], ⟨rfl, rfl, rfl, rfl, rfl, rfl, Nat.zero_le _, [], List.prefix_rfl, rfl, fun _ => ?_, nofun⟩,
    rfl, rfl, rfl, rfl, fun x hx => hx.ne_nil rfl⟩
  exact ⟨.init, InRing.nil _, rfl⟩

/-- A header that is refused is that of no stream within the limit. -/
theorem Hopeless.of_verdict (h : headerVerdict f.all ≠ none) (hbad : headerVerdict f.all ≠ some .ok) : Hopeless f := by
  obtain ⟨v, hv⟩ := Option.ne_none_iff_exists'.mp h
  intro z x hz _
  constructor
  · rintro ⟨rest, hrest⟩
    exact hbad (hrest ▸ zlib_verdict hz rest)
  · rintro - ⟨rest, hrest⟩
    have hok := zlib_verdict hz []
    rw [List.append_nil, ← hrest, headerVerdict_append hv] at hok
    exact hbad (hv.trans hok)

theorem Tinflating.observed (h : Tinflating d f o s) (hinput : s.input = []) (input : Bytes) (final : Bool) :
    (∃ t, tinflObserved input final s (odZlibHeaderObserve s.header input) = (.needsInput, t) ∧
        Tinflating d ⟨f.expected, f.all, f.all ++ input, final⟩ o t ∧ t.pending = s.pending) ∨
      ∃ t, tinflObserved input final s (odZlibHeaderObserve s.header input) = (.error, t) ∧ t.error ≠ none ∧
        t.deliverOfs + t.pending ≤ tinflDictSize ∧ headerVerdict (f.all ++ input) ≠ none ∧
        headerVerdict (f.all ++ input) ≠ some .ok := by
  obtain ⟨hverdict, hnext⟩ := odZlibHeaderObserve_verdict h.header input
  cases hobserve : odZlibHeaderObserve s.header input with
  | mk verdict header =>
    rw [hobserve] at hverdict hnext
    have htaken : headerVerdict (f.all ++ input) = none ∨ headerVerdict (f.all ++ input) = some .ok →
        Tinflating d ⟨f.expected, f.all, f.all ++ input, final⟩ o
          { s with header := header, input := input, moreInput := !final } := by
      intro hok
      obtain ⟨c, -, hall, hlive, hended⟩ := h.taken
      rw [hinput, List.append_nil] at hall
      exact ⟨h.initialized, h.clear, h.asked, rfl, h.produced, hnext hok, h.inside, c, hall ▸ List.prefix_rfl,
        congrArg (· ++ input) hall, fun hdone => ⟨(hlive hdone).reached, (hlive hdone).ring, (hlive hdone).place⟩,
        hended⟩
    match verdict, hverdict with
    | none, hverdict => exact .inl ⟨_, rfl, htaken (.inl hverdict.symm), rfl⟩
    | some .ok, hverdict => exact .inl ⟨_, rfl, htaken (.inr hverdict.symm), rfl⟩
    | some .bad, hverdict | some .windowTooBig, hverdict =>
      rw [← hverdict]
      exact .inr ⟨_, rfl, Option.some_ne_none _, h.inside, nofun, nofun⟩

theorem Tinflating.push (h : Tinflating d f o s) (hinput : s.input = []) (hdone : s.done = false) (input : Bytes)
    (final : Bool) :
    odInflateTinflPush input final s = tinflObserved input final s (odZlibHeaderObserve s.header input) := by
  unfold odInflateTinflPush
  rw [if_neg (by rw [h.initialized]; exact Bool.noConfusion), if_neg (not_not.mpr h.clear),
    if_neg (not_not.mpr hinput), if_neg (by rw [hdone]; exact Bool.noConfusion)]

def TinflKept (d : TinflDecoder σ) (f : TinflFeed) (o : Bytes) (s : Tinfl σ) : Prop :=
  Tinflating d f (o ++ s.undelivered) s

def TinflLeft (d : TinflDecoder σ) (f : TinflFeed) (status : ZlibStatus) (o : Bytes) (s : Tinfl σ) : Prop :=
  TinflStopped d f (o ++ s.undelivered) s status

theorem tinfl_polls (hd : Correct (Zlib tinflDictSize) d) (f : TinflFeed) (scratch : Nat) :
    Polls (tinflApp d) scratch (TinflKept d f) (TinflLeft d f) := by
  have hstop : ∀ {o s status out t}, TinflKept d f o s → (tinflApp d).poll scratch s = (status, out, t) →
      TinflLeft d f status (o ++ out) t := by
    intro o s status out t hs hpoll
    obtain ⟨-, -, fresh, hbytes, hstopped⟩ := odInflateTinflPoll_spec hd hs hpoll
    unfold TinflLeft
    rwa [List.append_assoc, hbytes, ← List.append_assoc]
  exact ⟨fun hs hpoll => (odInflateTinflPoll_spec hd hs hpoll).1, hstop, fun hs hpoll _ => hstop hs hpoll⟩

/-- More output than expected leaves no hope either. -/
theorem Hopeless.of_over (hd : Correct (Zlib tinflDictSize) d) (h : Tinflating d f o s)
    (hlen : f.expected.toNat < o.length) : Hopeless f := by
  obtain ⟨c, -, hall, hlive, hended⟩ := h.taken
  have hc : c <+: f.all := hall ▸ List.prefix_append _ _
  cases hdone : s.done with
  | true => exact .of_size hc (hended hdone) hlen.ne'
  | false =>
    intro z x hz hx
    obtain ⟨htakes, hgives⟩ := (hlive hdone).reached.within hd (hz.mono (by decide : zlibWindowSize ≤ tinflDictSize))
    have hnot : ¬ c <+: z := by
      intro hpre
      have hle := (hgives hpre).length_le
      omega
    constructor
    · intro hpre
      rcases List.prefix_or_prefix_of_prefix hpre hc with hz | hz
      · exact hnot (htakes hz ▸ List.prefix_rfl)
      · exact hnot hz
    · exact fun _ hpre => hnot (hc.trans hpre)

theorem Hopeless.of_pumped (hd : Correct (Zlib tinflDictSize) d) {p : AppPump (Tinfl σ) × Bytes}
    (h : Pumped (tinflApp d) (TinflKept d f) (TinflLeft d f) f.expected f.final .error p) : Hopeless f := by
  have hover : ∀ {o s}, Tinflating d f (o ++ s.undelivered) s → f.expected.toNat < o.length → Hopeless f := by
    intro o s hs hlt
    refine .of_over hd hs ?_
    rw [List.length_append]
    omega
  obtain ⟨o, t, herror | ⟨hfinal, -, -, -, -, hopen, -⟩ | ⟨⟨ht, hpending, hdone⟩, hsize⟩ | ⟨hlt,
    hkept | ⟨status, hleft⟩⟩⟩ := h
  · exact herror.2
  · exact absurd (hfinal.symm.trans hopen) Bool.noConfusion
  · rw [Tinfl.undelivered_nil hpending, List.append_nil] at ht
    obtain ⟨c, -, hall, -, hended⟩ := ht.taken
    refine .of_size (hall ▸ List.prefix_append _ _) (hended hdone) fun hlen => ?_
    rcases hsize with hne | hne
    · exact hne hlen
    · have hcount : t.produced = f.expected := by rw [ht.produced, hlen, UInt32.ofNat_toNat]
      exact hne hcount
  · exact hover hkept hlt
  · cases status with
    | outputReady => exact hover hleft hlt
    | needsInput | done => exact hover hleft.1 hlt
    | error => exact hleft.2

/-- The adapter after the end of a stream of the right size, with what was left of the push. -/
structure TinflEnded (expected : UInt32) (rest : Bytes) (s : Tinfl σ) : Prop where
  initialized : s.initialized = true
  clear : s.error = none
  done : s.done = true
  pending : s.pending = 0
  left : s.input = rest
  asked : s.expected = expected
  produced : s.produced = expected

theorem push_resting (hd : Correct (Zlib tinflDictSize) d) {scratch : Nat} (hc : 0 < scratch)
    {p p' : AppPump (Tinfl σ) × Bytes} {status : PumpStatus} (hp : Emitting expected p)
    (h : TinflResting d expected xs p.2 p.1.engine)
    (hpush : (tinflApp d).odZlibPumpPush collect input final scratch p = (status, p')) :
    match status with
    | .more => final = false ∧ Emitting expected p' ∧ TinflResting d expected (xs ++ input) p'.2 p'.1.engine
    | .done => Emitting expected p' ∧ p'.2.length = expected.toNat ∧ ∃ z rest, z ++ rest = xs ++ input ∧
        Zlib zlibWindowSize z p'.2 ∧ (rest = [] ∨ rest.length < input.length) ∧ TinflEnded expected rest p'.1.engine
    | .error => Hopeless ⟨expected, xs, xs ++ input, final⟩ := by
  obtain ⟨before, hs, hidle, hinput, hlive, -, hopen⟩ := h
  have hengine := hs.push hinput hlive input final
  rcases hs.observed hinput input final with ⟨t, hobserved, ht, hpending⟩ | ⟨t, hobserved, -, -, hsome, hbad⟩
  · have hkept : TinflKept d ⟨expected, xs, xs ++ input, final⟩ p.2 t := by
      unfold TinflKept
      rwa [Tinfl.undelivered_nil (hpending.trans hidle), List.append_nil]
    rw [hobserved] at hengine
    have hpumped := odZlibPumpPush_rule final (tinfl_polls hd _ scratch) hc hp hengine nofun hkept
    rw [hpush] at hpumped
    cases status with
    | more =>
      obtain ⟨hfinal, hp', hleft⟩ := hpumped
      subst hfinal
      refine ⟨rfl, hp', xs, ?_⟩
      unfold TinflLeft at hleft
      rwa [Tinfl.undelivered_nil hleft.2.1, List.append_nil] at hleft
    | done =>
      obtain ⟨hp', ⟨hs, hnone, hdone⟩, hsize⟩ := hpumped
      rw [Tinfl.undelivered_nil hnone, List.append_nil] at hs
      obtain ⟨z, hbefore, hall, -, hended⟩ := hs.taken
      have hz := hended hdone
      refine ⟨hp', hsize, z, _, hall, ?_, ?_, hs.initialized, hs.clear, hdone, hnone, rfl, hs.asked, ?_⟩
      · have hheader := hs.header
        rw [← hall] at hheader
        exact hheader.narrow hz
      · -- the stream was not complete before this push
        have hlonger : xs.length < z.length := by
          apply Nat.lt_of_le_of_ne hbefore.length_le
          intro hlen
          exact hopen _ (hbefore.eq_of_length hlen ▸ hz)
        have htotal := congrArg List.length hall
        rw [List.length_append, List.length_append] at htotal
        omega
      · rw [hs.produced, hsize, UInt32.ofNat_toNat]
    | error => exact Hopeless.of_pumped hd hpumped
  · rw [hobserved] at hengine
    rw [InflateApp.odZlibPumpPush_refused hp.ready hc hengine] at hpush
    obtain rfl : PumpStatus.error = status := (Prod.mk.inj hpush).1
    exact .of_verdict hsome hbad

end Push

end OpenDisplay
