import OpenDisplay.Inflate.Adapter

/-! What becomes of a stream that is pushed through the adapter: it is accepted when it is
one valid stream of the expected size, or that with more bytes after it, all of them in the
final push and not the whole of it. -/

namespace OpenDisplay

open Loops Memories Decoders Deflate InflateApp

variable {σ : Type} {d : TinflDecoder σ} {expected : UInt32}

section Ended

variable {s : Tinfl σ} {rest input : Bytes} {final : Bool} {scratch : Nat} {p : AppPump (Tinfl σ) × Bytes}

theorem TinflEnded.push (h : TinflEnded expected [] s) (final : Bool) : odInflateTinflPush [] final s = (.done, s) := by
  unfold odInflateTinflPush
  rw [if_neg (by rw [h.initialized]; exact Bool.noConfusion), if_neg (not_not.mpr h.clear), if_neg (not_not.mpr h.left),
    if_pos h.done, if_neg (not_not.mpr rfl)]

theorem TinflEnded.refuses (h : TinflEnded expected rest s) (hne : rest ≠ [] ∨ input ≠ []) (final : Bool) :
    ∃ t, odInflateTinflPush input final s = (.error, t) := by
  unfold odInflateTinflPush
  rw [if_neg (by rw [h.initialized]; exact Bool.noConfusion), if_neg (not_not.mpr h.clear), h.left]
  by_cases hrest : rest = []
  · rw [if_neg (not_not.mpr hrest), if_pos h.done, if_pos (hne.resolve_left (not_not.mpr hrest))]
    exact ⟨_, rfl⟩
  · rw [if_pos hrest]
    exact ⟨_, rfl⟩

theorem TinflEnded.poll (h : TinflEnded expected rest s) (capacity : Nat) :
    odInflateTinflPoll d capacity s = (.done, [], s) := by
  unfold odInflateTinflPoll
  rw [if_neg (by rw [h.initialized]; exact Bool.noConfusion), if_neg (not_not.mpr h.clear)]
  apply loop_stop
  unfold tinflPass tinflDrained
  rw [if_neg (by rw [h.pending]; exact Nat.lt_irrefl 0), if_pos h.done, if_neg]
  exact fun hsize => hsize.2 (h.produced.trans h.asked.symm)

/-- A pump that has come to the end stays there with no more input, and fails with any. -/
theorem push_ended (hc : 0 < scratch) (hp : Emitting expected p) (hlen : p.2.length = expected.toNat)
    (h : TinflEnded expected rest p.1.engine) (input : Bytes) (final : Bool) :
    (rest = [] ∧ input = [] → ∃ p', (tinflApp d).odZlibPumpPush collect input final scratch p = (.done, p') ∧
        p'.2 = p.2 ∧ Emitting expected p' ∧ TinflEnded expected [] p'.1.engine) ∧
      (rest ≠ [] ∨ input ≠ [] → ((tinflApp d).odZlibPumpPush collect input final scratch p).1 = .error) := by
  constructor
  · rintro ⟨rfl, rfl⟩
    have hpoll : (tinflApp d).poll scratch p.1.engine = (.done, [], p.1.engine) := h.poll scratch
    have hpolls : Polls (tinflApp d) scratch (fun o s => o = p.2 ∧ s = p.1.engine)
        (fun status o s => status = .done ∧ o = p.2 ∧ s = p.1.engine) := by
      constructor
      · rintro o s status out t ⟨-, rfl⟩ hreturns
        cases hpoll.symm.trans hreturns
        exact Nat.zero_le _
      · rintro o s out t ⟨-, rfl⟩ hreturns
        cases hpoll.symm.trans hreturns
      · rintro o s status out t ⟨rfl, rfl⟩ hreturns -
        cases hpoll.symm.trans hreturns
        exact ⟨rfl, List.append_nil _, rfl⟩
    have hpumped := odZlibPumpPush_rule final hpolls hc hp (h.push final) nofun ⟨rfl, rfl⟩
    cases hpush : (tinflApp d).odZlibPumpPush collect [] final scratch p with
    | mk status p' =>
      rw [hpush] at hpumped
      cases status with
      | more => cases hpumped.2.2.1
      | done =>
        obtain ⟨hp', ⟨-, hsame, hengine⟩, -⟩ := hpumped
        exact ⟨p', rfl, hsame, hp', hengine ▸ h⟩
      | error =>
        obtain ⟨o, t, herror | ⟨-, hneeds, -⟩ | ⟨⟨-, rfl, rfl⟩, hsize⟩ | ⟨hlt, hkept | ⟨status, hleft⟩⟩⟩ := hpumped
        · cases herror.1
        · cases hneeds
        · rcases hsize with hne | hne
          · exact absurd hlen hne
          · exact absurd h.produced hne
        · exact absurd hlt (by rw [hkept.1, hlen]; exact Nat.lt_irrefl _)
        · exact absurd hlt (by rw [hleft.2.1, hlen]; exact Nat.lt_irrefl _)
  · intro hne
    obtain ⟨t, hrefuses⟩ := h.refuses hne final
    rw [InflateApp.odZlibPumpPush_refused hp.ready hc hrefuses]

theorem pushes_ended {pushes : List (Bytes × Nat)} (hne : pushes ≠ []) (hpos : ∀ q ∈ pushes, 0 < q.2)
    (hp : Emitting expected p) (hlen : p.2.length = expected.toNat) (h : TinflEnded expected rest p.1.engine) :
    (rest = [] ∧ pushed pushes = [] → (tinflApp d).pumpPushes pushes p = (.done, p.2)) ∧
      (rest ≠ [] ∨ pushed pushes ≠ [] → ((tinflApp d).pumpPushes pushes p).1 = .error) := by
  induction pushes generalizing p rest with
  | nil => exact absurd rfl hne
  | cons push more ih =>
    obtain ⟨input, scratch⟩ := push
    have hc : 0 < scratch := hpos (input, scratch) List.mem_cons_self
    have hpushed : pushed ((input, scratch) :: more) = input ++ pushed more := List.flatMap_cons
    cases more with
    | nil =>
      obtain ⟨hdone, herror⟩ := push_ended (d := d) hc hp hlen h input true
      have hlast : pushed [(input, scratch)] = input := hpushed.trans (List.append_nil _)
      rw [hlast]
      unfold InflateApp.pumpPushes
      constructor
      · intro hnil
        obtain ⟨p', hpush, hsame, -⟩ := hdone hnil
        rw [hpush]
        exact congrArg (Prod.mk PumpStatus.done) hsame
      · exact herror
    | cons next more =>
      obtain ⟨hdone, herror⟩ := push_ended (d := d) hc hp hlen h input false
      rw [hpushed]
      unfold InflateApp.pumpPushes
      by_cases hnil : rest = [] ∧ input = []
      · obtain ⟨p', hpush, hsame, hp', h'⟩ := hdone hnil
        obtain ⟨hdone', herror'⟩ := ih (List.cons_ne_nil _ _) (fun q hq => hpos q (List.mem_cons_of_mem _ hq)) hp'
          (hsame ▸ hlen) h'
        rw [hpush, hnil.2, List.nil_append]
        constructor
        · intro hall
          rw [← hsame]
          exact hdone' ⟨rfl, hall.2⟩
        · exact fun hsome => herror' (.inr (hsome.resolve_left (not_not.mpr hnil.1)))
      · have hfails := herror (not_and_or.mp hnil)
        cases hpush : (tinflApp d).odZlibPumpPush collect input false scratch p with
        | mk status p' =>
          rw [hpush] at hfails
          subst hfails
          refine ⟨fun hall => ?_, fun _ => rfl⟩
          exact absurd ⟨hall.1, (List.append_eq_nil_iff.mp hall.2).1⟩ hnil

end Ended

section Pushes

variable {xs z x rest input : Bytes} {scratch : Nat} {pushes : List (Bytes × Nat)}

def lastPush (pushes : List (Bytes × Nat)) : Bytes := (pushes.getLast?.map Prod.fst).getD []

theorem lastPush_le (pushes : List (Bytes × Nat)) : (lastPush pushes).length ≤ (pushed pushes).length := by
  rcases List.eq_nil_or_concat pushes with rfl | ⟨init, last, rfl⟩
  · exact Nat.le_refl _
  · have hlast : lastPush (init ++ [last]) = last.1 := by rw [lastPush, List.getLast?_concat]; rfl
    have hall : pushed (init ++ [last]) = pushed init ++ last.1 := by
      rw [pushed, List.flatMap_append, List.flatMap_singleton]
      rfl
    rw [List.concat_eq_append, hlast, hall, List.length_append]
    exact Nat.le_add_left _ _

/-- A stream of the expected size stands in front of what was pushed, and what follows it
is less than the last push. -/
structure StreamEnds (expected : UInt32) (pushes : List (Bytes × Nat)) (xs z x rest : Bytes) : Prop where
  split : z ++ rest = xs ++ pushed pushes
  stream : Zlib zlibWindowSize z x
  size : x.length = expected.toNat
  short : rest = [] ∨ rest.length < (lastPush pushes).length

theorem StreamEnds.unique {z' x' rest' : Bytes} (h : StreamEnds expected pushes xs z x rest)
    (h' : StreamEnds expected pushes xs z' x' rest') : x = x' ∧ rest = rest' := by
  obtain ⟨rfl, rfl⟩ := (zlib_selfDelimiting _).unique_within h.stream h'.stream (h.split ▸ List.prefix_append _ _)
    (h'.split ▸ List.prefix_append _ _)
  exact ⟨rfl, List.append_cancel_left (h.split.trans h'.split.symm)⟩

theorem streamEnds_cons {next : Bytes × Nat} {more : List (Bytes × Nat)} :
    StreamEnds expected ((input, scratch) :: next :: more) xs z x rest ↔
      StreamEnds expected (next :: more) (xs ++ input) z x rest := by
  have hpushed : xs ++ pushed ((input, scratch) :: next :: more) = xs ++ input ++ pushed (next :: more) := by
    rw [List.append_assoc]
    rfl
  have hlast : lastPush ((input, scratch) :: next :: more) = lastPush (next :: more) := by
    rw [lastPush, List.getLast?_cons_cons]
    rfl
  constructor
  · rintro ⟨split, stream, size, short⟩
    exact ⟨hpushed ▸ split, stream, size, hlast ▸ short⟩
  · rintro ⟨split, stream, size, short⟩
    exact ⟨hpushed ▸ split, stream, size, hlast ▸ short⟩

theorem streamEnds_last : StreamEnds expected [(input, scratch)] xs z x rest ↔ z ++ rest = xs ++ input ∧
    Zlib zlibWindowSize z x ∧ x.length = expected.toNat ∧ (rest = [] ∨ rest.length < input.length) := by
  have hpushed : xs ++ pushed [(input, scratch)] = xs ++ input := by
    rw [pushed, List.flatMap_cons, List.flatMap_nil, List.append_nil]
  constructor
  · rintro ⟨split, stream, size, short⟩
    exact ⟨hpushed ▸ split, stream, size, short⟩
  · rintro ⟨split, stream, size, short⟩
    exact ⟨hpushed ▸ split, stream, size, short⟩

/-- What follows a stream that was complete before the last push is no less than that. -/
theorem StreamEnds.complete {z' x' rest' : Bytes} (h : StreamEnds expected pushes xs z x rest)
    (hz : Zlib zlibWindowSize z' x') (hsplit : z' ++ rest' = xs) : rest' = [] ∧ pushed pushes = [] := by
  have hpre : z' <+: xs ++ pushed pushes := by
    rw [← hsplit, List.append_assoc]
    exact List.prefix_append _ _
  obtain ⟨rfl, -⟩ := (zlib_selfDelimiting _).unique_within hz h.stream hpre (h.split ▸ List.prefix_append _ _)
  have hrest : rest = rest' ++ pushed pushes := by
    have heq := h.split
    rw [← hsplit, List.append_assoc] at heq
    exact List.append_cancel_left heq
  have hle := lastPush_le pushes
  rcases h.short with hnil | hlt
  · rw [hrest] at hnil
    exact List.append_eq_nil_iff.mp hnil
  · rw [hrest, List.length_append] at hlt
    omega

/-- A run of the pump over the adapter accepts exactly the streams that end in this way. -/
theorem pushes_verdict (hd : Correct (Zlib tinflDictSize) d) {p : AppPump (Tinfl σ) × Bytes} (hne : pushes ≠ [])
    (hpos : ∀ q ∈ pushes, 0 < q.2) (hp : Emitting expected p) (h : TinflResting d expected xs p.2 p.1.engine) :
    (∃ z x rest, StreamEnds expected pushes xs z x rest ∧ (tinflApp d).pumpPushes pushes p = (.done, x)) ∨
      (∀ z x rest, ¬ StreamEnds expected pushes xs z x rest) ∧ ((tinflApp d).pumpPushes pushes p).1 = .error := by
  induction pushes generalizing xs p with
  | nil => exact absurd rfl hne
  | cons push more ih =>
    obtain ⟨input, scratch⟩ := push
    have hc : 0 < scratch := hpos (input, scratch) List.mem_cons_self
    cases more with
    | nil =>
      unfold InflateApp.pumpPushes
      cases hpush : (tinflApp d).odZlibPumpPush collect input true scratch p with
      | mk status p' =>
        have hstop := push_resting hd hc hp h hpush
        cases status with
        | more => cases hstop.1
        | done =>
          obtain ⟨-, hlen, z, rest, hall, hz, hshort, -⟩ := hstop
          exact .inl ⟨z, p'.2, rest, streamEnds_last.mpr ⟨hall, hz, hlen, hshort⟩, rfl⟩
        | error =>
          refine .inr ⟨fun z x rest hends => ?_, rfl⟩
          obtain ⟨hall, hz, hlen, -⟩ := streamEnds_last.mp hends
          exact (hstop z x hz hlen).1 ⟨rest, hall⟩
    | cons next more =>
      have hpos' : ∀ q ∈ next :: more, 0 < q.2 := fun q hq => hpos q (List.mem_cons_of_mem _ hq)
      unfold InflateApp.pumpPushes
      simp only [streamEnds_cons]
      cases hpush : (tinflApp d).odZlibPumpPush collect input false scratch p with
      | mk status p' =>
        have hstop := push_resting hd hc hp h hpush
        cases status with
        | more => exact ih (List.cons_ne_nil _ _) hpos' hstop.2.1 hstop.2.2
        | done =>
          obtain ⟨hp', hlen, z, rest, hall, hz, -, hended⟩ := hstop
          obtain ⟨hdone, herror⟩ := pushes_ended (d := d) (List.cons_ne_nil _ _) hpos' hp' hlen hended
          by_cases hnil : rest = [] ∧ pushed (next :: more) = []
          · refine .inl ⟨z, p'.2, [], ⟨?_, hz, hlen, .inl rfl⟩, hdone hnil⟩
            rw [hnil.2, List.append_nil, List.append_nil, ← hall, hnil.1, List.append_nil]
          · exact .inr ⟨fun z' x' rest' hends => hnil (hends.complete hz hall), herror (not_and_or.mp hnil)⟩
        | error =>
          refine .inr ⟨fun z x rest hends => ?_, rfl⟩
          obtain ⟨hno, hmay⟩ := hstop z x hends.stream hends.size
          rcases List.prefix_or_prefix_of_prefix (hends.split ▸ List.prefix_append z rest)
            (List.prefix_append (xs ++ input) (pushed (next :: more))) with hpre | hpre
          · exact hno hpre
          · exact hmay rfl hpre

end Pushes

section Runs

variable {s : Tinfl σ} {capacity : Nat}

/-- The states of the adapter: from the start, by resets, pushes and polls in any order. -/
inductive TinflRun (d : TinflDecoder σ) : Tinfl σ → Prop where
  | boot (decomp : σ) : TinflRun d { decomp := decomp }
  | reset {s : Tinfl σ} (expected : UInt32) : TinflRun d s → TinflRun d (odInflateTinflReset d expected s)
  | push {s : Tinfl σ} (input : Bytes) (final : Bool) : TinflRun d s → TinflRun d (odInflateTinflPush input final s).2
  | poll {s : Tinfl σ} (capacity : Nat) : TinflRun d s → TinflRun d (odInflateTinflPoll d capacity s).2.2

/-- What is not handed over is in the ring, and without an error the decoder is where the
adapter takes it to be. -/
structure TinflSafe (d : TinflDecoder σ) (s : Tinfl σ) : Prop where
  inside : s.deliverOfs + s.pending ≤ tinflDictSize
  live : s.initialized = true → s.error = none → ∃ f o, Tinflating d f o s

theorem TinflSafe.push (h : TinflSafe d s) (input : Bytes) (final : Bool) :
    TinflSafe d (odInflateTinflPush input final s).2 := by
  by_cases hinit : s.initialized = false
  · rw [odInflateTinflPush, if_pos hinit]
    exact ⟨h.inside, fun _ herror => absurd herror (Option.some_ne_none _)⟩
  · by_cases herror : s.error ≠ none
    · rw [odInflateTinflPush, if_neg hinit, if_pos herror]
      exact h
    · obtain ⟨f, o, hs⟩ := h.live (Bool.not_eq_false _ ▸ hinit) (not_not.mp herror)
      by_cases hinput : s.input = []
      · cases hdone : s.done with
        | false =>
          rw [hs.push hinput hdone]
          rcases hs.observed hinput input final with ⟨t, hobserved, ht, -⟩ | ⟨t, hobserved, hfailed, hinside, -⟩
          · rw [hobserved]
            exact ⟨ht.inside, fun _ _ => ⟨_, _, ht⟩⟩
          · rw [hobserved]
            exact ⟨hinside, fun _ hclear => absurd hclear hfailed⟩
        | true =>
          rw [odInflateTinflPush, if_neg hinit, if_neg herror, if_neg (not_not.mpr hinput), if_pos hdone]
          split_ifs
          · exact ⟨h.inside, fun _ hclear => absurd hclear (Option.some_ne_none _)⟩
          · exact h
      · rw [odInflateTinflPush, if_neg hinit, if_neg herror, if_pos hinput]
        exact ⟨h.inside, fun _ hclear => absurd hclear (Option.some_ne_none _)⟩

theorem TinflSafe.poll (hd : Correct (Zlib tinflDictSize) d) (h : TinflSafe d s) (capacity : Nat) :
    TinflSafe d (odInflateTinflPoll d capacity s).2.2 ∧
      ∃ fresh, (odInflateTinflPoll d capacity s).2.1 ++ (odInflateTinflPoll d capacity s).2.2.undelivered =
        s.undelivered ++ fresh := by
  have hsame : [] ++ s.undelivered = s.undelivered ++ [] := (List.append_nil _).symm
  by_cases hinit : s.initialized = false
  · rw [odInflateTinflPoll, if_pos hinit]
    exact ⟨⟨h.inside, fun _ herror => absurd herror (Option.some_ne_none _)⟩, [], hsame⟩
  · by_cases herror : s.error ≠ none
    · rw [odInflateTinflPoll, if_neg hinit, if_pos herror]
      exact ⟨h, [], hsame⟩
    · obtain ⟨f, o, hs⟩ := h.live (Bool.not_eq_false _ ▸ hinit) (not_not.mp herror)
      cases hpoll : odInflateTinflPoll d capacity s with
      | mk status w =>
        obtain ⟨out, t⟩ := w
        obtain ⟨-, hinside, fresh, hbytes, hstopped⟩ := odInflateTinflPoll_spec hd hs hpoll
        refine ⟨⟨hinside, fun _ hclear => ?_⟩, fresh, hbytes⟩
        cases status with
        | outputReady => exact ⟨_, _, hstopped⟩
        | needsInput | done => exact ⟨_, _, hstopped.1⟩
        | error => exact absurd hclear hstopped.1

theorem TinflRun.safe (hd : Correct (Zlib tinflDictSize) d) (h : TinflRun d s) : TinflSafe d s := by
  induction h with
  | boot decomp => exact ⟨Nat.zero_le _, nofun⟩
  | reset expected _ _ =>
    obtain ⟨before, hs, -⟩ := odInflateTinflReset_resting d expected _
    exact ⟨Nat.zero_le _, fun _ _ => ⟨_, _, hs⟩⟩
  | push input final _ ih => exact ih.push input final
  | poll capacity _ ih => exact (ih.poll hd capacity).1

/-- A poll makes at most two passes for each byte of room, and two more. -/
theorem odInflateTinflPoll_stops (hinit : s.initialized = true) (hclear : s.error = none) :
    ∃ n ≤ 2 * capacity + 2, Stops (tinflPass d capacity) n ([], s) (odInflateTinflPoll d capacity s) := by
  have hpoll : odInflateTinflPoll d capacity s =
      loop (tinflPass d capacity) (tinflWork capacity) (tinflPass_dec capacity) ([], s) := by
    unfold odInflateTinflPoll
    rw [if_neg (by rw [hinit]; exact Bool.noConfusion), if_neg (not_not.mpr hclear)]
  obtain ⟨n, hn, hstops⟩ := loop_stops (d := tinflPass_dec (d := d) capacity) ([], s)
  refine ⟨n, ?_, hpoll ▸ hstops⟩
  have hwork : tinflWork capacity (([], s) : Bytes × Tinfl σ) ≤ 2 * capacity + 1 := by
    unfold tinflWork
    split_ifs <;> exact Nat.add_le_add_left (by decide) _
  omega

end Runs

section Contract

variable {pushes : List (Bytes × Nat)} {x : Bytes}

/-- A run of the pump from its reset, whatever there was before. -/
def tinflPushes (d : TinflDecoder σ) (expected : UInt32) (before : AppPump (Tinfl σ)) (pushes : List (Bytes × Nat)) :
    PumpStatus × Bytes :=
  (tinflApp d).pumpPushes pushes ((tinflApp d).odZlibPumpReset expected before, [])

/-- The contract of a stream engine: it is done with the final push, and has put out these
bytes, exactly when what was pushed is a stream of the expected size that stands for them. -/
def KeepsContract (d : TinflDecoder σ) (expected : UInt32) (before : AppPump (Tinfl σ)) (pushes : List (Bytes × Nat)) :
    Prop :=
  ∀ out, tinflPushes d expected before pushes = (.done, out) ↔
    Zlib zlibWindowSize (pushed pushes) out ∧ out.length = expected.toNat

/-- A stream of the expected size ends inside the last push, and more bytes follow it there. -/
def RunsOver (expected : UInt32) (pushes : List (Bytes × Nat)) : Prop :=
  ∃ z x rest, z ++ rest = pushed pushes ∧ Zlib zlibWindowSize z x ∧ x.length = expected.toNat ∧ rest ≠ [] ∧
    rest.length < (lastPush pushes).length

theorem not_runsOver (h : Zlib zlibWindowSize (pushed pushes) x) : ¬ RunsOver expected pushes := by
  rintro ⟨z, x', rest, hsplit, hz, -, hne, -⟩
  obtain ⟨rfl, -⟩ := hz.unique h (hsplit ▸ List.prefix_append _ _)
  exact hne (List.append_right_eq_self.mp hsplit)

theorem tinflPushes_verdict (hd : Correct (Zlib tinflDictSize) d) (expected : UInt32) (before : AppPump (Tinfl σ))
    (hne : pushes ≠ []) (hpos : ∀ q ∈ pushes, 0 < q.2) :
    (∃ z x rest, StreamEnds expected pushes [] z x rest ∧ tinflPushes d expected before pushes = (.done, x)) ∨
      (∀ z x rest, ¬ StreamEnds expected pushes [] z x rest) ∧ (tinflPushes d expected before pushes).1 = .error :=
  pushes_verdict hd hne hpos ⟨nofun, rfl, rfl, Nat.zero_le _⟩ (odInflateTinflReset_resting d expected before.engine)

theorem keepsContract_iff (hd : Correct (Zlib tinflDictSize) d) (expected : UInt32) (before : AppPump (Tinfl σ))
    (hne : pushes ≠ []) (hpos : ∀ q ∈ pushes, 0 < q.2) :
    KeepsContract d expected before pushes ↔ ¬ RunsOver expected pushes := by
  have hverdict := tinflPushes_verdict hd expected before hne hpos
  constructor
  · rintro hkeeps ⟨z, x, rest, hsplit, hz, hlen, hrest, hshort⟩
    have hends : StreamEnds expected pushes [] z x rest := ⟨hsplit, hz, hlen, .inr hshort⟩
    rcases hverdict with ⟨z', x', rest', -, hdone⟩ | ⟨hnone, -⟩
    · exact not_runsOver ((hkeeps x').mp hdone).1 ⟨z, x, rest, hsplit, hz, hlen, hrest, hshort⟩
    · exact hnone z x rest hends
  · intro hnot out
    constructor
    · intro hdone
      rcases hverdict with ⟨z, x, rest, hends, hsame⟩ | ⟨-, herror⟩
      · obtain rfl := (Prod.mk.inj (hdone.symm.trans hsame)).2
        have hrest : rest = [] := by
          by_contra hrest
          exact hnot ⟨z, out, rest, hends.split, hends.stream, hends.size, hrest, hends.short.resolve_left hrest⟩
        have hall := hends.split
        rw [hrest, List.append_nil, List.nil_append] at hall
        exact ⟨hall ▸ hends.stream, hends.size⟩
      · rw [hdone] at herror
        cases herror
    · rintro ⟨hstream, hlen⟩
      have hends : StreamEnds expected pushes [] (pushed pushes) out [] :=
        ⟨List.append_nil _, hstream, hlen, .inl rfl⟩
      rcases hverdict with ⟨z, x, rest, hends', hdone⟩ | ⟨hnone, -⟩
      · rw [(hends.unique hends').1]
        exact hdone
      · exact absurd hends (hnone _ _ _)

/-- The adapter around a right decoder keeps the contract of the portable engine in exactly
the runs in which no bytes follow a stream in the final push that ends it; in these what it
says does not depend on how the stream is cut. Every poll stops, and hands over every byte
that was decoded, in order, or keeps it where it is. -/
theorem tinfl_stream_contract (d : TinflDecoder σ) (hd : Correct (Zlib tinflDictSize) d) (expected : UInt32)
    (before : AppPump (Tinfl σ)) :
    (∀ pushes, pushes ≠ [] → (∀ q ∈ pushes, 0 < q.2) →
      (KeepsContract d expected before pushes ↔ ¬ RunsOver expected pushes)) ∧
    (∀ pushes pushes', pushes ≠ [] → pushes' ≠ [] → (∀ q ∈ pushes, 0 < q.2) → (∀ q ∈ pushes', 0 < q.2) →
      pushed pushes = pushed pushes' → ¬ RunsOver expected pushes → ¬ RunsOver expected pushes' →
      (tinflPushes d expected before pushes).1 = (tinflPushes d expected before pushes').1) ∧
    ∀ s capacity, TinflRun d s →
      (s.initialized = true → s.error = none → ∃ n ≤ 2 * capacity + 2,
        Stops (tinflPass d capacity) n ([], s) (odInflateTinflPoll d capacity s)) ∧
      ∃ fresh, (odInflateTinflPoll d capacity s).2.1 ++ (odInflateTinflPoll d capacity s).2.2.undelivered =
        s.undelivered ++ fresh := by
  refine ⟨fun pushes hne hpos => keepsContract_iff hd expected before hne hpos, ?_, ?_⟩
  · intro pushes pushes' hne hne' hpos hpos' hsame hnot hnot'
    have hkeeps := (keepsContract_iff hd expected before hne hpos).mpr hnot
    have hkeeps' := (keepsContract_iff hd expected before hne' hpos').mpr hnot'
    unfold KeepsContract at hkeeps hkeeps'
    rw [← hsame] at hkeeps'
    rcases tinflPushes_verdict hd expected before hne hpos with ⟨z, x, rest, -, hdone⟩ | ⟨-, herror⟩
    · rw [hdone, (hkeeps' x).mpr ((hkeeps x).mp hdone)]
    · rcases tinflPushes_verdict hd expected before hne' hpos' with ⟨z, x, rest, -, hdone⟩ | ⟨-, herror'⟩
      · rw [(hkeeps x).mpr ((hkeeps' x).mp hdone), hdone]
      · rw [herror, herror']
  · intro s capacity hrun
    exact ⟨odInflateTinflPoll_stops, ((hrun.safe hd).poll hd capacity).2⟩

section Stored

/-- Three bytes in a stored block. -/
def storedStream : Bytes := [0x18, 0x19, 0x01, 0x03, 0x00, 0xfc, 0xff, 0x61, 0x62, 0x63, 0x02, 0x4d, 0x01, 0x27]

theorem storedStream_zlib : Zlib zlibWindowSize storedStream [0x61, 0x62, 0x63] := by
  refine @Zlib.mk zlibWindowSize 0x18 0x19 [0x01, 0x03, 0x00, 0xfc, 0xff, 0x61, 0x62, 0x63] [0x61, 0x62, 0x63] _ []
    (by decide) (by decide) (by decide) (by decide) (List.append_nil _).symm (by decide) ?_
  exact .last (@Block.stored _ 0 true [] [0x61, 0x62, 0x63] [false, false, false, false, false] (by decide) (by decide)
    (by decide))

/-- A right decoder, which reads a whole stream before it writes. -/
noncomputable def bufferingDecoder : TinflDecoder (Buffering UInt8 UInt8) := buffering (Zlib tinflDictSize) .failed

/-- The stream cut inside its header and inside its data. -/
def storedPushes : List (Bytes × Nat) :=
  [([0x18], 1), ([0x19, 0x01, 0x03, 0x00, 0xfc], 4), ([0xff, 0x61, 0x62, 0x63, 0x02, 0x4d, 0x01, 0x27], 2)]

theorem tinfl_stream_contract_stored :
    tinflPushes bufferingDecoder 3 { engine := { decomp := .reading [] } } storedPushes =
      (.done, [0x61, 0x62, 0x63]) := by
  have hcontract := tinfl_stream_contract bufferingDecoder (buffering_correct (zlib_selfDelimiting _)) 3
    { engine := { decomp := .reading [] } }
  have hstream : Zlib zlibWindowSize (pushed storedPushes) [0x61, 0x62, 0x63] := storedStream_zlib
  have hkeeps := (hcontract.1 storedPushes (by decide) (by decide)).mpr (not_runsOver hstream)
  exact (hkeeps _).mpr ⟨hstream, rfl⟩

/-- A byte after the stream in the push that ends it: the portable engine refuses it, and
the adapter does not see it. -/
theorem tinfl_ignores_trailing :
    Correct (Zlib tinflDictSize) bufferingDecoder ∧
      tinflPushes bufferingDecoder 3 { engine := { decomp := .reading [] } } [(storedStream ++ [0xaa], 4)] =
        (.done, [0x61, 0x62, 0x63]) ∧
      (∀ out, ¬ Zlib zlibWindowSize (storedStream ++ [0xaa]) out) ∧
      (portable.pumpPushes [(storedStream ++ [0xaa], 4)] (portable.odZlibPumpReset 3 { engine := {} }, [])).1 =
        .error := by
  have hright : Correct (Zlib tinflDictSize) bufferingDecoder := buffering_correct (zlib_selfDelimiting _)
  refine ⟨hright, ?_, ?_, ?_⟩
  · have hends : StreamEnds 3 [(storedStream ++ [0xaa], 4)] [] storedStream [0x61, 0x62, 0x63] [0xaa] :=
      ⟨rfl, storedStream_zlib, rfl, .inr (by decide)⟩
    have hne : [(storedStream ++ [0xaa], 4)] ≠ [] := List.cons_ne_nil _ _
    rcases tinflPushes_verdict hright 3 { engine := { decomp := .reading [] } } hne (by decide) with
      ⟨z, x, rest, hends', hdone⟩ | ⟨hnone, -⟩
    · rw [hdone, (hends.unique hends').1]
    · exact absurd hends (hnone _ _ _)
  · intro out hout
    have hlen := congrArg List.length (storedStream_zlib.unique hout (List.prefix_append _ _)).1
    exact absurd hlen (by decide)
  · decide +kernel

end Stored

end Contract

end OpenDisplay
