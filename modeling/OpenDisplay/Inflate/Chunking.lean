import OpenDisplay.Inflate.Pump

/-! Cutting a compressed stream into pushes, and the output into buffers, does
not change the bytes that come out or the verdict. -/

namespace OpenDisplay

open Loops Resumable

theorem feed_embeds (ys : Bytes) :
    Embeds tick (Inflate.feed ys true) fun s => s.rd.inputFinal = false where
  next {s t} hs h := by
    have hr := regular (tick_live (.inl h)).2
    have hk := hr.keeps
    have hf := hr.feed hs ys true
    rw [h] at hk hf
    exact ⟨hk.1.inputFinal.trans hs, hf⟩
  emit {s t b} hs h := by
    have hr := regular (tick_live (.inr (.inr ⟨b, h⟩))).2
    have hk := hr.keeps
    have hf := hr.feed hs ys true
    rw [h] at hk hf
    exact ⟨hk.1.inputFinal.trans hs, hf⟩
  need {s t} hs h := by
    have hr := regular (tick_live (.inr (.inl h))).2
    have hk := hr.keeps
    have hf := hr.feed hs ys true
    rw [h] at hk hf
    exact ⟨hk.1.inputFinal.trans hs, hf⟩

theorem final_embeds : Embeds tick id fun s => s.rd.inputFinal = true where
  next {s t} hs h := by
    have hk := (regular (tick_live (.inl h)).2).keeps
    rw [h] at hk
    exact ⟨hk.1.inputFinal.trans hs, h⟩
  emit {s t b} hs h := by
    have hk := (regular (tick_live (.inr (.inr ⟨b, h⟩))).2).keeps
    rw [h] at hk
    exact ⟨hk.1.inputFinal.trans hs, h⟩
  need {s t} hs h := by
    have hk := (regular (tick_live (.inr (.inl h))).2).keeps
    rw [h] at hk
    exact absurd hs (by rw [hk.2.1]; nofun)

theorem feed_feed (s : Inflate) (xs ys : Bytes) (b c : Bool) :
    (s.feed xs b).feed ys c = s.feed (xs ++ ys) c := by
  simp [Inflate.feed, BitReader.feed]

/-- The stream up to here, whatever follows it: the machine that has read `xs`
and written `out` stands at `t`. -/
def Reached (s : Inflate) (xs out : Bytes) (t : Inflate) : Prop :=
  ∀ ys o v, Eval tick (t.feed ys true) o v → Eval tick (s.feed (xs ++ ys) true) (out ++ o) v

theorem Reached.refl (s : Inflate) : Reached s [] [] s := fun _ _ _ h => h

theorem Reached.trans {s t u : Inflate} {xs xs' out out' : Bytes} (h : Reached s xs out t)
    (h' : Reached t xs' out' u) : Reached s (xs ++ xs') (out ++ out') u := by
  intro ys o v ho
  have := h (xs' ++ ys) (out' ++ o) v (h' ys o v ho)
  simpa [List.append_assoc] using this

theorem Reached.path {s t : Inflate} {xs out : Bytes} (h : Path tick (s.feed xs false) out t) :
    Reached s xs out t := by
  intro ys o v ho
  have := (feed_embeds ys).eval h rfl ho
  rwa [feed_feed] at this

/-- What a push can tell of the run on the whole stream. -/
theorem Reached.more {s t u : Inflate} {xs out : Bytes}
    (h : Path tick (s.feed xs false) out u) (hn : tick u = .need t) : Reached s xs out t := by
  have hp : Path tick (s.feed xs false) (out ++ []) t := h.trans (.need hn .refl)
  rw [List.append_nil] at hp
  exact .path hp

theorem eval_fails {s u : Inflate} {xs out : Bytes} (h : Path tick (s.feed xs false) out u)
    (hn : tick u = .fail) (ys : Bytes) : Eval tick (s.feed (xs ++ ys) true) out false := by
  have hu : u.stage ≠ .done := fun hu => by simp [tick, hu] at hn
  have hf : u.rd.inputFinal = false := (Path.kept h).inputFinal
  have hr := (regular hu).feed hf ys true
  rw [hn] at hr
  have := Reached.path h ys [] false (.fail hr)
  rwa [List.append_nil] at this

theorem eval_done {s u : Inflate} {xs out : Bytes} (h : Path tick (s.feed xs false) out u)
    (hs : s.stage ≠ .done) (hn : tick u = .done) (ys : Bytes) :
    Eval tick (s.feed (xs ++ ys) true) out (decide (ys = [])) := by
  have hu : u.stage ≠ .done := Path.undone h hs
  have hf : u.rd.inputFinal = false := (Path.kept h).inputFinal
  have hr := (regular hu).feed hf ys true
  rw [hn] at hr
  by_cases hy : ys = []
  · have := Reached.path h ys [] true (.done (by simpa [fedTick, hy] using hr))
    simpa [hy] using this
  · have := Reached.path h ys [] false (.fail (by simpa [fedTick, hy] using hr))
    simpa [hy] using this

/-- The sink that accepts everything. -/
def collect (out taken : Bytes) : Bool × Bytes := (true, taken ++ out)

theorem collect_sinks : Sinks collect (fun o q => q = o) fun _ _ => False where
  accept {o out q q'} ht h := by
    obtain rfl := (Prod.mk.inj h).2
    rw [ht]
  refuse {o out q q'} _ h := by simp [collect] at h

/-- A sequence of pushes with their scratch sizes, the last of them final, up
to the first error or to the end. -/
def InflateApp.pumpPushes {ε : Type} (app : InflateApp ε) :
    List (Bytes × Nat) → AppPump ε × Bytes → PumpStatus × Bytes
  | [], p => (.more, p.2)
  | [(input, scratch)], p =>
    let (status, p) := app.odZlibPumpPush collect input true scratch p
    (status, p.2)
  | (input, scratch) :: next :: rest, p =>
    match app.odZlibPumpPush collect input false scratch p with
    | (.error, p) => (.error, p.2)
    | (_, p) => app.pumpPushes (next :: rest) p

abbrev pumpPushes (pushes : List (Bytes × Nat)) (p : Pump × Bytes) : PumpStatus × Bytes :=
  portable.pumpPushes pushes p

def verdict (accepted : Bool) : PumpStatus := if accepted then .done else .error

/-- The whole stream of a sequence of pushes. -/
def pushed (pushes : List (Bytes × Nat)) : Bytes := pushes.flatMap Prod.fst

section Done

theorem push_done {σ : Type} (sink : Bytes → σ → Bool × σ) {p : Pump} (acc : σ) (final : Bool)
    {scratch : Nat} (hi : PumpInv p)
    (hd : p.engine.stage = .done) (hin : p.engine.rd.input = []) (hc : 0 < scratch) :
    ∃ p' : Pump, odZlibPumpPush sink [] final scratch (p, acc) = (.done, p', acc) ∧ PumpInv p' ∧
      p'.engine.outputCount = p.engine.outputCount ∧ p'.expectedOutput = p.expectedOutput ∧
      p'.engine.stage = .done ∧ p'.engine.rd.input = [] := by
  have hpush : odZlibStreamPush [] final p.engine = (.done, p.engine.feed [] final) := by
    simp [odZlibStreamPush, hi.initialized, hin, hd, Inflate.feed, BitReader.feed]
  have hpoll : odZlibStreamPoll scratch (p.engine.feed [] final) =
      (.done, [], p.engine.feed [] final) := by
    simp [odZlibStreamPoll, Inflate.feed, hi.initialized, hd]
  have hcond : ¬ (p.emittedOutput ≠ p.expectedOutput ∨
      (p.engine.feed [] final).outputCount ≠ p.emittedOutput) := by
    rw [hi.emitted, hi.expected, hi.done hd]
    simp [Inflate.feed, hi.done hd]
  refine ⟨{ p with engine := p.engine.feed [] final }, ?_,
    ⟨hi.ready, hi.initialized, hi.expected, hi.emitted, hi.bound, hi.done⟩, rfl, rfl, hd,
    by simp [Inflate.feed, BitReader.feed, hin]⟩
  rw [odZlibPumpPush_loop sink (p := (p, acc)) hi.ready hc hpush (by decide)]
  refine loop_stop ?_
  simp only [pumpPass, InflateApp.pumpPass, portable_poll, hpoll, List.length_nil, Nat.not_lt_zero, if_false,
    if_true, InflateApp.pumpStatus, portable_outputCount, hcond]

theorem push_after_done {σ : Type} (sink : Bytes → σ → Bool × σ) {p : Pump} (acc : σ)
    (final : Bool) {input : Bytes} {scratch : Nat} (hi : PumpInv p)
    (hd : p.engine.stage = .done) (hin : p.engine.rd.input = []) (hc : 0 < scratch)
    (hne : input ≠ []) :
    ∃ p' : Pump, odZlibPumpPush sink input final scratch (p, acc) = (.error, p', acc) ∧
      p'.engine.stage = .error := by
  simp [InflateApp.odZlibPumpPush, hi.ready, hc, odZlibStreamPush, hi.initialized, hin, hd, hne, setError]

theorem pumpPushes_done {pushes : List (Bytes × Nat)} (hne : pushes ≠ [])
    (hpos : ∀ q ∈ pushes, 0 < q.2) {p : Pump} {acc : Bytes} (hi : PumpInv p)
    (hd : p.engine.stage = .done) (hin : p.engine.rd.input = []) :
    pumpPushes pushes (p, acc) = (verdict (decide (pushed pushes = [])), acc) := by
  induction pushes generalizing p with
  | nil => exact absurd rfl hne
  | cons q rest ih =>
    obtain ⟨input, scratch⟩ := q
    have hc : 0 < scratch := hpos (input, scratch) (by simp)
    by_cases hx : input = []
    · subst hx
      cases rest with
      | nil =>
        obtain ⟨p', hp, -⟩ := push_done collect acc true hi hd hin hc
        simp [InflateApp.pumpPushes, hp, pushed, verdict]
      | cons r rest =>
        obtain ⟨p', hp, hi', -, -, hd', hin'⟩ := push_done collect acc false hi hd hin hc
        simp only [InflateApp.pumpPushes, hp]
        exact ih (by simp) (fun q hq => hpos q (List.mem_cons_of_mem _ hq)) hi' hd' hin'
    · have hp : pushed ((input, scratch) :: rest) ≠ [] := by simp [pushed, hx]
      cases rest with
      | nil =>
        obtain ⟨p', h, -⟩ := push_after_done collect acc true hi hd hin hc hx
        simp [InflateApp.pumpPushes, h, hp, verdict]
      | cons r rest =>
        obtain ⟨p', h, -⟩ := push_after_done collect acc false hi hd hin hc hx
        simp [InflateApp.pumpPushes, h, hp, verdict]

end Done

section Live

theorem push_final {p : Pump} (acc input : Bytes) {scratch : Nat} (hi : PumpInv p)
    (hd : p.engine.stage ≠ .done) (hin : p.engine.rd.input = []) (hc : 0 < scratch) :
    ∃ (p' : Pump) (o : Bytes) (v : Bool),
      odZlibPumpPush collect input true scratch (p, acc) = (verdict v, p', acc ++ o) ∧
      Eval tick (p.engine.feed input true) o v := by
  cases h : odZlibPumpPush collect input true scratch (p, acc) with
  | mk status q =>
    obtain ⟨p', acc'⟩ := q
    have hs := odZlibPumpPush_spec collect_sinks hc hi hd hin rfl h
    cases status with
    | more => exact absurd hs.1 nofun
    | done =>
      obtain ⟨-, out, u, rfl, hu, hn, -⟩ := hs
      refine ⟨p', out, true, rfl, ?_⟩
      have := final_embeds.eval hu rfl (.done hn)
      rwa [List.append_nil] at this
    | error =>
      obtain ⟨out, u, hu, hr | ⟨rfl, hn⟩⟩ := hs
      · exact hr.elim
      · refine ⟨p', out, false, rfl, ?_⟩
        have := final_embeds.eval hu rfl (.fail hn)
        rwa [List.append_nil] at this

theorem pumpPushes_eval {pushes : List (Bytes × Nat)} (acc : Bytes) (hne : pushes ≠ [])
    (hpos : ∀ q ∈ pushes, 0 < q.2) {p : Pump} (hi : PumpInv p)
    (hd : p.engine.stage ≠ .done) (hin : p.engine.rd.input = []) :
    ∃ o v, pumpPushes pushes (p, acc) = (verdict v, acc ++ o) ∧
      Eval tick (p.engine.feed (pushed pushes) true) o v := by
  induction pushes generalizing p acc with
  | nil => exact absurd rfl hne
  | cons q rest ih =>
    obtain ⟨input, scratch⟩ := q
    have hc : 0 < scratch := hpos (input, scratch) (by simp)
    cases rest with
    | nil =>
      obtain ⟨p', o, v, hp, he⟩ := push_final acc input hi hd hin hc
      exact ⟨o, v, by simp [InflateApp.pumpPushes, hp], by simpa [pushed] using he⟩
    | cons r rest =>
      have hrest : ∀ q ∈ r :: rest, 0 < q.2 := fun q hq => hpos q (List.mem_cons_of_mem _ hq)
      have hx : pushed ((input, scratch) :: r :: rest) = input ++ pushed (r :: rest) := by
        simp [pushed]
      rw [hx]
      cases h : odZlibPumpPush collect input false scratch (p, acc) with
      | mk status q =>
        obtain ⟨p', acc'⟩ := q
        have hs := odZlibPumpPush_spec collect_sinks hc hi hd hin rfl h
        cases status with
        | more =>
          obtain ⟨-, hi', out, u, rfl, hu, hn⟩ := hs
          have hk := (regular (tick_live (.inr (.inl hn))).2).keeps
          rw [hn] at hk
          have hl := tick_target_live (.inr (.inl hn))
          obtain ⟨o, v, hr, he⟩ := ih (acc ++ out) (by simp) hrest hi' hl.2 hk.2.2.1
          refine ⟨out ++ o, v, ?_, Reached.more hu hn _ _ _ he⟩
          simp only [InflateApp.pumpPushes, h, hr, List.append_assoc]
        | done =>
          obtain ⟨hi', out, u, rfl, hu, hn, hp'⟩ := hs
          have hk := Path.ends hu hd hn
          refine ⟨out, decide (pushed (r :: rest) = []), ?_, eval_done hu hd hn _⟩
          simp only [InflateApp.pumpPushes, h]
          exact pumpPushes_done (by simp) hrest hi' (by rw [hp']) (by rw [hp']; exact hk.2)
        | error =>
          obtain ⟨out, u, hu, hr | ⟨rfl, hn⟩⟩ := hs
          · exact hr.elim
          · exact ⟨out, false, by simp [InflateApp.pumpPushes, h, verdict], eval_fails hu hn _⟩

end Live

theorem odZlibPumpReset_inv (expected : UInt32) : PumpInv (odZlibPumpReset expected) where
  ready := nofun
  initialized := rfl
  expected := rfl
  emitted := rfl
  bound := Nat.zero_le _
  done := nofun

/-- Any cutting of a stream into pushes, each with any scratch buffer, gives the
bytes and the verdict of one push of the whole. -/
theorem pumpPushes_chunking (expected : UInt32) (pushes : List (Bytes × Nat)) (scratch : Nat)
    (hne : pushes ≠ []) (hpos : ∀ q ∈ pushes, 0 < q.2) (hscratch : 0 < scratch) :
    pumpPushes pushes (odZlibPumpReset expected, []) =
        pumpPushes [(pushed pushes, scratch)] (odZlibPumpReset expected, []) ∧
      ((pumpPushes pushes (odZlibPumpReset expected, [])).1 = .done ∨
        (pumpPushes pushes (odZlibPumpReset expected, [])).1 = .error) := by
  have hi := odZlibPumpReset_inv expected
  obtain ⟨o, v, hr, he⟩ := pumpPushes_eval [] hne hpos hi nofun rfl
  have hone : ∀ q ∈ [(pushed pushes, scratch)], 0 < q.2 := by simpa using hscratch
  obtain ⟨o', v', hr', he'⟩ := pumpPushes_eval [] (by simp) hone hi nofun rfl
  have hx : pushed [(pushed pushes, scratch)] = pushed pushes := by simp [pushed]
  rw [hx] at he'
  obtain ⟨rfl, rfl⟩ := he.unique he'
  rw [hr, hr']
  refine ⟨rfl, ?_⟩
  cases v
  · exact .inr rfl
  · exact .inl rfl

/-- A stored block of three bytes, cut inside its header and its data. -/
theorem pumpPushes_chunking_stored :
    pumpPushes [([0x18, 0x19, 0x01], 1), ([], 4), ([0x03, 0x00, 0xfc, 0xff, 0x61], 1),
        ([0x62, 0x63, 0x02, 0x4d], 2), ([0x01, 0x27], 3)] (odZlibPumpReset 3, []) =
      pumpPushes [([0x18, 0x19, 0x01, 0x03, 0x00, 0xfc, 0xff, 0x61, 0x62, 0x63, 0x02, 0x4d, 0x01,
        0x27], 64)] (odZlibPumpReset 3, []) :=
  (pumpPushes_chunking 3 [([0x18, 0x19, 0x01], 1), ([], 4), ([0x03, 0x00, 0xfc, 0xff, 0x61], 1),
    ([0x62, 0x63, 0x02, 0x4d], 2), ([0x01, 0x27], 3)] 64 (by decide) (by decide) (by decide)).1

example : pumpPushes [([0x18, 0x19, 0x01, 0x03, 0x00, 0xfc, 0xff, 0x61], 2),
    ([0x62, 0x63, 0x02, 0x4d, 0x01, 0x27], 1)] (odZlibPumpReset 3, []) =
      (.done, [0x61, 0x62, 0x63]) := by decide +kernel

end OpenDisplay
