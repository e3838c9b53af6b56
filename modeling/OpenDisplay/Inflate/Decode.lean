import OpenDisplay.Inflate.Chunking

/-! What a pump has made of its stream, push by push and into any sink. -/

namespace OpenDisplay

open Loops Resumable

/-- The bytes that a compressed stream inflates to, up to its first error. -/
def inflated (expected : UInt32) (xs : Bytes) : Bytes :=
  (pumpPushes [(xs, 1)] (odZlibPumpReset expected, [])).2

theorem inflated_eval (expected : UInt32) (xs : Bytes) :
    ∃ v, Eval tick ((odZlibStreamReset expected).feed xs true) (inflated expected xs) v := by
  obtain ⟨o, v, hr, he⟩ := pumpPushes_eval [] (by simp : [(xs, 1)] ≠ []) (by simp)
    (odZlibPumpReset_inv expected) nofun rfl
  refine ⟨v, ?_⟩
  have ho : inflated expected xs = o := by simp [inflated, hr]
  rw [ho]
  simpa [pushed] using he

theorem inflated_eq {expected : UInt32} {xs o : Bytes} {v : Bool}
    (h : Eval tick ((odZlibStreamReset expected).feed xs true) o v) : inflated expected xs = o := by
  obtain ⟨v', he⟩ := inflated_eval expected xs
  exact (he.unique h).1

/-- The whole of `xs` is one stream: it ends where `xs` does, its checksum and
its size are right, and it inflates to `out`. -/
def Inflates (expected : UInt32) (xs out : Bytes) : Prop :=
  pumpPushes [(xs, 1)] (odZlibPumpReset expected, []) = (.done, out)

theorem inflates_of_eval {expected : UInt32} {xs o : Bytes}
    (h : Eval tick ((odZlibStreamReset expected).feed xs true) o true) : Inflates expected xs o := by
  obtain ⟨o', v, hr, he⟩ := pumpPushes_eval [] (by simp : [(xs, 1)] ≠ []) (by simp)
    (odZlibPumpReset_inv expected) nofun rfl
  have hx : pushed [(xs, 1)] = xs := by simp [pushed]
  rw [hx] at he
  obtain ⟨rfl, rfl⟩ := h.unique he
  exact hr

/-- A pump that has been given `xs` since its reset and has put out `out`. -/
structure Decoded (expected : UInt32) (xs out : Bytes) (p : Pump) : Prop where
  inv : PumpInv p
  target : p.expectedOutput = expected
  input : p.engine.rd.input = []
  count : p.engine.outputCount.toNat = out.length
  stands : p.engine.stage ≠ .done ∧ Reached (odZlibStreamReset expected) xs out p.engine ∨
    p.engine.stage = .done ∧
      ∀ ys, Eval tick ((odZlibStreamReset expected).feed (xs ++ ys) true) out (decide (ys = []))

theorem Decoded.reset (expected : UInt32) : Decoded expected [] [] (odZlibPumpReset expected) where
  inv := odZlibPumpReset_inv expected
  target := rfl
  input := rfl
  count := rfl
  stands := .inl ⟨nofun, .refl _⟩

section Push

variable {σ : Type} {sink : Bytes → σ → Bool × σ} {expected : UInt32} {xs out : Bytes} {p : Pump}

/-- Whatever follows, what has come out stays at the front. -/
theorem Decoded.leads (h : Decoded expected xs out p) (ys : Bytes) :
    out <+: inflated expected (xs ++ ys) := by
  rcases h.stands with ⟨hd, hr⟩ | ⟨-, he⟩
  · obtain ⟨-, o, v, -, he⟩ := push_final [] ys h.inv hd h.input Nat.one_pos
    rw [inflated_eq (hr ys o v he)]
    exact List.prefix_append out o
  · have heq := inflated_eq (he ys)
    exact heq ▸ List.prefix_rfl

/-- Where a push leaves a pump and its sink. -/
def DecodeStop (expected : UInt32) (xs : Bytes) (taken refused : Bytes → σ → Prop) (final : Bool)
    (status : PumpStatus) (p : Pump × σ) : Prop :=
  ∃ out, out <+: inflated expected xs ∧
    match status with
    | .more => taken out p.2 ∧ final = false ∧ Decoded expected xs out p.1
    | .done => taken out p.2 ∧ Inflates expected xs out ∧ out.length = expected.toNat ∧
        (final = false → Decoded expected xs out p.1)
    | .error => taken out p.2 ∨ refused out p.2

theorem Decoded.path (h : Decoded expected xs out p) (hd : p.engine.stage ≠ .done)
    (hr : Reached (odZlibStreamReset expected) xs out p.engine) {input o : Bytes} {final : Bool}
    {u : Inflate} (hp : Path tick (p.engine.feed input final) o u) :
    out ++ o <+: inflated expected (xs ++ input) := by
  obtain ⟨-, o', v, -, he⟩ := push_final [] input h.inv hd h.input Nat.one_pos
  rw [inflated_eq (hr input o' v he), List.prefix_append_right_inj]
  cases final with
  | true => exact final_embeds.leads hp rfl he
  | false =>
    refine (feed_embeds []).leads hp rfl (v := v) ?_
    rw [feed_feed, List.append_nil]
    exact he

theorem Decoded.more (h : Decoded expected xs out p)
    (hr : Reached (odZlibStreamReset expected) xs out p.engine) {input o : Bytes} {p' : Pump}
    {u : Inflate} (hi : PumpInv p') (hp : Path tick (p.engine.feed input false) o u)
    (hn : tick u = .need p'.engine) : Decoded expected (xs ++ input) (out ++ o) p' := by
  have hpath : Path tick (p.engine.feed input false) (o ++ []) p'.engine :=
    hp.trans (.need hn .refl)
  rw [List.append_nil] at hpath
  have hk := Path.kept hpath
  have hneed := (regular (tick_live (.inr (.inl hn))).2).keeps
  rw [hn] at hneed
  refine ⟨hi, ?_, hneed.2.2.1, ?_, .inl ⟨(tick_target_live (.inr (.inl hn))).2, hr.trans (.more hp hn)⟩⟩
  · rw [hi.expected, hk.expectedOutput, ← h.target, h.inv.expected]
    rfl
  · rw [hk.outputCount, List.length_append, ← h.count]
    rfl

theorem Decoded.done (h : Decoded expected xs out p) (hd : p.engine.stage ≠ .done)
    (hr : Reached (odZlibStreamReset expected) xs out p.engine) {input o : Bytes} {final : Bool}
    {p' : Pump} {u : Inflate} (hi : PumpInv p') (hp : Path tick (p.engine.feed input final) o u)
    (hn : tick u = .done) (he : p'.engine = { u with stage := .done }) :
    Inflates expected (xs ++ input) (out ++ o) ∧ (out ++ o).length = expected.toNat ∧
      (final = false → Decoded expected (xs ++ input) (out ++ o) p') := by
  have hk := Path.kept hp
  have heval : Eval tick (p.engine.feed input true) o true := by
    cases final with
    | true =>
      have := final_embeds.eval hp rfl (.done hn)
      rwa [List.append_nil] at this
    | false =>
      have := eval_done hp hd hn []
      rwa [List.append_nil] at this
  have hcount : p'.engine.outputCount.toNat = (out ++ o).length := by
    rw [he, List.length_append, ← h.count]
    exact hk.outputCount
  have htarget : p'.expectedOutput = expected := by
    rw [hi.expected, he, ← h.target, h.inv.expected]
    exact hk.expectedOutput
  have hdone : p'.engine.stage = .done := by rw [he]
  refine ⟨inflates_of_eval (hr input o true heval), ?_, ?_⟩
  · rw [← hcount, hi.done hdone, ← hi.expected, htarget]
  · rintro rfl
    have hkeep := Path.ends hp hd hn
    refine ⟨hi, htarget, by rw [he]; exact hkeep.2, hcount, .inr ⟨hdone, fun ys => ?_⟩⟩
    have := hr (input ++ ys) o _ (eval_done hp hd hn ys)
    rwa [← List.append_assoc] at this

/-- A push carries what has been decoded over to the longer stream. -/
theorem Decoded.push {taken refused : Bytes → σ → Prop} (hsink : Sinks sink taken refused)
    (h : Decoded expected xs out p) {q q' : σ} (ht : taken out q) {input : Bytes} {final : Bool}
    {scratch : Nat} (hc : 0 < scratch) {status : PumpStatus} {p' : Pump}
    (hpush : odZlibPumpPush sink input final scratch (p, q) = (status, p', q')) :
    DecodeStop expected (xs ++ input) taken refused final status (p', q') := by
  rcases h.stands with ⟨hd, hr⟩ | ⟨hd, he⟩
  · have hs := odZlibPumpPush_spec hsink hc h.inv hd h.input ht hpush
    cases status with
    | more =>
      obtain ⟨rfl, hi, o, u, htaken, hp, hn⟩ := hs
      exact ⟨out ++ o, h.path hd hr hp, htaken, rfl, h.more hr hi hp hn⟩
    | done =>
      obtain ⟨hi, o, u, htaken, hp, hn, heng⟩ := hs
      exact ⟨out ++ o, h.path hd hr hp, htaken, h.done hd hr hi hp hn heng⟩
    | error =>
      obtain ⟨o, u, hp, href | ⟨htaken, -⟩⟩ := hs
      · exact ⟨out ++ o, h.path hd hr hp, .inr href⟩
      · exact ⟨out ++ o, h.path hd hr hp, .inl htaken⟩
  · by_cases hnil : input = []
    · subst hnil
      obtain ⟨p₁, hp, hi, hcount, htarget, hd₁, hin₁⟩ := push_done sink q final h.inv hd h.input hc
      obtain ⟨rfl, heq⟩ := Prod.mk.inj (hpush.symm.trans hp)
      obtain ⟨rfl, rfl⟩ := Prod.mk.inj heq
      rw [List.append_nil]
      have hlead := h.leads []
      rw [List.append_nil] at hlead
      have hlen : out.length = expected.toNat := by
        rw [← h.count, h.inv.done hd, ← h.inv.expected, h.target]
      have hwhole := he []
      rw [List.append_nil] at hwhole
      exact ⟨out, hlead, ht, inflates_of_eval hwhole, hlen, fun _ =>
        ⟨hi, htarget.trans h.target, hin₁, by rw [hcount, h.count], .inr ⟨hd₁, he⟩⟩⟩
    · obtain ⟨p₁, hp, -⟩ := push_after_done sink q final h.inv hd h.input hc hnil
      obtain ⟨rfl, heq⟩ := Prod.mk.inj (hpush.symm.trans hp)
      obtain ⟨rfl, rfl⟩ := Prod.mk.inj heq
      exact ⟨out, h.leads input, .inl ht⟩

end Push

end OpenDisplay
