import OpenDisplay.Inflate.Machine

/-! The inflater's loops follow the machine: whatever the output buffer's size,
each of them takes a path of ticks and stops at a tick that explains why. -/

namespace OpenDisplay

open Loops Resumable

theorem header_path {pass : Inflate → HeaderIter} {μ : Inflate → Nat}
    {d : ∀ s t, pass s = .next t → μ t < μ s} {X : Stage} {fin : Inflate → InflateTick}
    (htick : ∀ u, u.stage = X → tick u = headerTick fin (pass u))
    (hstage : ∀ u v, pass u = .next v → v.stage = u.stage) {s : Inflate} (hs : s.stage = X) :
    ∃ u, Path tick s [] u ∧ u.stage = X ∧ pass u = .stop (loop pass μ d s) := by
  refine loop_rule (d := d) (P := fun (s : Inflate) (p : Rc Unit × Inflate) =>
    s.stage = X → ∃ u, Path tick s [] u ∧ u.stage = X ∧ pass u = .stop p) ?_ ?_ s hs
  · intro s p hp hs
    exact ⟨s, .refl, hs, hp⟩
  · intro s t p hn ih hs
    obtain ⟨u, hu, ht⟩ := ih ((hstage s t hn).trans hs)
    exact ⟨u, .next (by rw [htick s hs, hn]; rfl) hu, ht⟩

theorem dynamicPass_stage (s t : Inflate) (h : dynamicPass s = .next t) : t.stage = s.stage := by
  unfold dynamicPass at h
  split at h
  case h_4 => cases h; rfl
  case h_6 => split at h <;> cases h; rfl
  case h_5 =>
    split at h
    · obtain ⟨_, _, -, hk⟩ := onRead_next h
      cases hk; rfl
    · cases h; rfl
  case h_7 =>
    split at h
    · obtain ⟨_, _, -, hk⟩ := onRead_next h
      simp only [dynamicLength, failWith] at hk
      split_ifs at hk <;> cases hk <;> rfl
    · cases h; rfl
  case h_9 =>
    simp only [dynamicBuildTrees, failWith] at h
    split at h
    · cases h
    · split at h
      · cases h
      · split at h <;> cases h
  all_goals
    obtain ⟨_, _, -, hk⟩ := onRead_next h
    try simp only [dynamicSizes, dynamicRepeat, failWith] at hk
    first | (cases hk; rfl) | (split at hk <;> cases hk; rfl)

theorem storedHeaderPass_stage (s t : Inflate) (h : storedHeaderPass s = .next t) :
    t.stage = s.stage := by
  unfold storedHeaderPass at h
  split at h
  · obtain ⟨_, _, -, hk⟩ := onRead_next h
    cases hk
    dsimp only
    split_ifs <;> rfl
  · simp only [failWith] at h
    split at h <;> cases h

theorem trailerPass_stage (s t : Inflate) (h : trailerPass s = .next t) : t.stage = s.stage := by
  unfold trailerPass at h
  split at h
  · obtain ⟨_, _, -, hk⟩ := onRead_next h
    cases hk; rfl
  · simp only [failWith] at h
    split_ifs at h

section Data

/-- Bytes that were in the buffer before a pass stay in front of what it adds. -/
def shift (out : Bytes) : DataIter → DataIter
  | .next (o, s) => .next (out ++ o, s)
  | .stop (rc, o, s) => .stop (rc, out ++ o, s)

theorem shift_onData {α : Type} (out : Bytes) (p : Rc α × Inflate)
    {k k' : α → Inflate → DataIter} (hk : ∀ a s, k' a s = shift out (k a s)) :
    onData out p k' = shift out (onData [] p k) := by
  obtain ⟨rc, s⟩ := p
  cases rc with
  | ok a => exact hk a s
  | need => simp [onData, shift]
  | fail e => simp [onData, shift]

theorem shift_onPut {capacity : Nat} {out : Bytes} (hroom : out.length < capacity) (byte : UInt8)
    (s : Inflate) {k k' : Work → DataIter} (hk : ∀ o t, k' (out ++ o, t) = shift out (k (o, t))) :
    onPut (putOutputByte byte capacity (out, s)) k' =
      shift out (onPut (putOutputByte byte 1 ([], s)) k) := by
  have hc : ¬ capacity ≤ out.length := by omega
  by_cases he : s.expectedOutput ≤ s.outputCount
  · simp [putOutputByte, hc, he, onPut, setError, shift]
  · simp only [putOutputByte, hc, he, if_false, List.length_nil, Nat.le_zero, Nat.one_ne_zero, onPut,
      List.nil_append]
    exact hk _ _

theorem storedDataPass_shift {capacity : Nat} {out : Bytes} (hroom : out.length < capacity)
    (s : Inflate) :
    storedDataPass capacity (out, s) = shift out (storedDataPass 1 ([], s)) := by
  have hc : ¬ capacity ≤ out.length := by omega
  by_cases h0 : s.storedLen = 0
  · simp [storedDataPass, h0, shift]
  · simp only [storedDataPass, h0, hc, if_false, List.length_nil, Nat.le_zero, Nat.one_ne_zero]
    refine shift_onData out _ fun byte t => ?_
    exact shift_onPut hroom byte t fun o u => rfl

theorem blockPass_shift {capacity : Nat} {out : Bytes} (hroom : out.length < capacity)
    (s : Inflate) : blockPass capacity (out, s) = shift out (blockPass 1 ([], s)) := by
  have hc : ¬ capacity ≤ out.length := by omega
  simp only [blockPass, hc, if_false, List.length_nil, Nat.le_zero, Nat.one_ne_zero]
  cases hb : s.blockStage with
  | symbol =>
    refine shift_onData out _ fun sym t => ?_
    by_cases h1 : sym < 256
    · simp only [blockSymbol, h1, if_true]
      exact shift_onPut hroom _ t fun o u => rfl
    · simp only [blockSymbol, h1, if_false]
      split_ifs <;> simp [shift]
  | lenExtra => exact shift_onData out _ fun v t => by simp [shift]
  | distSymbol =>
    refine shift_onData out _ fun v t => ?_
    simp only [blockDistSymbol]
    split_ifs <;> simp [shift]
  | distExtra =>
    refine shift_onData out _ fun v t => ?_
    simp only [blockDistExtra]
    split_ifs <;> simp [shift]
  | matchCopy =>
    by_cases hm : s.matchLen = 0
    · simp [hm, shift]
    · simp only [hm, if_false]
      exact shift_onPut hroom _ s fun o u => rfl

/-- Where a data loop that went from `s` writing `out` stands when it stops:
`ok` says what the return code 1 leads to. -/
def DataStop (ok : Inflate → Inflate) (s : Inflate) (out : Bytes) (rc : DataRc) (t : Inflate) :
    Prop :=
  match rc with
  | .ok => Path tick s out (ok t)
  | .endBlock => Path tick s out (endBlock t)
  | .full => Path tick s out t
  | .need => ∃ u, Path tick s out u ∧ tick u = .need t
  | .fail => ∃ u, Path tick s out u ∧ tick u = .fail

theorem DataStop.after {ok : Inflate → Inflate} {s u t : Inflate} {o o' : Bytes} {rc : DataRc}
    (hp : Path tick s o u) (h : DataStop ok u o' rc t) : DataStop ok s (o ++ o') rc t := by
  cases rc with
  | ok | endBlock | full => exact hp.trans h
  | need | fail =>
    obtain ⟨v, hv, ht⟩ := h
    exact ⟨v, hp.trans hv, ht⟩

/-- One pass with room for a byte is one tick. -/
structure DataPass (pass : Nat → Work → DataIter) (X : Stage) (ok : Inflate → Inflate) : Prop where
  shift_or_full : ∀ capacity out s, capacity ≤ out.length ∧
      pass capacity (out, s) = .stop (.full, out, s) ∨
    (out.length < capacity ∨ pass 1 ([], s) = .stop (.ok, [], s)) ∧
      pass capacity (out, s) = shift out (pass 1 ([], s))
  next : ∀ {s o t}, s.stage = X → pass 1 ([], s) = .next (o, t) →
    Path tick s o t ∧ t.stage = X ∧ o.length ≤ 1
  stop : ∀ {s rc o t}, s.stage = X → pass 1 ([], s) = .stop (rc, o, t) →
    rc ≠ .full ∧ DataStop ok s o rc t ∧ o.length ≤ 1

theorem data_path {pass : Nat → Work → DataIter} {X : Stage} {ok : Inflate → Inflate}
    (hp : DataPass pass X ok) {capacity : Nat} {μ : Work → Nat}
    {hdec : ∀ w w', pass capacity w = .next w' → μ w' < μ w} {out : Bytes} {s : Inflate}
    (hs : s.stage = X) {rc : DataRc} {w : Work} (h : loop (pass capacity) μ hdec (out, s) = (rc, w)) :
    ∃ o, w.1 = out ++ o ∧ DataStop ok s o rc w.2 ∧ (rc = .full → capacity ≤ w.1.length) ∧
      (out.length ≤ capacity → w.1.length ≤ capacity) := by
  have hl := loop_rule (d := hdec) (P := fun (w : Work) (p : DataRc × Work) => w.2.stage = X →
    ∃ o, p.2.1 = w.1 ++ o ∧ DataStop ok w.2 o p.1 p.2.2 ∧
      (p.1 = .full → capacity ≤ p.2.1.length) ∧
      (w.1.length ≤ capacity → p.2.1.length ≤ capacity)) ?_ ?_ (out, s) hs
  · simpa only [h] using hl
  · rintro ⟨out, s⟩ ⟨rc, out', t⟩ hb hs
    obtain ⟨hc, hfull⟩ | ⟨hroom, hshift⟩ := hp.shift_or_full capacity out s
    · rw [hfull] at hb
      cases hb
      exact ⟨[], by simp, .refl, fun _ => hc, id⟩
    · rw [hshift] at hb
      cases h1 : pass 1 ([], s) with
      | next w => rw [h1] at hb; cases hb
      | stop p =>
        obtain ⟨rc', o, t'⟩ := p
        obtain ⟨hne, hst, hlen⟩ := hp.stop hs h1
        rw [h1] at hb hroom
        cases hb
        refine ⟨o, rfl, hst, fun h => absurd h hne, fun hle => ?_⟩
        obtain hlt | ho := hroom
        · simp only [List.length_append]; omega
        · cases ho; simpa using hle
  · rintro ⟨out, s⟩ ⟨out', t⟩ ⟨rc, w⟩ hb ih hs
    obtain ⟨-, hfull⟩ | ⟨hroom, hshift⟩ := hp.shift_or_full capacity out s
    · rw [hfull] at hb; cases hb
    · rw [hshift] at hb
      cases h1 : pass 1 ([], s) with
      | stop p => rw [h1] at hb; cases hb
      | next w' =>
        obtain ⟨o, t'⟩ := w'
        obtain ⟨hpath, hX, hlen⟩ := hp.next hs h1
        rw [h1] at hb hroom
        cases hb
        obtain ⟨o', ho', hst, hf, hle⟩ := ih hX
        refine ⟨o ++ o', by simpa using ho', hst.after hpath, hf, fun _ => hle ?_⟩
        obtain hlt | ho := hroom
        · simp only [List.length_append]; omega
        · cases ho

/-- What a pass with room for one byte can come to. -/
inductive DataShape (ok : Inflate → Inflate) (s : Inflate) : DataIter → Prop where
  | next {t} : t.stage = s.stage → DataShape ok s (.next ([], t))
  | put {b t} : t.stage = s.stage → DataShape ok s (.next ([b], t))
  | ok {o t} : (tick s = dataTick (.stop (.ok, o, t)) → Path tick s o (ok t)) → o.length ≤ 1 →
      DataShape ok s (.stop (.ok, o, t))
  | endBlock {t} : DataShape ok s (.stop (.endBlock, [], t))
  | need {t} : DataShape ok s (.stop (.need, [], t))
  | fail {t} : DataShape ok s (.stop (.fail, [], t))

theorem DataShape.onData {α : Type} {ok : Inflate → Inflate} {f : BitReader → Rc α × BitReader}
    {s : Inflate} {k : α → Inflate → DataIter}
    (hk : ∀ a r, DataShape ok s (k a { s with rd := r })) :
    DataShape ok s (onData [] (s.read f) k) := by
  unfold OpenDisplay.onData Inflate.read
  cases hf : f s.rd with
  | mk rc r =>
    cases rc with
    | ok a => exact hk a r
    | need => exact .need
    | fail e => exact .fail

theorem DataShape.onPut {ok : Inflate → Inflate} {byte : UInt8} {s u : Inflate}
    {k : Work → DataIter} (hk : DataShape ok s (k ([byte], recordOutputByte byte u))) :
    DataShape ok s (onPut (putOutputByte byte 1 ([], u)) k) := by
  by_cases he : u.expectedOutput ≤ u.outputCount
  · simp only [putOutputByte, he, List.length_nil, Nat.le_zero, Nat.one_ne_zero, if_true, if_false,
      OpenDisplay.onPut, setError]
    exact .fail
  · simpa only [putOutputByte, he, List.length_nil, Nat.le_zero, Nat.one_ne_zero, if_false,
      OpenDisplay.onPut, List.nil_append] using hk

theorem DataPass.of_shape {pass : Nat → Work → DataIter} {X : Stage} {ok : Inflate → Inflate}
    (htick : ∀ s, s.stage = X → tick s = dataTick (pass 1 ([], s)))
    (hshape : ∀ s, DataShape ok s (pass 1 ([], s)))
    (hfull : ∀ capacity out s, capacity ≤ out.length ∧
        pass capacity (out, s) = .stop (.full, out, s) ∨
      (out.length < capacity ∨ pass 1 ([], s) = .stop (.ok, [], s)) ∧
        pass capacity (out, s) = shift out (pass 1 ([], s))) : DataPass pass X ok where
  shift_or_full := hfull
  next {s o t} hs h := by
    have ht := htick s hs
    have hsh := hshape s
    rw [h] at ht hsh
    cases hsh with
    | next hst => exact ⟨.next ht .refl, hst.trans hs, by simp⟩
    | put hst => exact ⟨.emit ht .refl, hst.trans hs, by simp⟩
  stop {s rc o t} hs h := by
    have ht := htick s hs
    have hsh := hshape s
    rw [h] at ht hsh
    cases hsh with
    | ok hok hlen => exact ⟨nofun, hok ht, hlen⟩
    | endBlock => exact ⟨nofun, .next ht .refl, by simp⟩
    | need => exact ⟨nofun, ⟨s, .refl, ht⟩, by simp⟩
    | fail => exact ⟨nofun, ⟨s, .refl, ht⟩, by simp⟩

theorem storedDataPass_dataPass : DataPass storedDataPass .storedData endBlock := by
  refine .of_shape (fun s hs => by simp only [tick, hs]) (fun s => ?_) fun capacity out s => ?_
  · by_cases h0 : s.storedLen = 0
    · simp only [storedDataPass, h0, if_true]
      exact .ok (fun ht => .next ht .refl) (by simp)
    · simp only [storedDataPass, h0, if_false, List.length_nil, Nat.le_zero, Nat.one_ne_zero]
      exact .onData fun byte r => .onPut (.put rfl)
  · by_cases hc : capacity ≤ out.length
    · by_cases h0 : s.storedLen = 0
      · exact .inr ⟨.inr (by simp [storedDataPass, h0]), by simp [storedDataPass, h0, shift]⟩
      · exact .inl ⟨hc, by simp [storedDataPass, h0, hc]⟩
    · have hroom := Nat.lt_of_not_le hc
      exact .inr ⟨.inl hroom, storedDataPass_shift hroom s⟩

theorem blockPass_dataPass : DataPass blockPass .blockData id := by
  refine .of_shape (fun s hs => by simp only [tick, hs]) (fun s => ?_) fun capacity out s => ?_
  · simp only [blockPass, List.length_nil, Nat.le_zero, Nat.one_ne_zero, if_false]
    cases hb : s.blockStage with
    | symbol =>
      refine .onData fun sym r => ?_
      by_cases h1 : sym < 256
      · simp only [blockSymbol, h1, if_true]
        exact .onPut (.ok (fun ht => .emit ht .refl) (by simp))
      · simp only [blockSymbol, h1, if_false]
        split_ifs
        · exact .endBlock
        · exact .fail
        · exact .next rfl
    | lenExtra => exact .onData fun v r => .next rfl
    | distSymbol =>
      refine .onData fun v r => ?_
      simp only [blockDistSymbol]
      split_ifs
      · exact .fail
      · exact .next rfl
    | distExtra =>
      refine .onData fun v r => ?_
      simp only [blockDistExtra]
      split_ifs
      · exact .fail
      · exact .next rfl
    | matchCopy =>
      by_cases hm : s.matchLen = 0
      · simp only [hm, if_true]
        exact .next rfl
      · simp only [hm, if_false]
        exact .onPut (.put rfl)
  · by_cases hc : capacity ≤ out.length
    · exact .inl ⟨hc, by simp [blockPass, hc]⟩
    · have hroom := Nat.lt_of_not_le hc
      exact .inr ⟨.inl hroom, blockPass_shift hroom s⟩

end Data

section Poll

/-- Where a poll that went from `s` writing `out` stands when it returns. -/
def PollStop (s : Inflate) (out : Bytes) (status : ZlibStatus) (t : Inflate) : Prop :=
  match status with
  | .outputReady => Path tick s out t
  | .needsInput => ∃ u, Path tick s out u ∧ tick u = .need t
  | .done => ∃ u, Path tick s out u ∧ tick u = .done ∧ t = { u with stage := .done }
  | .error => ∃ u, Path tick s out u ∧ tick u = .fail

theorem PollStop.after {s u t : Inflate} {o o' : Bytes} {status : ZlibStatus}
    (hp : Path tick s o u) (h : PollStop u o' status t) : PollStop s (o ++ o') status t := by
  cases status with
  | outputReady => exact hp.trans h
  | needsInput | done | error =>
    obtain ⟨v, hv, ht⟩ := h
    exact ⟨v, hp.trans hv, ht⟩

/-- What one pass of the poll loop comes to. -/
def PollPass (capacity : Nat) (w : Work) : PollIter → Prop
  | .next w' => ∃ o, w'.1 = w.1 ++ o ∧ Path tick w.2 o w'.2 ∧
      (w.1.length ≤ capacity → w'.1.length ≤ capacity)
  | .stop (status, w') => ∃ o, w'.1 = w.1 ++ o ∧ PollStop w.2 o status w'.2 ∧
      (status = .outputReady → capacity ≤ w'.1.length ∨ w'.1 ≠ []) ∧
      (w.1.length ≤ capacity → w'.1.length ≤ capacity)

theorem PollPass.onPoll {α : Type} {capacity : Nat} {out : Bytes} {s : Inflate}
    {p : Rc α × Inflate} {k : α → Inflate → Inflate}
    (hok : ∀ a t, p = (.ok a, t) → ∃ u, Path tick s [] u ∧ tick u = nextUnlessError (k a t))
    (hneed : ∀ t, p = (.need, t) → ∃ u, Path tick s [] u ∧ tick u = .need t)
    (hfail : ∀ e t, p = (.fail e, t) → ∃ u, Path tick s [] u ∧ tick u = .fail) :
    PollPass capacity (out, s) (onPoll out p fun a s => (out, k a s)) := by
  obtain ⟨rc, t⟩ := p
  cases rc with
  | ok a =>
    obtain ⟨u, hu, ht⟩ := hok a t rfl
    by_cases he : (k a t).stage = .error
    · simp only [OpenDisplay.onPoll, he, if_true]
      refine ⟨[], by simp, ⟨u, hu, ?_⟩, by simp, id⟩
      simpa [nextUnlessError, he] using ht
    · simp only [OpenDisplay.onPoll, he, if_false]
      refine ⟨[], by simp, ?_, id⟩
      exact hu.trans (.next (by simpa [nextUnlessError, he] using ht) .refl)
  | need =>
    obtain ⟨u, hu, ht⟩ := hneed t rfl
    exact ⟨[], by simp, ⟨u, hu, ht⟩, by simp, id⟩
  | fail e =>
    obtain ⟨u, hu, ht⟩ := hfail e t rfl
    exact ⟨[], by simp, ⟨u, hu, ht⟩, by simp, id⟩

theorem PollPass.read {α : Type} {capacity : Nat} {out : Bytes} {s : Inflate}
    {p : Rc α × Inflate} {k : α → Inflate → Inflate} {k' : α → Inflate → InflateTick}
    (ht : tick s = onTick p k') (hk : ∀ a t, k' a t = nextUnlessError (k a t)) :
    PollPass capacity (out, s) (OpenDisplay.onPoll out p fun a s => (out, k a s)) := by
  refine .onPoll (fun a t hp => ⟨s, .refl, ?_⟩) (fun t hp => ⟨s, .refl, ?_⟩)
    fun e t hp => ⟨s, .refl, ?_⟩
  · rw [ht, hp, ← hk]; rfl
  · rw [ht, hp]; rfl
  · rw [ht, hp]; rfl

theorem PollPass.header {capacity : Nat} {out : Bytes} {s : Inflate} {pass : Inflate → HeaderIter}
    {μ : Inflate → Nat} {hdec : ∀ s t, pass s = .next t → μ t < μ s} {X : Stage}
    {k : Inflate → Inflate}
    (htick : ∀ u, u.stage = X → tick u = headerTick (fun t => .next (k t)) (pass u))
    (hstage : ∀ u v, pass u = .next v → v.stage = u.stage) (hk : ∀ t, (k t).stage ≠ .error)
    (hs : s.stage = X) :
    PollPass capacity (out, s)
      (OpenDisplay.onPoll out (loop pass μ hdec s) fun _ s => (out, k s)) := by
  obtain ⟨u, hu, hX, hp⟩ := header_path (d := hdec) htick hstage hs
  have ht := htick u hX
  rw [hp] at ht
  refine .onPoll (fun a t hp => ⟨u, hu, ?_⟩) (fun t hp => ⟨u, hu, ?_⟩) fun e t hp => ⟨u, hu, ?_⟩
  · rw [ht, hp, nextUnlessError, if_neg (hk t)]; rfl
  · rw [ht, hp]; rfl
  · rw [ht, hp]; rfl

theorem trailerPass_ok {s t : Inflate} (h : trailerPass s = .stop (.ok (), t)) :
    t = { s with stage := .done } := by
  unfold trailerPass at h
  split at h
  · obtain ⟨_, _, -, hk⟩ := onRead_ok h
    cases hk
  · simp only [failWith] at h
    split_ifs at h <;> cases h
    rfl

theorem waiting_ready {w : Work} (h : waiting w = .outputReady) : w.1 ≠ [] := by
  unfold waiting at h
  split_ifs at h with hw
  exact hw

theorem PollStop.waiting {s t u : Inflate} {o : Bytes} {w : Work} (hp : Path tick s o u)
    (ht : tick u = .need t) : PollStop s o (waiting w) t := by
  unfold OpenDisplay.waiting
  split_ifs
  · exact ⟨u, hp, ht⟩
  · have hn : Path tick u [] t := .need ht .refl
    simpa [PollStop] using hp.trans hn

theorem PollPass.trailer {capacity : Nat} {out : Bytes} {s : Inflate} (hs : s.stage = .trailer) :
    PollPass capacity (out, s) (match processTrailer s with
      | (.fail _, s) => .stop (.error, out, s)
      | (.need, s) => .stop (OpenDisplay.waiting (out, s), out, s)
      | (.ok _, s) => .stop (.done, out, s)) := by
  have htick : ∀ u, u.stage = .trailer → tick u = headerTick (fun _ => .done) (trailerPass u) :=
    fun u hu => by simp only [tick, hu]
  obtain ⟨u, hu, hX, hp⟩ := header_path (d := trailerPass_dec) htick trailerPass_stage hs
  have ht := htick u hX
  rw [hp] at ht
  change trailerPass u = .stop (processTrailer s) at hp
  change tick u = headerTick _ (.stop (processTrailer s)) at ht
  cases hl : processTrailer s with
  | mk rc t =>
    rw [hl] at hp ht
    cases rc with
    | ok a => exact ⟨[], by simp, ⟨u, hu, ht, trailerPass_ok hp⟩, by simp, id⟩
    | need => exact ⟨[], by simp, .waiting hu ht, fun hw => .inr (waiting_ready hw), id⟩
    | fail e => exact ⟨[], by simp, ⟨u, hu, ht⟩, by simp, id⟩

theorem pollPass_spec (capacity : Nat) (w : Work) :
    PollPass capacity w (pollPass capacity w) := by
  obtain ⟨out, s⟩ := w
  simp only [pollPass]
  split
  · exact ⟨[], by simp, .refl, fun _ => .inl ‹_›, id⟩
  split
  case h_1 hs => exact .read (by simp only [tick, hs]; rfl) fun a t => by simp [nextUnlessError]
  case h_2 hs => exact .read (by simp only [tick, hs]) fun a t => rfl
  case h_3 hs => exact .read (by simp only [tick, hs]; rfl) fun a t => by simp [nextUnlessError]
  case h_4 hs => exact .read (by simp only [tick, hs]) fun a t => rfl
  case h_5 hs =>
    exact .header (fun u hu => by simp only [tick, hu]) dynamicPass_stage (fun t => (by simp)) hs
  case h_6 hs =>
    exact .header (fun u hu => by simp only [tick, hu]) storedHeaderPass_stage (fun t => (by simp)) hs
  case h_7 hs =>
    cases hp : processStoredData capacity (out, s) with
    | mk rc w =>
      obtain ⟨o, ho, hst, hf, hle⟩ := data_path storedDataPass_dataPass hs hp
      cases rc with
      | ok | endBlock => exact ⟨o, ho, hst, hle⟩
      | full => exact ⟨o, ho, hst, fun _ => .inl (hf rfl), hle⟩
      | need =>
        obtain ⟨u, hu, ht⟩ := hst
        exact ⟨o, ho, .waiting hu ht, fun hw => .inr (waiting_ready hw), hle⟩
      | fail => exact ⟨o, ho, hst, by simp, hle⟩
  case h_8 hs =>
    cases hp : processBlockData capacity (out, s) with
    | mk rc w =>
      obtain ⟨o, ho, hst, hf, hle⟩ := data_path blockPass_dataPass hs hp
      cases rc with
      | ok | endBlock => exact ⟨o, ho, hst, hle⟩
      | full => exact ⟨o, ho, hst, fun _ => .inl (hf rfl), hle⟩
      | need =>
        obtain ⟨u, hu, ht⟩ := hst
        exact ⟨o, ho, .waiting hu ht, fun hw => .inr (waiting_ready hw), hle⟩
      | fail => exact ⟨o, ho, hst, by simp, hle⟩
  case h_9 hs => exact .trailer hs
  case h_10 hs =>
    refine ⟨[], by simp, ⟨s, .refl, by simp only [tick, hs], ?_⟩, by simp, id⟩
    cases s; simp_all
  case h_11 hs => exact ⟨[], by simp, ⟨s, .refl, by simp only [tick, hs]⟩, by simp, id⟩

/-- A poll follows the machine, and hands over at least a byte when it says so. -/
theorem odZlibStreamPoll_spec {capacity : Nat} {s t : Inflate} {status : ZlibStatus} {out : Bytes}
    (hi : s.initialized = true) (h : odZlibStreamPoll capacity s = (status, out, t)) :
    PollStop s out status t ∧ (status = .outputReady → 0 < capacity → out ≠ []) ∧
      out.length ≤ capacity := by
  simp only [odZlibStreamPoll, hi, Bool.true_eq_false, if_false] at h
  split at h
  · cases h
    exact ⟨⟨s, .refl, by simp only [tick, *]⟩, by simp, by simp⟩
  split at h
  · next hs =>
    cases h
    refine ⟨⟨s, .refl, by simp only [tick, hs], ?_⟩, by simp, by simp⟩
    cases s; simp_all
  have hl := loop_rule (d := pollPass_dec capacity)
    (P := fun (w : Work) (p : ZlibStatus × Work) => PollPass capacity w (.stop p)) ?_ ?_ ([], s)
  · rw [h] at hl
    obtain ⟨o, ho, hst, hr, hle⟩ := hl
    obtain rfl : out = o := by simpa using ho
    refine ⟨hst, fun hready hcap => ?_, hle (by simp)⟩
    obtain hc | hne := hr hready
    · rintro rfl
      simp at hc
      omega
    · exact hne
  · intro w p hp
    exact hp ▸ pollPass_spec capacity w
  · rintro w w' ⟨status, w''⟩ hn ⟨o', ho', hst, hr, hle'⟩
    have hspec := pollPass_spec capacity w
    rw [hn] at hspec
    obtain ⟨o, ho, hpath, hle⟩ := hspec
    exact ⟨o ++ o', by rw [ho', ho, List.append_assoc], hst.after hpath, hr, hle' ∘ hle⟩

theorem tick_live {s t : Inflate} (h : tick s = .next t ∨ tick s = .need t ∨ ∃ b, tick s = .emit b t) :
    Live s := by
  constructor <;> intro hs <;> simp [tick, hs] at h

theorem Path.kept {s t : Inflate} {out : Bytes} (h : Path tick s out t) :
    Kept out.length s t := by
  refine h.rule (R := fun s out t => Kept out.length s t) (fun s => .zero rfl rfl rfl rfl) ?_ ?_
  · intro s t u o ht ih
    have hk := (regular (tick_live (ht.imp_right .inl)).2).keeps
    have h0 : Kept 0 s t := by
      obtain ht | ht := ht <;> rw [ht] at hk <;> exact hk.1
    simpa using h0.trans ih
  · intro s t u b o ht ih
    have hk := (regular (tick_live (.inr (.inr ⟨b, ht⟩))).2).keeps
    rw [ht] at hk
    simpa [Nat.add_comm] using hk.1.trans ih

theorem tick_target_live {s t : Inflate}
    (h : tick s = .next t ∨ tick s = .need t ∨ ∃ b, tick s = .emit b t) : Live t := by
  have hs := tick_live h
  have hk := (regular hs.2).keeps
  obtain h | h | ⟨b, h⟩ := h <;> rw [h] at hk
  · exact hk.2
  · unfold Live
    rw [hk.2.2.2]
    exact hs
  · exact hk.2

theorem Path.live {s t : Inflate} {out : Bytes} (h : Path tick s out t) : t = s ∨ Live t := by
  refine h.rule (R := fun s _ t => t = s ∨ Live t) (fun s => .inl rfl) ?_ ?_
  · rintro s t u o ht (rfl | ih)
    · exact .inr (tick_target_live (ht.imp_right .inl))
    · exact .inr ih
  · rintro s t u b o ht (rfl | ih)
    · exact .inr (tick_target_live (.inr (.inr ⟨b, ht⟩)))
    · exact .inr ih

theorem Path.undone {s t : Inflate} {out : Bytes} (h : Path tick s out t) (hd : s.stage ≠ .done) :
    t.stage ≠ .done := by
  obtain rfl | hl := Path.live h
  · exact hd
  · exact hl.2

theorem Path.ends {s t : Inflate} {out : Bytes} (h : Path tick s out t) (hd : s.stage ≠ .done)
    (ht : tick t = .done) : t.outputCount = t.expectedOutput ∧ t.rd.input = [] := by
  have hkeep := (regular (Path.undone h hd)).keeps
  rw [ht] at hkeep
  exact hkeep

end Poll

end OpenDisplay
