import Mathlib.Data.List.Induction
import OpenDisplay.Inflate.Decode

/-! The verdict of the pump. What it calls done was taken whole by the sink, and an
error is never taken back: a failed decoder stays failed, and after a refused buffer the
bytes that the sink took never again make up the bytes that were decoded. -/

namespace OpenDisplay

open Loops Resumable

section Failure

theorem onRead_fail {α : Type} {f : BitReader → Rc α × BitReader} {s t : Inflate} {e : String}
    {k : α → Inflate → HeaderIter} (h : onRead (s.read f) k = .stop (.fail e, t))
    (hk : ∀ a r, k a { s with rd := r } = .stop (.fail e, t) → t.stage = .error) : t.stage = .error := by
  unfold onRead Inflate.read at h
  cases hf : f s.rd with
  | mk rc r =>
    rw [hf] at h
    cases rc with
    | ok a => exact hk a r h
    | need => simp at h
    | fail e =>
      obtain rfl : _ = t := (Prod.mk.inj (Iter.stop.inj h)).2
      rfl

theorem failWith_stage {e e' : String} {s t : Inflate} (h : failWith e s = .stop (.fail e', t)) :
    t.stage = .error := by
  obtain rfl : _ = t := (Prod.mk.inj (Iter.stop.inj h)).2
  rfl

theorem dynamicBuildTrees_fail {s t : Inflate} {e : String} (h : dynamicBuildTrees s = .stop (.fail e, t)) :
    t.stage = .error := by
  unfold dynamicBuildTrees at h
  split at h
  · exact failWith_stage h
  split at h
  · exact failWith_stage h
  split at h
  · exact failWith_stage h
  · simp at h

theorem dynamicPass_fail {s t : Inflate} {e : String} (h : dynamicPass s = .stop (.fail e, t)) :
    t.stage = .error := by
  unfold dynamicPass at h
  split at h
  case h_1 => exact onRead_fail h (by simp)
  case h_2 => exact onRead_fail h (by simp)
  case h_3 =>
    refine onRead_fail h fun v r hk => ?_
    unfold dynamicSizes at hk
    dsimp only at hk
    split_ifs at hk
    · exact failWith_stage hk
  case h_4 => simp at h
  case h_5 =>
    split_ifs at h
    · exact onRead_fail h (by simp)
  case h_6 =>
    split at h
    · exact failWith_stage h
    · simp at h
  case h_7 =>
    split_ifs at h
    · refine onRead_fail h fun sym r hk => ?_
      unfold dynamicLength at hk
      split_ifs at hk
      · exact failWith_stage hk
      · exact failWith_stage hk
  case h_8 =>
    refine onRead_fail h fun v r hk => ?_
    unfold dynamicRepeat at hk
    split_ifs at hk
    · exact failWith_stage hk
  case h_9 => exact dynamicBuildTrees_fail h

theorem storedHeaderPass_fail {s t : Inflate} {e : String} (h : storedHeaderPass s = .stop (.fail e, t)) :
    t.stage = .error := by
  unfold storedHeaderPass at h
  split_ifs at h
  · exact onRead_fail h (by simp)
  · exact failWith_stage h
  · simp at h

theorem trailerPass_fail {s t : Inflate} {e : String} (h : trailerPass s = .stop (.fail e, t)) :
    t.stage = .error := by
  unfold trailerPass at h
  split_ifs at h
  · exact onRead_fail h (by simp)
  · exact failWith_stage h
  · exact failWith_stage h
  · exact failWith_stage h
  · simp at h

theorem header_fail {pass : Inflate → HeaderIter} {μ : Inflate → Nat}
    {d : ∀ s t, pass s = .next t → μ t < μ s}
    (hpass : ∀ {s t e}, pass s = .stop (.fail e, t) → t.stage = .error) {s t : Inflate} {e : String}
    (h : loop pass μ d s = (.fail e, t)) : t.stage = .error := by
  refine loop_rule (d := d) (P := fun _ (r : Rc Unit × Inflate) => ∀ e t, r = (.fail e, t) → t.stage = .error)
    ?_ ?_ s e t h
  · rintro s r hs e t rfl
    exact hpass hs
  · intro s t r hn ih
    exact ih

theorem onData_fail {α : Type} {f : BitReader → Rc α × BitReader} {out : Bytes} {s : Inflate} {w : Work}
    {k : α → Inflate → DataIter} (h : onData out (s.read f) k = .stop (.fail, w))
    (hk : ∀ a r, k a { s with rd := r } = .stop (.fail, w) → w.2.stage = .error) : w.2.stage = .error := by
  unfold onData Inflate.read at h
  cases hf : f s.rd with
  | mk rc r =>
    rw [hf] at h
    cases rc with
    | ok a => exact hk a r h
    | need => simp at h
    | fail e =>
      obtain rfl : _ = w := (Prod.mk.inj (Iter.stop.inj h)).2
      rfl

theorem onPut_fail {byte : UInt8} {capacity : Nat} {out : Bytes} {s : Inflate} {w : Work}
    {k : Work → DataIter} (h : onPut (putOutputByte byte capacity (out, s)) k = .stop (.fail, w))
    (hk : ∀ w', k w' = .stop (.fail, w) → w.2.stage = .error) : w.2.stage = .error := by
  unfold onPut at h
  split at h
  · exact hk _ h
  · obtain ⟨hrc, rfl⟩ := Prod.mk.inj (Iter.stop.inj h)
    by_contra he
    rw [if_neg he] at hrc
    simp at hrc

theorem storedDataPass_fail {capacity : Nat} {w w' : Work} (h : storedDataPass capacity w = .stop (.fail, w')) :
    w'.2.stage = .error := by
  unfold storedDataPass at h
  dsimp only at h
  split_ifs at h
  · simp at h
  · simp at h
  · exact onData_fail h fun byte r hk => onPut_fail hk (by simp)

theorem blockPass_fail {capacity : Nat} {w w' : Work} (h : blockPass capacity w = .stop (.fail, w')) :
    w'.2.stage = .error := by
  have hset : ∀ {e out s}, (Iter.stop (.fail, out, setError e s) : DataIter) = .stop (.fail, w') →
      w'.2.stage = .error := by
    intro e out s h
    obtain rfl : _ = w' := (Prod.mk.inj (Iter.stop.inj h)).2
    rfl
  unfold blockPass at h
  dsimp only at h
  split at h
  · simp at h
  split at h
  case h_1 =>
    refine onData_fail h fun sym r hk => ?_
    unfold blockSymbol at hk
    split_ifs at hk
    · exact onPut_fail hk (by simp)
    · simp at hk
    · exact hset hk
  case h_2 => exact onData_fail h (by simp)
  case h_3 =>
    refine onData_fail h fun sym r hk => ?_
    unfold blockDistSymbol at hk
    dsimp only at hk
    split_ifs at hk
    · exact hset hk
  case h_4 =>
    refine onData_fail h fun v r hk => ?_
    unfold blockDistExtra at hk
    dsimp only at hk
    split_ifs at hk
    · exact hset hk
  case h_5 =>
    split_ifs at h
    · exact onPut_fail h (by simp)

theorem data_fail {pass : Work → DataIter} {μ : Work → Nat} {d : ∀ w w', pass w = .next w' → μ w' < μ w}
    (hpass : ∀ {w w'}, pass w = .stop (.fail, w') → w'.2.stage = .error) {w w' : Work}
    (h : loop pass μ d w = (.fail, w')) : w'.2.stage = .error := by
  refine loop_rule (d := d) (P := fun _ (r : DataRc × Work) => ∀ w', r = (.fail, w') → w'.2.stage = .error)
    ?_ ?_ w w' h
  · rintro w r hs w' rfl
    exact hpass hs
  · intro w t r hn ih
    exact ih

theorem onPoll_fail {α : Type} {out : Bytes} {p : Rc α × Inflate} {k : α → Inflate → Work} {w : Work}
    (h : onPoll out p k = .stop (.error, w)) (hp : ∀ e t, p = (.fail e, t) → t.stage = .error) :
    w.2.stage = .error := by
  obtain ⟨rc, t⟩ := p
  cases rc with
  | ok a =>
    unfold onPoll at h
    dsimp only at h
    split_ifs at h with he
    obtain rfl : _ = w := (Prod.mk.inj (Iter.stop.inj h)).2
    exact he
  | need => simp [onPoll] at h
  | fail e =>
    obtain rfl : _ = w := (Prod.mk.inj (Iter.stop.inj h)).2
    exact hp e t rfl

theorem read_fail {α : Type} {f : BitReader → Rc α × BitReader} {s : Inflate} (e : String) (t : Inflate)
    (h : s.read f = (.fail e, t)) : t.stage = .error := by
  unfold Inflate.read at h
  split at h
  · simp at h
  · simp at h
  · obtain rfl : _ = t := (Prod.mk.inj h).2
    rfl

theorem pollPass_fail {capacity : Nat} {w w' : Work} (h : pollPass capacity w = .stop (.error, w')) :
    w'.2.stage = .error := by
  have hstop : ∀ {w}, (Iter.stop (.error, w) : PollIter) = .stop (.error, w') → w.2.stage = .error →
      w'.2.stage = .error := by
    rintro w h hw
    obtain rfl : w = w' := (Prod.mk.inj (Iter.stop.inj h)).2
    exact hw
  unfold pollPass at h
  dsimp only at h
  split at h
  · simp at h
  split at h
  case h_1 => exact onPoll_fail h read_fail
  case h_2 => exact onPoll_fail h read_fail
  case h_3 => exact onPoll_fail h read_fail
  case h_4 => exact onPoll_fail h read_fail
  case h_5 => exact onPoll_fail h fun e t hp => header_fail dynamicPass_fail hp
  case h_6 => exact onPoll_fail h fun e t hp => header_fail storedHeaderPass_fail hp
  case h_7 =>
    cases hp : processStoredData capacity w with
    | mk rc v =>
      rw [hp] at h
      cases rc with
      | fail => exact hstop h (data_fail storedDataPass_fail hp)
      | need => simp only [waiting] at h; split_ifs at h <;> simp at h
      | _ => simp at h
  case h_8 =>
    cases hp : processBlockData capacity w with
    | mk rc v =>
      rw [hp] at h
      cases rc with
      | fail => exact hstop h (data_fail blockPass_fail hp)
      | need => simp only [waiting] at h; split_ifs at h <;> simp at h
      | _ => simp at h
  case h_9 =>
    cases hp : processTrailer w.2 with
    | mk rc v =>
      rw [hp] at h
      cases rc with
      | fail e => exact hstop h (header_fail trailerPass_fail hp)
      | need => simp only [waiting] at h; split_ifs at h <;> simp at h
      | ok => simp at h
  case h_10 => simp at h
  case h_11 hs => exact hstop h hs

theorem odZlibStreamPoll_fail {capacity : Nat} {s t : Inflate} {out : Bytes}
    (h : odZlibStreamPoll capacity s = (.error, out, t)) : t.stage = .error := by
  unfold odZlibStreamPoll at h
  split at h
  · obtain rfl : _ = t := (Prod.mk.inj (Prod.mk.inj h).2).2
    rfl
  split at h
  · obtain rfl : _ = t := (Prod.mk.inj (Prod.mk.inj h).2).2
    assumption
  split at h
  · simp at h
  refine loop_rule (d := pollPass_dec capacity)
    (P := fun _ (r : ZlibStatus × Work) => ∀ out t, r = (.error, out, t) → t.stage = .error) ?_ ?_ ([], s) out t h
  · rintro w r hs out t rfl
    exact pollPass_fail hs
  · intro w w' r hn ih
    exact ih

end Failure

section Spoiled

/-- The decoder has failed, or it has put out bytes that the sink has not taken. -/
def Spoiled (p : Pump) : Prop :=
  p.engine.stage = .error ∨ p.emittedOutput.toNat < p.engine.outputCount.toNat

theorem PollStop.outputCount {s t : Inflate} {out : Bytes} {status : ZlibStatus}
    (h : PollStop s out status t) (hs : status ≠ .error) :
    t.outputCount.toNat = s.outputCount.toNat + out.length := by
  cases status with
  | outputReady => exact (Path.kept h).outputCount
  | needsInput =>
    obtain ⟨u, hu, hn⟩ := h
    have hpath : Path tick s (out ++ []) t := hu.trans (.need hn .refl)
    rw [List.append_nil] at hpath
    exact (Path.kept hpath).outputCount
  | done =>
    obtain ⟨u, hu, -, rfl⟩ := h
    exact (Path.kept hu).outputCount
  | error => exact absurd rfl hs

theorem Spoiled.poll {p : Pump} (h : Spoiled p) {capacity : Nat} {status : ZlibStatus} {out : Bytes}
    {t : Inflate} (hp : odZlibStreamPoll capacity p.engine = (status, out, t)) :
    t.stage = .error ∧ status = .error ∨
      status ≠ .error ∧ p.emittedOutput.toNat + out.length < t.outputCount.toNat := by
  by_cases hs : status = .error
  · subst hs
    exact .inl ⟨odZlibStreamPoll_fail hp, rfl⟩
  have hi : p.engine.initialized = true := by
    by_contra hi
    rw [Bool.not_eq_true] at hi
    simp only [odZlibStreamPoll, hi, if_true] at hp
    exact hs (Prod.mk.inj hp).1.symm
  rcases h with herror | hahead
  · simp only [odZlibStreamPoll, hi, herror, Bool.true_eq_false, if_false, if_true] at hp
    exact absurd (Prod.mk.inj hp).1.symm hs
  · have hcount := (odZlibStreamPoll_spec hi hp).1.outputCount hs
    exact .inr ⟨hs, by omega⟩

variable {σ : Type} {sink : Bytes → σ → Bool × σ}

/-- What a pass of a spoiled pump comes to. -/
def StaysSpoiled : PumpIter Inflate σ → Prop
  | .next p => Spoiled p.1
  | .stop (status, p) => status ≠ .done ∧ Spoiled p.1

theorem pumpFail_spoiled {text : String} {p : Pump × σ} (h : Spoiled p.1) :
    StaysSpoiled (pumpFail text p) :=
  ⟨by simp, h⟩

theorem pumpStatus_spoiled {final : Bool} {status : ZlibStatus} {p : Pump × σ}
    (h : p.1.engine.stage = .error ∧ status = .error ∨ p.1.emittedOutput.toNat < p.1.engine.outputCount.toNat) :
    StaysSpoiled (pumpStatus final status p) := by
  have hspoiled : Spoiled p.1 := h.imp_left And.left
  cases status with
  | outputReady => exact hspoiled
  | needsInput =>
    unfold pumpStatus InflateApp.pumpStatus
    dsimp only
    split_ifs
    · exact pumpFail_spoiled hspoiled
    · exact ⟨by simp, hspoiled⟩
  | done =>
    have hahead := h.resolve_left (by simp)
    have hmismatch : p.1.emittedOutput ≠ p.1.expectedOutput ∨
        portable.outputCount p.1.engine ≠ p.1.emittedOutput := by
      refine .inr fun heq => ?_
      rw [← heq] at hahead
      exact Nat.lt_irrefl _ hahead
    unfold pumpStatus InflateApp.pumpStatus
    dsimp only
    rw [if_pos hmismatch]
    exact pumpFail_spoiled hspoiled
  | error => exact pumpFail_spoiled hspoiled

theorem Spoiled.pass {p : Pump × σ} (h : Spoiled p.1) (final : Bool) (capacity : Nat) :
    StaysSpoiled (pumpPass sink final capacity p) := by
  obtain ⟨pump, q⟩ := p
  cases hp : odZlibStreamPoll capacity pump.engine with
  | mk status w =>
    obtain ⟨out, t⟩ := w
    have hpoll := h.poll hp
    have hleft : Spoiled { pump with engine := t } :=
      hpoll.imp And.left fun ha => Nat.lt_of_le_of_lt (Nat.le_add_right _ _) ha.2
    simp only [pumpPass, InflateApp.pumpPass, portable_poll, hp]
    split_ifs with hover hempty hroom
    · exact pumpFail_spoiled hleft
    · subst hempty
      exact pumpStatus_spoiled (hpoll.imp_right fun ha => ha.2)
    · exact pumpFail_spoiled hleft
    · split
      · exact pumpFail_spoiled hleft
      · refine pumpStatus_spoiled (hpoll.imp_right fun ha => ?_)
        have hahead : pump.emittedOutput.toNat + out.length < t.outputCount.toNat := ha.2
        have hlt := t.outputCount.toNat_lt
        change (pump.emittedOutput + UInt32.ofNat out.length).toNat < t.outputCount.toNat
        rw [UInt32.toNat_add, UInt32.toNat_ofNat']
        omega

theorem Spoiled.fed {p : Pump} (h : Spoiled p) (input : Bytes) (final : Bool) :
    Spoiled { p with engine := (odZlibStreamPush input final p.engine).2 } := by
  unfold odZlibStreamPush
  split
  · exact .inl rfl
  split
  · exact .inl rfl
  dsimp only
  split
  · split
    · exact .inl rfl
    · exact h
  · exact h

/-- A spoiled pump is spoiled for good. -/
theorem Spoiled.push {p : Pump × σ} (h : Spoiled p.1) (input : Bytes) (final : Bool) (scratch : Nat) :
    (odZlibPumpPush sink input final scratch p).1 ≠ .done ∧
      Spoiled (odZlibPumpPush sink input final scratch p).2.1 := by
  have hfed := h.fed input final
  by_cases hready : p.1.error = some .notInitialized
  · unfold odZlibPumpPush InflateApp.odZlibPumpPush
    rw [if_pos hready]
    exact ⟨by simp, h⟩
  by_cases hc : 0 < scratch
  · cases hpush : odZlibStreamPush input final p.1.engine with
    | mk status engine =>
      rw [hpush] at hfed
      by_cases hok : status = .error
      · subst hok
        rw [odZlibPumpPush_refused sink hready hc hpush]
        exact ⟨by simp, hfed⟩
      rw [odZlibPumpPush_loop sink hready hc hpush hok]
      exact loop_rule (d := pumpPass_dec sink hc final)
        (P := fun (p : Pump × σ) (r : PumpStatus × Pump × σ) => Spoiled p.1 → StaysSpoiled (.stop r))
        (by
          intro p r hs h
          have hpass : StaysSpoiled (pumpPass sink final scratch p) := h.pass final scratch
          rwa [hs] at hpass)
        (by
          intro p p' r hn ih h
          have hpass : StaysSpoiled (pumpPass sink final scratch p) := h.pass final scratch
          rw [hn] at hpass
          exact ih hpass)
        ({ p.1 with engine := engine }, p.2) hfed
  · unfold odZlibPumpPush InflateApp.odZlibPumpPush
    rw [if_neg hready, dif_neg hc]
    exact ⟨by simp, h⟩

end Spoiled

section Errors

variable {σ : Type} {sink : Bytes → σ → Bool × σ}

/-- While its accounts agree, the pump fails on a status only where the inflater does. -/
theorem pumpStatus_error {s t : Inflate} {out : Bytes} {final : Bool} {status : ZlibStatus} {p p' : Pump × σ}
    (hf : s.rd.inputFinal = final) (hp : PollStop s out status t) (hinv : status ≠ .error → PumpInv p.1)
    (he : p.1.engine = t) (h : pumpStatus final status p = .stop (.error, p')) :
    status = .error ∧ p'.1.engine = t := by
  cases status with
  | outputReady => simp [InflateApp.pumpStatus] at h
  | needsInput =>
    rw [PollStop.notFinal hp] at hf
    simp [InflateApp.pumpStatus, ← hf] at h
  | done =>
    have hsettled := hp.settled (hinv (by simp)) he
    simp [InflateApp.pumpStatus, hsettled] at h
  | error =>
    obtain rfl : _ = p' := (Prod.mk.inj (Iter.stop.inj h)).2
    exact ⟨rfl, he⟩

theorem pumpPass_error {capacity : Nat} {final : Bool} {p p' : Pump × σ} (hi : PumpInv p.1)
    (hf : p.1.engine.rd.inputFinal = final) (h : pumpPass sink final capacity p = .stop (.error, p')) :
    Spoiled p'.1 := by
  obtain ⟨pump, q⟩ := p
  cases hp : odZlibStreamPoll capacity pump.engine with
  | mk status w =>
    obtain ⟨out, t⟩ := w
    obtain ⟨hst, -, hlen⟩ := odZlibStreamPoll_spec hi.initialized hp
    obtain ⟨u, hu⟩ := hst.path
    have hroom := hi.room (Path.kept hu)
    have hcap : ¬ capacity < out.length := by omega
    have hstatus : ∀ v : Pump × σ, (status ≠ .error → PumpInv v.1) → v.1.engine = t →
        pumpStatus final status v = .stop (.error, p') → Spoiled p'.1 := by
      intro v hinv he hv
      obtain ⟨rfl, he'⟩ := pumpStatus_error hf hst hinv he hv
      left
      rw [he']
      exact odZlibStreamPoll_fail hp
    simp only [pumpPass, InflateApp.pumpPass, portable_poll, hp, hcap, if_false] at h
    by_cases ho : out = []
    · subst ho
      simp only [if_true] at h
      refine hstatus _ (fun hs => ?_) rfl h
      have hinv := PollStop.pumpInv hi hst hs
      simpa using hinv
    simp only [ho, if_false, hroom] at h
    cases hs : sink out q with
    | mk taken q' =>
      rw [hs] at h
      cases taken with
      | true => exact hstatus _ (PollStop.pumpInv hi hst) rfl h
      | false =>
        obtain rfl : _ = p' := (Prod.mk.inj (Iter.stop.inj h)).2
        by_cases hfail : status = .error
        · subst hfail
          exact .inl (odZlibStreamPoll_fail hp)
        -- the refused bytes are counted by the inflater and not by the pump
        · right
          have hcount := hst.outputCount hfail
          have hpos := List.length_pos_iff.mpr ho
          change pump.emittedOutput.toNat < t.outputCount.toNat
          have hemitted : pump.emittedOutput = pump.engine.outputCount := hi.emitted
          rw [hemitted]
          dsimp only at hcount
          omega

theorem odZlibPumpPush_error {input : Bytes} {final : Bool} {scratch : Nat} {p p' : Pump × σ}
    (hc : 0 < scratch) (hi : PumpInv p.1) (hd : p.1.engine.stage ≠ .done)
    (hin : p.1.engine.rd.input = []) (h : odZlibPumpPush sink input final scratch p = (.error, p')) :
    Spoiled p'.1 := by
  have hpush : odZlibStreamPush input final p.1.engine =
      (.needsInput, p.1.engine.feed input final) := by
    simp [odZlibStreamPush, hi.initialized, hin, hd, Inflate.feed, BitReader.feed]
  rw [odZlibPumpPush_loop sink hi.ready hc hpush (by decide)] at h
  have hrun := loop_rule (d := pumpPass_dec sink hc final)
    (P := fun (p : Pump × σ) (r : PumpStatus × Pump × σ) => PumpInv p.1 →
      p.1.engine.rd.inputFinal = final → r.1 = .error → Spoiled r.2.1) ?_ ?_
    ({ p.1 with engine := p.1.engine.feed input final }, p.2)
  · rw [h] at hrun
    exact hrun ⟨hi.ready, hi.initialized, hi.expected, hi.emitted, hi.bound, hi.done⟩ rfl rfl
  · rintro p ⟨status, p'⟩ hs hi hf rfl
    exact pumpPass_error hi hf hs
  · intro p p' r hn ih hi hf hr
    have hany : Sinks sink (fun _ _ => True) fun _ _ => True := ⟨fun _ _ => trivial, fun _ _ => trivial⟩
    have hstep : PumpStep _ _ _ [] final (pumpPass sink final scratch p) := pumpPass_spec hany scratch hi hf trivial
    rw [hn] at hstep
    obtain ⟨hi', out, hpath, -⟩ := hstep
    exact ih hi' ((Path.kept hpath).inputFinal.trans hf) hr

end Errors

section Runs

variable {σ : Type}

/-- Each buffer offered to the sink, with its answer. -/
abbrev Offers := List (Bytes × Bool)

/-- A sink that keeps a record of what it is offered. -/
def audited (sink : Bytes → σ → Bool × σ) (out : Bytes) (q : Offers × σ) : Bool × Offers × σ :=
  ((sink out q.2).1, q.1 ++ [(out, (sink out q.2).1)], (sink out q.2).2)

/-- Every offer was accepted, and together they are `out`. -/
def Accepted (out : Bytes) (q : Offers × σ) : Prop :=
  q.1.flatMap Prod.fst = out ∧ ∀ offer ∈ q.1, offer.2 = true

theorem audited_sinks (sink : Bytes → σ → Bool × σ) : Sinks (audited sink) Accepted fun _ _ => True where
  accept {o out q q'} h hs := by
    obtain ⟨htaken, rfl⟩ := Prod.mk.inj hs
    refine ⟨by simp [h.1], fun offer hoffer => ?_⟩
    rcases List.mem_append.mp hoffer with hold | hnew
    · exact h.2 offer hold
    · rw [List.mem_singleton.mp hnew]
      exact htaken
  refuse _ _ := trivial

structure PushCall (σ : Type) where
  input : Bytes
  final : Bool
  scratch : Nat
  sink : Bytes → σ → Bool × σ

def PushCall.push (c : PushCall σ) (p : Pump × Offers × σ) : PumpStatus × Pump × Offers × σ :=
  odZlibPumpPush (audited c.sink) c.input c.final c.scratch p

/-- What a call hands to the inflater: nothing without a scratch buffer. -/
def PushCall.given (c : PushCall σ) : Bytes := if 0 < c.scratch then c.input else []

/-- The pump and its sink after a reset and a sequence of pushes. -/
def pumpAfter (expected : UInt32) (q : σ) (pushes : List (PushCall σ)) : Pump × Offers × σ :=
  pushes.foldl (fun p c => (c.push p).2) (odZlibPumpReset expected, [], q)

theorem pumpAfter_concat (expected : UInt32) (q : σ) (pushes : List (PushCall σ)) (c : PushCall σ) :
    pumpAfter expected q (pushes ++ [c]) = (c.push (pumpAfter expected q pushes)).2 := by
  simp [pumpAfter]

/-- A pump at the end of its stream. -/
structure StreamEnded (expected : UInt32) (xs out : Bytes) (p : Pump) : Prop where
  inv : PumpInv p
  done : p.engine.stage = .done
  input : p.engine.rd.input = []
  whole : Inflates expected xs out
  length : out.length = expected.toNat

/-- What a pump that has been given `xs` and has put out `out` has to show for it. -/
def Standing (expected : UInt32) (xs out : Bytes) (p : Pump) : Prop :=
  Decoded expected xs out p ∧ p.engine.stage ≠ .done ∨ StreamEnded expected xs out p

/-- Either the sink has everything, or the pump is spoiled. -/
def Honest (expected : UInt32) (xs : Bytes) (p : Pump × Offers × σ) : Prop :=
  Spoiled p.1 ∨ ∃ out, Accepted out p.2 ∧ Standing expected xs out p.1

/-- What a push says of the state that it leaves. -/
def Verdict (expected : UInt32) (xs : Bytes) (status : PumpStatus) (p : Pump × Offers × σ) : Prop :=
  match status with
  | .more => Honest expected xs p
  | .done => ∃ out, Accepted out p.2 ∧ StreamEnded expected xs out p.1
  | .error => Spoiled p.1

theorem Verdict.honest {expected : UInt32} {xs : Bytes} {status : PumpStatus} {p : Pump × Offers × σ}
    (h : Verdict expected xs status p) : Honest expected xs p := by
  cases status with
  | more => exact h
  | done =>
    obtain ⟨out, htaken, hended⟩ := h
    exact .inr ⟨out, htaken, .inr hended⟩
  | error => exact .inl h

variable {expected : UInt32} {xs out : Bytes} {p : Pump × Offers × σ}

theorem Decoded.verdict (h : Decoded expected xs out p.1) (hd : p.1.engine.stage ≠ .done)
    (ht : Accepted out p.2) {c : PushCall σ} (hc : 0 < c.scratch) :
    Verdict expected (xs ++ c.input) (c.push p).1 (c.push p).2 := by
  have hr := (h.stands.resolve_right fun hdone => hd hdone.1).2
  cases hpush : c.push p with
  | mk status p' =>
    have hs := odZlibPumpPush_spec (audited_sinks c.sink) hc h.inv hd h.input ht hpush
    cases status with
    | more =>
      obtain ⟨hf, hi, o, u, htaken, hp, hn⟩ := hs
      rw [hf] at hp
      have hlive := (tick_target_live (.inr (.inl hn))).2
      exact .inr ⟨out ++ o, htaken, .inl ⟨h.more hr hi hp hn, hlive⟩⟩
    | done =>
      obtain ⟨hi, o, u, htaken, hp, hn, heng⟩ := hs
      obtain ⟨hwhole, hlength, -⟩ := h.done hd hr hi hp hn heng
      have hkeep := Path.ends hp hd hn
      exact ⟨out ++ o, htaken, hi, by rw [heng], by rw [heng]; exact hkeep.2, hwhole, hlength⟩
    | error => exact odZlibPumpPush_error hc h.inv hd h.input hpush

theorem StreamEnded.verdict (h : StreamEnded expected xs out p.1) (ht : Accepted out p.2) {c : PushCall σ}
    (hc : 0 < c.scratch) : Verdict expected (xs ++ c.input) (c.push p).1 (c.push p).2 := by
  obtain ⟨pump, q⟩ := p
  by_cases hnil : c.input = []
  · obtain ⟨p₁, hp, hi, -, -, hd, hin⟩ := push_done (audited c.sink) q c.final h.inv h.done h.input hc
    rw [PushCall.push, hnil, hp, List.append_nil]
    exact ⟨out, ht, hi, hd, hin, h.whole, h.length⟩
  · obtain ⟨p₁, hp, hstage⟩ := push_after_done (audited c.sink) q c.final h.inv h.done h.input hc hnil
    rw [PushCall.push, hp]
    exact .inl hstage

theorem Standing.verdict (h : Standing expected xs out p.1) (ht : Accepted out p.2) {c : PushCall σ}
    (hc : 0 < c.scratch) : Verdict expected (xs ++ c.input) (c.push p).1 (c.push p).2 := by
  rcases h with ⟨h, hd⟩ | h
  · exact h.verdict hd ht hc
  · exact h.verdict ht hc

theorem Standing.ready {pump : Pump} (h : Standing expected xs out pump) :
    pump.error ≠ some .notInitialized := by
  rcases h with ⟨h, -⟩ | h
  · exact h.inv.ready
  · exact h.inv.ready

theorem Standing.noted {pump : Pump} {text : String} (h : Standing expected xs out pump) :
    Standing expected xs out { pump with error := some (.message text) } := by
  have hinv : PumpInv pump → PumpInv { pump with error := some (.message text) } := fun hi =>
    ⟨by simp, hi.initialized, hi.expected, hi.emitted, hi.bound, hi.done⟩
  rcases h with ⟨h, hd⟩ | h
  · exact .inl ⟨⟨hinv h.inv, h.target, h.input, h.count, h.stands⟩, hd⟩
  · exact .inr ⟨hinv h.inv, h.done, h.input, h.whole, h.length⟩

theorem push_without_scratch {c : PushCall σ} (hc : ¬ 0 < c.scratch)
    (hready : p.1.error ≠ some .notInitialized) :
    c.push p = (.error, { p.1 with error := some (.message "invalid pump argument") }, p.2) := by
  simp only [PushCall.push, odZlibPumpPush, InflateApp.odZlibPumpPush, hready, hc, if_false, dite_false]

theorem Honest.push (h : Honest expected xs p) (c : PushCall σ) : Honest expected (xs ++ c.given) (c.push p).2 := by
  rcases h with hspoiled | ⟨out, htaken, hstanding⟩
  · exact .inl (hspoiled.push _ _ _).2
  unfold PushCall.given
  split_ifs with hc
  · exact (hstanding.verdict htaken hc).honest
  · rw [push_without_scratch hc hstanding.ready, List.append_nil]
    exact .inr ⟨out, htaken, hstanding.noted⟩

theorem pumpAfter_honest (expected : UInt32) (q : σ) (pushes : List (PushCall σ)) :
    Honest expected (pushes.flatMap PushCall.given) (pumpAfter expected q pushes) := by
  induction pushes using List.reverseRecOn with
  | nil =>
    refine .inr ⟨[], ⟨rfl, by simp [pumpAfter]⟩, .inl ⟨Decoded.reset expected, ?_⟩⟩
    change Stage.zlibCmf ≠ .done
    simp
  | append_singleton pushes c ih =>
    rw [pumpAfter_concat, List.flatMap_append, List.flatMap_singleton]
    exact ih.push c

/-- What a push of an honest pump that calls the stream done has to show. -/
theorem Honest.done (h : Honest expected xs p) {c : PushCall σ} (hdone : (c.push p).1 = .done) :
    ∃ out, Accepted out (c.push p).2.2 ∧ StreamEnded expected (xs ++ c.given) out (c.push p).2.1 := by
  rcases h with hspoiled | ⟨out, htaken, hstanding⟩
  · exact absurd hdone (hspoiled.push _ _ _).1
  have hc : 0 < c.scratch := by
    by_contra hc
    unfold PushCall.push odZlibPumpPush InflateApp.odZlibPumpPush at hdone
    split_ifs at hdone
  have hverdict := hstanding.verdict htaken hc
  rw [hdone] at hverdict
  unfold PushCall.given
  rw [if_pos hc]
  exact hverdict

/-- An error of a push that has a scratch buffer spoils the pump. -/
theorem Honest.error (h : Honest expected xs p) {c : PushCall σ} (hc : 0 < c.scratch)
    (herror : (c.push p).1 = .error) : Spoiled (c.push p).2.1 := by
  rcases h with hspoiled | ⟨out, htaken, hstanding⟩
  · exact (hspoiled.push _ _ _).2
  have hverdict := hstanding.verdict htaken hc
  rw [herror] at hverdict
  exact hverdict

theorem pumpAfter_spoiled {q : σ} {earlier : List (PushCall σ)} (h : Spoiled (pumpAfter expected q earlier).1)
    (later : List (PushCall σ)) : Spoiled (pumpAfter expected q (earlier ++ later)).1 := by
  induction later using List.reverseRecOn with
  | nil => rwa [List.append_nil]
  | append_singleton later c ih =>
    rw [← List.append_assoc, pumpAfter_concat]
    exact (ih.push _ _ _).2

/-- After a reset, whatever is pushed and however the sinks answer: a push that calls
the stream done has had each byte of it accepted, once and in order, up to the expected
size, and no push calls it done after one that failed on the stream, on its end or on
the sink. -/
theorem pump_verdict_honest (expected : UInt32) (q : σ) (pushes : List (PushCall σ)) (c : PushCall σ)
    (hdone : (c.push (pumpAfter expected q pushes)).1 = .done) :
    (∃ out, Inflates expected ((pushes ++ [c]).flatMap PushCall.given) out ∧ out.length = expected.toNat ∧
      Accepted out (pumpAfter expected q (pushes ++ [c])).2) ∧
    ∀ earlier c' later, pushes = earlier ++ c' :: later → 0 < c'.scratch →
      (c'.push (pumpAfter expected q earlier)).1 ≠ .error := by
  constructor
  · obtain ⟨out, htaken, hended⟩ := (pumpAfter_honest expected q pushes).done hdone
    rw [pumpAfter_concat, List.flatMap_append, List.flatMap_singleton]
    exact ⟨out, hended.whole, hended.length, htaken⟩
  · rintro earlier c' later rfl hc herror
    have hspoiled : Spoiled (pumpAfter expected q (earlier ++ [c'])).1 := by
      rw [pumpAfter_concat]
      exact (pumpAfter_honest expected q earlier).error hc herror
    have hlater := pumpAfter_spoiled hspoiled later
    rw [List.append_assoc, List.singleton_append] at hlater
    exact (hlater.push _ _ _).1 hdone

/-- A stored block of three bytes, pushed in two parts into a sink that counts. -/
theorem pump_verdict_honest_stored :
    let count : Bytes → Nat → Bool × Nat := fun out n => (true, n + out.length)
    let first : PushCall Nat := ⟨[0x18, 0x19, 0x01, 0x03, 0x00, 0xfc, 0xff, 0x61], false, 2, count⟩
    let last : PushCall Nat := ⟨[0x62, 0x63, 0x02, 0x4d, 0x01, 0x27], true, 1, count⟩
    (last.push (pumpAfter 3 0 [first])).1 = .done ∧
      ∃ out, Inflates 3 ([first, last].flatMap PushCall.given) out ∧ out.length = 3 ∧
        Accepted out (pumpAfter 3 0 [first, last]).2 := by
  intro count first last
  have hdone : (last.push (pumpAfter 3 0 [first])).1 = .done := by decide +kernel
  exact ⟨hdone, (pump_verdict_honest 3 0 [first] last hdone).1⟩

end Runs

end OpenDisplay
