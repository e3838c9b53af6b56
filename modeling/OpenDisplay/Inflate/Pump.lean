import OpenDisplay.Inflate.Run

/-! The bounded pump between an inflater and a sink: it pushes a span of
compressed bytes, polls until the inflater wants more, and hands each buffer of
output to the sink. The inflater is the engine that a build selects, the portable
one where there is no other. How the stream is cut up does not show in what comes out. -/

namespace OpenDisplay

open Loops Resumable

inductive PumpError where
  | notInitialized
  | message (text : String)
deriving DecidableEq

inductive PumpStatus where
  | more | done | error
deriving DecidableEq

/-- The engine of a build. A poll that returns with output for a buffer that has room has
put some into it. -/
structure InflateApp (ε : Type) where
  reset : UInt32 → ε → ε
  push : Bytes → Bool → ε → ZlibStatus × ε
  poll : Nat → ε → ZlibStatus × Bytes × ε
  error : ε → String
  outputCount : ε → UInt32
  ready : ∀ {capacity s out t}, 0 < capacity → poll capacity s = (.outputReady, out, t) → out ≠ []

structure AppPump (ε : Type) where
  error : Option PumpError := some .notInitialized
  expectedOutput : UInt32 := 0
  emittedOutput : UInt32 := 0
  engine : ε

abbrev PumpIter (ε σ : Type) := Iter (AppPump ε × σ) (PumpStatus × AppPump ε × σ)

section Push

variable {ε σ : Type}

def pumpFail (text : String) (p : AppPump ε × σ) : PumpIter ε σ :=
  .stop (.error, { p.1 with error := some (.message text) }, p.2)

namespace InflateApp

variable (app : InflateApp ε) (sink : Bytes → σ → Bool × σ)

def odZlibPumpReset (expectedOutputSize : UInt32) (p : AppPump ε) : AppPump ε :=
  { error := none, expectedOutput := expectedOutputSize, emittedOutput := 0
    engine := app.reset expectedOutputSize p.engine }

/-- What the pump does with a status once the bytes that came with it are out. -/
def pumpStatus (final : Bool) (status : ZlibStatus) (p : AppPump ε × σ) : PumpIter ε σ :=
  match status with
  | .outputReady => .next p
  | .needsInput =>
    if final then pumpFail "compressed stream ended before inflater completed" p
    else .stop (.more, p)
  | .done =>
    if p.1.emittedOutput ≠ p.1.expectedOutput ∨ app.outputCount p.1.engine ≠ p.1.emittedOutput then
      pumpFail "decompressed output size mismatch" p
    else .stop (.done, p)
  | .error => pumpFail (app.error p.1.engine) p

def pumpPass (final : Bool) (capacity : Nat) (p : AppPump ε × σ) : PumpIter ε σ :=
  let (status, out, engine) := app.poll capacity p.1.engine
  let pump := { p.1 with engine := engine }
  if capacity < out.length then pumpFail "inflater exceeded output buffer" (pump, p.2)
  else if out = [] then app.pumpStatus final status (pump, p.2)
  else if pump.expectedOutput < pump.emittedOutput ∨
      (pump.expectedOutput - pump.emittedOutput).toNat < out.length then
    pumpFail "decompressed output exceeds expected size" (pump, p.2)
  else
    match sink out p.2 with
    | (false, q) => pumpFail "output sink refused bytes" (pump, q)
    | (true, q) =>
      app.pumpStatus final status
        ({ pump with emittedOutput := pump.emittedOutput + UInt32.ofNat out.length }, q)

/-- What the pump may still hand to the sink. -/
def pumpRoom (p : AppPump ε × σ) : Nat := p.1.expectedOutput.toNat - p.1.emittedOutput.toNat

variable {app sink}

theorem pumpStatus_next {final : Bool} {status : ZlibStatus} {p p' : AppPump ε × σ}
    (h : app.pumpStatus final status p = .next p') : status = .outputReady ∧ p' = p := by
  cases status with
  | outputReady => cases h; exact ⟨rfl, rfl⟩
  | needsInput => cases final <;> cases h
  | done =>
    simp only [pumpStatus, pumpFail] at h
    split_ifs at h
  | error => cases h

theorem emitted_toNat {expected emitted : UInt32} {n : Nat}
    (h : ¬ (expected < emitted ∨ (expected - emitted).toNat < n)) :
    (emitted + UInt32.ofNat n).toNat = emitted.toNat + n ∧ emitted.toNat + n ≤ expected.toNat := by
  obtain ⟨hle, hn⟩ := not_or.mp h
  have hle := UInt32.not_lt.mp hle
  rw [UInt32.toNat_sub_of_le _ _ hle] at hn
  have hle := UInt32.le_iff_toNat_le.mp hle
  have hlt := expected.toNat_lt
  rw [UInt32.toNat_add, UInt32.toNat_ofNat']
  omega

theorem pumpPass_dec {capacity : Nat} (hc : 0 < capacity) (final : Bool) (p p' : AppPump ε × σ)
    (h : app.pumpPass sink final capacity p = .next p') : pumpRoom p' < pumpRoom p := by
  unfold pumpPass at h
  cases hpoll : app.poll capacity p.1.engine with
  | mk status w =>
    obtain ⟨out, engine⟩ := w
    rw [hpoll] at h
    simp only [pumpFail] at h
    split_ifs at h with hcap hnil hover
    · obtain ⟨rfl, -⟩ := pumpStatus_next h
      exact absurd hnil (app.ready hc hpoll)
    · split at h
      · cases h
      · obtain ⟨-, rfl⟩ := pumpStatus_next h
        obtain ⟨hemitted, hbound⟩ := emitted_toNat hover
        have hlen := List.length_pos_iff.mpr hnil
        simp only [pumpRoom, hemitted]
        omega

variable (app sink)

def odZlibPumpPush (input : Bytes) (final : Bool) (scratch : Nat) (p : AppPump ε × σ) :
    PumpStatus × AppPump ε × σ :=
  if p.1.error = some .notInitialized then (.error, p)
  else if hc : 0 < scratch then
    match app.push input final p.1.engine with
    | (.error, engine) =>
      (.error, { p.1 with engine := engine, error := some (.message (app.error engine)) }, p.2)
    | (_, engine) =>
      loop (app.pumpPass sink final scratch) pumpRoom (pumpPass_dec hc final) ({ p.1 with engine := engine }, p.2)
  else (.error, { p.1 with error := some (.message "invalid pump argument") }, p.2)

variable {app sink} {input : Bytes} {final : Bool} {scratch : Nat} {p : AppPump ε × σ} {engine : ε}

/-- A push that the engine takes is the loop of the polls. -/
theorem odZlibPumpPush_loop {status : ZlibStatus} (hready : p.1.error ≠ some .notInitialized) (hc : 0 < scratch)
    (hpush : app.push input final p.1.engine = (status, engine)) (hok : status ≠ .error) :
    app.odZlibPumpPush sink input final scratch p =
      loop (app.pumpPass sink final scratch) pumpRoom (pumpPass_dec hc final) ({ p.1 with engine := engine }, p.2) := by
  unfold odZlibPumpPush
  rw [if_neg hready, dif_pos hc, hpush]
  cases status with
  | error => exact absurd rfl hok
  | needsInput | outputReady | done => rfl

/-- A push that the engine refuses fails. -/
theorem odZlibPumpPush_refused (hready : p.1.error ≠ some .notInitialized) (hc : 0 < scratch)
    (hpush : app.push input final p.1.engine = (.error, engine)) :
    app.odZlibPumpPush sink input final scratch p =
      (.error, { p.1 with engine := engine, error := some (.message (app.error engine)) }, p.2) := by
  unfold odZlibPumpPush
  rw [if_neg hready, dif_pos hc, hpush]

/-- What a pass of the pump leaves of the sink's state. -/
def SinkKeeps (I : σ → Prop) : PumpIter ε σ → Prop
  | .next p => I p.2
  | .stop (_, p) => I p.2

theorem pumpStatus_sink {I : σ → Prop} (final : Bool) (status : ZlibStatus) {p : AppPump ε × σ} (hp : I p.2) :
    SinkKeeps I (app.pumpStatus final status p) := by
  cases status with
  | outputReady => exact hp
  | needsInput => cases final <;> exact hp
  | done =>
    unfold pumpStatus
    dsimp only
    split_ifs <;> exact hp
  | error => exact hp

variable (app)

theorem pumpPass_sink {I : σ → Prop} (hsink : ∀ out q, I q → I (sink out q).2) (final : Bool) (capacity : Nat)
    {p : AppPump ε × σ} (hp : I p.2) : SinkKeeps I (app.pumpPass sink final capacity p) := by
  unfold pumpPass
  cases hpoll : app.poll capacity p.1.engine with
  | mk status w =>
    obtain ⟨out, engine⟩ := w
    dsimp only
    split_ifs
    · exact hp
    · exact pumpStatus_sink final status hp
    · exact hp
    · have hs := hsink out p.2 hp
      cases hq : sink out p.2 with
      | mk b q =>
        rw [hq] at hs
        cases b with
        | false => exact hs
        | true => exact pumpStatus_sink final status hs

/-- A push changes the sink's state only by calling the sink. -/
theorem odZlibPumpPush_sink {I : σ → Prop} (hsink : ∀ out q, I q → I (sink out q).2) (input : Bytes) (final : Bool)
    (scratch : Nat) (p : AppPump ε × σ) (hp : I p.2) : I (app.odZlibPumpPush sink input final scratch p).2.2 := by
  unfold odZlibPumpPush
  split_ifs with hready hc
  · exact hp
  · split
    · exact hp
    · refine loop_rule (P := fun (p : AppPump ε × σ) r => I p.2 → SinkKeeps I (.stop r)) ?_ ?_ _ hp
      · intro p r hstop hp
        have hpass := pumpPass_sink app hsink final scratch hp
        rwa [hstop] at hpass
      · intro p p' r hnext ih hp
        have hpass := pumpPass_sink app hsink final scratch hp
        rw [hnext] at hpass
        exact ih hpass
  · exact hp

end InflateApp

end Push

section Portable

variable {σ : Type} (sink : Bytes → σ → Bool × σ)

def inflateError (s : Inflate) : String := s.error.getD ""

theorem odZlibStreamPoll_ready {capacity : Nat} (hc : 0 < capacity) {s t : Inflate} {out : Bytes}
    (h : odZlibStreamPoll capacity s = (.outputReady, out, t)) : out ≠ [] := by
  by_cases hi : s.initialized = true
  · exact (odZlibStreamPoll_spec hi h).2.1 rfl hc
  · simp [odZlibStreamPoll, hi] at h

/-- The engine of the builds that have no other. -/
def portable : InflateApp Inflate where
  reset expectedOutputSize _ := odZlibStreamReset expectedOutputSize
  push := odZlibStreamPush
  poll := odZlibStreamPoll
  error := inflateError
  outputCount s := s.outputCount
  ready hc h := odZlibStreamPoll_ready hc h

@[simp] theorem portable_push (input : Bytes) (final : Bool) (s : Inflate) :
    portable.push input final s = odZlibStreamPush input final s := rfl

@[simp] theorem portable_poll (capacity : Nat) (s : Inflate) :
    portable.poll capacity s = odZlibStreamPoll capacity s := rfl

@[simp] theorem portable_outputCount (s : Inflate) : portable.outputCount s = s.outputCount := rfl

abbrev Pump := AppPump Inflate

def odZlibPumpReset (expectedOutputSize : UInt32) : Pump :=
  portable.odZlibPumpReset expectedOutputSize { engine := {} }

@[simp] theorem odZlibPumpReset_engine (expectedOutputSize : UInt32) :
    (odZlibPumpReset expectedOutputSize).engine = odZlibStreamReset expectedOutputSize := rfl

abbrev pumpStatus (final : Bool) (status : ZlibStatus) (p : Pump × σ) : PumpIter Inflate σ :=
  portable.pumpStatus final status p

abbrev pumpPass (final : Bool) (capacity : Nat) (p : Pump × σ) : PumpIter Inflate σ :=
  portable.pumpPass sink final capacity p

abbrev odZlibPumpPush (input : Bytes) (final : Bool) (scratch : Nat) (p : Pump × σ) : PumpStatus × Pump × σ :=
  portable.odZlibPumpPush sink input final scratch p

def Inflate.room (s : Inflate) : Nat := s.expectedOutput.toNat - s.outputCount.toNat

theorem odZlibStreamPoll_room {capacity : Nat} {s t : Inflate} {out : Bytes} (hc : 0 < capacity)
    (h : odZlibStreamPoll capacity s = (.outputReady, out, t)) : t.room < s.room := by
  have hi : s.initialized = true := by
    by_contra hi
    rw [Bool.not_eq_true] at hi
    simp [odZlibStreamPoll, hi] at h
  obtain ⟨hp, hne, -⟩ := odZlibStreamPoll_spec hi h
  have hk := Path.kept hp
  have hlen := List.length_pos_iff.mpr (hne rfl hc)
  have hroom := hk.room hlen
  have hcount := hk.outputCount
  rw [hk.expectedOutput] at hroom
  simp only [Inflate.room, hk.expectedOutput]
  omega

/-- The polls of the portable engine also end with the room that the engine itself has left. -/
theorem pumpPass_dec {capacity : Nat} (hc : 0 < capacity) (final : Bool) (p p' : Pump × σ)
    (h : pumpPass sink final capacity p = .next p') :
    p'.1.engine.room < p.1.engine.room := by
  unfold pumpPass InflateApp.pumpPass at h
  cases hp : odZlibStreamPoll capacity p.1.engine with
  | mk status w =>
    obtain ⟨out, engine⟩ := w
    rw [portable_poll, hp] at h
    have hroom : ∀ q, pumpStatus final status q = .next p' → q.1.engine = engine →
        p'.1.engine.room < p.1.engine.room := by
      intro q hq he
      obtain ⟨rfl, rfl⟩ := InflateApp.pumpStatus_next hq
      rw [he]
      exact odZlibStreamPoll_room hc hp
    simp only [pumpFail] at h
    split_ifs at h
    · exact hroom _ h rfl
    · split at h
      · cases h
      · exact hroom _ h rfl

theorem odZlibPumpPush_loop {input : Bytes} {final : Bool} {scratch : Nat} {p : Pump × σ} {status : ZlibStatus}
    {engine : Inflate} (hready : p.1.error ≠ some .notInitialized) (hc : 0 < scratch)
    (hpush : odZlibStreamPush input final p.1.engine = (status, engine)) (hok : status ≠ .error) :
    odZlibPumpPush sink input final scratch p =
      loop (pumpPass sink final scratch) (fun p => p.1.engine.room) (pumpPass_dec sink hc final)
        ({ p.1 with engine := engine }, p.2) :=
  Eq.trans (InflateApp.odZlibPumpPush_loop hready hc hpush hok) (loop_measure _)

theorem odZlibPumpPush_refused {input : Bytes} {final : Bool} {scratch : Nat} {p : Pump × σ} {engine : Inflate}
    (hready : p.1.error ≠ some .notInitialized) (hc : 0 < scratch)
    (hpush : odZlibStreamPush input final p.1.engine = (.error, engine)) :
    odZlibPumpPush sink input final scratch p =
      (.error, { p.1 with engine := engine, error := some (.message (inflateError engine)) }, p.2) :=
  InflateApp.odZlibPumpPush_refused hready hc hpush

end Portable

section Spec

variable {σ : Type} {sink : Bytes → σ → Bool × σ}

/-- The pump's accounts agree with the inflater's. -/
structure PumpInv (p : Pump) : Prop where
  ready : p.error ≠ some .notInitialized
  initialized : p.engine.initialized = true
  expected : p.expectedOutput = p.engine.expectedOutput
  emitted : p.emittedOutput = p.engine.outputCount
  bound : p.engine.outputCount.toNat ≤ p.engine.expectedOutput.toNat
  done : p.engine.stage = .done → p.engine.outputCount = p.engine.expectedOutput

/-- What a sink keeps true of the bytes it has taken, and what a refusal leaves. -/
structure Sinks (sink : Bytes → σ → Bool × σ) (taken refused : Bytes → σ → Prop) : Prop where
  accept : ∀ {o out q q'}, taken o q → sink out q = (true, q') → taken (o ++ out) q'
  refuse : ∀ {o out q q'}, taken o q → sink out q = (false, q') → refused (o ++ out) q'

/-- Where a push that started from `s` with `o` taken stands when it returns. -/
def PushStop (taken refused : Bytes → σ → Prop) (s : Inflate) (o : Bytes) (final : Bool)
    (status : PumpStatus) (p : Pump × σ) : Prop :=
  match status with
  | .more => final = false ∧ PumpInv p.1 ∧
      ∃ out u, taken (o ++ out) p.2 ∧ Path tick s out u ∧ tick u = .need p.1.engine
  | .done => PumpInv p.1 ∧
      ∃ out u, taken (o ++ out) p.2 ∧ Path tick s out u ∧ tick u = .done ∧
        p.1.engine = { u with stage := .done }
  | .error =>
      ∃ out u, Path tick s out u ∧ (refused (o ++ out) p.2 ∨ taken (o ++ out) p.2 ∧ tick u = .fail)

theorem PushStop.after {taken refused : Bytes → σ → Prop} {s t : Inflate} {o out : Bytes}
    {final : Bool} {status : PumpStatus} {p : Pump × σ} (hp : Path tick s out t)
    (h : PushStop taken refused t (o ++ out) final status p) :
    PushStop taken refused s o final status p := by
  cases status with
  | more =>
    obtain ⟨hf, hi, out', u, ht, hu, hn⟩ := h
    exact ⟨hf, hi, out ++ out', u, by simpa using ht, hp.trans hu, hn⟩
  | done =>
    obtain ⟨hi, out', u, ht, hu, hn⟩ := h
    exact ⟨hi, out ++ out', u, by simpa using ht, hp.trans hu, hn⟩
  | error =>
    obtain ⟨out', u, hu, ht⟩ := h
    exact ⟨out ++ out', u, hp.trans hu, by simpa using ht⟩

theorem Kept.emitted {n : Nat} {s t : Inflate} (hk : Kept n s t)
    (hb : s.outputCount.toNat ≤ s.expectedOutput.toNat) :
    s.outputCount + UInt32.ofNat n = t.outputCount ∧
      t.outputCount.toNat ≤ t.expectedOutput.toNat := by
  have hle : t.outputCount.toNat ≤ t.expectedOutput.toNat := by
    rcases Nat.eq_zero_or_pos n with rfl | hn
    · rw [hk.outputCount, hk.expectedOutput]; exact hb
    · exact hk.room hn
  refine ⟨UInt32.toNat_inj.mp ?_, hle⟩
  have hlt := t.outputCount.toNat_lt
  have hc := hk.outputCount
  simp only [UInt32.toNat_add, UInt32.toNat_ofNat']
  omega

theorem PumpInv.emit {p : Pump} {n : Nat} {t : Inflate} (h : PumpInv p)
    (hk : Kept n p.engine t) (hd : t.stage = .done → t.outputCount = t.expectedOutput) :
    PumpInv { p with engine := t, emittedOutput := p.emittedOutput + UInt32.ofNat n } where
  ready := h.ready
  initialized := hk.initialized.trans h.initialized
  expected := h.expected.trans hk.expectedOutput.symm
  emitted := by
    change p.emittedOutput + UInt32.ofNat n = t.outputCount
    rw [h.emitted]
    exact (hk.emitted h.bound).1
  bound := (hk.emitted h.bound).2
  done := hd

/-- The pump's own bound on the output never trips: the inflater's comes first. -/
theorem PumpInv.room {p : Pump} {out : Bytes} {t : Inflate} (h : PumpInv p)
    (hk : Kept out.length p.engine t) :
    ¬ (p.expectedOutput < p.emittedOutput ∨
      (p.expectedOutput - p.emittedOutput).toNat < out.length) := by
  have hle : p.emittedOutput ≤ p.expectedOutput := by
    rw [h.expected, h.emitted]; exact UInt32.le_iff_toNat_le.mpr h.bound
  have hb := (hk.emitted h.bound).2
  rw [hk.outputCount, hk.expectedOutput] at hb
  rintro (hlt | hlt)
  · exact absurd hle (UInt32.not_le.mpr hlt)
  · rw [UInt32.toNat_sub_of_le _ _ hle, h.expected, h.emitted] at hlt
    omega

/-- What a pass of the pump from `s` with `o` taken comes to. -/
def PumpStep (taken refused : Bytes → σ → Prop) (s : Inflate) (o : Bytes) (final : Bool) :
    PumpIter Inflate σ → Prop
  | .next p => PumpInv p.1 ∧ ∃ out, Path tick s out p.1.engine ∧ taken (o ++ out) p.2
  | .stop (status, p) => PushStop taken refused s o final status p

/-- The inflater waits only for input that may still come. -/
theorem PollStop.notFinal {s t : Inflate} {out : Bytes} (h : PollStop s out .needsInput t) :
    s.rd.inputFinal = false := by
  obtain ⟨u, hu, hn⟩ := h
  have hk := (regular (tick_live (.inr (.inl hn))).2).keeps
  rw [hn] at hk
  rw [← (Path.kept hu).inputFinal, hk.2.1]

/-- The pump's last check never trips: the inflater has counted to the same end. -/
theorem PollStop.settled {s t : Inflate} {out : Bytes} {p : Pump} (h : PollStop s out .done t)
    (hi : PumpInv p) (he : p.engine = t) :
    ¬ (p.emittedOutput ≠ p.expectedOutput ∨ p.engine.outputCount ≠ p.emittedOutput) := by
  obtain ⟨u, -, -, hd⟩ := h
  have hdone := hi.done (by rw [he, hd])
  rw [hi.emitted, hi.expected, hdone]
  simp

theorem pumpStatus_spec {taken refused : Bytes → σ → Prop} {s t : Inflate} {o out : Bytes}
    {final : Bool} {status : ZlibStatus} {p : Pump × σ} (hf : s.rd.inputFinal = final)
    (hp : PollStop s out status t) (hinv : status ≠ .error → PumpInv p.1)
    (he : p.1.engine = t) (ht : taken (o ++ out) p.2) :
    PumpStep taken refused s o final (pumpStatus final status p) := by
  cases status with
  | outputReady => exact ⟨hinv nofun, out, he ▸ hp, ht⟩
  | needsInput =>
    have hfinal := PollStop.notFinal hp
    obtain ⟨u, hu, hn⟩ := hp
    obtain rfl : final = false := hf.symm.trans hfinal
    exact ⟨rfl, hinv nofun, out, u, ht, hu, he ▸ hn⟩
  | done =>
    have hi := hinv nofun
    have hcond := PollStop.settled hp hi he
    obtain ⟨u, hu, hn, hd⟩ := hp
    simp only [pumpStatus, InflateApp.pumpStatus, portable_outputCount, hcond, if_false]
    exact ⟨hi, out, u, ht, hu, hn, he.trans hd⟩
  | error =>
    obtain ⟨u, hu, hn⟩ := hp
    exact ⟨out, u, hu, .inr ⟨ht, hn⟩⟩

theorem PollStop.pumpInv {p : Pump} {out : Bytes} {status : ZlibStatus} {t : Inflate}
    (hi : PumpInv p) (h : PollStop p.engine out status t) (hs : status ≠ .error) :
    PumpInv { p with engine := t, emittedOutput := p.emittedOutput + UInt32.ofNat out.length } := by
  cases status with
  | outputReady =>
    refine hi.emit (Path.kept h) fun hd => ?_
    obtain rfl | hl := Path.live h
    · exact hi.done hd
    · exact absurd hd hl.2
  | needsInput =>
    obtain ⟨u, hu, hn⟩ := h
    have hpath : Path tick p.engine (out ++ []) t := hu.trans (.need hn .refl)
    rw [List.append_nil] at hpath
    exact hi.emit (Path.kept hpath) fun hd => absurd hd (tick_target_live (.inr (.inl hn))).2
  | done =>
    obtain ⟨u, hu, hn, rfl⟩ := h
    have hk := Path.kept hu
    refine hi.emit ⟨hk.initialized, hk.expectedOutput, hk.inputFinal, hk.outputCount, hk.room⟩
      fun _ => ?_
    by_cases hud : u.stage = .done
    · obtain rfl | hl := Path.live hu
      · exact hi.done hud
      · exact absurd hud hl.2
    · have hkeep := (regular hud).keeps
      rw [hn] at hkeep
      exact hkeep.1
  | error => exact absurd rfl hs

theorem PollStop.path {s t : Inflate} {out : Bytes} {status : ZlibStatus}
    (h : PollStop s out status t) : ∃ u, Path tick s out u := by
  cases status with
  | outputReady => exact ⟨t, h⟩
  | needsInput | done | error => obtain ⟨u, hu, -⟩ := h; exact ⟨u, hu⟩

theorem pumpPass_spec {taken refused : Bytes → σ → Prop} (hsink : Sinks sink taken refused)
    (capacity : Nat) {final : Bool} {p : Pump × σ} {o : Bytes} (hi : PumpInv p.1)
    (hf : p.1.engine.rd.inputFinal = final) (ht : taken o p.2) :
    PumpStep taken refused p.1.engine o final (pumpPass sink final capacity p) := by
  obtain ⟨pump, q⟩ := p
  cases hp : odZlibStreamPoll capacity pump.engine with
  | mk status w =>
    obtain ⟨out, t⟩ := w
    obtain ⟨hst, -, hlen⟩ := odZlibStreamPoll_spec hi.initialized hp
    obtain ⟨u, hu⟩ := hst.path
    have hroom := hi.room (Path.kept hu)
    have hcap : ¬ capacity < out.length := by omega
    simp only [pumpPass, InflateApp.pumpPass, portable_poll, hp, hcap, if_false]
    by_cases ho : out = []
    · subst ho
      have hinv : status ≠ .error → PumpInv { pump with engine := t } := fun hs => by
        simpa using PollStop.pumpInv hi hst hs
      simp only [if_true]
      exact pumpStatus_spec hf hst hinv rfl (by simpa using ht)
    · simp only [ho, if_false, hroom]
      cases hs : sink out q with
      | mk b q' =>
        cases b with
        | false => exact ⟨out, u, hu, .inl (hsink.refuse ht hs)⟩
        | true => exact pumpStatus_spec hf hst (PollStop.pumpInv hi hst) rfl (hsink.accept ht hs)

/-- A push follows the machine on the input it is given, with every byte the
machine writes offered to the sink in order. -/
theorem odZlibPumpPush_spec {taken refused : Bytes → σ → Prop} (hsink : Sinks sink taken refused)
    {input o : Bytes} {final : Bool} {scratch : Nat} {p p' : Pump × σ} {status : PumpStatus}
    (hc : 0 < scratch) (hi : PumpInv p.1) (hl : p.1.engine.stage ≠ .done)
    (hin : p.1.engine.rd.input = []) (ht : taken o p.2)
    (h : odZlibPumpPush sink input final scratch p = (status, p')) :
    PushStop taken refused (p.1.engine.feed input final) o final status p' := by
  have hpush : odZlibStreamPush input final p.1.engine =
      (.needsInput, p.1.engine.feed input final) := by
    simp [odZlibStreamPush, hi.initialized, hin, hl, Inflate.feed, BitReader.feed]
  rw [odZlibPumpPush_loop sink hi.ready hc hpush (by decide)] at h
  have hrun := loop_rule (d := pumpPass_dec sink hc final)
    (P := fun (p : Pump × σ) (r : PumpStatus × Pump × σ) => ∀ o, PumpInv p.1 →
      p.1.engine.rd.inputFinal = final → taken o p.2 →
      PushStop taken refused p.1.engine o final r.1 r.2) ?_ ?_
    ({ p.1 with engine := p.1.engine.feed input final }, p.2)
  · rw [h] at hrun
    exact hrun o ⟨hi.ready, hi.initialized, hi.expected, hi.emitted, hi.bound, hi.done⟩ rfl ht
  · intro p r hs o hi hf ht
    have hstep := pumpPass_spec hsink scratch hi hf ht
    rw [hs] at hstep
    exact hstep
  · intro p p' r hn ih o hi hf ht
    have hstep := pumpPass_spec hsink scratch hi hf ht
    rw [hn] at hstep
    obtain ⟨hi', out, hpath, ht'⟩ := hstep
    exact (ih (o ++ out) hi' ((Path.kept hpath).inputFinal.trans hf) ht').after hpath

end Spec

end OpenDisplay
