import OpenDisplay.Xfer.Coupling

/-! The ETag that the panel is said to show, across refreshes and the ends of
partial transfers. -/

namespace OpenDisplay

def refreshes : Event → Bool
  | .refresh _ _ _ _ _ => true
  | _ => false

def admitsPartial : Event → Bool
  | .admitted mode _ _ => partialMode mode
  | _ => false

/-- The ETag after a refresh of `x`, by what the panel answered. -/
def afterRefresh (cmd : Cmd) (x : XferState) (ok completed : Bool) (old : UInt32) : UInt32 :=
  if x.mode = .directPartial then if ok ∧ completed then x.region.newEtag else 0
  else if x.mode = .pipePartial then
    if ok ∧ completed ∧ cmd.hasEtag ∧ cmd.newEtag ≠ 0 then cmd.newEtag else 0
  else if ok then
    if completed then if cmd.hasEtag ∧ cmd.newEtag ≠ 0 then cmd.newEtag else 0
    else if cmd.hasEtag then 0 else old
  -- a refused direct refresh keeps the old ETag even when END brought a new one
  else if x.mode = .pipeFull ∧ cmd.hasEtag then 0 else old

/-- The step has asked for one refresh, of `x`. -/
def Shown (d₀ : Dev) (es : List Event) (x : XferState) (ok completed : Bool) : Prop :=
  (x.mode = d₀.xfer.mode ∧ x.mode ≠ .idle ∧ x.mode ≠ .fatal) ∧ ∃ refreshMode queued es₁ es₂,
    es = es₁ ++ .refresh refreshMode x queued ok completed :: es₂ ∧
    (∀ e ∈ es₁, refreshes e = false) ∧ ∀ e ∈ es₂, refreshes e = false

/-- The ETag of a step that has not asked for a refresh. -/
structure Unshown (cmd : Cmd) (d₀ d : Dev) (es : List Event) : Prop where
  quiet : ∀ e ∈ es, refreshes e = false
  mode : cmd.starts = false → d.xfer.mode = d₀.xfer.mode ∨ odXferOwnsHardware d = false
  kept : cmd.starts = false → partialMode d.xfer.mode = false → odXferOwnsHardware d = true →
    d.displayedEtag = d₀.displayedEtag
  ended : cmd.starts = false → cmd ≠ .reset → partialMode d₀.xfer.mode = true →
    partialMode d.xfer.mode = true ∨ d.displayedEtag = 0
  admitted : (∃ e ∈ es, admitsPartial e = true) →
    partialMode d.xfer.mode = true ∨ d.displayedEtag = 0

def EtagPhase (cmd : Cmd) (d₀ : Dev) (s : Phase × Dev) : Prop :=
  ∃ es, s.2.events = d₀.events ++ es ∧
    match s.1 with
    | .fresh => Unshown cmd d₀ s.2 es ∧ ∀ e ∈ es, admitsPartial e = false
    | .rest | .armed | .broken => Unshown cmd d₀ s.2 es
    | .ready => Unshown cmd d₀ s.2 es ∧ odXferOwnsHardware s.2 = true ∧ cmd.starts = false
    | .refused => odXferOwnsHardware s.2 = true ∧ cmd.starts = false ∧
        (partialMode s.2.xfer.mode = false → s.2.displayedEtag = d₀.displayedEtag) ∧
        ∃ x completed, x.mode = s.2.xfer.mode ∧ Shown d₀ es x false completed
    | .ended => cmd.starts = false ∧ ∃ x ok completed, Shown d₀ es x ok completed ∧
        s.2.displayedEtag = afterRefresh cmd x ok completed d₀.displayedEtag

section Moves

variable {app : App} {cmd : Cmd} {d₀ d d' : Dev} {es es' : List Event}

theorem Unshown.append (h : Unshown cmd d₀ d es) (hm : d'.xfer.mode = d.xfer.mode)
    (he : d'.displayedEtag = d.displayedEtag)
    (hes : ∀ e ∈ es', refreshes e = false ∧ admitsPartial e = false) :
    Unshown cmd d₀ d' (es ++ es') where
  quiet e hmem := by
    rcases List.mem_append.mp hmem with hm | hm
    · exact h.quiet e hm
    · exact (hes e hm).1
  mode hs := by simpa only [odXferOwnsHardware, hm] using h.mode hs
  kept hs hp ho := by
    rw [he]
    exact h.kept hs (by rw [← hm]; exact hp) (by simpa only [odXferOwnsHardware, hm] using ho)
  ended hs hr hp := by
    rw [hm, he]
    exact h.ended hs hr hp
  admitted hadm := by
    rw [hm, he]
    obtain ⟨e, hmem, he⟩ := hadm
    rcases List.mem_append.mp hmem with hm | hm
    · exact h.admitted ⟨e, hm, he⟩
    · exact absurd ((hes e hm).2.symm.trans he) (by simp)

theorem Shown.append {x : XferState} {ok completed : Bool} (h : Shown d₀ es x ok completed)
    (hes : ∀ e ∈ es', refreshes e = false) : Shown d₀ (es ++ es') x ok completed := by
  obtain ⟨hm, m, q, es₁, es₂, rfl, h₁, h₂⟩ := h
  refine ⟨hm, m, q, es₁, es₂ ++ es', by simp, h₁, fun e hmem => ?_⟩
  rcases List.mem_append.mp hmem with hm | hm
  · exact h₂ e hm
  · exact hes e hm

/-- Events that say nothing of refreshes and admissions. -/
def mute (e : Event) : Prop := refreshes e = false ∧ admitsPartial e = false

theorem EtagPhase.append {p : Phase} (h : EtagPhase cmd d₀ (p, d)) (hm : d'.xfer.mode = d.xfer.mode)
    (he : d'.displayedEtag = d.displayedEtag) (es' : List Event) (hev : d'.events = d.events ++ es')
    (hes : ∀ e ∈ es', mute e) : EtagPhase cmd d₀ (p, d') := by
  obtain ⟨es, hev₀, h⟩ := h
  have ho : odXferOwnsHardware d' = odXferOwnsHardware d := by simp only [odXferOwnsHardware, hm]
  have href : ∀ e ∈ es', refreshes e = false := fun e hmem => (hes e hmem).1
  refine ⟨es ++ es', by rw [← List.append_assoc, ← hev₀]; exact hev, ?_⟩
  cases p with
  | fresh =>
    refine ⟨h.1.append hm he hes, fun e hmem => ?_⟩
    rcases List.mem_append.mp hmem with hmem | hmem
    · exact h.2 e hmem
    · exact (hes e hmem).2
  | rest | armed | broken => exact h.append hm he hes
  | ready => exact ⟨h.1.append hm he hes, ho.trans h.2.1, h.2.2⟩
  | refused =>
    obtain ⟨howns, hstart, hkept, x, completed, hx, hs⟩ := h
    refine ⟨ho.trans howns, hstart, fun hp => ?_, x, completed, hx.trans hm.symm, hs.append href⟩
    change d'.displayedEtag = _
    rw [he]
    exact hkept (by rw [← hp]; exact congrArg partialMode hm.symm)
  | ended =>
    obtain ⟨hstart, x, ok, completed, hs, heq⟩ := h
    exact ⟨hstart, x, ok, completed, hs.append href, he.trans heq⟩

theorem quiet_mute {e : Event} (h : quiet e = true) : mute e := by
  cases e <;> first | exact ⟨rfl, rfl⟩ | simp [OpenDisplay.quiet] at h

/-- The transfer ends: a partial one leaves no ETag behind. -/
theorem Unshown.drop (h : Unshown cmd d₀ d es) (ho : odXferOwnsHardware d' = false)
    (hp : partialMode d.xfer.mode = true → d'.displayedEtag = 0)
    (hz : d.displayedEtag = 0 → d'.displayedEtag = 0) (hes : ∀ e ∈ es', mute e) :
    Unshown cmd d₀ d' (es ++ es') where
  quiet e hmem := by
    rcases List.mem_append.mp hmem with hm | hm
    · exact h.quiet e hm
    · exact (hes e hm).1
  mode _ := .inr ho
  kept _ _ ho' := absurd (ho.symm.trans ho') nofun
  ended hs hr hpart := .inr ((h.ended hs hr hpart).elim hp hz)
  admitted hadm := by
    obtain ⟨e, hmem, he⟩ := hadm
    rcases List.mem_append.mp hmem with hm | hm
    · exact .inr ((h.admitted ⟨e, hm, he⟩).elim hp hz)
    · exact absurd ((hes e hm).2.symm.trans he) nofun

/-- A START that replaces a transfer, or a reset, owes nothing to its ETag. -/
theorem Unshown.leave (hes : ∀ e ∈ es, mute e)
    (hcmd : cmd.starts = true ∨ cmd = .reset ∧ odXferOwnsHardware d' = false) :
    Unshown cmd d₀ d' es where
  quiet e hmem := (hes e hmem).1
  mode hs := by
    rcases hcmd with h | ⟨-, ho⟩
    · exact absurd (h.symm.trans hs) nofun
    · exact .inr ho
  kept hs _ ho' := by
    rcases hcmd with h | ⟨-, ho⟩
    · exact absurd (h.symm.trans hs) nofun
    · exact absurd (ho.symm.trans ho') nofun
  ended hs hr _ := by
    rcases hcmd with h | ⟨h, -⟩
    · exact absurd (h.symm.trans hs) nofun
    · exact absurd h hr
  admitted hadm := by
    obtain ⟨e, hmem, he⟩ := hadm
    exact absurd ((hes e hmem).2.symm.trans he) nofun

theorem abortEvents_mute (reason : AbortReason) (owns clear : Bool) :
    ∀ e ∈ (if owns then [Event.abort reason] else []) ++
      (if clear then [Event.setDisplayedEtag 0] else []), mute e := by
  cases owns <;> cases clear <;> simp [mute, refreshes, admitsPartial]

theorem EtagPhase.leave (h : EtagPhase cmd d₀ (.fresh, d)) (reason : AbortReason)
    (hcmd : cmd.starts = true ∨ cmd = .reset) :
    EtagPhase cmd d₀ (.rest, odXferAbortActive reason false d) := by
  obtain ⟨es, hev, hu, hadm⟩ := h
  refine ⟨_, by rw [odXferAbortActive_events, hev, List.append_assoc], .leave (fun e hmem => ?_) ?_⟩
  · rcases List.mem_append.mp hmem with hm | hm
    · exact ⟨hu.quiet e hm, hadm e hm⟩
    · exact abortEvents_mute _ _ _ e hm
  · exact hcmd.imp_right fun h => ⟨h, rfl⟩

theorem Unshown.arm (h : Unshown cmd d₀ d es) (hs : cmd.starts = true) (hi : d.xfer.mode = .idle)
    {mode : Mode} {compressed : Bool} {expected : UInt32} (hm : d'.xfer.mode = mode)
    (he : d'.displayedEtag = d.displayedEtag) :
    Unshown cmd d₀ d' (es ++ [.admitted mode compressed expected]) where
  quiet e hmem := by
    rcases List.mem_append.mp hmem with hm | hm
    · exact h.quiet e hm
    · obtain rfl := List.mem_singleton.mp hm
      rfl
  mode hs' := absurd (hs.symm.trans hs') nofun
  kept hs' := absurd (hs.symm.trans hs') nofun
  ended hs' := absurd (hs.symm.trans hs') nofun
  admitted hadm := by
    obtain ⟨e, hmem, hpart⟩ := hadm
    rcases List.mem_append.mp hmem with hmem | hmem
    · rcases h.admitted ⟨e, hmem, hpart⟩ with hp | hz
      · rw [hi] at hp
        exact absurd hp nofun
      · exact .inr (he.trans hz)
    · obtain rfl := List.mem_singleton.mp hmem
      exact .inl (by rw [hm]; exact hpart)

theorem Unshown.clear (h : Unshown cmd d₀ d es)
    (hc : partialMode d.xfer.mode = true ∨ cmd.starts = true) :
    Unshown cmd d₀ (odXferAppSetDisplayedEtag 0 d) (es ++ [.setDisplayedEtag 0]) where
  quiet e hmem := by
    rcases List.mem_append.mp hmem with hm | hm
    · exact h.quiet e hm
    · obtain rfl := List.mem_singleton.mp hm
      rfl
  mode hs := h.mode hs
  kept hs hp _ := by
    rcases hc with hc | hc
    · exact absurd (hp.symm.trans hc) nofun
    · exact absurd (hc.symm.trans hs) nofun
  ended _ _ _ := .inr rfl
  admitted _ := .inr rfl

theorem EtagPhase.clear {p : Phase} (h : EtagPhase cmd d₀ (p, d)) (hp : p ≠ .ended)
    (hc : partialMode d.xfer.mode = true ∨ cmd.starts = true) :
    EtagPhase cmd d₀ (p, odXferAppSetDisplayedEtag 0 d) := by
  obtain ⟨es, hev, h⟩ := h
  refine ⟨es ++ [.setDisplayedEtag 0], by rw [← List.append_assoc, ← hev]; rfl, ?_⟩
  cases p with
  | fresh =>
    refine ⟨h.1.clear hc, fun e hmem => ?_⟩
    rcases List.mem_append.mp hmem with hmem | hmem
    · exact h.2 e hmem
    · obtain rfl := List.mem_singleton.mp hmem
      rfl
  | rest | armed | broken => exact h.clear hc
  | ready => exact ⟨h.1.clear hc, h.2⟩
  | refused =>
    obtain ⟨howns, hstart, hkept, x, completed, hx, hs⟩ := h
    refine ⟨howns, hstart, fun hp => ?_, x, completed, hx, hs.append (by simp [refreshes])⟩
    rcases hc with hc | hc
    · exact absurd (hp.symm.trans hc) nofun
    · exact absurd (hc.symm.trans hstart) nofun
  | ended => exact absurd rfl hp

theorem EtagPhase.streams {p : Phase} (h : EtagPhase cmd d₀ (p, d)) (hs : Streams d d') :
    EtagPhase cmd d₀ (p, d') := by
  obtain ⟨es, hes, hall⟩ := hs.events
  refine h.append hs.mode hs.etag es hes fun e hmem => ?_
  rcases hall e hmem with ⟨o, b, c, rfl⟩ | ⟨status, rfl⟩ <;> exact ⟨rfl, rfl⟩

theorem EtagPhase.give {p : Phase} (h : EtagPhase cmd d₀ (p, d)) (bytes : Bytes)
    (received : UInt32) : EtagPhase cmd d₀ (p, d.give bytes received) :=
  h.append rfl rfl [.stream bytes] rfl (by simp [mute, refreshes, admitsPartial])

theorem EtagPhase.log {p : Phase} (h : EtagPhase cmd d₀ (p, d)) {e : Event} (he : mute e) :
    EtagPhase cmd d₀ (p, d.log e) :=
  h.append rfl rfl [e] rfl (by simpa using he)

/-- The step's account while it has not asked for a refresh. -/
theorem EtagPhase.unshown {p : Phase} (h : EtagPhase cmd d₀ (p, d)) (hr : p ≠ .refused)
    (ho : p ≠ .ended) : ∃ es, d.events = d₀.events ++ es ∧ Unshown cmd d₀ d es := by
  obtain ⟨es, hev, h⟩ := h
  cases p with
  | fresh | ready => exact ⟨es, hev, h.1⟩
  | rest | armed | broken => exact ⟨es, hev, h⟩
  | refused => exact absurd rfl hr
  | ended => exact absurd rfl ho

theorem EtagPhase.abandon {p : Phase} (h : EtagPhase cmd d₀ (p, d)) (hr : p ≠ .refused)
    (ho : p ≠ .ended) (reason : AbortReason) {clear : Bool}
    (hc : partialMode d.xfer.mode = true → clear = true ∨ d.displayedEtag = 0) :
    EtagPhase cmd d₀ (.rest, odXferAbortActive reason clear d) := by
  obtain ⟨es, hev, hu⟩ := h.unshown hr ho
  have hz : d.displayedEtag = 0 → (odXferAbortActive reason clear d).displayedEtag = 0 := by
    intro hz
    rw [odXferAbortActive_etag, hz, ite_self]
  refine ⟨_, by rw [odXferAbortActive_events, hev, List.append_assoc],
    hu.drop rfl (fun hp => ?_) hz (abortEvents_mute reason _ clear)⟩
  rcases hc hp with hcl | hzero
  · rw [odXferAbortActive_etag, hcl]
    rfl
  · exact hz hzero

theorem EtagPhase.enterFatal {p : Phase} (h : EtagPhase cmd d₀ (p, d)) (hr : p ≠ .refused)
    (ho : p ≠ .ended) (hm : pipeMode d.xfer.mode = true) :
    EtagPhase cmd d₀ (.rest, odXferPipeEnterFatal d) := by
  obtain ⟨es, hev, hu⟩ := h.unshown hr ho
  rw [odXferPipeEnterFatal_eq hm]
  refine ⟨_, by rw [hev, List.append_assoc], hu.drop rfl (fun hp => ?_) (fun hz => ?_) ?_⟩
  · rw [pipeMode_of_partialMode hm, decide_eq_true_eq] at hp
    rw [if_pos hp]
  · rw [hz, ite_self]
  · intro e hmem
    rcases List.mem_cons.mp hmem with rfl | hmem
    · exact ⟨rfl, rfl⟩
    · split_ifs at hmem
      · obtain rfl := List.mem_singleton.mp hmem
        exact ⟨rfl, rfl⟩
      · exact absurd hmem (by simp)

theorem settleEtag_etag (cmd : Cmd) (completed : Bool) (d : Dev) (ho : odXferOwnsHardware d = true) :
    (settleEtag cmd completed d).displayedEtag =
      afterRefresh cmd d.xfer true completed d.displayedEtag := by
  simp only [odXferOwnsHardware, decide_eq_true_eq] at ho
  unfold settleEtag afterRefresh pipeEtag finishEtag
  cases hm : d.xfer.mode <;> simp [hm] at ho ⊢ <;> split_ifs <;> rfl

theorem afterRefresh_old {x : XferState} {a b : UInt32} (h : partialMode x.mode = false → a = b)
    (cmd : Cmd) (ok completed : Bool) :
    afterRefresh cmd x ok completed a = afterRefresh cmd x ok completed b := by
  cases hp : partialMode x.mode with
  | false => rw [h hp]
  | true =>
    simp only [partialMode, decide_eq_true_eq] at hp
    rcases hp with hp | hp <;> simp [afterRefresh, hp]

theorem EtagPhase.shown (h : EtagPhase cmd d₀ (.ready, d)) (refreshMode : UInt8)
    (ok completed : Bool) : ∃ es, (d.log (.refresh refreshMode d.xfer d.pipe.queuedCount ok
      completed)).events = d₀.events ++ es ∧ Shown d₀ es d.xfer ok completed := by
  obtain ⟨es, hev, hu, ho, hs⟩ := h
  have hm : d.xfer.mode = d₀.xfer.mode := by
    rcases hu.mode hs with hm | hno
    · exact hm
    · exact absurd (hno.symm.trans ho) nofun
  simp only [odXferOwnsHardware, decide_eq_true_eq] at ho
  refine ⟨es ++ [.refresh refreshMode d.xfer d.pipe.queuedCount ok completed], ?_, ⟨hm, ho⟩,
    refreshMode, d.pipe.queuedCount, es, [], rfl, hu.quiet, by simp⟩
  rw [← List.append_assoc, ← hev]
  rfl

theorem EtagPhase.refreshed (h : EtagPhase cmd d₀ (.ready, d)) (refreshMode : UInt8)
    (completed : Bool) : EtagPhase cmd d₀ (.ended, odXferClearState (settleEtag cmd completed
      (d.log (.refresh refreshMode d.xfer d.pipe.queuedCount true completed)))) := by
  obtain ⟨es, hev, hs⟩ := h.shown refreshMode true completed
  obtain ⟨es₀, -, hu, ho, hstart⟩ := h
  have hetag := settleEtag_etag cmd completed
    (d.log (.refresh refreshMode d.xfer d.pipe.queuedCount true completed)) ho
  have hold := afterRefresh_old (fun hp => hu.kept hstart hp ho) cmd true completed
  rcases settleEtag_events cmd completed
    (d.log (.refresh refreshMode d.xfer d.pipe.queuedCount true completed)) with he | ⟨etag, he⟩
  · exact ⟨es, he.trans hev, hstart, d.xfer, true, completed, hs, hetag.trans hold⟩
  · refine ⟨es ++ [.setDisplayedEtag etag], ?_, hstart, d.xfer, true, completed,
      hs.append (by simp [refreshes]), hetag.trans hold⟩
    rw [← List.append_assoc, ← hev]
    exact he

theorem EtagPhase.dropped (h : EtagPhase cmd d₀ (.refused, d)) (reason : AbortReason) {clear : Bool}
    (hc : dropsEtag cmd d clear) : EtagPhase cmd d₀ (.ended, odXferAbortActive reason clear d) := by
  obtain ⟨es, hev, ho, hstart, hkept, x, completed, hx, hs⟩ := h
  refine ⟨_, by rw [odXferAbortActive_events, hev, List.append_assoc], hstart, x, false, completed,
    hs.append fun e hmem => (abortEvents_mute reason _ clear e hmem).1, ?_⟩
  dsimp only at hx hkept ho
  rw [odXferAbortActive_etag]
  unfold dropsEtag at hc
  rw [← hx] at hc hkept
  simp only [odXferOwnsHardware, ← hx, decide_eq_true_eq] at ho
  cases hm : x.mode with
  | idle => exact absurd hm ho.1
  | fatal => exact absurd hm ho.2
  | directFull =>
    simp only [hm] at hc
    rw [hc, hkept (by rw [hm]; rfl)]
    simp [afterRefresh, hm]
  | pipeFull =>
    simp only [hm] at hc
    rw [hc, hkept (by rw [hm]; rfl)]
    simp [afterRefresh, hm]
  | directPartial | pipePartial =>
    simp only [hm] at hc
    rcases hc with hc | hc <;> simp [afterRefresh, hm, hc]

theorem Move.etag {s t : Phase × Dev} (hm : Move app cmd s t) (h : EtagPhase cmd d₀ s) :
    EtagPhase cmd d₀ t := by
  cases hm with
  | enter =>
    obtain ⟨es, hev, h⟩ := h
    exact ⟨es, hev, h.1⟩
  | @replace d hs =>
    rw [odXferReplaceActive_eq]
    split_ifs
    · exact h.leave _ (.inl hs)
    · obtain ⟨es, hev, h⟩ := h
      exact ⟨es, hev, h.1⟩
  | reset hr => exact h.leave _ (.inr hr)
  | note hq => exact h.log (quiet_mute hq)
  | clearEtag hp hc => exact h.clear hp hc
  | @arm d x p pump hs ha =>
    obtain ⟨es, hev, h⟩ := h
    refine ⟨es ++ [.admitted x.mode x.compressed x.expectedBytes], ?_, ?_⟩
    · rw [← List.append_assoc, ← hev]
      rfl
    · show Unshown cmd d₀ (Dev.log _ _) _
      exact h.arm hs ha.idle rfl rfl
  | begun he _ =>
    rcases he with rfl | rfl
    · exact h.log (e := .beginFull true) ⟨rfl, rfl⟩
    · exact h.log (e := .beginPartial true) ⟨rfl, rfl⟩
  | beginFailed he =>
    rcases he with rfl | rfl
    · exact h.log (e := .beginFull false) ⟨rfl, rfl⟩
    · exact h.log (e := .beginPartial false) ⟨rfl, rfl⟩
  | unacked _ _ => exact h.log (e := .reply _ _ _) ⟨rfl, rfl⟩
  | fed _ hf => exact (h.give _ _).streams hf.streams
  | spoiled _ hf => exact (h.give _ _).streams hf.streams
  | book _ hb _ =>
    rcases hb.events with he | ⟨e, he, rfl | ⟨n, rfl⟩⟩
    · exact h.append (by rw [hb.xfer]) hb.etag [] (by simpa using he) (by simp)
    · exact h.append (by rw [hb.xfer]) hb.etag _ he (by simp [mute, refreshes, admitsPartial])
    · exact h.append (by rw [hb.xfer]) hb.etag _ he (by simp [mute, refreshes, admitsPartial])
  | abandon hp hc =>
    exact h.abandon (by rcases hp with rfl | rfl | rfl <;> nofun)
      (by rcases hp with rfl | rfl | rfl <;> nofun) _ hc
  | fatal hp hm =>
    exact h.enterFatal (by rcases hp with rfl | rfl <;> nofun)
      (by rcases hp with rfl | rfl <;> nofun) hm
  | complete hs ho _ =>
    obtain ⟨es, hev, h⟩ := h
    exact ⟨es, hev, h, ho, hs⟩
  | @inflated d d' hs ho _ _ hr =>
    have hst := odXferStreamPush_streams app [] true d
    rw [hr] at hst
    obtain ⟨es, hev, h⟩ := h
    have hready : EtagPhase cmd d₀ (.ready, d) := ⟨es, hev, h, ho, hs⟩
    exact hready.streams hst
  | @finalFailed d d' r _ _ hr _ =>
    have hst := odXferStreamPush_streams app [] true d
    rw [hr] at hst
    exact EtagPhase.streams (p := .broken) h hst
  | stamp _ => exact h.append rfl rfl [] (by simp [markFinalized]) (by simp)
  | @barrier d he =>
    obtain ⟨es, hev, hu⟩ := h.unshown nofun nofun
    have hb : ∀ e ∈ [Event.barrierAbort d.xfer.owner], mute e := by
      simp [mute, refreshes, admitsPartial]
    refine ⟨_, ?_, hu.drop rfl he id hb⟩
    rw [← List.append_assoc, ← hev]
    rfl
  | refreshed _ _ => exact h.refreshed _ _
  | @unshown d refreshMode completed =>
    obtain ⟨es, hev, hs⟩ := h.shown refreshMode false completed
    obtain ⟨es₀, -, hu, ho, hstart⟩ := h
    exact ⟨es, hev, ho, hstart, fun hp => hu.kept hstart hp ho, d.xfer, completed, rfl, hs⟩
  | dropped _ _ hc => exact h.dropped _ hc

end Moves

section Steps

/-- What a command adds to the log. -/
def logged (app : App) (cmd : Cmd) (d : Dev) : List Event :=
  (step app cmd d).events.drop d.events.length

theorem step_etag (app : App) (cmd : Cmd) {d : Dev} (hc : Coupled d) :
    Unshown cmd d (step app cmd d) (logged app cmd d) ∨ cmd.starts = false ∧
      ∃ x ok completed, Shown d (logged app cmd d) x ok completed ∧
        (step app cmd d).displayedEtag = afterRefresh cmd x ok completed d.displayedEtag := by
  have h0 : EtagPhase cmd d (.fresh, d) :=
    ⟨[], by simp, ⟨by simp, fun _ => .inl rfl, fun _ _ _ => rfl, fun _ _ h => .inl h, by simp⟩,
      by simp⟩
  obtain ⟨p, hp, hm⟩ := step_moves app cmd hc
  obtain ⟨es, hev, h⟩ := hm.rule Move.etag h0
  have hes : logged app cmd d = es := by
    unfold logged
    rw [hev, List.drop_left]
  rw [hes]
  rcases hp with rfl | rfl | rfl
  · exact .inl h.1
  · exact .inl h
  · exact .inr h

theorem Shown.unique {d₀ : Dev} {es : List Event} {x x' : XferState}
    {ok ok' completed completed' : Bool} {refreshMode : UInt8} {queued : UInt16}
    (h : Shown d₀ es x ok completed)
    (hmem : Event.refresh refreshMode x' queued ok' completed' ∈ es) :
    x' = x ∧ ok' = ok ∧ completed' = completed := by
  obtain ⟨-, m, q, es₁, es₂, rfl, h₁, h₂⟩ := h
  rcases List.mem_append.mp hmem with hm | hm
  · exact absurd (h₁ _ hm) nofun
  · rcases List.mem_cons.mp hm with heq | hm
    · cases heq
      exact ⟨rfl, rfl, rfl⟩
    · exact absurd (h₂ _ hm) nofun

theorem Shown.mem {d₀ : Dev} {es : List Event} {x : XferState} {ok completed : Bool}
    (h : Shown d₀ es x ok completed) :
    ∃ refreshMode queued, Event.refresh refreshMode x queued ok completed ∈ es := by
  obtain ⟨-, m, q, es₁, es₂, rfl, -, -⟩ := h
  exact ⟨m, q, by simp⟩

/-- The ETag that a transfer brings for the image it shows. -/
def suppliedEtag (cmd : Cmd) (x : XferState) : UInt32 :=
  if x.mode = .directPartial then x.region.newEtag else cmd.newEtag

/-- A refresh in the step that must not leave the previous ETag does not: it
leaves none, or the one supplied when the refresh completed. -/
def EtagSettled (cmd : Cmd) (es : List Event) (etag : UInt32) : Prop :=
  ∀ refreshMode x queued ok completed, Event.refresh refreshMode x queued ok completed ∈ es →
    partialMode x.mode = true ∨ cmd.hasEtag = true ∨ ok = true ∧ completed = true →
    etag = 0 ∨ ok = true ∧ completed = true ∧ etag = suppliedEtag cmd x

def refused (es : List Event) : Prop :=
  ∃ refreshMode x queued completed, Event.refresh refreshMode x queued false completed ∈ es

theorem afterRefresh_settled (cmd : Cmd) {x : XferState} (hx : x.mode ≠ .idle ∧ x.mode ≠ .fatal)
    (ok completed : Bool) (old : UInt32) :
    (partialMode x.mode = true ∨ cmd.hasEtag = true ∨ ok = true ∧ completed = true →
      afterRefresh cmd x ok completed old = 0 ∨ ok = true ∧ completed = true ∧
        afterRefresh cmd x ok completed old = suppliedEtag cmd x) ↔
      ¬ (x.mode = .directFull ∧ cmd.hasEtag = true ∧ old ≠ 0 ∧ ok = false) := by
  unfold afterRefresh suppliedEtag
  cases hm : x.mode <;> simp only [hm, ne_eq, not_true_eq_false, false_and, and_false] at hx <;>
    cases ok <;> cases completed <;> cases he : cmd.hasEtag <;>
    by_cases hz : cmd.newEtag = 0 <;> simp [partialMode, hz]

theorem settled_iff (app : App) (cmd : Cmd) {d : Dev} (hc : Coupled d) :
    EtagSettled cmd (logged app cmd d) (step app cmd d).displayedEtag ↔
      ¬ (d.xfer.mode = .directFull ∧ cmd.hasEtag = true ∧ d.displayedEtag ≠ 0 ∧
        refused (logged app cmd d)) := by
  rcases step_etag app cmd hc with hu | ⟨-, x, ok, completed, hs, hetag⟩
  · refine ⟨fun _ => ?_, fun _ m x q ok completed hmem => ?_⟩
    · rintro ⟨-, -, -, m, x, q, completed, hmem⟩
      exact absurd (hu.quiet _ hmem) nofun
    · exact absurd (hu.quiet _ hmem) nofun
  · obtain ⟨m, q, hmem⟩ := hs.mem
    have hiff := afterRefresh_settled cmd hs.1.2 ok completed d.displayedEtag
    have hset : EtagSettled cmd (logged app cmd d) (step app cmd d).displayedEtag ↔
        (partialMode x.mode = true ∨ cmd.hasEtag = true ∨ ok = true ∧ completed = true →
          (step app cmd d).displayedEtag = 0 ∨ ok = true ∧ completed = true ∧
            (step app cmd d).displayedEtag = suppliedEtag cmd x) := by
      refine ⟨fun h => h m x q ok completed hmem, fun h m' x' q' ok' completed' hmem' => ?_⟩
      obtain ⟨rfl, rfl, rfl⟩ := hs.unique hmem'
      exact h
    have href : refused (logged app cmd d) ↔ ok = false := by
      refine ⟨?_, fun h => ⟨m, x, q, completed, h ▸ hmem⟩⟩
      rintro ⟨m', x', q', completed', hmem'⟩
      exact (hs.unique hmem').2.1.symm
    rw [hset, hetag, hiff, hs.1.1, href]

/-- The ETag after a full image depends on the path only when a refresh that
brought an ETag is refused. -/
theorem afterRefresh_full (cmd cmd' : Cmd) (hetag : cmd.newEtag = cmd'.newEtag)
    (hhas : cmd.hasEtag = cmd'.hasEtag) {x x' : XferState} (hx : x.mode = .directFull)
    (hx' : x'.mode = .pipeFull) (ok completed : Bool) (old : UInt32) :
    afterRefresh cmd x ok completed old = afterRefresh cmd' x' ok completed old ↔
      ¬ (cmd.hasEtag = true ∧ ok = false ∧ old ≠ 0) := by
  unfold afterRefresh
  rw [hetag, hhas, hx, hx']
  cases ok <;> cases completed <;> cases cmd'.hasEtag <;> simp

theorem afterRefresh_partial (cmd : Cmd) {x : XferState} (hx : partialMode x.mode = true)
    {ok completed : Bool} (hne : ¬ (ok = true ∧ completed = true)) (old : UInt32) :
    afterRefresh cmd x ok completed old = 0 := by
  simp only [partialMode, decide_eq_true_eq] at hx
  rcases hx with hx | hx
  · simp [afterRefresh, hx, hne]
  · have hno : ¬ (ok = true ∧ completed = true ∧ cmd.hasEtag = true ∧ cmd.newEtag ≠ 0) :=
      fun h => hne ⟨h.1, h.2.1⟩
    simp only [afterRefresh, hx, reduceCtorEq, if_false, if_true, if_neg hno]

theorem step_shown {app : App} {cmd : Cmd} {d : Dev} (hc : Coupled d) {refreshMode : UInt8}
    {x : XferState} {queued : UInt16} {ok completed : Bool}
    (hmem : Event.refresh refreshMode x queued ok completed ∈ logged app cmd d) :
    x.mode = d.xfer.mode ∧
      (step app cmd d).displayedEtag = afterRefresh cmd x ok completed d.displayedEtag := by
  rcases step_etag app cmd hc with hu | ⟨-, x', ok', completed', hs, hetag⟩
  · exact absurd (hu.quiet _ hmem) nofun
  · obtain ⟨rfl, rfl, rfl⟩ := hs.unique hmem
    exact ⟨hs.1.1, hetag⟩

/-- In every reachable state: a step leaves the ETag its refresh calls for
unless a direct full END with an ETag is refused while one is displayed; direct
and PIPE full ENDs differ in that case alone; and a partial transfer that ends
otherwise than by a completed refresh, a START or a reset leaves no ETag. -/
theorem etag_after_step (d : Dev) (h : Reachable d) :
    (∀ app cmd, EtagSettled cmd (logged app cmd d) (step app cmd d).displayedEtag ↔
      ¬ (d.xfer.mode = .directFull ∧ cmd.hasEtag = true ∧ d.displayedEtag ≠ 0 ∧
        refused (logged app cmd d))) ∧
    (∀ d', Reachable d' → d.xfer.mode = .directFull → d'.xfer.mode = .pipeFull →
      d'.displayedEtag = d.displayedEtag →
      ∀ app ctx app' ctx' body m m' x x' q q' ok completed,
        Event.refresh m x q ok completed ∈ logged app (.finish ctx body) d →
        Event.refresh m' x' q' ok completed ∈ logged app' (.pipeEnd ctx' body) d' →
        ((step app (.finish ctx body) d).displayedEtag =
            (step app' (.pipeEnd ctx' body) d').displayedEtag ↔
          ¬ (5 ≤ body.length ∧ ok = false ∧ d.displayedEtag ≠ 0))) ∧
    (∀ app cmd, cmd.starts = false → cmd ≠ .reset → partialMode d.xfer.mode = true →
      partialMode (step app cmd d).xfer.mode = false →
      (∀ m x q, Event.refresh m x q true true ∉ logged app cmd d) →
      (step app cmd d).displayedEtag = 0) ∧
    (∀ app cmd, cmd.starts = true → (∃ e ∈ logged app cmd d, admitsPartial e = true) →
      partialMode (step app cmd d).xfer.mode = false → (step app cmd d).displayedEtag = 0) := by
  have hc := h.coupled
  refine ⟨fun app cmd => settled_iff app cmd hc, ?_, ?_, ?_⟩
  · intro d' h' hm hm' he app ctx app' ctx' body m m' x x' q q' ok completed hmem hmem'
    obtain ⟨hx, hetag⟩ := step_shown hc hmem
    obtain ⟨hx', hetag'⟩ := step_shown h'.coupled hmem'
    have hfull := afterRefresh_full (.finish ctx body) (.pipeEnd ctx' body) rfl rfl
      (hx.trans hm) (hx'.trans hm') ok completed d.displayedEtag
    have hhas : (Cmd.finish ctx body).hasEtag = true ↔ 5 ≤ body.length := decide_eq_true_iff
    rw [hetag, hetag', he, hfull, hhas]
  · intro app cmd hs hr hpart hend hno
    rcases step_etag app cmd hc with hu | ⟨-, x, ok, completed, hs', hetag⟩
    · rcases hu.ended hs hr hpart with hp | hz
      · exact absurd (hp.symm.trans hend) nofun
      · exact hz
    · obtain ⟨m, q, hmem⟩ := hs'.mem
      have hne : ¬ (ok = true ∧ completed = true) := by
        rintro ⟨rfl, rfl⟩
        exact hno m x q hmem
      rw [hetag]
      rw [← hs'.1.1] at hpart
      exact afterRefresh_partial cmd hpart hne d.displayedEtag
  · intro app cmd hs hadm hend
    rcases step_etag app cmd hc with hu | ⟨hs', -⟩
    · rcases hu.admitted hadm with hp | hz
      · exact absurd (hp.symm.trans hend) nofun
      · exact hz
    · exact absurd (hs.symm.trans hs') nofun

/-- A direct full END that brings an ETag, refused while another is displayed. -/
theorem etag_survives_refusal :
    ∃ app cmd d, Reachable d ∧ cmd.hasEtag = true ∧ d.displayedEtag = 7 ∧
      (∃ m x q, Event.refresh m x q false false ∈ logged app cmd d) ∧
      (step app cmd d).displayedEtag = 7 ∧
      ¬ EtagSettled cmd (logged app cmd d) (step app cmd d).displayedEtag := by
  let app : App := { App.willing with refresh := fun _ _ => (false, false) }
  let cmd : Cmd := .finish .ble [0, 0, 0, 0, 9]
  let d := run [(.willing, .directStart .ble [])] (Dev.boot 7)
  have hmem : Event.refresh 0 { d.xfer with finalized := true } 0 false false ∈ logged app cmd d := by
    decide +kernel
  have hetag : (step app cmd d).displayedEtag = 7 := by decide +kernel
  refine ⟨app, cmd, d, ⟨7, _, rfl⟩, by decide, by decide +kernel, ⟨_, _, _, hmem⟩, hetag, fun h => ?_⟩
  rcases h _ _ _ _ _ hmem (.inr (.inl (by decide))) with hz | ⟨hok, -⟩
  · exact absurd (hetag.symm.trans hz) (by decide)
  · exact absurd hok nofun

/-- A direct full END that brings an ETag and is shown. -/
theorem etag_after_step_shown :
    let d := run [(.willing, .directStart .ble [])] (Dev.boot 7)
    (step .willing (.finish .ble [0, 0, 0, 0, 9]) d).displayedEtag = 9 ∧
      EtagSettled (.finish .ble [0, 0, 0, 0, 9]) (logged .willing (.finish .ble [0, 0, 0, 0, 9]) d)
        (step .willing (.finish .ble [0, 0, 0, 0, 9]) d).displayedEtag := by
  intro d
  have hall : ((logged .willing (.finish .ble [0, 0, 0, 0, 9]) d).all fun e => match e with
      | .refresh _ _ _ ok _ => ok
      | _ => true) = true := by decide +kernel
  refine ⟨by decide +kernel, ((etag_after_step d ⟨7, _, rfl⟩).1 _ _).mpr ?_⟩
  rintro ⟨-, -, -, m, x, q, completed, hmem⟩
  exact absurd (List.all_eq_true.mp hall _ hmem) nofun

end Steps

end OpenDisplay
