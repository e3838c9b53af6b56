import OpenDisplay.Lib.Trace
import OpenDisplay.Xfer.Coupling

/-! The panel's hardware between a begin and its release. -/

namespace OpenDisplay

open Traces

def isBegin : Event → Bool
  | .beginFull _ | .beginPartial _ => true
  | _ => false

/-- The calls that hand the panel's hardware back. -/
def releases : Event → Bool
  | .abort _ | .barrierAbort _ => true
  | .refresh _ _ _ ok _ => ok
  | _ => false

/-- A PIPE START whose acknowledgement cannot be sent. -/
def ackFailed : Event → Bool
  | .reply _ frame status => isStartAck frame && status ≠ .ok
  | _ => false

/-- The account of the hardware since the last begin. -/
structure Hold where
  begun : Nat := 0
  released : Nat := 0
  unacked : Nat := 0

def Hold.add (h : Hold) (e : Event) : Hold :=
  if isBegin e then { begun := 1 }
  else { h with
    released := h.released + (releases e).toNat, unacked := h.unacked + (ackFailed e).toNat }

def hold (es : List Event) : Hold := es.foldl Hold.add {}

def Hold.Settled (h : Hold) : Prop := h.released = h.begun + h.unacked

/-- One release is due. -/
def Hold.Owed (h : Hold) : Prop := h.released + 1 = h.begun + h.unacked

theorem hold_concat (es : List Event) (e : Event) : hold (es ++ [e]) = (hold es).add e := by
  simp [hold]

/-- No begin is called while a release is due. -/
def BeginsSettled (es : List Event) : Prop :=
  Always (fun pre e => isBegin e = true → (hold pre).Settled) es

section Neutral

/-- Events that the account does not see. -/
def neutral (e : Event) : Bool := !isBegin e && !releases e && !ackFailed e

theorem Hold.add_neutral (h : Hold) {e : Event} (he : neutral e = true) : h.add e = h := by
  simp only [neutral, Bool.and_eq_true, Bool.not_eq_true'] at he
  simp [Hold.add, he]

theorem quiet_neutral {e : Event} (he : quiet e = true) : neutral e = true := by
  cases e with
  | reply rp frame status =>
    simp only [quiet, Bool.or_eq_true, Bool.not_eq_true', decide_eq_true_eq] at he
    rcases he with he | he <;> simp [neutral, isBegin, releases, ackFailed, he]
  | _ => first | rfl | simp [quiet] at he

theorem hold_neutral (es : List Event) {es' : List Event} (h : ∀ e ∈ es', neutral e = true) :
    hold (es ++ es') = hold es ∧ (BeginsSettled es → BeginsSettled (es ++ es')) := by
  induction es' using List.reverseRecOn with
  | nil => simp
  | append_singleton es' e ih =>
    obtain ⟨hh, hb⟩ := ih fun e he => h e (by simp [he])
    have hn := h e (by simp)
    rw [← List.append_assoc, hold_concat, Hold.add_neutral _ hn]
    refine ⟨hh, fun hes => always_concat.mpr ⟨hb hes, fun hbegin => ?_⟩⟩
    simp [neutral, hbegin] at hn

end Neutral

/-- The account that each phase keeps. -/
def HoldPhase (p : Phase) (d : Dev) : Prop :=
  match p with
  | .fresh | .rest =>
    if odXferOwnsHardware d then hold d.events = { begun := 1 } else (hold d.events).Settled
  | .armed => odXferOwnsHardware d = true ∧ (hold d.events).Settled
  | .ready => odXferOwnsHardware d = true ∧ hold d.events = { begun := 1 }
  | .broken | .refused => odXferOwnsHardware d = true ∧ (hold d.events).Owed
  | .ended => odXferOwnsHardware d = false ∧ (hold d.events).Settled

/-- The account's invariant. -/
def Held (s : Phase × Dev) : Prop := BeginsSettled s.2.events ∧ HoldPhase s.1 s.2

section Moves

variable {app : App} {cmd : Cmd} {p : Phase} {d d' : Dev}

theorem Held.neutral (h : Held (p, d)) (es : List Event) (he : d'.events = d.events ++ es)
    (hn : ∀ e ∈ es, neutral e = true) (ho : odXferOwnsHardware d' = odXferOwnsHardware d) :
    Held (p, d') := by
  obtain ⟨hb, hp⟩ := h
  obtain ⟨hhold, hbegins⟩ := hold_neutral d.events hn
  have hev : hold d'.events = hold d.events := by rw [he, hhold]
  refine ⟨by change BeginsSettled d'.events; rw [he]; exact hbegins hb, ?_⟩
  dsimp only at hp ⊢
  unfold HoldPhase at hp ⊢
  rw [hev, ho]
  exact hp

/-- What an abort finds: a release is due exactly while the hardware is owned. -/
theorem Held.due (h : Held (p, d)) (hp : p ≠ .armed) :
    if odXferOwnsHardware d then (hold d.events).Owed else (hold d.events).Settled := by
  obtain ⟨-, hp'⟩ := h
  cases p with
  | armed => exact absurd rfl hp
  | fresh | rest =>
    simp only [HoldPhase] at hp'
    split_ifs at hp' ⊢
    · rw [hp']; rfl
    · exact hp'
  | ready =>
    obtain ⟨ho, hh⟩ := hp'
    rw [if_pos ho, hh]
    rfl
  | broken | refused => rw [if_pos hp'.1]; exact hp'.2
  | ended => rw [if_neg (by simp [hp'.1])]; exact hp'.2

theorem Hold.Owed.release {h : Hold} (ho : h.Owed) {e : Event} (hb : isBegin e = false)
    (hr : releases e = true) (ha : ackFailed e = false) : (h.add e).Settled := by
  simp only [Hold.Owed, Hold.Settled, Hold.add, hb, hr, ha, Bool.toNat_true, Bool.toNat_false,
    Bool.false_eq_true, if_false] at ho ⊢
  omega

theorem BeginsSettled.concat {es : List Event} {e : Event} (h : BeginsSettled es)
    (he : isBegin e = false) : BeginsSettled (es ++ [e]) :=
  always_concat.mpr ⟨h, fun hb => absurd (he.symm.trans hb) nofun⟩

theorem Held.settled (hp : p = .rest ∨ p = .ended) (ho : odXferOwnsHardware d = false)
    (hb : BeginsSettled d.events) (hs : (hold d.events).Settled) : Held (p, d) := by
  rcases hp with rfl | rfl
  · exact ⟨hb, by simpa [HoldPhase, ho] using hs⟩
  · exact ⟨hb, ho, hs⟩

theorem Held.abort (h : Held (p, d)) (hp : p ≠ .armed) {q : Phase} (hq : q = .rest ∨ q = .ended)
    (reason : AbortReason) (clear : Bool) : Held (q, odXferAbortActive reason clear d) := by
  have hdue := h.due hp
  have hev := odXferAbortActive_events reason clear d
  have hown : odXferOwnsHardware (odXferAbortActive reason clear d) = false := rfl
  have hafter : BeginsSettled (d.events ++ if odXferOwnsHardware d then [.abort reason] else []) ∧
      (hold (d.events ++ if odXferOwnsHardware d then [.abort reason] else [])).Settled := by
    split_ifs at hdue ⊢
    · rw [hold_concat]
      exact ⟨h.1.concat rfl, hdue.release rfl rfl rfl⟩
    · rw [List.append_nil]
      exact ⟨h.1, hdue⟩
  have hn : ∀ e ∈ (if clear then [Event.setDisplayedEtag 0] else []), OpenDisplay.neutral e = true := by
    cases clear <;> simp [OpenDisplay.neutral, isBegin, releases, ackFailed]
  rw [← List.append_assoc] at hev
  obtain ⟨hhold, hbegins⟩ :=
    hold_neutral (d.events ++ if odXferOwnsHardware d then [.abort reason] else []) hn
  refine .settled hq hown ?_ ?_
  · rw [hev]
    exact hbegins hafter.1
  · rw [hev, hhold]
    exact hafter.2

theorem Held.enterFatal (h : Held (p, d)) (hp : p ≠ .armed) (hm : pipeMode d.xfer.mode = true) :
    Held (.rest, odXferPipeEnterFatal d) := by
  have hdue := h.due hp
  rw [if_pos (pipeMode_owns hm)] at hdue
  have ha : Held (.rest, { d with
      xfer := { d.xfer with mode := .fatal }, events := d.events ++ [.abort .streamFailed] }) := by
    refine .settled (.inl rfl) rfl (h.1.concat rfl) ?_
    rw [hold_concat]
    exact hdue.release rfl rfl rfl
  rw [odXferPipeEnterFatal_eq hm]
  refine ha.neutral (if d.xfer.mode = .pipePartial then [.setDisplayedEtag 0] else []) ?_ ?_ rfl
  · simp
  · intro e he
    split_ifs at he
    · obtain rfl := List.mem_singleton.mp he
      rfl
    · exact absurd he (by simp)

theorem Streams.owns (hs : Streams d d') : odXferOwnsHardware d' = odXferOwnsHardware d := by
  simp only [odXferOwnsHardware, hs.mode]

theorem Streams.neutral (hs : Streams d d') :
    ∃ es, d'.events = d.events ++ es ∧ ∀ e ∈ es, neutral e = true := by
  obtain ⟨es, hes, hall⟩ := hs.events
  refine ⟨es, hes, fun e he => ?_⟩
  rcases hall e he with ⟨o, b, c, rfl⟩ | ⟨status, rfl⟩ <;> rfl

theorem Held.streams (h : Held (p, d)) (hs : Streams d d') : Held (p, d') := by
  obtain ⟨es, hes, hn⟩ := hs.neutral
  exact h.neutral es hes hn hs.owns

theorem Held.log (h : Held (p, d)) {e : Event} (hn : OpenDisplay.neutral e = true) :
    Held (p, d.log e) := by
  refine h.neutral [e] rfl ?_ rfl
  intro e' he
  obtain rfl := List.mem_singleton.mp he
  exact hn

theorem Held.setEtag (h : Held (p, d)) (etag : UInt32) :
    Held (p, odXferAppSetDisplayedEtag etag d) :=
  h.neutral [.setDisplayedEtag etag] rfl (by simp [OpenDisplay.neutral, isBegin, releases, ackFailed]) rfl

theorem Held.give (h : Held (p, d)) (bytes : Bytes) (received : UInt32) :
    Held (p, d.give bytes received) :=
  h.neutral [.stream bytes] rfl (by simp [OpenDisplay.neutral, isBegin, releases, ackFailed]) rfl

theorem Held.release (h : Held (.ready, d)) {e : Event} (hb : isBegin e = false)
    (hr : releases e = true) (ha : ackFailed e = false) {q : Phase} (hq : q = .rest ∨ q = .ended)
    (he : d'.events = d.events ++ [e]) (ho : odXferOwnsHardware d' = false) : Held (q, d') := by
  have hdue := h.due nofun
  rw [if_pos h.2.1] at hdue
  refine .settled hq ho ?_ ?_
  · rw [he]
    exact h.1.concat hb
  · rw [he, hold_concat]
    exact hdue.release hb hr ha

/-- A transfer that owns the hardware can stand at any phase that expects it. -/
theorem Held.owned (h : Held (.rest, d)) (ho : odXferOwnsHardware d = true) :
    Held (.ready, d) ∧ Held (.broken, d) := by
  have hdue := h.due nofun
  obtain ⟨hb, hp⟩ := h
  simp only [HoldPhase, ho, if_true] at hp hdue
  exact ⟨⟨hb, ho, hp⟩, hb, ho, hdue⟩

theorem Move.held {s t : Phase × Dev} (hm : Move app cmd s t) (h : Held s) : Held t := by
  cases hm with
  | enter => exact h
  | @replace d _ =>
    rw [odXferReplaceActive_eq]
    split_ifs
    · exact h.abort (by simp) (.inl rfl) _ _
    · exact h
  | reset _ => exact h.abort (by simp) (.inl rfl) _ _
  | note hq => exact h.log (quiet_neutral hq)
  | @clearEtag p d _ _ => exact h.setEtag 0
  | @arm d x p pump _ ha =>
    have hidle : odXferOwnsHardware d = false := by simp [odXferOwnsHardware, ha.idle]
    have hs := h.due (by simp)
    rw [hidle, if_neg (by simp)] at hs
    have hx : odXferOwnsHardware { d with xfer := x, pipe := p, pump := pump } = true := by
      simpa [odXferOwnsHardware] using ha.owns
    have harm : Held (.armed, { d with xfer := x, pipe := p, pump := pump }) := ⟨h.1, hx, hs⟩
    exact harm.log rfl
  | @begun d e he _ =>
    obtain ⟨hb, ho, hs⟩ := h
    have hbegin : isBegin e = true := by rcases he with rfl | rfl <;> rfl
    have hhold : hold (d.events ++ [e]) = { begun := 1 } := by simp [hold_concat, Hold.add, hbegin]
    refine ⟨always_concat.mpr ⟨hb, fun _ => hs⟩, ?_⟩
    change if odXferOwnsHardware d then hold (d.events ++ [e]) = { begun := 1 } else _
    rw [if_pos ho, hhold]
  | @beginFailed d e he =>
    obtain ⟨hb, ho, hs⟩ := h
    have hbegin : isBegin e = true := by rcases he with rfl | rfl <;> rfl
    have hhold : hold (d.events ++ [e]) = { begun := 1 } := by simp [hold_concat, Hold.add, hbegin]
    refine ⟨always_concat.mpr ⟨hb, fun _ => hs⟩, ho, ?_⟩
    change (hold (d.events ++ [e])).Owed
    rw [hhold]
    rfl
  | @unacked d rp frame status hf hne =>
    obtain ⟨hb, ho, hs⟩ := h
    refine ⟨hb.concat rfl, ho, ?_⟩
    change (hold (d.events ++ [_])).Owed
    rw [hold_concat]
    simp only [Hold.Settled] at hs
    simp [Hold.Owed, Hold.add, isBegin, releases, ackFailed, hf, hne]
    omega
  | fed _ hf => exact (h.give _ _).streams hf.streams
  | spoiled ho hf => exact ((h.owned ho).2.give _ _).streams hf.streams
  | @book d d' hm hb =>
    have ho : odXferOwnsHardware d' = odXferOwnsHardware d := by simp only [odXferOwnsHardware, hb.xfer]
    rcases hb.events with he | ⟨e, he, rfl | ⟨n, rfl⟩⟩
    · exact h.neutral [] (by simpa using he) (by simp) ho
    · exact h.neutral _ he (by simp [OpenDisplay.neutral, isBegin, releases, ackFailed]) ho
    · exact h.neutral _ he (by simp [OpenDisplay.neutral, isBegin, releases, ackFailed]) ho
  | abandon hp _ => exact h.abort (by rcases hp with rfl | rfl | rfl <;> simp) (.inl rfl) _ _
  | fatal hp hm => exact h.enterFatal (by rcases hp with rfl | rfl <;> simp) hm
  | complete _ ho _ => exact (h.owned ho).1
  | @inflated d d' _ ho _ _ hr =>
    have hs := odXferStreamPush_streams app [] true d
    rw [hr] at hs
    exact (h.owned ho).1.streams hs
  | @finalFailed d d' r ho _ hr _ =>
    have hs := odXferStreamPush_streams app [] true d
    rw [hr] at hs
    exact (h.owned ho).2.streams hs
  | stamp _ => exact h
  | barrier _ => exact h.release (e := .barrierAbort _) rfl rfl rfl (.inl rfl) rfl rfl
  | @refreshed d refreshMode completed =>
    have hr : Held (.ended, odXferClearState (d.log
        (.refresh refreshMode d.xfer d.pipe.queuedCount true completed))) :=
      h.release (e := .refresh _ _ _ true _) rfl rfl rfl (.inr rfl) rfl rfl
    rcases settleEtag_events cmd completed
      (d.log (.refresh refreshMode d.xfer d.pipe.queuedCount true completed)) with he | ⟨etag, he⟩
    · exact hr.neutral [] (by rw [List.append_nil]; exact he) (by simp) rfl
    · exact hr.neutral _ he (by simp [OpenDisplay.neutral, isBegin, releases, ackFailed]) rfl
  | unshown _ _ =>
    have hdue := h.due (by simp)
    rw [if_pos h.2.1] at hdue
    have hr : Held (.refused, _) := ⟨h.1, h.2.1, hdue⟩
    exact hr.log rfl
  | dropped _ _ _ => exact h.abort (by simp) (.inr rfl) _ _

end Moves

theorem Reachable.held {d : Dev} (h : Reachable d) : Held (.fresh, d) := by
  refine h.phases (fun etag => ⟨Always.nil, rfl⟩) Move.held fun hp ht => ?_
  rcases hp with rfl | rfl | rfl
  · exact ht
  · exact ht
  · obtain ⟨hb, ho, hs⟩ := ht
    refine ⟨hb, ?_⟩
    simpa [HoldPhase, ho] using hs

theorem hold_since {b : Event} (hb : isBegin b = true) (pre : List Event) {mid : List Event}
    (hmid : ∀ e ∈ mid, isBegin e = false) :
    hold (pre ++ b :: mid) = ⟨1, mid.countP releases, mid.countP ackFailed⟩ := by
  induction mid using List.reverseRecOn with
  | nil => simp [hold_concat, Hold.add, hb]
  | append_singleton mid e ih =>
    have he := hmid e (by simp)
    rw [← List.cons_append, ← List.append_assoc, hold_concat, ih fun e he => hmid e (by simp [he])]
    simp only [Hold.add, he, Bool.false_eq_true, if_false, List.countP_append,
      List.countP_singleton]
    cases releases e <;> cases ackFailed e <;> rfl

section Still

variable {app : App} {cmd : Cmd}

/-- A transfer that owns nothing has released nothing since `d₀`. -/
def Still (d₀ : Dev) (s : Phase × Dev) : Prop :=
  (s.1 = .fresh ∨ s.1 = .rest) ∧ odXferOwnsHardware s.2 = false ∧
    ∃ es, s.2.events = d₀.events ++ es ∧ ∀ e ∈ es, releases e = false

theorem Still.append {d₀ d d' : Dev} {p q : Phase} (h : Still d₀ (p, d))
    (hq : q = .fresh ∨ q = .rest) (ho : odXferOwnsHardware d' = false) (es : List Event)
    (he : d'.events = d.events ++ es) (hes : ∀ e ∈ es, releases e = false) : Still d₀ (q, d') := by
  obtain ⟨-, -, es₀, he₀, hes₀⟩ := h
  refine ⟨hq, ho, es₀ ++ es, ?_, ?_⟩
  · change d'.events = _
    rw [he, ← List.append_assoc]
    exact congrArg (· ++ es) he₀
  · intro e hmem
    rcases List.mem_append.mp hmem with hm | hm
    · exact hes₀ e hm
    · exact hes e hm

theorem Still.abort {d₀ d : Dev} {p : Phase} (h : Still d₀ (p, d)) (reason : AbortReason)
    (clear : Bool) : Still d₀ (.rest, odXferAbortActive reason clear d) := by
  have hev := odXferAbortActive_events reason clear d
  have ho : odXferOwnsHardware d = false := h.2.1
  rw [ho] at hev
  refine h.append (.inr rfl) rfl _ hev ?_
  cases clear <;> simp [releases]

theorem Move.still {d₀ : Dev} {s t : Phase × Dev} (hs : cmd.starts = false)
    (hm : Move app cmd s t) (h : Still d₀ s) : Still d₀ t := by
  have hno : odXferOwnsHardware s.2 = false := h.2.1
  cases hm with
  | enter => exact ⟨.inr rfl, h.2⟩
  | replace h' | arm _ h' => exact absurd (hs.symm.trans h') nofun
  | reset _ | abandon _ _ => exact h.abort _ _
  | note hq =>
    have hn := quiet_neutral hq
    simp only [neutral, Bool.and_eq_true, Bool.not_eq_true'] at hn
    exact h.append h.1 h.2.1 [_] rfl (by simpa using hn.1.2)
  | clearEtag _ _ => exact h.append h.1 h.2.1 [_] rfl (by simp [releases])
  | fed ho _ | spoiled ho _ | complete _ ho _ | inflated _ ho _ _ _ | finalFailed ho _ _ _ =>
    exact absurd (hno.symm.trans ho) nofun
  | book hp _ _ | fatal _ hp => exact absurd (hno.symm.trans (pipeMode_owns hp)) nofun
  | begun _ _ | beginFailed _ | unacked _ _ | stamp _ | barrier _ | refreshed _ _ | unshown _ _
  | dropped _ _ _ => exact absurd h.1 (by simp)

theorem step_still {d : Dev} (app : App) (hc : Coupled d) (hs : cmd.starts = false)
    (ho : odXferOwnsHardware d = false) :
    ∃ es, (step app cmd d).events = d.events ++ es ∧ ∀ e ∈ es, releases e = false := by
  obtain ⟨p, -, hm⟩ := step_moves app cmd hc
  have h0 : Still d (.fresh, d) := ⟨.inl rfl, ho, [], by simp, by simp⟩
  exact (hm.rule (Move.still hs) h0).2.2

end Still

/-- Every begin is followed, before the next begin and by the time the transfer
owns the hardware no more, by one release and by one more for each PIPE START
whose acknowledgement fails. A FATAL transfer has nothing left to release. -/
theorem begin_released (d : Dev) (h : Reachable d) :
    (∀ pre b mid, d.events = pre ++ b :: mid → isBegin b = true →
      (∀ e ∈ mid, isBegin e = false) →
      if odXferOwnsHardware d then mid.countP releases = 0
      else mid.countP releases = 1 + mid.countP ackFailed) ∧
    (∀ pre b mid b' post, d.events = pre ++ b :: (mid ++ b' :: post) → isBegin b = true →
      (∀ e ∈ mid, isBegin e = false) → isBegin b' = true →
      mid.countP releases = 1 + mid.countP ackFailed) ∧
    (d.xfer.mode = .fatal → ∀ app cmd, cmd.starts = false →
      ∃ es, (step app cmd d).events = d.events ++ es ∧ ∀ e ∈ es, releases e = false) := by
  obtain ⟨hb, hp⟩ := h.held
  refine ⟨?_, ?_, ?_⟩
  · intro pre b mid he hbegin hmid
    have hsince := hold_since hbegin pre hmid
    simp only [HoldPhase, he, hsince] at hp
    split_ifs at hp ⊢
    · exact (Hold.mk.inj hp).2.1
    · exact hp
  · intro pre b mid b' post he hbegin hmid hnext
    have hset := hb (pre ++ b :: mid) b' post (by simpa using he) hnext
    rw [hold_since hbegin pre hmid] at hset
    exact hset
  · intro hfatal app cmd hs
    exact step_still app h.coupled hs (by simp [odXferOwnsHardware, hfatal])

/-- A PIPE START that replaces a direct transfer and cannot be acknowledged
releases twice what was begun once. -/
theorem begin_released_twice :
    ∃ d pre mid, Reachable d ∧ d.events = pre ++ Event.beginFull true :: mid ∧
      (∀ e ∈ mid, isBegin e = false) ∧ d.xfer.mode = .idle ∧ mid.countP releases = 2 := by
  let d := run [(.willing, .directStart .ble []),
    ({ App.willing with reply := fun _ _ _ => .full }, .pipeStart .ble (pipeStartBody 32 1))]
    (Dev.boot 0)
  refine ⟨d, d.events.take 2, d.events.drop 3, ⟨0, _, rfl⟩, ?_, ?_, ?_, ?_⟩
  · decide +kernel
  · decide +kernel
  · decide +kernel
  · decide +kernel

/-- A direct transfer that a reset gives up. -/
theorem begin_released_reset :
    let d := run [(.willing, .directStart .ble []), (.willing, .reset)] (Dev.boot 0)
    (d.events.drop 3).countP releases = 1 + (d.events.drop 3).countP ackFailed := by
  intro d
  have h := (begin_released d ⟨0, _, rfl⟩).1 (d.events.take 2) (.beginFull true) (d.events.drop 3)
    (by decide +kernel) rfl (by decide +kernel)
  rwa [if_neg (by decide +kernel)] at h

end OpenDisplay
