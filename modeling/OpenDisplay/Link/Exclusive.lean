import OpenDisplay.Lib.Trace
import OpenDisplay.Link.Model

/-! The link has one owner at a time, in every interleaving of the two tasks. What the loop
task has read stays good while the host task runs, because an instance enters the table
once, tries its claim once, and a claim wins against the unowned word only. -/

namespace OpenDisplay

open Traces

section Rules

def ownerAfter (w : LinkWord) : LinkEvent → LinkWord
  | .claim id true => id
  | .release _ true => .unowned
  | .terminal => .terminal
  | _ => w

/-- The owner word as the log has it. -/
def linkOwner (log : List LinkEvent) : LinkWord := log.foldl ownerAfter .unowned

/-- `w` is what the last request for a cleanup recorded, and it was the owner then. -/
def CleanupFor (log : List LinkEvent) (w : LinkWord) : Prop :=
  ∃ pre post, log = pre ++ .record w :: post ∧ linkOwner pre = w ∧ ∀ v, .record v ∉ post

/-- The last write that passed its owner check is one of `id`, which was the owner then, and
its frame is not queued yet. -/
def Checked (log : List LinkEvent) (id : LinkId) : Prop :=
  ∃ pre post, log = pre ++ .check id :: post ∧ linkOwner pre = .ble id ∧ ∀ h t, .enqueue h t ∉ post

/-- A frame of `tag` was queued. -/
def Queued (log : List LinkEvent) (tag : LinkId) : Prop := ∃ handle, .enqueue handle tag ∈ log

def LinkRule (pre : List LinkEvent) : LinkEvent → Prop
  | .claim _ won => won = true → linkOwner pre = .unowned ∧ .terminal ∉ pre
  | .release id won => won = true → linkOwner pre = id ∧ id ≠ .terminal
  | .enqueue handle tag => tag.handle = handle ∧ Checked pre tag
  | .dispatch tag => linkOwner pre = .ble tag ∧ Queued pre tag
  | .refuse _ hit => ∀ id, hit = some id → linkOwner pre ≠ .ble id
  | .cleanup recorded owner present =>
    owner = recorded ∧ linkOwner pre = owner ∧ CleanupFor pre recorded ∧ present = false
  | _ => True

@[simp] theorem linkOwner_concat (log : List LinkEvent) (e : LinkEvent) :
    linkOwner (log ++ [e]) = ownerAfter (linkOwner log) e := by
  simp [linkOwner]

theorem CleanupFor.concat {log : List LinkEvent} {w : LinkWord} (h : CleanupFor log w) {e : LinkEvent}
    (he : ∀ v, e ≠ .record v) : CleanupFor (log ++ [e]) w := by
  obtain ⟨pre, post, rfl, howner, hpost⟩ := h
  refine ⟨pre, post ++ [e], by simp, howner, fun v hv => ?_⟩
  rcases List.mem_append.mp hv with hv | hv
  · exact hpost v hv
  · exact he v (List.mem_singleton.mp hv).symm

theorem Checked.concat {log : List LinkEvent} {id : LinkId} (h : Checked log id) {e : LinkEvent}
    (he : ∀ h t, e ≠ .enqueue h t) : Checked (log ++ [e]) id := by
  obtain ⟨pre, post, rfl, howner, hpost⟩ := h
  refine ⟨pre, post ++ [e], by simp, howner, fun k t hv => ?_⟩
  rcases List.mem_append.mp hv with hv | hv
  · exact hpost k t hv
  · exact he k t (List.mem_singleton.mp hv).symm

theorem Queued.append {log : List LinkEvent} {tag : LinkId} (h : Queued log tag) (more : List LinkEvent) :
    Queued (log ++ more) tag := by
  obtain ⟨handle, hmem⟩ := h
  exact ⟨handle, List.mem_append_left _ hmem⟩

theorem CleanupFor.now (log : List LinkEvent) : CleanupFor (log ++ [.record (linkOwner log)]) (linkOwner log) :=
  ⟨log, [], rfl, rfl, by simp⟩

theorem Checked.now {log : List LinkEvent} {id : LinkId} (h : linkOwner log = .ble id) :
    Checked (log ++ [.check id]) id :=
  ⟨log, [], rfl, h, by simp⟩

end Rules

variable {n : Nat}

section Invariant

/-- The handle that a disconnect callback is taking out of the table. -/
def HostPc.leaving : HostPc n → Option Nat
  | .findRetired handle _ | .retireDecided handle _ | .retireWord handle _ => some handle
  | _ => none

/-- The table has one instance for a handle, and every connection that the firmware knows has
been published before, and claimed before if it is decided or the owner. -/
structure TableOk (s : Link n) : Prop where
  unique : ∀ i j w w', s.word i = some w → s.word j = some w' → w.handle = w'.handle → i = j
  published : ∀ i w, s.word i = some w → w ∈ s.published
  linked : ∀ i w, s.word i = some w → w.handle ∈ s.links ∨ s.host.leaving = some w.handle
  decided : ∀ i w, s.decided i = some w → w ∈ s.attempted
  owner : ∀ w, s.owner = .ble w → w ∈ s.published ∧ w ∈ s.attempted
  epochs : ∀ w, w ∈ s.published ∨ w ∈ s.attempted → w.epoch ≤ s.epoch

/-- What the callback that runs may rely on. -/
def HostOk (s : Link n) : Prop :=
  match s.host with
  | .publish id _ =>
    id ∉ s.published ∧ id ∉ s.attempted ∧ id.epoch ≤ s.epoch ∧ id.handle ∈ s.links ∧
      ∀ i w, s.word i = some w → w.handle ≠ id.handle
  | .clearDecided id _ | .claim id => id ∈ s.published ∧ id ∉ s.attempted
  | .findDecided _ word _ | .storeDecided word _ => ∀ id, word = some id → id ∈ s.attempted
  | .findRetired handle j => ∀ i w, s.word i = some w → w.handle = handle → j ≤ i
  | .retireDecided handle j | .retireWord handle j => ∀ i w, s.word i = some w → w.handle = handle → i = j
  | .loadWriter handle i => ∀ w, s.word i = some w → w.handle = handle
  | .checkWriter handle id => id.handle = handle
  | .push handle id => id.handle = handle ∧ Checked s.log id
  | _ => True

/-- What the answer of `instanceLive` is used for. -/
def LiveOk (s : Link n) (id : LinkId) : LiveFor → Prop
  | .cleanup recorded => recorded = .ble id ∧ s.owner = recorded ∧ CleanupFor s.log recorded
  | .refusal _ => id ∈ s.attempted ∧ s.owner ≠ .ble id
  | _ => True

/-- No other instance has the handle of `w`, and none is on its way into the table. -/
def Alone (s : Link n) (w : LinkId) : Prop :=
  (∀ i w', s.word i = some w' → w'.handle = w.handle → w' = w) ∧
    ∀ id i, s.host = .publish id i → id.handle ≠ w.handle

/-- What the loop task may rely on. -/
def LoopOk (s : Link n) : Prop :=
  match s.loop with
  | .live id j k => id ∈ s.published ∧ (∀ i, s.word i = some id → j ≤ i) ∧ LiveOk s id k
  | .liveLoad id j k => id ∈ s.published ∧ (∀ i, s.word i = some id → i = j) ∧ LiveOk s id k
  | .cleanupOwner recorded => recorded ≠ .unowned ∧ CleanupFor s.log recorded
  | .cleanupToken recorded => recorded ≠ .unowned ∧ s.owner = recorded ∧ CleanupFor s.log recorded
  | .cleanupLan recorded epoch => recorded = .lan epoch ∧ s.owner = recorded ∧ CleanupFor s.log recorded
  | .refusalDecided _ w => w ∈ s.published
  | .refusalOwner _ w => w ∈ s.published ∧ w ∈ s.attempted
  | .refuse _ w => w ∈ s.attempted ∧ s.owner ≠ .ble w ∧ Alone s w
  | .rxCheck tag _ => Queued s.log tag
  | .dispatch tag _ => s.owner = .ble tag ∧ Queued s.log tag
  | .abort _ owner => ∀ id, owner = .ble id → id ∈ s.published
  | .drop id | .wait id => id ∈ s.published
  | _ => True

structure LogOk (s : Link n) : Prop where
  rules : Always LinkRule s.log
  owner : s.owner = linkOwner s.log
  terminal : .terminal ∈ s.log → s.owner = .terminal
  pending : s.cleanupPending = true → CleanupFor s.log s.cleanupForOwner
  queued : ∀ tag ∈ s.rxq, Queued s.log tag

structure LinkOk (s : Link n) : Prop where
  table : TableOk s
  host : HostOk s
  loop : LoopOk s
  log : LogOk s

theorem LogOk.note {s t : Link n} {e : LinkEvent} (h : LogOk s) (hlog : t.log = s.log ++ [e])
    (howner : t.owner = ownerAfter s.owner e) (hr : LinkRule s.log e)
    (hp : t.cleanupPending = true → CleanupFor t.log t.cleanupForOwner) (hq : ∀ tag ∈ t.rxq, Queued t.log tag) :
    LogOk t := by
  refine ⟨?_, ?_, ?_, hp, hq⟩
  · rw [hlog, always_concat]
    exact ⟨h.rules, hr⟩
  · rw [hlog, howner, linkOwner_concat, h.owner]
  · intro hmem
    rw [hlog] at hmem
    rw [howner]
    rcases List.mem_append.mp hmem with hold | hnew
    · have hterm := h.terminal hold
      rw [hterm]
      match e, hr with
      | .claim id true, hr => exact absurd hold (hr rfl).2
      | .release id true, hr =>
        obtain ⟨hid, hne⟩ := hr rfl
        exact absurd (hid.symm.trans (h.owner.symm.trans hterm)) hne
      | .claim _ false, _ | .release _ false, _ | .terminal, _ | .check _, _ | .enqueue .., _ | .dispatch _, _
      | .record _, _ | .refuse .., _ | .cleanup .., _ => rfl
    · rw [← List.mem_singleton.mp hnew]
      rfl

theorem LogOk.same {s t : Link n} (h : LogOk s) (hlog : t.log = s.log) (howner : t.owner = s.owner)
    (hp : t.cleanupPending = true → CleanupFor t.log t.cleanupForOwner) (hq : ∀ tag ∈ t.rxq, tag ∈ s.rxq) : LogOk t :=
  ⟨by rw [hlog]; exact h.rules, by rw [hlog, howner]; exact h.owner, by rw [hlog, howner]; exact h.terminal, hp,
    fun tag ht => by rw [hlog]; exact h.queued tag (hq tag ht)⟩

theorem LoopOk.reads {s : Link n} (h : LoopOk s) {pc : LoopPc n} (hpc : s.loop = pc) :
    LoopOk { s with loop := pc } := by
  subst hpc
  exact h

theorem HostOk.reads {s : Link n} (h : HostOk s) {pc : HostPc n} (hpc : s.host = pc) :
    HostOk { s with host := pc } := by
  subst hpc
  exact h

end Invariant

section LoopSteps

/-- What a step of the loop task leaves alone. -/
structure LoopEffect (s t : Link n) : Prop where
  word : t.word = s.word
  decided : t.decided = s.decided
  host : t.host = s.host
  links : t.links = s.links
  published : t.published = s.published
  attempted : t.attempted = s.attempted
  epoch : s.epoch ≤ t.epoch
  owner : ∀ w, t.owner = .ble w → s.owner = .ble w
  log : t.log = s.log ∨ ∃ e, t.log = s.log ++ [e] ∧ ∀ h id, e ≠ .enqueue h id

variable {s t : Link n}

theorem LoopEffect.tableOk (h : LoopEffect s t) (hs : TableOk s) : TableOk t := by
  obtain ⟨unique, published, linked, decided, owner, epochs⟩ := hs
  refine ⟨?_, ?_, ?_, ?_, ?_, ?_⟩
  · rwa [h.word]
  · rwa [h.word, h.published]
  · rwa [h.word, h.links, h.host]
  · rwa [h.decided, h.attempted]
  · intro w hw
    rw [h.published, h.attempted]
    exact owner w (h.owner w hw)
  · intro w hw
    rw [h.published, h.attempted] at hw
    exact (epochs w hw).trans h.epoch

theorem LoopEffect.hostOk (h : LoopEffect s t) (hs : HostOk s) : HostOk t := by
  unfold HostOk at hs ⊢
  rw [h.host]
  cases hh : s.host <;> simp only [hh, h.word, h.published, h.attempted, h.links] at hs ⊢
  all_goals try exact hs
  case publish id i => exact ⟨hs.1, hs.2.1, hs.2.2.1.trans h.epoch, hs.2.2.2⟩
  case push handle id =>
    refine ⟨hs.1, ?_⟩
    rcases h.log with hlog | ⟨e, hlog, he⟩
    · rw [hlog]
      exact hs.2
    · rw [hlog]
      exact hs.2.concat he

theorem LoopEffect.moved (h : LoopEffect s t) {pc : LoopPc n} : LoopEffect s { t with loop := pc } :=
  ⟨h.word, h.decided, h.host, h.links, h.published, h.attempted, h.epoch, h.owner, h.log⟩

theorem linkClaim_effect (e : Nat) : LoopEffect s (linkClaim (.lan e) s) := by
  refine ⟨rfl, rfl, rfl, rfl, rfl, rfl, le_rfl, fun w hw => ?_, .inr ⟨_, rfl, by simp⟩⟩
  by_cases h : s.owner = .unowned
  · simp [linkClaim, Link.note, h] at hw
  · simpa [linkClaim, Link.note, h] using hw

theorem linkRelease_effect (id : LinkWord) : LoopEffect s (linkRelease id s) := by
  unfold linkRelease
  split
  · exact ⟨rfl, rfl, rfl, rfl, rfl, rfl, le_rfl, fun _ h => h, .inl rfl⟩
  · refine ⟨rfl, rfl, rfl, rfl, rfl, rfl, le_rfl, fun w hw => ?_, .inr ⟨_, rfl, by simp⟩⟩
    by_cases h : s.owner = id
    · simp [Link.note, h] at hw
    · simpa [Link.note, h] using hw

theorem LinkOk.of_effect (h : LinkOk s) (he : LoopEffect s t) (hl : LoopOk t) (hlog : LogOk t) : LinkOk t :=
  ⟨he.tableOk h.table, he.hostOk h.host, hl, hlog⟩

/-- A step that moves the loop task and words that nothing else depends on. -/
theorem LinkOk.quiet (h : LinkOk s) {pc : LoopPc n} {ce de : Bool} {ep : Nat} {done : LinkWord} (hep : s.epoch ≤ ep)
    (hl : LoopOk { s with
      loop := pc, connectedEvent := ce, disconnectedEvent := de, epoch := ep, connectWorkDoneFor := done }) :
    LinkOk { s with
      loop := pc, connectedEvent := ce, disconnectedEvent := de, epoch := ep, connectWorkDoneFor := done } :=
  h.of_effect ⟨rfl, rfl, rfl, rfl, rfl, rfl, hep, fun _ hw => hw, .inl rfl⟩ hl
    (h.log.same rfl rfl h.log.pending fun _ ht => ht)

/-- A step that takes frames out of the queue. -/
theorem LinkOk.drained (h : LinkOk s) {pc : LoopPc n} {rx : List LinkId} (hrx : ∀ tag ∈ rx, tag ∈ s.rxq)
    (hl : LoopOk { s with loop := pc, rxq := rx }) : LinkOk { s with loop := pc, rxq := rx } :=
  h.of_effect ⟨rfl, rfl, rfl, rfl, rfl, rfl, le_rfl, fun _ hw => hw, .inl rfl⟩ hl
    (h.log.same rfl rfl h.log.pending hrx)

/-- A step that is seen in the log and leaves the owner word alone. -/
theorem LinkOk.noted (h : LinkOk s) {pc : LoopPc n} {e : LinkEvent} (hr : LinkRule s.log e)
    (hkeep : ownerAfter s.owner e = s.owner) (hrec : ∀ v, e ≠ .record v) (henq : ∀ k id, e ≠ .enqueue k id)
    (hl : LoopOk (Link.note { s with loop := pc } e)) : LinkOk (Link.note { s with loop := pc } e) :=
  h.of_effect ⟨rfl, rfl, rfl, rfl, rfl, rfl, le_rfl, fun _ hw => hw, .inr ⟨e, rfl, henq⟩⟩ hl
    (h.log.note rfl hkeep.symm hr (fun hp => (h.log.pending hp).concat hrec) fun tag ht =>
      (h.log.queued tag ht).append _)

theorem instanceOf_some {handle : Nat} {w : LinkId} (h : instanceOf s handle = some w) :
    ∃ i, s.word i = some w ∧ w.handle = handle := by
  obtain ⟨i, -, hi⟩ := List.exists_of_findSome?_eq_some h
  obtain ⟨hw, hh⟩ := Option.filter_eq_some_iff.mp hi
  exact ⟨i, hw, by simpa using hh⟩

theorem liveResult_ok (h : LinkOk s) {id : LinkId} {k : LiveFor} {isLive : Bool} (hpub : id ∈ s.published)
    (hk : LiveOk s id k) (hyes : isLive = true → ∃ i, s.word i = some id)
    (hno : isLive = false → ∀ i, s.word i ≠ some id) : LinkOk (liveResult s id k isLive) := by
  cases k with
  | connectWork owner => cases isLive <;> exact h.quiet le_rfl trivial
  | departure => cases isLive <;> exact h.quiet le_rfl trivial
  | cleanup recorded =>
    cases isLive with
    | true => exact h.quiet le_rfl trivial
    | false =>
      obtain ⟨rfl, howner, hrec⟩ := hk
      have habsent : decide (∃ i, s.word i = some id) = false := by simpa using hno rfl
      refine h.noted ⟨rfl, by rw [← h.log.owner, howner], hrec, habsent⟩ rfl (by simp) (by simp) ?_
      rintro id' ⟨⟩
      exact hpub
  | refusal i =>
    cases isLive with
    | false => exact h.quiet le_rfl trivial
    | true =>
      obtain ⟨j, hj⟩ := hyes rfl
      refine h.quiet le_rfl ⟨hk.1, hk.2, ?_, ?_⟩
      · intro i' w' hw' hh
        obtain rfl := h.table.unique i' j w' id hw' hj hh
        exact Option.some.inj (hw'.symm.trans hj)
      · intro id' i' hpc hh
        obtain ⟨-, -, -, -, hfree⟩ := h.host.reads hpc
        exact hfree j id hj hh.symm
  | drop =>
    cases isLive with
    | true => exact h.quiet le_rfl ⟨hpub, fun _ _ => Nat.zero_le _, trivial⟩
    | false => exact h.quiet le_rfl trivial
  | dropAgain => cases isLive <;> exact h.quiet le_rfl hpub
  | wait =>
    cases isLive with
    | true => exact h.quiet le_rfl hpub
    | false => exact h.quiet le_rfl trivial

theorem instanceIndexOf_found {handle i : Nat} {j : Fin n} (h : instanceIndexOf s handle i = .found j) :
    ∃ w, s.word j = some w ∧ w.handle = handle := by
  unfold instanceIndexOf at h
  split at h
  · split at h
    · next w hw =>
      split at h
      · next hh =>
        cases h
        exact ⟨w, hw, hh⟩
      · cases h
    · cases h
  · cases h

/-- Nothing in front of the next index, if there was nothing in front of this one. -/
theorem instanceIndexOf_next {handle i : Nat} (h : instanceIndexOf s handle i = .next) {j : Fin n} {w : LinkId}
    (hw : s.word j = some w) (hh : w.handle = handle) (hle : i ≤ j) : i + 1 ≤ j := by
  rcases Nat.lt_or_eq_of_le hle with hlt | heq
  · exact hlt
  · subst heq
    simp [instanceIndexOf, hw, hh] at h

theorem instanceIndexOf_done {handle i : Nat} (h : instanceIndexOf s handle i = .done) (j : Fin n) : ¬ i ≤ j := by
  intro hle
  have hi : i < n := lt_of_le_of_lt hle j.isLt
  unfold instanceIndexOf at h
  rw [dif_pos hi] at h
  split at h
  · split at h <;> cases h
  · cases h

theorem live_ok (h : LinkOk s) {id : LinkId} {i : Nat} {k : LiveFor} (hpc : s.loop = .live id i k) (b : Bool) :
    LinkOk (loopStep b s) := by
  obtain ⟨hpub, hfront, hk⟩ := h.loop.reads hpc
  unfold loopStep
  simp only [hpc]
  split
  · next j hj =>
    obtain ⟨w, hw, hh⟩ := instanceIndexOf_found hj
    exact h.quiet le_rfl ⟨hpub, fun i' hi' => h.table.unique i' j id w hi' hw hh.symm, hk⟩
  · next hnext =>
    exact h.quiet le_rfl ⟨hpub, fun j hj => instanceIndexOf_next hnext hj rfl (hfront j hj), hk⟩
  · next hdone =>
    exact liveResult_ok h hpub hk (by simp) fun _ j hj => instanceIndexOf_done hdone j (hfront j hj)

theorem liveLoad_ok (h : LinkOk s) {id : LinkId} {i : Fin n} {k : LiveFor} (hpc : s.loop = .liveLoad id i k)
    (b : Bool) : LinkOk (loopStep b s) := by
  obtain ⟨hpub, honly, hk⟩ := h.loop.reads hpc
  unfold loopStep
  simp only [hpc]
  apply liveResult_ok h hpub hk
  · intro hyes
    exact ⟨i, by simpa using hyes⟩
  · intro hno j hj
    rw [honly j hj] at hj
    simp [hj] at hno

theorem linkClaim_logOk (h : LogOk s) (id : LinkWord) : LogOk (linkClaim id s) := by
  refine h.note rfl ?_ ?_ (fun hp => (h.pending hp).concat (by simp)) fun tag ht => (h.queued tag ht).append _
  · by_cases hu : s.owner = .unowned
    · simp [linkClaim, Link.note, hu, ownerAfter]
    · simp [linkClaim, Link.note, hu, ownerAfter]
  · intro hwon
    have hu : s.owner = .unowned := by simpa using hwon
    refine ⟨h.owner ▸ hu, fun hterm => ?_⟩
    rw [h.terminal hterm] at hu
    cases hu

theorem linkRelease_logOk (h : LogOk s) (id : LinkWord) : LogOk (linkRelease id s) := by
  unfold linkRelease
  split
  · exact h
  · next hid =>
    refine h.note rfl ?_ ?_ (fun hp => (h.pending hp).concat (by simp)) fun tag ht => (h.queued tag ht).append _
    · by_cases ho : s.owner = id
      · simp [Link.note, ho, ownerAfter]
      · simp [Link.note, ho, ownerAfter]
    · intro hwon
      have ho : s.owner = id := by simpa using hwon
      exact ⟨h.owner ▸ ho, fun hterm => hid (.inr hterm)⟩

theorem cleanup_ok (h : LinkOk s) {recorded : LinkWord} (hpc : s.loop = .cleanupToken recorded) (b : Bool) :
    LinkOk (loopStep b s) := by
  obtain ⟨hne, howner, hrec⟩ := h.loop.reads hpc
  unfold loopStep
  simp only [hpc]
  split
  · next id hw =>
    exact h.quiet le_rfl ⟨(h.table.owner id hw).1, fun _ _ => Nat.zero_le _, howner ▸ hw, howner, hrec⟩
  · next epoch hw => exact h.quiet le_rfl ⟨howner ▸ hw, howner, hrec⟩
  · next hble hlan =>
    refine h.noted ⟨howner, h.log.owner.symm, hrec, rfl⟩ rfl (by simp) (by simp) ?_
    intro id hid
    exact (hble id hid).elim

theorem requestCleanup_ok (h : LinkOk s) (hpc : s.loop = .requestCleanup) (b : Bool) : LinkOk (loopStep b s) := by
  simp only [loopStep, hpc]
  refine h.of_effect ⟨rfl, rfl, rfl, rfl, rfl, rfl, le_rfl, fun _ hw => hw, .inr ⟨_, rfl, by simp⟩⟩ trivial
    (h.log.note rfl rfl trivial (fun _ => ?_) fun tag ht => (h.log.queued tag ht).append _)
  show CleanupFor (s.log ++ [.record s.owner]) s.owner
  rw [h.log.owner]
  exact .now s.log

theorem refuse_ok (h : LinkOk s) {i : Nat} {w : LinkId} (hpc : s.loop = .refuse i w) (b : Bool) :
    LinkOk (loopStep b s) := by
  obtain ⟨-, hne, halone, -⟩ := h.loop.reads hpc
  simp only [loopStep, hpc]
  refine h.noted ?_ rfl (by simp) (by simp) trivial
  intro id hid
  obtain ⟨j, hj, hh⟩ := instanceOf_some hid
  rw [halone j id hj hh, ← h.log.owner]
  exact hne

theorem dispatch_ok (h : LinkOk s) {tag : LinkId} {drained : Nat} (hpc : s.loop = .dispatch tag drained) (b : Bool) :
    LinkOk (loopStep b s) := by
  obtain ⟨howner, hqueued⟩ := h.loop.reads hpc
  have hnoted : ∀ pc, LoopOk (Link.note { s with loop := pc } (.dispatch tag)) →
      LinkOk (Link.note { s with loop := pc } (.dispatch tag)) := fun pc =>
    h.noted ⟨by rw [← h.log.owner]; exact howner, hqueued⟩ rfl (by simp) (by simp)
  simp only [loopStep, hpc]
  split
  · exact (hnoted .idle trivial).drained (fun t ht => List.mem_of_mem_tail ht) trivial
  · exact hnoted .idle trivial

theorem eventsOwner_ok (h : LinkOk s) (hpc : s.loop = .eventsOwner) (b : Bool) : LinkOk (loopStep b s) := by
  simp only [loopStep, hpc]
  split
  · next id hw =>
    split
    · exact h.quiet le_rfl ⟨(h.table.owner id hw).1, fun _ _ => Nat.zero_le _, trivial⟩
    · exact h.quiet le_rfl trivial
  · exact h.quiet le_rfl trivial

theorem eventsToken_ok (h : LinkOk s) (hpc : s.loop = .eventsToken) (b : Bool) : LinkOk (loopStep b s) := by
  simp only [loopStep, hpc]
  split
  · next id hw => exact h.quiet le_rfl ⟨(h.table.owner id hw).1, fun _ _ => Nat.zero_le _, trivial⟩
  · exact h.quiet le_rfl trivial

theorem cleanupOwner_ok (h : LinkOk s) {recorded : LinkWord} (hpc : s.loop = .cleanupOwner recorded) (b : Bool) :
    LinkOk (loopStep b s) := by
  have hloop := h.loop.reads hpc
  simp only [loopStep, hpc]
  split
  · exact h.quiet le_rfl trivial
  · next howner => exact h.quiet le_rfl ⟨hloop.1, not_not.mp howner, hloop.2⟩

theorem cleanupLan_ok (h : LinkOk s) {recorded : LinkWord} {epoch : Nat}
    (hpc : s.loop = .cleanupLan recorded epoch) (b : Bool) :
    LinkOk (loopStep b s) := by
  have hloop := h.loop.reads hpc
  obtain ⟨rfl, howner, hrec⟩ := hloop
  simp only [loopStep, hpc]
  split
  · exact h.quiet le_rfl trivial
  · next hb =>
    refine h.noted ⟨rfl, by rw [← h.log.owner, howner], hrec, by simpa using hb⟩ rfl (by simp) (by simp) ?_
    rintro id ⟨⟩

theorem refusalWord_ok (h : LinkOk s) {i : Nat} (hpc : s.loop = .refusalWord i) (b : Bool) :
    LinkOk (loopStep b s) := by
  simp only [loopStep, hpc]
  split
  · split
    · exact h.quiet le_rfl trivial
    · next w hw => exact h.quiet le_rfl (h.table.published _ w hw)
  · exact h.quiet le_rfl trivial

theorem refusalDecided_ok (h : LinkOk s) {i : Fin n} {w : LinkId} (hpc : s.loop = .refusalDecided i w) (b : Bool) :
    LinkOk (loopStep b s) := by
  have hloop := h.loop.reads hpc
  simp only [loopStep, hpc]
  split
  · exact h.quiet le_rfl trivial
  · next hw => exact h.quiet le_rfl ⟨hloop, h.table.decided i w (not_not.mp hw)⟩

theorem refusalOwner_ok (h : LinkOk s) {i : Fin n} {w : LinkId} (hpc : s.loop = .refusalOwner i w) (b : Bool) :
    LinkOk (loopStep b s) := by
  have hloop := h.loop.reads hpc
  simp only [loopStep, hpc]
  split
  · exact h.quiet le_rfl trivial
  · next hw => exact h.quiet le_rfl ⟨hloop.1, fun _ _ => Nat.zero_le _, hloop.2, hw⟩

theorem rxDiscard_ok (h : LinkOk s) {drained : Nat} (hpc : s.loop = .rxDiscard drained) (b : Bool) :
    LinkOk (loopStep b s) := by
  simp only [loopStep, hpc]
  split
  · exact h.quiet le_rfl trivial
  · split
    · exact h.quiet le_rfl trivial
    · next tag rest hrx =>
      split
      · exact h.quiet le_rfl (h.log.queued tag (by simp [hrx]))
      · exact h.drained (fun t ht => by simp [hrx, ht]) trivial

theorem rxCheck_ok (h : LinkOk s) {tag : LinkId} {drained : Nat} (hpc : s.loop = .rxCheck tag drained) (b : Bool) :
    LinkOk (loopStep b s) := by
  have hloop := h.loop.reads hpc
  simp only [loopStep, hpc]
  split
  · next hw => exact h.quiet le_rfl ⟨hw, hloop⟩
  · exact h.quiet le_rfl trivial

theorem lanClaim_ok (h : LinkOk s) {epoch : Nat} (hpc : s.loop = .lanClaim epoch) (b : Bool) :
    LinkOk (loopStep b s) := by
  simp only [loopStep, hpc]
  exact h.of_effect (linkClaim_effect epoch).moved trivial
    ((linkClaim_logOk h.log (.lan epoch)).same rfl rfl (linkClaim_logOk h.log (.lan epoch)).pending fun _ ht => ht)

theorem abort_ok (h : LinkOk s) {dropLink : Bool} {owner : LinkWord} (hpc : s.loop = .abort dropLink owner) (b : Bool) :
    LinkOk (loopStep b s) := by
  have hloop := h.loop.reads hpc
  simp only [loopStep, hpc]
  split
  · next id => exact h.drained (by simp) ⟨hloop id rfl, fun _ _ => Nat.zero_le _, trivial⟩
  · exact h.drained (by simp) trivial

theorem wait_ok (h : LinkOk s) {id : LinkId} (hpc : s.loop = .wait id) (b : Bool) : LinkOk (loopStep b s) := by
  have hloop := h.loop.reads hpc
  simp only [loopStep, hpc]
  split
  · exact h.quiet le_rfl trivial
  · exact h.quiet le_rfl ⟨hloop, fun _ _ => Nat.zero_le _, trivial⟩

theorem release_ok (h : LinkOk s) {owner : LinkWord} (hpc : s.loop = .release owner) (b : Bool) :
    LinkOk (loopStep b s) := by
  simp only [loopStep, hpc]
  exact h.of_effect (linkRelease_effect owner).moved trivial
    ((linkRelease_logOk h.log owner).same rfl rfl (linkRelease_logOk h.log owner).pending fun _ ht => ht)

theorem markTerminal_ok (h : LinkOk s) (hpc : s.loop = .markTerminal) (b : Bool) : LinkOk (loopStep b s) := by
  simp only [loopStep, hpc]
  refine h.of_effect ⟨rfl, rfl, rfl, rfl, rfl, rfl, le_rfl, fun w hw => (by cases hw), .inr ⟨_, rfl, by simp⟩⟩ ?_
    (h.log.note rfl rfl trivial (fun hp => (h.log.pending hp).concat (by simp)) fun tag ht =>
      (h.log.queued tag ht).append _)
  intro id hid
  exact (h.table.owner id hid).1

theorem loopStep_ok (h : LinkOk s) (b : Bool) : LinkOk (loopStep b s) := by
  have hloop := h.loop
  unfold LoopOk at hloop
  cases hpc : s.loop with
  | live id i k => exact live_ok h hpc b
  | liveLoad id i k => exact liveLoad_ok h hpc b
  | requestCleanup => exact requestCleanup_ok h hpc b
  | cleanupToken recorded => exact cleanup_ok h hpc b
  | refuse i w => exact refuse_ok h hpc b
  | dispatch tag drained => exact dispatch_ok h hpc b
  | idle =>
    simp only [loopStep, hpc]
    exact h
  | takeConnected =>
    simp only [loopStep, hpc]
    exact h.quiet le_rfl trivial
  | eventsOwner => exact eventsOwner_ok h hpc b
  | takeDisconnected =>
    simp only [loopStep, hpc]
    split <;> exact h.quiet le_rfl trivial
  | eventsToken => exact eventsToken_ok h hpc b
  | cleanupOwner recorded => exact cleanupOwner_ok h hpc b
  | cleanupLan recorded epoch => exact cleanupLan_ok h hpc b
  | refusalWord i => exact refusalWord_ok h hpc b
  | refusalDecided i w => exact refusalDecided_ok h hpc b
  | refusalOwner i w => exact refusalOwner_ok h hpc b
  | rxDiscard drained => exact rxDiscard_ok h hpc b
  | rxCheck tag drained => exact rxCheck_ok h hpc b
  | lanOwner =>
    simp only [loopStep, hpc]
    split <;> exact h.quiet le_rfl trivial
  | lanEpoch =>
    simp only [loopStep, hpc]
    exact h.quiet (Nat.le_succ _) trivial
  | lanClaim epoch => exact lanClaim_ok h hpc b
  | abortOwner dropLink =>
    simp only [loopStep, hpc]
    exact h.quiet le_rfl fun id hid => (h.table.owner id hid).1
  | abort dropLink owner => exact abort_ok h hpc b
  | drop id =>
    rw [hpc] at hloop
    simp only [loopStep, hpc]
    exact h.quiet le_rfl hloop
  | wait id => exact wait_ok h hpc b
  | release owner => exact release_ok h hpc b
  | markTerminal => exact markTerminal_ok h hpc b

theorem loopCall_ok (h : LinkOk s) (c : LoopCall) : LinkOk (loopCall c s) := by
  unfold loopCall
  split
  · exact h
  · cases c with
    | disconnectCleanup refreshInProgress =>
      dsimp only
      split
      · exact h
      · next hp =>
        have hrec := h.log.pending (by simp only [not_or, not_not] at hp; exact hp.1)
        refine h.of_effect ⟨rfl, rfl, rfl, rfl, rfl, rfl, le_rfl, fun _ hw => hw, .inl rfl⟩ ?_
          (h.log.same rfl rfl (by simp) fun _ ht => ht)
        by_cases hu : s.cleanupForOwner = .unowned
        · simp [LoopOk, hu]
        · simp only [LoopOk, hu, if_false]
          exact ⟨hu, hrec⟩
    | events | contenderRefusal | rx | lanAccept | lanDisconnect | abort dropLink | markTerminal =>
      exact h.quiet le_rfl trivial

end LoopSteps

section HostSteps

/-- The handle is that of an instance which the loop task is about to have disconnected. -/
def Link.refusing (s : Link n) (handle : Nat) : Bool :=
  match s.loop with
  | .refuse _ w => w.handle = handle
  | _ => false

/-- What a step of the host task can do to what the loop task relies on. -/
structure HostEffect (s t : Link n) : Prop where
  loop : t.loop = s.loop
  pending : t.cleanupPending = s.cleanupPending
  forOwner : t.cleanupForOwner = s.cleanupForOwner
  published : ∀ w ∈ s.published, w ∈ t.published
  attempted : ∀ w ∈ s.attempted, w ∈ t.attempted
  owner : t.owner = s.owner ∨ (s.owner = .unowned ∧ ∃ id, id ∉ s.attempted ∧ t.owner = .ble id)
  word : ∀ i w, t.word i = some w → s.word i = some w ∨ (w ∉ s.published ∧ ∃ j, s.host = .publish w j)
  coming : ∀ id i, t.host = .publish id i → (∃ j, s.host = .publish id j) ∨ s.refusing id.handle = false
  log : t.log = s.log ∨ ∃ e, t.log = s.log ++ [e] ∧ ∀ v, e ≠ .record v

variable {s t : Link n}

theorem HostEffect.owned (h : HostEffect s t) {w : LinkWord} (hw : s.owner = w) (hne : w ≠ .unowned) : t.owner = w := by
  rcases h.owner with ho | ⟨hu, -⟩
  · rw [ho, hw]
  · exact absurd (hw.symm.trans hu) hne

theorem HostEffect.notOwned (h : HostEffect s t) {w : LinkId} (ha : w ∈ s.attempted) (hw : s.owner ≠ .ble w) :
    t.owner ≠ .ble w := by
  rcases h.owner with ho | ⟨-, id, hid, ho⟩
  · rwa [ho]
  · rw [ho]
    rintro ⟨⟩
    exact hid ha

theorem HostEffect.cleanupFor (h : HostEffect s t) {w : LinkWord} (hw : CleanupFor s.log w) : CleanupFor t.log w := by
  rcases h.log with hl | ⟨e, hl, he⟩
  · rwa [hl]
  · rw [hl]
    exact hw.concat he

theorem HostEffect.queued (h : HostEffect s t) {tag : LinkId} (hq : Queued s.log tag) : Queued t.log tag := by
  rcases h.log with hl | ⟨e, hl, -⟩
  · rwa [hl]
  · rw [hl]
    exact hq.append _

theorem HostEffect.kept (h : HostEffect s t) {id : LinkId} (hpub : id ∈ s.published) {i : Fin n}
    (hi : t.word i = some id) : s.word i = some id :=
  (h.word i id hi).resolve_right fun hnew => hnew.1 hpub

theorem HostEffect.liveOk (h : HostEffect s t) {id : LinkId} {k : LiveFor} (hk : LiveOk s id k) : LiveOk t id k := by
  cases k with
  | cleanup recorded =>
    obtain ⟨rfl, howner, hrec⟩ := hk
    exact ⟨rfl, h.owned howner (by simp), h.cleanupFor hrec⟩
  | refusal i => exact ⟨h.attempted _ hk.1, h.notOwned hk.1 hk.2⟩
  | connectWork _ | departure | drop | dropAgain | wait => trivial

theorem HostEffect.loopOk (h : HostEffect s t) (hs : LoopOk s) : LoopOk t := by
  unfold LoopOk at hs ⊢
  rw [h.loop]
  cases hpc : s.loop with
  | live id j k =>
    rw [hpc] at hs
    exact ⟨h.published _ hs.1, fun i hi => hs.2.1 i (h.kept hs.1 hi), h.liveOk hs.2.2⟩
  | liveLoad id j k =>
    rw [hpc] at hs
    exact ⟨h.published _ hs.1, fun i hi => hs.2.1 i (h.kept hs.1 hi), h.liveOk hs.2.2⟩
  | cleanupOwner recorded =>
    rw [hpc] at hs
    exact ⟨hs.1, h.cleanupFor hs.2⟩
  | cleanupToken recorded =>
    rw [hpc] at hs
    exact ⟨hs.1, h.owned hs.2.1 hs.1, h.cleanupFor hs.2.2⟩
  | cleanupLan recorded epoch =>
    rw [hpc] at hs
    exact ⟨hs.1, h.owned hs.2.1 (by rw [hs.1]; simp), h.cleanupFor hs.2.2⟩
  | refusalDecided i w =>
    rw [hpc] at hs
    exact h.published _ hs
  | refusalOwner i w =>
    rw [hpc] at hs
    exact ⟨h.published _ hs.1, h.attempted _ hs.2⟩
  | refuse i w =>
    rw [hpc] at hs
    obtain ⟨hatt, hne, halone, hcoming⟩ := hs
    refine ⟨h.attempted _ hatt, h.notOwned hatt hne, ?_, ?_⟩
    · intro j w' hw' hh
      rcases h.word j w' hw' with hold | ⟨-, j', hpub⟩
      · exact halone j w' hold hh
      · exact absurd hh (hcoming w' j' hpub)
    · intro id j hid
      rcases h.coming id j hid with ⟨j', hold⟩ | hfree
      · exact hcoming id j' hold
      · simpa [Link.refusing, hpc, eq_comm] using hfree
  | rxCheck tag drained =>
    rw [hpc] at hs
    exact h.queued hs
  | dispatch tag drained =>
    rw [hpc] at hs
    exact ⟨h.owned hs.1 (by simp), h.queued hs.2⟩
  | abort dropLink owner =>
    rw [hpc] at hs
    exact fun id hid => h.published _ (hs id hid)
  | drop id =>
    rw [hpc] at hs
    exact h.published _ hs
  | wait id =>
    rw [hpc] at hs
    exact h.published _ hs
  | idle | takeConnected | eventsOwner | takeDisconnected | eventsToken | requestCleanup | refusalWord _ | rxDiscard _
  | lanOwner | lanEpoch | lanClaim _ | abortOwner _ | release _ | markTerminal => trivial

theorem LinkOk.of_hostEffect (h : LinkOk s) (he : HostEffect s t) (ht : TableOk t) (hh : HostOk t) (hlog : LogOk t) :
    LinkOk t :=
  ⟨ht, hh, he.loopOk h.loop, hlog⟩

/-- A step of the host task that neither the owner nor the log shows. -/
theorem LinkOk.hostUnseen (h : LinkOk s) {word decided : Fin n → Option LinkId} {published : List LinkId}
    {links : List Nat} {epoch : Nat} {pc : HostPc n} {ce de : Bool} (hpub : ∀ w ∈ s.published, w ∈ published)
    (hword : ∀ i w, word i = some w → s.word i = some w ∨ (w ∉ s.published ∧ ∃ j, s.host = .publish w j))
    (hcoming : ∀ id i, pc = .publish id i → (∃ j, s.host = .publish id j) ∨ s.refusing id.handle = false)
    (ht : TableOk { s with
      word, decided, published, links, epoch, host := pc, connectedEvent := ce, disconnectedEvent := de })
    (hh : HostOk { s with
      word, decided, published, links, epoch, host := pc, connectedEvent := ce, disconnectedEvent := de }) :
    LinkOk { s with
      word, decided, published, links, epoch, host := pc, connectedEvent := ce, disconnectedEvent := de } :=
  h.of_hostEffect ⟨rfl, rfl, rfl, hpub, fun _ hw => hw, .inl rfl, hword, hcoming, .inl rfl⟩ ht hh
    (h.log.same rfl rfl h.log.pending fun _ ht => ht)

theorem word_stored {word : Fin n → Option LinkId} {i j : Fin n} {v : Option LinkId} {w : LinkId}
    (hw : Function.update word i v j = some w) : (j = i ∧ v = some w) ∨ (j ≠ i ∧ word j = some w) := by
  by_cases hj : j = i
  · subst hj
    exact .inl ⟨rfl, by simpa using hw⟩
  · exact .inr ⟨hj, by simpa [Function.update_of_ne hj] using hw⟩

/-- A step that moves the host task within its callback or sets an event flag. -/
theorem LinkOk.hostQuiet (h : LinkOk s) {pc : HostPc n} {ce de : Bool}
    (hleave : ∀ i w, s.word i = some w → s.host.leaving = some w.handle → pc.leaving = some w.handle)
    (hcoming : ∀ id i, pc = .publish id i → ∃ j, s.host = .publish id j)
    (hh : HostOk { s with host := pc, connectedEvent := ce, disconnectedEvent := de }) :
    LinkOk { s with host := pc, connectedEvent := ce, disconnectedEvent := de } := by
  refine h.hostUnseen (fun _ hw => hw) (fun _ _ hw => .inl hw) (fun id i hpc => .inl (hcoming id i hpc)) ?_ hh
  exact ⟨h.table.unique, h.table.published, fun i w hw => (h.table.linked i w hw).imp_right (hleave i w hw),
    h.table.decided, h.table.owner, h.table.epochs⟩

/-- A step that stores into a decided word. -/
theorem LinkOk.hostDecides (h : LinkOk s) {pc : HostPc n} {i : Fin n} {word : Option LinkId}
    (hword : ∀ id, word = some id → id ∈ s.attempted)
    (hleave : ∀ i w, s.word i = some w → s.host.leaving = some w.handle → pc.leaving = some w.handle)
    (hcoming : ∀ id i, pc ≠ .publish id i)
    (hh : HostOk { s with decided := Function.update s.decided i word, host := pc }) :
    LinkOk { s with decided := Function.update s.decided i word, host := pc } := by
  refine h.hostUnseen (fun _ hw => hw) (fun _ _ hw => .inl hw) (fun id i hpc => absurd hpc (hcoming id i)) ?_ hh
  refine ⟨h.table.unique, h.table.published, fun i w hw => (h.table.linked i w hw).imp_right (hleave i w hw), ?_,
    h.table.owner, h.table.epochs⟩
  intro j w hw
  rcases word_stored hw with ⟨-, hnew⟩ | ⟨-, hold⟩
  · exact hword w hnew
  · exact h.table.decided j w hold

theorem TableOk.entered (h : TableOk s) {id : LinkId} {i : Fin n} {pc : HostPc n} (hleave : s.host.leaving = none)
    (hep : id.epoch ≤ s.epoch) (hlink : id.handle ∈ s.links) (hfree : ∀ i w, s.word i = some w → w.handle ≠ id.handle) :
    TableOk { s with word := Function.update s.word i (some id), published := id :: s.published, host := pc } := by
  have hcases : ∀ j w, Function.update s.word i (some id) j = some w → (j = i ∧ w = id) ∨
      (j ≠ i ∧ s.word j = some w) := by
    intro j w hw
    exact (word_stored hw).imp_left fun hnew => ⟨hnew.1, (Option.some.inj hnew.2).symm⟩
  refine ⟨?_, ?_, ?_, h.decided, ?_, ?_⟩
  · intro j j' w w' hw hw' hh
    rcases hcases j w hw with ⟨rfl, rfl⟩ | ⟨-, hold⟩ <;> rcases hcases j' w' hw' with ⟨rfl, rfl⟩ | ⟨-, hold'⟩
    · rfl
    · exact absurd hh.symm (hfree j' w' hold')
    · exact absurd hh (hfree j w hold)
    · exact h.unique j j' w w' hold hold' hh
  · intro j w hw
    rcases hcases j w hw with ⟨rfl, rfl⟩ | ⟨-, hold⟩
    · exact List.mem_cons_self
    · exact List.mem_cons_of_mem _ (h.published j w hold)
  · intro j w hw
    rcases hcases j w hw with ⟨rfl, rfl⟩ | ⟨-, hold⟩
    · exact .inl hlink
    · exact .inl ((h.linked j w hold).resolve_right (by simp [hleave]))
  · intro w hw
    exact ⟨List.mem_cons_of_mem _ (h.owner w hw).1, (h.owner w hw).2⟩
  · intro w hw
    simp only [List.mem_cons] at hw
    rcases hw with (rfl | hw) | hw
    · exact hep
    · exact h.epochs w (.inl hw)
    · exact h.epochs w (.inr hw)

theorem publish_ok (h : LinkOk s) {id : LinkId} {i : Nat} (hpc : s.host = .publish id i) (stored : Bool) :
    LinkOk (hostStep stored s) := by
  obtain ⟨hpub, hatt, hep, hlink, hfree⟩ := h.host.reads hpc
  have hleave : s.host.leaving = none := by rw [hpc]; rfl
  simp only [hostStep, hpc]
  split
  · next hi =>
    split
    · have hword : ∀ j w, Function.update s.word ⟨i, hi⟩ (some id) j = some w →
          s.word j = some w ∨ (w ∉ s.published ∧ ∃ j', s.host = .publish w j') := by
        intro j w hw
        rcases word_stored hw with ⟨-, hnew⟩ | ⟨-, hold⟩
        · obtain rfl := Option.some.inj hnew
          exact .inr ⟨hpub, i, hpc⟩
        · exact .inl hold
      exact h.hostUnseen (fun _ hw => List.mem_cons_of_mem _ hw) hword (by simp)
        (h.table.entered hleave hep hlink hfree) ⟨by simp, hatt⟩
    · exact h.hostQuiet (by simp [hleave]) (by rintro _ _ ⟨⟩; exact ⟨i, hpc⟩) ⟨hpub, hatt, hep, hlink, hfree⟩
  · exact h.hostQuiet (by simp [hleave]) (by simp) (by simp [HostOk])

theorem claim_ok (h : LinkOk s) {id : LinkId} (hpc : s.host = .claim id) (stored : Bool) :
    LinkOk (hostStep stored s) := by
  obtain ⟨hpub, hatt⟩ := h.host.reads hpc
  have hlog := linkClaim_logOk h.log (.ble id)
  simp only [hostStep, hpc]
  refine h.of_hostEffect ⟨rfl, rfl, rfl, fun _ hw => hw, fun _ hw => List.mem_cons_of_mem _ hw, ?_,
    fun _ _ hw => .inl hw, fun _ _ hp => (by cases hp), .inr ⟨_, rfl, by simp⟩⟩ ?_ (by simp [HostOk])
    (hlog.same rfl rfl hlog.pending fun _ ht => ht)
  · by_cases hu : s.owner = .unowned
    · exact .inr ⟨hu, id, hatt, by simp [linkClaim, Link.note, hu]⟩
    · exact .inl (by simp [linkClaim, Link.note, hu])
  · refine ⟨h.table.unique, h.table.published, ?_, ?_, ?_, ?_⟩
    · intro i w hw
      exact .inl ((h.table.linked i w hw).resolve_right (by simp [hpc, HostPc.leaving]))
    · exact fun i w hw => List.mem_cons_of_mem _ (h.table.decided i w hw)
    · intro w hw
      by_cases hu : s.owner = .unowned
      · obtain rfl : id = w := by simpa [linkClaim, Link.note, hu] using hw
        exact ⟨hpub, List.mem_cons_self⟩
      · have hold : s.owner = .ble w := by simpa [linkClaim, Link.note, hu] using hw
        exact ⟨(h.table.owner w hold).1, List.mem_cons_of_mem _ (h.table.owner w hold).2⟩
    · intro w hw
      simp only [List.mem_cons] at hw
      rcases hw with hw | rfl | hw
      · exact h.table.epochs w (.inl hw)
      · exact h.table.epochs w (.inl hpub)
      · exact h.table.epochs w (.inr hw)

theorem retireWord_ok (h : LinkOk s) {handle : Nat} {i : Fin n} (hpc : s.host = .retireWord handle i) (stored : Bool) :
    LinkOk (hostStep stored s) := by
  have honly : ∀ j w, s.word j = some w → w.handle = handle → j = i := h.host.reads hpc
  have hold : ∀ j w, Function.update s.word i none j = some w → j ≠ i ∧ s.word j = some w := by
    intro j w hw
    exact (word_stored hw).resolve_left (by simp)
  simp only [hostStep, hpc]
  refine h.hostUnseen (fun _ hw => hw) (fun j w hw => .inl (hold j w hw).2) (by simp) ?_ trivial
  refine ⟨?_, ?_, ?_, h.table.decided, h.table.owner, h.table.epochs⟩
  · intro j j' w w' hw hw' hh
    exact h.table.unique j j' w w' (hold j w hw).2 (hold j' w' hw').2 hh
  · exact fun j w hw => h.table.published j w (hold j w hw).2
  · intro j w hw
    obtain ⟨hne, hw⟩ := hold j w hw
    refine .inl ((h.table.linked j w hw).resolve_right fun hl => hne (honly j w hw ?_))
    simpa [hpc, HostPc.leaving, eq_comm] using hl

/-- A step of a write callback that is seen in the log. -/
theorem LinkOk.hostNoted (h : LinkOk s) {pc : HostPc n} {rx : List LinkId} {e : LinkEvent}
    (hleave : s.host.leaving = none)
    (hcoming : ∀ id i, pc ≠ .publish id i) (hr : LinkRule s.log e) (hkeep : ownerAfter s.owner e = s.owner)
    (hrec : ∀ v, e ≠ .record v) (hrx : ∀ tag ∈ rx, Queued (s.log ++ [e]) tag)
    (hh : HostOk (Link.note { s with rxq := rx, host := pc } e)) :
    LinkOk (Link.note { s with rxq := rx, host := pc } e) := by
  refine h.of_hostEffect ⟨rfl, rfl, rfl, fun _ hw => hw, fun _ hw => hw, .inl rfl, fun _ _ hw => .inl hw,
    fun id i hp => absurd hp (hcoming id i), .inr ⟨e, rfl, hrec⟩⟩ ?_ hh
    (h.log.note rfl hkeep.symm hr (fun hp => (h.log.pending hp).concat hrec) hrx)
  exact ⟨h.table.unique, h.table.published,
    fun i w hw => .inl ((h.table.linked i w hw).resolve_right (by simp [hleave])), h.table.decided, h.table.owner,
    h.table.epochs⟩

theorem findRetired_ok (h : LinkOk s) {handle i : Nat} (hpc : s.host = .findRetired handle i) (stored : Bool) :
    LinkOk (hostStep stored s) := by
  have hfront : ∀ j w, s.word j = some w → w.handle = handle → i ≤ j := h.host.reads hpc
  have hleave : s.host.leaving = some handle := by rw [hpc]; rfl
  simp only [hostStep, hpc]
  split
  · next j hj =>
    obtain ⟨w, hw, hh⟩ := instanceIndexOf_found hj
    exact h.hostQuiet (fun _ _ _ hl => hleave.symm.trans hl) (by simp) fun i' w' hw' hh' =>
      h.table.unique i' j w' w hw' hw (hh'.trans hh.symm)
  · next hnext =>
    exact h.hostQuiet (fun _ _ _ hl => hleave.symm.trans hl) (by simp) fun j w hw hh =>
      instanceIndexOf_next hnext hw hh (hfront j w hw hh)
  · next hdone =>
    refine h.hostQuiet (fun j w hw hl => ?_) (by simp) trivial
    have hh : w.handle = handle := by simpa [hleave, eq_comm] using hl
    exact absurd (hfront j w hw hh) (instanceIndexOf_done hdone j)

theorem findDecided_ok (h : LinkOk s) {handle : Nat} {word : Option LinkId} {i : Nat}
    (hpc : s.host = .findDecided handle word i) (stored : Bool) :
    LinkOk (hostStep stored s) := by
  have hhost := h.host.reads hpc
  simp only [hostStep, hpc]
  split
  · exact h.hostQuiet (by simp [hpc, HostPc.leaving]) (by simp) hhost
  · exact h.hostQuiet (by simp [hpc, HostPc.leaving]) (by simp) hhost
  · exact h.hostQuiet (by simp [hpc, HostPc.leaving]) (by simp) trivial

theorem findWriter_ok (h : LinkOk s) {handle i : Nat} (hpc : s.host = .findWriter handle i) (stored : Bool) :
    LinkOk (hostStep stored s) := by
  simp only [hostStep, hpc]
  split
  · next j hj =>
    obtain ⟨w, hw, hh⟩ := instanceIndexOf_found hj
    refine h.hostQuiet (by simp [hpc, HostPc.leaving]) (by simp) fun w' hw' => ?_
    rw [← Option.some.inj (hw.symm.trans hw'), hh]
  · exact h.hostQuiet (by simp [hpc, HostPc.leaving]) (by simp) trivial
  · exact h.hostQuiet (by simp [hpc, HostPc.leaving]) (by simp) trivial

theorem loadWriter_ok (h : LinkOk s) {handle : Nat} {i : Fin n} (hpc : s.host = .loadWriter handle i) (stored : Bool) :
    LinkOk (hostStep stored s) := by
  have hhost := h.host.reads hpc
  simp only [hostStep, hpc]
  split
  · next id hid => exact h.hostQuiet (by simp [hpc, HostPc.leaving]) (by simp) (hhost id hid)
  · exact h.hostQuiet (by simp [hpc, HostPc.leaving]) (by simp) trivial

theorem checkWriter_ok (h : LinkOk s) {handle : Nat} {id : LinkId} (hpc : s.host = .checkWriter handle id)
    (stored : Bool) : LinkOk (hostStep stored s) := by
  have hhost := h.host.reads hpc
  simp only [hostStep, hpc]
  split
  · next howner =>
    refine h.hostNoted (by simp [hpc, HostPc.leaving]) (by simp) trivial rfl (by simp)
      (fun tag ht => (h.log.queued tag ht).append _) ⟨hhost, ?_⟩
    exact .now (by rw [← h.log.owner]; exact howner)
  · exact h.hostQuiet (by simp [hpc, HostPc.leaving]) (by simp) trivial

theorem push_ok (h : LinkOk s) {handle : Nat} {id : LinkId} (hpc : s.host = .push handle id) (stored : Bool) :
    LinkOk (hostStep stored s) := by
  have hhost := h.host.reads hpc
  simp only [hostStep, hpc]
  split
  · refine h.hostNoted (by simp [hpc, HostPc.leaving]) (by simp) hhost rfl (by simp) (fun tag ht => ?_) trivial
    rcases List.mem_append.mp ht with ht | ht
    · exact (h.log.queued tag ht).append _
    · exact ⟨handle, by simp [List.mem_singleton.mp ht]⟩
  · exact h.hostQuiet (by simp [hpc, HostPc.leaving]) (by simp) trivial

theorem hostStep_ok (h : LinkOk s) (stored : Bool) : LinkOk (hostStep stored s) := by
  have hhost := h.host
  unfold HostOk at hhost
  cases hpc : s.host with
  | publish id i => exact publish_ok h hpc stored
  | claim id => exact claim_ok h hpc stored
  | findRetired handle i => exact findRetired_ok h hpc stored
  | retireWord handle i => exact retireWord_ok h hpc stored
  | idle =>
    simp only [hostStep, hpc]
    exact h
  | clearDecided id i =>
    rw [hpc] at hhost
    simp only [hostStep, hpc]
    exact h.hostDecides (by simp) (by simp [hpc, HostPc.leaving]) (by simp) hhost
  | findDecided handle word i => exact findDecided_ok h hpc stored
  | storeDecided word i =>
    rw [hpc] at hhost
    simp only [hostStep, hpc]
    exact h.hostDecides hhost (by simp [hpc, HostPc.leaving]) (by simp) trivial
  | connected =>
    simp only [hostStep, hpc]
    exact h.hostQuiet (by simp [hpc, HostPc.leaving]) (by simp) trivial
  | retireDecided handle i =>
    rw [hpc] at hhost
    simp only [hostStep, hpc]
    exact h.hostDecides (by simp) (fun _ _ _ hl => by rw [hpc] at hl; exact hl) (by simp) hhost
  | disconnected =>
    simp only [hostStep, hpc]
    exact h.hostQuiet (by simp [hpc, HostPc.leaving]) (by simp) trivial
  | findWriter handle i => exact findWriter_ok h hpc stored
  | loadWriter handle i => exact loadWriter_ok h hpc stored
  | checkWriter handle id => exact checkWriter_ok h hpc stored
  | push handle id => exact push_ok h hpc stored

theorem connect_ok (h : LinkOk s) (hidle : s.host = .idle) {handle : Nat} (hnew : handle ∉ s.links)
    (hfree : s.refusing handle = false) :
    LinkOk { s with
      epoch := s.epoch + 1, links := handle :: s.links, host := .publish ⟨handle, s.epoch + 1⟩ 0 } := by
  have hlinks : ∀ i w, s.word i = some w → w.handle ∈ s.links := fun i w hw =>
    (h.table.linked i w hw).resolve_right (by simp [hidle, HostPc.leaving])
  have hunborn : ∀ w, w ∈ s.published ∨ w ∈ s.attempted → w ≠ ⟨handle, s.epoch + 1⟩ := by
    rintro w hw rfl
    have hle : s.epoch + 1 ≤ s.epoch := h.table.epochs _ hw
    omega
  refine h.hostUnseen (fun _ hw => hw) (fun _ _ hw => .inl hw) ?_ ?_ ?_
  · rintro id i ⟨⟩
    exact .inr hfree
  · exact ⟨h.table.unique, h.table.published, fun i w hw => .inl (List.mem_cons_of_mem _ (hlinks i w hw)),
      h.table.decided, h.table.owner, fun w hw => (h.table.epochs w hw).trans (Nat.le_succ _)⟩
  · refine ⟨fun hp => hunborn _ (.inl hp) rfl, fun ha => hunborn _ (.inr ha) rfl, le_rfl, List.mem_cons_self, ?_⟩
    rintro i w hw rfl
    exact hnew (hlinks i w hw)

/-- No connection takes up a handle between the moment the loop task has found the refused
instance in the table and the moment the stack is told to drop that handle. -/
def KeepsHandle (s : Link n) : LinkAct → Prop
  | .hostCall (.connect handle) => s.refusing handle = false
  | _ => True

theorem hostCall_ok (h : LinkOk s) {c : HostCall} (hc : KeepsHandle s (.hostCall c)) : LinkOk (hostCall c s) := by
  unfold hostCall
  split
  · exact h
  · next hidle =>
    have hidle : s.host = .idle := not_not.mp hidle
    cases c with
    | connect handle =>
      dsimp only
      split
      · exact h
      · next hnew => exact connect_ok h hidle hnew hc
    | disconnect handle =>
      dsimp only
      split
      · exact h
      · refine h.hostUnseen (fun _ hw => hw) (fun _ _ hw => .inl hw) (by simp) ?_ fun _ _ _ _ => Nat.zero_le _
        refine ⟨h.table.unique, h.table.published, fun i w hw => ?_, h.table.decided, h.table.owner, h.table.epochs⟩
        have hlink := (h.table.linked i w hw).resolve_right (by simp [hidle, HostPc.leaving])
        by_cases hh : w.handle = handle
        · exact .inr (by simp [HostPc.leaving, hh])
        · exact .inl (by simp [hlink, hh])
    | write handle =>
      dsimp only
      split
      · exact h
      · exact h.hostQuiet (by simp [hidle, HostPc.leaving]) (by simp) trivial

end HostSteps

section Runs

def KeepsHandles : List LinkAct → Link n → Prop
  | [], _ => True
  | a :: rest, s => KeepsHandle s a ∧ KeepsHandles rest (linkStep s a)

theorem linkBoot_ok : LinkOk ({} : Link n) := by
  refine ⟨⟨?_, ?_, ?_, ?_, ?_, ?_⟩, trivial, trivial, ⟨.nil, rfl, ?_, ?_, ?_⟩⟩ <;> simp

theorem linkStep_ok {s : Link n} (h : LinkOk s) {a : LinkAct} (ha : KeepsHandle s a) : LinkOk (linkStep s a) := by
  cases a with
  | hostCall c => exact hostCall_ok h ha
  | host stored => exact hostStep_ok h stored
  | loopCall c => exact loopCall_ok h c
  | loop b => exact loopStep_ok h b

theorem linkRun_ok (acts : List LinkAct) {s : Link n} (h : LinkOk s) (hk : KeepsHandles acts s) :
    LinkOk (linkRun acts s) := by
  induction acts generalizing s with
  | nil => exact h
  | cons a rest ih => exact ih (linkStep_ok h hk.1) hk.2

/-- Every interleaving of the two tasks keeps the rules of the link, as long as no connection
takes up a handle under a refusal. -/
theorem link_exclusive (acts : List LinkAct) (h : KeepsHandles acts ({} : Link n)) :
    let s := linkRun acts ({} : Link n)
    s.owner = linkOwner s.log ∧ ∀ pre e post, s.log = pre ++ e :: post → LinkRule pre e :=
  ⟨(linkRun_ok acts linkBoot_ok h).log.owner, (linkRun_ok acts linkBoot_ok h).log.rules⟩

instance (s : Link n) : (a : LinkAct) → Decidable (KeepsHandle s a)
  | .hostCall (.connect handle) => inferInstanceAs (Decidable (s.refusing handle = false))
  | .hostCall (.disconnect _) | .hostCall (.write _) | .host _ | .loopCall _ | .loop _ => .isTrue trivial

instance : (acts : List LinkAct) → (s : Link n) → Decidable (KeepsHandles acts s)
  | [], _ => .isTrue trivial
  | a :: rest, s =>
    have := instDecidableKeepsHandles rest (linkStep s a)
    inferInstanceAs (Decidable (KeepsHandle s a ∧ KeepsHandles rest (linkStep s a)))

def hostTurns (k : Nat) : List LinkAct := List.replicate k (.host true)

def loopTurns (k : Nat) : List LinkAct := List.replicate k (.loop false)

/-- A client connects, writes a frame and is served; a second one is refused; the first one
leaves and is cleaned up after. -/
def servedRun : List LinkAct :=
  .hostCall (.connect 0) :: hostTurns 8 ++ .hostCall (.write 0) :: hostTurns 8 ++
    .loopCall .rx :: loopTurns 8 ++ .hostCall (.connect 1) :: hostTurns 8 ++
    .loopCall .contenderRefusal :: loopTurns 16 ++ .hostCall (.disconnect 0) :: hostTurns 8 ++
    .loopCall .events :: loopTurns 16 ++ .loopCall (.disconnectCleanup false) :: loopTurns 16

theorem link_exclusive_served : KeepsHandles servedRun ({} : Link 2) ∧
    (linkRun servedRun ({} : Link 2)).log =
      [.claim (.ble ⟨0, 1⟩) true, .check ⟨0, 1⟩, .enqueue 0 ⟨0, 1⟩, .dispatch ⟨0, 1⟩, .claim (.ble ⟨1, 2⟩) false,
        .refuse ⟨1, 2⟩ (some ⟨1, 2⟩), .record (.ble ⟨0, 1⟩), .cleanup (.ble ⟨0, 1⟩) (.ble ⟨0, 1⟩) false,
        .release (.ble ⟨0, 1⟩) true] ∧
    ∀ pre e post, (linkRun servedRun ({} : Link 2)).log = pre ++ e :: post → LinkRule pre e := by
  have h : KeepsHandles servedRun ({} : Link 2) := by decide +kernel
  exact ⟨h, by decide +kernel, (link_exclusive servedRun h).2⟩

/-- A contender that lost its claim to the LAN client is found by the refusal when the slot is
free. It leaves, another connection takes up its handle and wins the slot, and only then the
stack is told to drop the handle. -/
def reusedRun : List LinkAct :=
  .loopCall .lanAccept :: loopTurns 3 ++ .hostCall (.connect 0) :: hostTurns 6 ++
    .loopCall .lanDisconnect :: loopTurns 1 ++ .loopCall (.disconnectCleanup false) :: loopTurns 5 ++
    .loopCall .contenderRefusal :: loopTurns 5 ++ .hostCall (.disconnect 0) :: hostTurns 4 ++
    .hostCall (.connect 0) :: hostTurns 3 ++ loopTurns 1

theorem link_refuses_owner :
    (linkRun reusedRun ({} : Link 1)).log =
      [.claim (.lan 1) true, .claim (.ble ⟨0, 2⟩) false, .record (.lan 1), .cleanup (.lan 1) (.lan 1) false,
        .release (.lan 1) true, .claim (.ble ⟨0, 3⟩) true, .refuse ⟨0, 2⟩ (some ⟨0, 3⟩)] ∧
    ¬ ∀ (n : Nat) (acts : List LinkAct) (pre : List LinkEvent) (e : LinkEvent) (post : List LinkEvent),
      (linkRun acts ({} : Link n)).log = pre ++ e :: post → LinkRule pre e := by
  have hlog : (linkRun reusedRun ({} : Link 1)).log =
      [.claim (.lan 1) true, .claim (.ble ⟨0, 2⟩) false, .record (.lan 1), .cleanup (.lan 1) (.lan 1) false,
        .release (.lan 1) true, .claim (.ble ⟨0, 3⟩) true, .refuse ⟨0, 2⟩ (some ⟨0, 3⟩)] := by decide +kernel
  refine ⟨hlog, fun hall => ?_⟩
  have hrule := hall 1 reusedRun [_, _, _, _, _, _] _ [] hlog
  exact hrule ⟨0, 3⟩ rfl rfl

end Runs

end OpenDisplay
