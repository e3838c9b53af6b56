import OpenDisplay.Xfer.Coupling

/-! What PIPE does with a DATA frame, in small pieces: it hands chunks over in
order, holds those that come early, and answers. -/

namespace OpenDisplay

open Loops

/-- The chunk that is due waits in its slot. -/
def Due (d : Dev) : Prop :=
  (d.reorder (pipeSlot d.pipe.expectedSeq)).occupied = true ∧
    (d.reorder (pipeSlot d.pipe.expectedSeq)).seq = d.pipe.expectedSeq

/-- `seq` is ahead of the chunk that is due, and within the window. -/
def Early (seq : UInt8) (d : Dev) : Prop :=
  seq - d.pipe.expectedSeq ≠ 0 ∧ seq - d.pipe.expectedSeq < d.pipe.window

/-- An in-order frame whose payload has been handed over. -/
def pipeAccept (seq : UInt8) (d : Dev) : Dev :=
  { pipeTake d with
    pipe := pipeUpdateHighest seq { (pipeTake d).pipe with
      framesSinceAck := (pipeTake d).pipe.framesSinceAck + 1 } }

/-- An early frame in its slot. -/
def pipeHold (seq : UInt8) (payload : Bytes) (d : Dev) : Dev :=
  Dev.log (.held (seq - d.pipe.expectedSeq).toNat)
    { pipeStore seq payload d with pipe := pipeUpdateHighest seq (pipeStore seq payload d).pipe }

/-- A frame is taken or held first; after an in-order chunk the slots are
drained; what is left is to answer. -/
inductive Turn where
  | fresh | draining | answering
deriving DecidableEq

inductive Deed (app : App) (ctx : Ctx) (seq : UInt8) (payload : Bytes) :
    Turn × Dev → Turn × Dev → Prop where
  | accept {d u : Dev} : pipeMode d.xfer.mode = true → seq = d.pipe.expectedSeq →
      pipeHand app payload d = (.ok, u) →
      Deed app ctx seq payload (.fresh, d) (.draining, pipeAccept seq u)
  | release {d u : Dev} : pipeMode d.xfer.mode = true → Due d →
      pipeHand app (d.reorder (pipeSlot d.pipe.expectedSeq)).data d = (.ok, u) →
      Deed app ctx seq payload (.draining, d) (.draining, pipeRelease u)
  | drained {d : Dev} : ¬ Due d → Deed app ctx seq payload (.draining, d) (.answering, d)
  | spill {turn : Turn} {d u : Dev} {data : Bytes} {r : StreamResult} {error : UInt8} :
      error ≠ 0x04 → pipeMode d.xfer.mode = true →
      (turn = .fresh ∧ seq = d.pipe.expectedSeq ∧ data = payload ∨
        turn = .draining ∧ Due d ∧ data = (d.reorder (pipeSlot d.pipe.expectedSeq)).data) →
      pipeHand app data d = (r, u) → r ≠ .ok →
      Deed app ctx seq payload (turn, d)
        (.answering, (pipeSendDataNack ctx error (odXferStreamCause r) u).2)
  | hold {d : Dev} : pipeMode d.xfer.mode = true → Early seq d →
      (pipeStore seq payload d).pipe.queuedCount.toNat < odPipeReorderSlots →
      Deed app ctx seq payload (.fresh, d) (.answering, pipeHold seq payload d)
  | overfull {d : Dev} : pipeMode d.xfer.mode = true → Early seq d →
      odPipeReorderSlots ≤ (pipeStore seq payload d).pipe.queuedCount.toNat →
      Deed app ctx seq payload (.fresh, d)
        (.answering, (pipeSendDataNack ctx 0x03 .reorderFull (pipeStore seq payload d)).2)
  | outside {d : Dev} : pipeMode d.xfer.mode = true → ¬ seq - d.pipe.expectedSeq < d.pipe.window →
      ¬ d.pipe.expectedSeq - seq ≤ d.pipe.window → seq - d.pipe.expectedSeq ≠ 0 →
      Deed app ctx seq payload (.fresh, d)
        (.answering, (pipeSendDataNack ctx 0x04 .sequenceWindow d).2)
  | oversize {d : Dev} : pipeMode d.xfer.mode = true →
      Deed app ctx seq payload (.fresh, d)
        (.answering, (pipeSendDataNack ctx 0x03 .frameSize d).2)
  | mark {turn : Turn} {d d' : Dev} : turn ≠ .draining → pipeMode d.xfer.mode = true →
      Marks d d' → Deed app ctx seq payload (turn, d) (.answering, d')
  | sack {turn : Turn} {d : Dev} : turn ≠ .draining → pipeMode d.xfer.mode = true →
      Deed app ctx seq payload (turn, d) (.answering, (pipeSackOrFatal app ctx d).2)
  | finish {d : Dev} : pipeMode d.xfer.mode = true →
      Deed app ctx seq payload (.answering, d) (.answering, (pipeFinish app ctx [] d).2)

abbrev Deeds (app : App) (ctx : Ctx) (seq : UInt8) (payload : Bytes) :=
  Relation.ReflTransGen (Deed app ctx seq payload)

section Paths

variable {app : App} {ctx : Ctx} {seq : UInt8} {payload : Bytes} {s₀ : Turn × Dev} {turn : Turn}
  {d : Dev}

theorem Deeds.also {s t : Turn × Dev} (h : Deeds app ctx seq payload s₀ s)
    (hd : Deed app ctx seq payload s t) : Deeds app ctx seq payload s₀ t := h.tail hd

theorem Deed.turned {s t : Turn × Dev} (hd : Deed app ctx seq payload s t) : t.1 ≠ .fresh := by
  cases hd <;> nofun

theorem Deeds.rule {I : Turn × Dev → Prop} {s t : Turn × Dev}
    (h : Deeds app ctx seq payload s t)
    (hstep : ∀ {s t}, Deed app ctx seq payload s t → I s → I t) (hi : I s) : I t := by
  induction h with
  | refl => exact hi
  | tail _ hw ih => exact hstep hw ih

theorem pipeHand_mode {data : Bytes} {r : StreamResult} {u : Dev}
    (h : pipeHand app data d = (r, u)) (hm : pipeMode d.xfer.mode = true) :
    pipeMode u.xfer.mode = true := by
  unfold pipeHand at h
  split_ifs at h
  · obtain ⟨-, rfl⟩ := Prod.mk.inj h
    exact hm
  · have hs := odXferPipeConsume_streams app data d
    rw [h] at hs
    rw [hs.mode]
    exact hm

theorem pipeSendSack_eq {status : TxqStatus} {u : Dev} (h : pipeSendSack app ctx d = (status, u)) :
    u.events = d.events ++ [.reply ctx.rp ([respAck, respPipeData] ++ pipeBuildSack d) status] ∧
      u.xfer = d.xfer := by
  obtain ⟨rfl, rfl⟩ := Prod.mk.inj h
  exact ⟨rfl, rfl⟩

theorem pipeSackOrFatal_ok {u : Dev} (h : pipeSackOrFatal app ctx d = (true, u)) :
    u.xfer = d.xfer := by
  unfold pipeSackOrFatal at h
  split at h
  · next v hs =>
    obtain ⟨-, rfl⟩ := Prod.mk.inj h
    obtain ⟨-, rfl⟩ := Prod.mk.inj hs
    rfl
  · simp at h

theorem Deeds.sackOrFatal (h : Deeds app ctx seq payload s₀ (turn, d)) (hst : turn ≠ .draining)
    (hm : pipeMode d.xfer.mode = true) {ok : Bool} {u : Dev} (hr : pipeSackOrFatal app ctx d = (ok, u)) :
    Deeds app ctx seq payload s₀ (.answering, u) := by
  have hs := h.also (.sack hst hm)
  rwa [hr] at hs

theorem Deeds.firstAck (h : Deeds app ctx seq payload s₀ (turn, d)) (hst : turn ≠ .draining)
    (hm : pipeMode d.xfer.mode = true) :
    Deeds app ctx seq payload s₀ (.answering, (pipeFirstAck app ctx d).2) := by
  unfold pipeFirstAck
  split
  · next u hr => exact h.sackOrFatal hst hm hr
  · next u hr => exact h.sackOrFatal hst hm hr

theorem Deeds.gapAck (h : Deeds app ctx seq payload s₀ (turn, d)) (hst : turn ≠ .draining)
    (hm : pipeMode d.xfer.mode = true) :
    Deeds app ctx seq payload s₀ (.answering, (pipeGapAck app ctx d).2) := by
  have hb : Deeds app ctx seq payload s₀ (.answering,
      { d with pipe := { d.pipe with oooAcksSinceGap := d.pipe.oooAcksSinceGap + 1 } }) :=
    h.also (.mark hst hm ⟨_, _, _, rfl⟩)
  unfold pipeGapAck
  dsimp only
  split_ifs
  · split
    · next u hr => exact hb.sackOrFatal nofun hm hr
    · next u hr => exact hb.sackOrFatal nofun hm hr
  · exact hb

theorem pipeCauseError_ne (d : Dev) : pipeCauseError d ≠ 0x04 := by
  unfold pipeCauseError
  split_ifs <;> decide

theorem pipeDrainPass_due {d' : Dev} (h : pipeDrainPass app d = .next d') : Due d := by
  unfold pipeDrainPass at h
  dsimp only at h
  split_ifs at h with hc
  exact hc

theorem pipeDrainPass_spill {r : StreamResult × Dev} (h : pipeDrainPass app d = .stop r)
    (hne : r.1 ≠ .ok) : Due d := by
  unfold pipeDrainPass at h
  dsimp only at h
  split_ifs at h with hc
  · exact hc
  · obtain rfl := Iter.stop.inj h
    exact absurd rfl hne

theorem pipeDrainPass_dry (h : pipeDrainPass app d = .stop (.ok, d)) : ¬ Due d := by
  intro hdue
  unfold Due at hdue
  unfold pipeDrainPass at h
  dsimp only at h
  rw [if_pos hdue] at h
  split at h
  · cases h
  · next r u hne hu =>
    obtain ⟨rfl, -⟩ := Prod.mk.inj (Iter.stop.inj h)
    exact hne rfl

/-- Where a drain from `s₀` may leave the device. -/
def Drains (app : App) (ctx : Ctx) (seq : UInt8) (payload : Bytes) (s₀ : Turn × Dev)
    (res : StreamResult × Dev) : Prop :=
  (res.1 = .ok → Deeds app ctx seq payload s₀ (.answering, res.2) ∧ pipeMode res.2.xfer.mode = true) ∧
  (res.1 ≠ .ok → ∀ error, error ≠ 0x04 → Deeds app ctx seq payload s₀
    (.answering, (pipeSendDataNack ctx error (odXferStreamCause res.1) res.2).2))

theorem Deeds.drain (h : Deeds app ctx seq payload s₀ (.draining, d)) (hm : pipeMode d.xfer.mode = true) :
    Drains app ctx seq payload s₀ (pipeDrain app d) := by
  refine loop_rule (P := fun d (res : StreamResult × Dev) =>
    Deeds app ctx seq payload s₀ (.draining, d) → pipeMode d.xfer.mode = true →
    Drains app ctx seq payload s₀ res) ?_ ?_ d h hm
  · intro d res hs h hm
    rcases pipeDrainPass_stop hs with ⟨hr, hne⟩ | rfl
    · refine ⟨fun hok => absurd hok hne, fun _ error he => h.also ?_⟩
      exact .spill he hm (.inr ⟨rfl, pipeDrainPass_spill hs hne, rfl⟩) hr hne
    · exact ⟨fun _ => ⟨h.also (.drained (pipeDrainPass_dry hs)), hm⟩, fun hne => absurd rfl hne⟩
  · intro d d' res hn ih h hm
    obtain ⟨u, hu, rfl⟩ := pipeDrainPass_next hn
    have hmu : pipeMode u.xfer.mode = true := pipeHand_mode hu hm
    exact ih (h.also (.release hm (pipeDrainPass_due hn) hu)) hmu

theorem Deeds.afterDrain (h : Deeds app ctx seq payload s₀ (.answering, d)) (hm : pipeMode d.xfer.mode = true) :
    Deeds app ctx seq payload s₀ (.answering, (pipeAfterDrain app ctx d).2) := by
  unfold pipeAfterDrain
  generalize hd1 : (if d.pipe.queuedCount = 0 then { d with pipe := { d.pipe with gapOpen := false } }
    else d : Dev) = d1
  dsimp only
  have hx : d1.xfer = d.xfer := by rw [← hd1]; split_ifs <;> rfl
  have hm1 : pipeMode d1.xfer.mode = true := by rw [hx, hm]
  have h1 : Deeds app ctx seq payload s₀ (.answering, d1) := by
    refine h.also (.mark nofun hm ⟨if d.pipe.queuedCount = 0 then false else d.pipe.gapOpen,
      d.pipe.framesSinceAck, d.pipe.oooAcksSinceGap, ?_⟩)
    rw [← hd1]
    split_ifs <;> rfl
  split_ifs
  · split
    · next u hr => exact h1.sackOrFatal nofun hm1 hr
    · next u hr =>
      exact (h1.sackOrFatal nofun hm1 hr).also (.finish (by rw [pipeSackOrFatal_ok hr]; exact hm1))
  · split
    · next u hr => exact h1.sackOrFatal nofun hm1 hr
    · next u hr => exact h1.sackOrFatal nofun hm1 hr
  · exact h1

theorem Deeds.inOrder (h : Deeds app ctx seq payload s₀ (.fresh, d)) (hm : pipeMode d.xfer.mode = true)
    (hseq : seq = d.pipe.expectedSeq) :
    Deeds app ctx seq payload s₀ (.answering, (pipeInOrder app ctx seq payload d).2) := by
  unfold pipeInOrder
  split
  · next u hr =>
    have hu := h.also (.accept hm hseq hr)
    have hm' : pipeMode u.xfer.mode = true := pipeHand_mode hr hm
    have hmu : pipeMode (pipeAccept seq u).xfer.mode = true := hm'
    have hd := hu.drain hmu
    dsimp only
    split
    · next w hw =>
      change pipeDrain app (pipeAccept seq u) = _ at hw
      rw [hw] at hd
      obtain ⟨hdeeds, hmw⟩ := hd.1 rfl
      exact hdeeds.afterDrain hmw
    · next r w hne hw =>
      change pipeDrain app (pipeAccept seq u) = _ at hw
      rw [hw] at hd
      exact hd.2 hne _ (pipeCauseError_ne w)
  · next r u hne hr => exact h.also (.spill (pipeCauseError_ne u) hm (.inl ⟨rfl, hseq, rfl⟩) hr hne)

theorem Deeds.outOfOrder (h : Deeds app ctx seq payload s₀ (.fresh, d)) (hm : pipeMode d.xfer.mode = true)
    (hearly : Early seq d) :
    Deeds app ctx seq payload s₀ (.answering, (pipeOutOfOrder app ctx seq payload d).2) := by
  unfold pipeOutOfOrder
  dsimp only
  split_ifs with hbig hfull hgap
  · exact h.also (.oversize hm)
  · exact h.also (.overfull hm hearly hfull)
  · have hh := h.also (.hold hm hearly (Nat.not_le.mp hfull))
    exact (hh.also (.mark nofun hm ⟨true, _, _, rfl⟩)).firstAck nofun hm
  · exact (h.also (.hold hm hearly (Nat.not_le.mp hfull))).gapAck nofun hm

theorem Deeds.frame (h : Deeds app ctx seq payload s₀ (.fresh, d)) (hm : pipeMode d.xfer.mode = true) :
    Deeds app ctx seq payload s₀ (.answering, (pipeFrame app ctx seq payload d).2) := by
  unfold pipeFrame
  dsimp only
  split_ifs with hdue hearly hback hgap
  · exact h.inOrder hm (by rwa [UInt8.sub_eq_iff_eq_add, UInt8.zero_add] at hdue)
  · exact h.outOfOrder hm ⟨hdue, hearly⟩
  · exact h.firstAck nofun hm
  · exact h.gapAck nofun hm
  · exact h.also (.outside hm hearly hback hdue)

end Paths

/-- A DATA frame that is not for an open transfer of this connection. -/
def pipeIgnores (ctx : Ctx) (body : Bytes) (d : Dev) : Bool :=
  ctx.rp.origin ≠ .ble ∨ d.pipe.isOpen = false ∨ pipeMode d.xfer.mode = false ∨ body.length < 1 ∨
    odXferOwnerMatches ctx d = false

theorem odPipeData_ignored (app : App) {ctx : Ctx} {body : Bytes} {d : Dev}
    (h : pipeIgnores ctx body d = true) : (odPipeData app ctx body d).2 = d ∨
      ∃ frame status, (odPipeData app ctx body d).2 = d.log (.reply ctx.rp frame status) ∧
        frame.take 1 = [respNack] := by
  simp only [pipeIgnores, decide_eq_true_eq] at h
  unfold odPipeData
  split_ifs with horigin hopen howner hfit
  · exact .inr ⟨_, _, rfl, rfl⟩
  · exact .inl rfl
  · exact .inl rfl
  · simp_all
  · simp_all

theorem pipeIgnores_false {ctx : Ctx} {body : Bytes} {d : Dev} (h : pipeIgnores ctx body d = false) :
    pipeMode d.xfer.mode = true ∧ 1 ≤ body.length ∧ ∀ app, odPipeData app ctx body d =
      if pipeFrameFits ctx (body.drop 1) d = false then pipeSendDataNack ctx 0x03 .frameSize d
      else pipeFrame app ctx (byteAt body 0) (body.drop 1) d := by
  simp only [pipeIgnores, decide_eq_false_iff_not, not_or, Bool.not_eq_false, ne_eq, not_not] at h
  obtain ⟨horigin, hopen, hm, hlen, howner⟩ := h
  have hfatal : d.xfer.mode ≠ .fatal := by
    rintro hf
    rw [hf] at hm
    exact absurd hm nofun
  refine ⟨hm, Nat.not_lt.mp hlen, fun app => ?_⟩
  unfold odPipeData
  rw [if_neg (by simpa using horigin), if_neg (by simp [hopen, hfatal, hm]; simpa using hlen),
    if_neg (by simp [howner])]

/-- A frame of an open transfer is a path of deeds. -/
theorem odPipeData_deeds (app : App) {ctx : Ctx} {body : Bytes} {d : Dev}
    (h : pipeIgnores ctx body d = false) :
    Deeds app ctx (byteAt body 0) (body.drop 1) (.fresh, d)
      (.answering, (odPipeData app ctx body d).2) := by
  obtain ⟨hm, -, heq⟩ := pipeIgnores_false h
  rw [heq]
  split_ifs
  · exact .tail .refl (.oversize hm)
  · exact Deeds.frame .refl hm

end OpenDisplay
