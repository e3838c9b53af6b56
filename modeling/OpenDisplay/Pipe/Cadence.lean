import OpenDisplay.Xfer.Foreign

/-! When PIPE acknowledges. The log counts the chunks that have been taken in order
since the last acknowledgement; the eight-bit counter in PIPE's state is that count,
and it stays below the number that was negotiated. -/

namespace OpenDisplay

open Loops

/-- A selective acknowledgement that was sent. -/
def Event.isSack : Event → Bool
  | .reply _ (status :: opcode :: _) .ok => status == respAck && opcode == respPipeData
  | _ => false

def sinceAdd (n : Nat) : Event → Nat
  | .admitted _ _ _ => 0
  | .taken => n + 1
  | e => if e.isSack then 0 else n

/-- The chunks taken in order since the last acknowledgement of the transfer. -/
def sinceSack (es : List Event) : Nat := es.foldl sinceAdd 0

/-- Events that the count does not notice. -/
def unpaced : Event → Bool
  | .admitted _ _ _ | .taken => false
  | e => !e.isSack

section Count

variable {d d' : Dev} {es post : List Event}

theorem sinceSack_concat (es : List Event) (e : Event) :
    sinceSack (es ++ [e]) = sinceAdd (sinceSack es) e := by
  simp [sinceSack]

theorem sinceAdd_unpaced {e : Event} (he : unpaced e = true) (n : Nat) : sinceAdd n e = n := by
  cases e <;> simp_all [unpaced, sinceAdd]

theorem sinceSack_append (es : List Event) (h : ∀ e ∈ post, unpaced e = true) :
    sinceSack (es ++ post) = sinceSack es := by
  induction post using List.reverseRecOn with
  | nil => rw [List.append_nil]
  | append_singleton post e ih =>
    rw [← List.append_assoc, sinceSack_concat, sinceAdd_unpaced (h e (by simp))]
    exact ih fun e he => h e (by simp [he])

theorem Adds.since (h : Adds (unpaced · = true) d d') : sinceSack d'.events = sinceSack d.events := by
  obtain ⟨es, hes, hall⟩ := h
  rw [hes, sinceSack_append _ hall]

/-- Without an acknowledgement or a new transfer, the count grows with the chunks taken. -/
theorem sinceSack_unacked (es : List Event) (hnone : ∀ m c t, .admitted m c t ∉ post)
    (hsack : ∀ e ∈ post, e.isSack = false) :
    sinceSack (es ++ post) = sinceSack es + post.count .taken := by
  induction post using List.reverseRecOn with
  | nil => simp
  | append_singleton post e ih =>
    have hprefix := ih (fun m c t hm => hnone m c t (by simp [hm])) fun e he => hsack e (by simp [he])
    have he := hsack e (by simp)
    rw [← List.append_assoc, sinceSack_concat, hprefix, List.count_append]
    cases e with
    | admitted m c t => exact absurd (by simp) (hnone m c t)
    | taken => simp [sinceAdd, Nat.add_assoc]
    | _ => simp [sinceAdd, he]

end Count

section Paced

variable {app : App} {ctx : Ctx} {d d' u : Dev} {p : PipeState}

/-- What was negotiated. Nothing is held while no gap is open. -/
structure Terms (p : PipeState) : Prop where
  every : 1 ≤ p.ackEvery.toNat
  fits : p.ackEvery.toNat ≤ p.window.toNat
  window : p.window.toNat ≤ 32
  gap : p.gapOpen = false → p.queuedCount = 0

/-- The counters are right, though an acknowledgement may be due. -/
structure Unacked (d : Dev) : Prop where
  terms : Terms d.pipe
  frames : d.pipe.framesSinceAck.toNat = sinceSack d.events
  acks : d.pipe.oooAcksSinceGap.toNat < d.pipe.ackEvery.toNat

/-- The counters are right and no acknowledgement is due. -/
structure Paced (d : Dev) : Prop extends Unacked d where
  due : sinceSack d.events < d.pipe.ackEvery.toNat

theorem Unacked.keep (h : Unacked d) (hp : d'.pipe = d.pipe) (hes : Adds (unpaced · = true) d d') :
    Unacked d' :=
  ⟨hp ▸ h.terms, by rw [hp, hes.since]; exact h.frames, by rw [hp]; exact h.acks⟩

theorem Paced.keep (h : Paced d) (hp : d'.pipe = d.pipe) (hes : Adds (unpaced · = true) d d') :
    Paced d' :=
  ⟨h.toUnacked.keep hp hes, by rw [hp, hes.since]; exact h.due⟩

theorem pipeNegotiate_terms (isPartial : Bool) (w n : UInt8) (f : UInt16) :
    Terms (pipeNegotiate isPartial w n f {}) := by
  obtain ⟨hlo, hhi⟩ := pipeNegotiate_window isPartial w n f
  have hw : ∃ m : UInt8, m ≠ 0 ∧ (pipeNegotiate isPartial w n f {}).ackEvery =
      if (pipeNegotiate isPartial w n f {}).window < m then
        (pipeNegotiate isPartial w n f {}).window else m := by
    refine ⟨if (if odPipeMaxN < n then odPipeMaxN else n) = 0 then 1
      else if odPipeMaxN < n then odPipeMaxN else n, ?_, rfl⟩
    generalize (if odPipeMaxN < n then odPipeMaxN else n) = k
    split_ifs with hzero
    · decide
    · exact hzero
  obtain ⟨m, hm, he⟩ := hw
  have hm' : 1 ≤ m.toNat := by
    rw [Nat.one_le_iff_ne_zero]
    intro hz
    exact hm (UInt8.toNat_inj.mp hz)
  refine ⟨?_, ?_, hhi, fun _ => rfl⟩
  · rw [he]
    split_ifs <;> assumption
  · rw [he]
    split_ifs with hlt
    · exact le_rfl
    · exact UInt8.le_iff_toNat_le.mp (UInt8.not_lt.mp hlt)

theorem sinceSack_le_taken (es : List Event) : sinceSack es ≤ (progress es).taken := by
  induction es using List.reverseRecOn with
  | nil => exact le_rfl
  | append_singleton es e ih =>
    have hadd : (progress (es ++ [e])).taken = ((progress es).add e).taken := by simp [progress]
    rw [sinceSack_concat, hadd]
    cases e <;> simp only [sinceAdd, Progress.add] <;> first | omega | (split_ifs <;> omega)

theorem Opens.paced (h : Opens d) : Paced d := by
  obtain ⟨⟨⟨isPartial, w, n, f, hp⟩, -⟩, hprog⟩ := h
  have hzero : sinceSack d.events = 0 := by
    have := sinceSack_le_taken d.events
    rw [hprog] at this
    exact Nat.le_zero.mp this
  have hterms := pipeNegotiate_terms isPartial w n f
  have hevery := hterms.every
  refine ⟨⟨hp ▸ hterms, ?_, ?_⟩, ?_⟩
  · rw [hp, hzero]
    rfl
  · rw [hp]
    exact hevery
  · rw [hp, hzero]
    exact hevery

theorem unpaced_hand {data : Bytes} {r : StreamResult} (h : pipeHand app data d = (r, u)) :
    Adds (unpaced · = true) d u := by
  unfold pipeHand at h
  split_ifs at h
  · obtain ⟨-, rfl⟩ := Prod.mk.inj h
    exact .refl _ d
  · have hs := odXferPipeConsume_streams app data d
    rw [h] at hs
    obtain ⟨es, hes, hall⟩ := hs.events
    have hlog : Adds (unpaced · = true) d (d.log (.stream data)) := .log d rfl
    refine hlog.trans ⟨es, hes, fun e he => ?_⟩
    rcases hall e he with ⟨o, b, c, rfl⟩ | ⟨status, rfl⟩ <;> rfl

theorem pipeHand_pipe {data : Bytes} {r : StreamResult} (h : pipeHand app data d = (r, u)) :
    u.pipe = d.pipe := by
  have hp := (pipeHand_frame app data d).1
  rw [h] at hp
  exact hp

theorem Unacked.hand (h : Unacked d) {data : Bytes} {r : StreamResult}
    (hr : pipeHand app data d = (r, u)) : Unacked u :=
  h.keep (pipeHand_pipe hr) (unpaced_hand hr)

theorem pipeSendSack_fatal {status : TxqStatus} (h : pipeSendSack app ctx d = (status, u))
    (hm : pipeMode d.xfer.mode = true) :
    (odXferPipeEnterFatal (odXferTerminalFailure .replyDelivery u)).xfer.mode = .fatal := by
  have hmu : pipeMode (odXferTerminalFailure .replyDelivery u).xfer.mode = true := by
    obtain ⟨-, rfl⟩ := Prod.mk.inj h
    exact hm
  rw [odXferPipeEnterFatal_eq hmu]

/-- An acknowledgement that goes out starts the count again; one that does not go
out ends the transfer. -/
theorem paced_of_sack (ht : Terms d.pipe) {ok : Bool} (h : pipeSackOrFatal app ctx d = (ok, u))
    (hm : pipeMode d.xfer.mode = true) (hu : pipeMode u.xfer.mode = true) : Paced u := by
  unfold pipeSackOrFatal at h
  split at h
  · next v hs =>
    obtain ⟨-, rfl⟩ := Prod.mk.inj h
    obtain ⟨hstatus, rfl⟩ := Prod.mk.inj hs
    have hzero : sinceSack (d.events ++ [.reply ctx.rp ([respAck, respPipeData] ++ pipeBuildSack d)
        (app.reply d.events ctx.rp ([respAck, respPipeData] ++ pipeBuildSack d))]) = 0 := by
      rw [sinceSack_concat, hstatus]
      rfl
    have hevery := ht.every
    exact ⟨⟨⟨ht.every, ht.fits, ht.window, ht.gap⟩, hzero.symm, hevery⟩, hzero.trans_lt hevery⟩
  · next status v _ hs =>
    obtain ⟨-, rfl⟩ := Prod.mk.inj h
    rw [pipeSendSack_fatal hs hm] at hu
    exact absurd hu Bool.false_ne_true

theorem paced_of_firstAck (ht : Terms d.pipe) (hm : pipeMode d.xfer.mode = true)
    (hu : pipeMode (pipeFirstAck app ctx d).2.xfer.mode = true) :
    Paced (pipeFirstAck app ctx d).2 := by
  unfold pipeFirstAck at hu ⊢
  split at hu
  · next hs => exact paced_of_sack ht hs hm hu
  · next hs => exact paced_of_sack ht hs hm hu

/-- The second counter is far from its wrap: it never passes the negotiated number. -/
theorem Paced.gapAck (h : Paced d) (hm : pipeMode d.xfer.mode = true)
    (hu : pipeMode (pipeGapAck app ctx d).2.xfer.mode = true) : Paced (pipeGapAck app ctx d).2 := by
  have ht := h.terms
  have hstep : (d.pipe.oooAcksSinceGap + 1).toNat = d.pipe.oooAcksSinceGap.toNat + 1 := by
    have := h.acks
    have := ht.fits
    have := ht.window
    rw [UInt8.toNat_add, show (1 : UInt8).toNat = 1 from rfl]
    omega
  unfold pipeGapAck at hu ⊢
  dsimp only at hu ⊢
  split_ifs at hu ⊢ with hdue
  · have hmark : Terms { d.pipe with oooAcksSinceGap := d.pipe.oooAcksSinceGap + 1 } :=
      ⟨ht.every, ht.fits, ht.window, ht.gap⟩
    split at hu
    · next hs => exact paced_of_sack hmark hs hm hu
    · next hs => exact paced_of_sack hmark hs hm hu
  · rw [UInt8.not_le, UInt8.lt_iff_toNat_lt] at hdue
    exact ⟨⟨⟨ht.every, ht.fits, ht.window, ht.gap⟩, h.frames, hdue⟩, h.due⟩

theorem Unacked.closeGap (h : Unacked d) : Unacked (if d.pipe.queuedCount = 0 then
    { d with pipe := { d.pipe with gapOpen := false } } else d) := by
  split_ifs with hq
  · exact ⟨⟨h.terms.every, h.terms.fits, h.terms.window, fun _ => hq⟩, h.frames, h.acks⟩
  · exact h

theorem Unacked.afterDrain (h : Unacked d) (hm : pipeMode d.xfer.mode = true)
    (hu : pipeMode (pipeAfterDrain app ctx d).2.xfer.mode = true) :
    Paced (pipeAfterDrain app ctx d).2 := by
  have hclosed := h.closeGap
  have hmode : pipeMode (if d.pipe.queuedCount = 0 then
      { d with pipe := { d.pipe with gapOpen := false } } else d : Dev).xfer.mode = true := by
    split_ifs <;> exact hm
  unfold pipeAfterDrain at hu ⊢
  dsimp only at hu ⊢
  generalize (if d.pipe.queuedCount = 0 then { d with pipe := { d.pipe with gapOpen := false } }
    else d : Dev) = v at hclosed hmode hu ⊢
  split_ifs at hu ⊢ with hwhole hdue
  · split at hu
    · next hs => exact paced_of_sack hclosed.terms hs hmode hu
    · next w hs =>
      -- the image is whole: it is shown, and the transfer is over
      have hmw : pipeMode w.xfer.mode = true := by rw [pipeSackOrFatal_ok hs]; exact hmode
      rw [(Finished.pipeFinish [] hmw).mode] at hu
      exact absurd hu Bool.false_ne_true
  · split at hu
    · next hs => exact paced_of_sack hclosed.terms hs hmode hu
    · next hs => exact paced_of_sack hclosed.terms hs hmode hu
  · rw [UInt8.not_le, UInt8.lt_iff_toNat_lt, hclosed.frames] at hdue
    exact ⟨hclosed, hdue⟩

theorem Unacked.release (h : Unacked d) (hroom : d.pipe.framesSinceAck.toNat < 255) :
    Unacked (pipeRelease d) ∧
      (pipeRelease d).pipe.framesSinceAck.toNat = d.pipe.framesSinceAck.toNat + 1 := by
  have hstep : (pipeRelease d).pipe.framesSinceAck.toNat = d.pipe.framesSinceAck.toNat + 1 := by
    have hlt : d.pipe.framesSinceAck < 255 := UInt8.lt_iff_toNat_lt.mpr hroom
    have heq : (pipeRelease d).pipe.framesSinceAck = d.pipe.framesSinceAck + 1 := if_pos hlt
    rw [heq, UInt8.toNat_add, show (1 : UInt8).toNat = 1 from rfl]
    omega
  have hsince : sinceSack (pipeRelease d).events = sinceSack d.events + 1 := sinceSack_concat _ _
  have hgap : d.pipe.gapOpen = false → (pipeRelease d).pipe.queuedCount = 0 := by
    intro hg
    have hzero := h.terms.gap hg
    have heq : (pipeRelease d).pipe.queuedCount = if 0 < d.pipe.queuedCount then
      d.pipe.queuedCount - 1 else d.pipe.queuedCount := rfl
    rw [heq, hzero]
    rfl
  exact ⟨⟨⟨h.terms.every, h.terms.fits, h.terms.window, hgap⟩, by rw [hstep, hsince, h.frames], h.acks⟩,
    hstep⟩

/-- The drain counts every chunk that it releases. The counter would saturate at 255,
but there are only 33 slots to release. -/
theorem Unacked.drain (h : Unacked d)
    (hroom : d.pipe.framesSinceAck.toNat + occupiedCount d.reorder < 255)
    (hm : pipeMode d.xfer.mode = true) {r : StreamResult} (hr : pipeDrain app d = (r, u)) :
    Unacked u ∧ pipeMode u.xfer.mode = true := by
  have hloop := loop_rule (f := pipeDrainPass app) (d := pipeDrainPass_dec app)
    (P := fun d (res : StreamResult × Dev) => Unacked d →
      d.pipe.framesSinceAck.toNat + occupiedCount d.reorder < 255 →
      pipeMode d.xfer.mode = true → Unacked res.2 ∧ pipeMode res.2.xfer.mode = true) ?_ ?_ d h hroom hm
  · unfold pipeDrain at hr
    rw [hr] at hloop
    exact hloop
  · intro d res hs h _ hm
    rcases pipeDrainPass_stop hs with ⟨hr, -⟩ | rfl
    · exact ⟨h.hand hr, pipeHand_mode hr hm⟩
    · exact ⟨h, hm⟩
  · intro d d' res hn ih h hroom hm
    obtain ⟨v, hv, rfl⟩ := pipeDrainPass_next hn
    have hdec := pipeDrainPass_dec app d _ hn
    have hp := pipeHand_pipe hv
    have hcount := (h.hand hv).release (by rw [hp]; omega)
    have hmv : pipeMode v.xfer.mode = true := pipeHand_mode hv hm
    refine ih hcount.1 ?_ hmv
    rw [hcount.2, hp]
    omega

theorem dataNack_closes {error : UInt8} {cause : TerminalCause} (hm : pipeMode d.xfer.mode = true)
    (hu : pipeMode (pipeSendDataNack ctx error cause d).2.xfer.mode = true) : False := by
  rw [dataNack_fatal hm] at hu
  exact absurd hu Bool.false_ne_true

theorem pipeUpdateHighest_terms (seq : UInt8) (p : PipeState) :
    ∃ received highest, pipeUpdateHighest seq p =
      { p with hasReceived := received, highestSeen := highest } := by
  unfold pipeUpdateHighest
  dsimp only
  split_ifs <;> exact ⟨_, _, rfl⟩

/-- The chunk that arrives is counted before those behind it are drained. -/
theorem Paced.accept (h : Paced d) (seq : UInt8) :
    Unacked (pipeAccept seq d) ∧ (pipeAccept seq d).pipe.framesSinceAck.toNat ≤ 32 := by
  have ht := h.terms
  have hbound : d.pipe.framesSinceAck.toNat < 32 := by
    have := h.due
    have := h.frames
    have := ht.fits
    have := ht.window
    omega
  have hstep : (d.pipe.framesSinceAck + 1).toNat = d.pipe.framesSinceAck.toNat + 1 := by
    rw [UInt8.toNat_add, show (1 : UInt8).toNat = 1 from rfl]
    omega
  have hsince : sinceSack (pipeAccept seq d).events = sinceSack d.events + 1 := sinceSack_concat _ _
  obtain ⟨received, highest, hp⟩ := pipeUpdateHighest_terms seq { (pipeTake d).pipe with
    framesSinceAck := (pipeTake d).pipe.framesSinceAck + 1 }
  have hpipe : (pipeAccept seq d).pipe = _ := hp
  constructor
  · refine ⟨?_, ?_, ?_⟩
    · rw [hpipe]
      exact ⟨ht.every, ht.fits, ht.window, ht.gap⟩
    · rw [hpipe, hsince, ← h.frames]
      exact hstep
    · rw [hpipe]
      exact h.acks
  · rw [hpipe]
    have heq : (pipeTake d).pipe.framesSinceAck = d.pipe.framesSinceAck := rfl
    simp only [heq, hstep]
    omega

theorem Paced.inOrder (h : Paced d) (hm : pipeMode d.xfer.mode = true) {seq : UInt8} {payload : Bytes}
    (hu : pipeMode (pipeInOrder app ctx seq payload d).2.xfer.mode = true) :
    Paced (pipeInOrder app ctx seq payload d).2 := by
  unfold pipeInOrder at hu ⊢
  split at hu
  · next v hv =>
    have hmv : pipeMode v.xfer.mode = true := pipeHand_mode hv hm
    obtain ⟨hcount, hframes⟩ := (h.keep (pipeHand_pipe hv) (unpaced_hand hv)).accept seq
    have hslots := occupiedCount_le (pipeAccept seq v).reorder
    have hroom : (pipeAccept seq v).pipe.framesSinceAck.toNat +
      occupiedCount (pipeAccept seq v).reorder < 255 := by omega
    have hma : pipeMode (pipeAccept seq v).xfer.mode = true := hmv
    dsimp only at hu ⊢
    split at hu
    · next w hw =>
      change pipeDrain app (pipeAccept seq v) = _ at hw
      obtain ⟨hdrained, hmw⟩ := hcount.drain hroom hma hw
      exact hdrained.afterDrain hmw hu
    · next r w _ hw =>
      change pipeDrain app (pipeAccept seq v) = _ at hw
      exact (dataNack_closes (hcount.drain hroom hma hw).2 hu).elim
  · next r v _ hv => exact (dataNack_closes (pipeHand_mode hv hm) hu).elim

theorem Terms.hold (h : Terms d.pipe) (seq : UInt8) (payload : Bytes) :
    Terms { (pipeHold seq payload d).pipe with gapOpen := true } := by
  obtain ⟨received, highest, hp⟩ := pipeUpdateHighest_terms seq (pipeStore seq payload d).pipe
  have hpipe : (pipeHold seq payload d).pipe = _ := hp
  rw [hpipe]
  exact ⟨h.every, h.fits, h.window, fun hg => absurd hg.symm Bool.false_ne_true⟩

theorem Paced.hold (h : Paced d) (seq : UInt8) (payload : Bytes)
    (hgap : (pipeHold seq payload d).pipe.gapOpen ≠ false) : Paced (pipeHold seq payload d) := by
  have hsince : sinceSack (pipeHold seq payload d).events = sinceSack d.events := sinceSack_concat _ _
  obtain ⟨received, highest, hp⟩ := pipeUpdateHighest_terms seq (pipeStore seq payload d).pipe
  have hpipe : (pipeHold seq payload d).pipe = _ := hp
  refine ⟨⟨?_, ?_, ?_⟩, ?_⟩
  · refine ⟨?_, ?_, ?_, fun hg => absurd hg hgap⟩
    all_goals rw [hpipe]
    · exact h.terms.every
    · exact h.terms.fits
    · exact h.terms.window
  · rw [hpipe, hsince]
    exact h.frames
  · rw [hpipe]
    exact h.acks
  · rw [hpipe, hsince]
    exact h.due

theorem Paced.outOfOrder (h : Paced d) (hm : pipeMode d.xfer.mode = true) {seq : UInt8} {payload : Bytes}
    (hu : pipeMode (pipeOutOfOrder app ctx seq payload d).2.xfer.mode = true) :
    Paced (pipeOutOfOrder app ctx seq payload d).2 := by
  have hstored : pipeMode (pipeStore seq payload d).xfer.mode = true := hm
  unfold pipeOutOfOrder at hu ⊢
  dsimp only at hu ⊢
  split_ifs at hu ⊢ with hbig hfull hgap
  · exact (dataNack_closes hm hu).elim
  · exact (dataNack_closes hstored hu).elim
  · exact paced_of_firstAck (h.terms.hold seq payload) hm hu
  · exact (h.hold seq payload hgap).gapAck hm hu

theorem Paced.frame (h : Paced d) (hm : pipeMode d.xfer.mode = true) {seq : UInt8} {payload : Bytes}
    (hu : pipeMode (pipeFrame app ctx seq payload d).2.xfer.mode = true) :
    Paced (pipeFrame app ctx seq payload d).2 := by
  unfold pipeFrame at hu ⊢
  dsimp only at hu ⊢
  split_ifs at hu ⊢
  · exact h.inOrder hm hu
  · exact h.outOfOrder hm hu
  · exact paced_of_firstAck h.terms hm hu
  · exact h.gapAck hm hu
  · exact (dataNack_closes hm hu).elim

theorem unpaced_of_nack {rp : Reply} {frame : Bytes} {status : TxqStatus}
    (h : frame.take 1 = [respNack]) : unpaced (.reply rp frame status) = true := by
  cases frame with
  | nil => simp at h
  | cons first rest =>
    obtain rfl : first = respNack := by simpa using h
    cases rest <;> cases status <;> rfl

theorem Paced.pipeData (h : pipeMode d.xfer.mode = true → Paced d) {body : Bytes}
    (hu : pipeMode (odPipeData app ctx body d).2.xfer.mode = true) :
    Paced (odPipeData app ctx body d).2 := by
  cases hi : pipeIgnores ctx body d with
  | true =>
    rcases odPipeData_ignored app hi with heq | ⟨frame, status, heq, hframe⟩
    · rw [heq] at hu ⊢
      exact h hu
    · rw [heq] at hu ⊢
      exact (h hu).keep rfl (.log d (unpaced_of_nack hframe))
  | false =>
    obtain ⟨hm, -, heq⟩ := pipeIgnores_false hi
    rw [heq] at hu ⊢
    split_ifs at hu ⊢
    · exact (dataNack_closes hm hu).elim
    · exact (h hm).frame hm hu

end Paced

section Others

variable {app : App} {ctx : Ctx} {cmd : Cmd} {d u : Dev}

theorem Move.open_before {s t : Phase × Dev} (h : Move app cmd s t) (hs : cmd.starts = false)
    (ht : pipeMode t.2.xfer.mode = true) : pipeMode s.2.xfer.mode = true := by
  cases h with
  | enter | note | clearEtag | begun | beginFailed | unacked | complete | stamp | unshown => exact ht
  | replace hst => exact absurd (hs.symm.trans hst) Bool.false_ne_true
  | arm pump hst => exact absurd (hs.symm.trans hst) Bool.false_ne_true
  | reset => exact absurd ht Bool.false_ne_true
  | abandon | barrier | refreshed | dropped => exact absurd ht Bool.false_ne_true
  | fed _ hf => exact hf.mode ▸ ht
  | spoiled _ hf => exact hf.mode ▸ ht
  | book hm => exact hm
  | fatal _ hm => exact hm
  | @inflated d d' _ _ _ _ hr =>
    have hst := odXferStreamPush_streams app [] true d
    rw [hr] at hst
    exact hst.mode ▸ ht
  | @finalFailed d d' r _ _ hr _ =>
    have hst := odXferStreamPush_streams app [] true d
    rw [hr] at hst
    exact hst.mode ▸ ht

theorem step_open_before (hc : Coupled d) (hs : cmd.starts = false)
    (h : pipeMode (step app cmd d).xfer.mode = true) : pipeMode d.xfer.mode = true := by
  obtain ⟨p, -, hm⟩ := step_moves app cmd hc
  exact hm.rule (I := fun s => pipeMode s.2.xfer.mode = true → pipeMode d.xfer.mode = true)
    (fun hm hi ht => hi (hm.open_before hs ht)) id h

theorem ackOrFail_off {ack : Bytes} {clear : Bool} (h : pipeMode d.xfer.mode = false) :
    pipeMode (ackOrFail app ctx ack clear d).2.xfer.mode = false := by
  unfold ackOrFail
  split
  · next v hv =>
    rw [odXferReplyApp_eq ctx hv]
    exact h
  · rfl

theorem directInline_off {input : Bytes} (h : pipeMode d.xfer.mode = false) :
    pipeMode (directInline app input d).2.xfer.mode = false := by
  unfold directInline
  split_ifs
  · exact h
  · rw [(odXferStreamPush_streams app input false _).mode]
    exact h

theorem directBegin_off {geometry : Geometry} {compressed : Bool} {body : Bytes} :
    pipeMode (directBegin app ctx geometry compressed body d).2.xfer.mode = false := by
  unfold directBegin
  dsimp only
  split_ifs
  · rfl
  · generalize hu : odXferStreamReset geometry.totalBytes _ = u
    have hmu : pipeMode u.xfer.mode = false := by
      rw [← hu]
      rfl
    have hinline : pipeMode (directInline app (body.drop 4) u).2.xfer.mode = false := directInline_off hmu
    split
    · next v hv =>
      rw [hv] at hinline
      exact ackOrFail_off hinline
    · rfl
  · exact ackOrFail_off rfl

theorem partialInline_mode {input : Bytes} {r : Option TerminalCause}
    (h : partialInline app input d = (r, u)) : u.xfer.mode = d.xfer.mode := by
  unfold partialInline at h
  split_ifs at h with hnil
  · obtain ⟨-, rfl⟩ := Prod.mk.inj h
    rfl
  · dsimp only at h
    split_ifs at h with hpacked
    · have hs := (odXferStreamPush_streams app input false (Dev.log (.stream input)
        { d with xfer := { d.xfer with receivedBytes := UInt32.ofNat input.length } })).mode
      split at h
      · next v hv =>
        obtain ⟨-, rfl⟩ := Prod.mk.inj h
        rw [hv] at hs
        exact hs
      · next v hv =>
        obtain ⟨-, rfl⟩ := Prod.mk.inj h
        rw [hv] at hs
        exact hs
    · unfold partialInlineRaw at h
      dsimp only at h
      split_ifs at h
      all_goals
        obtain ⟨-, rfl⟩ := Prod.mk.inj h
        rfl

theorem partialBegin_off {geometry : Geometry} {compressed : Bool} {region : PartialState}
    {body : Bytes} : pipeMode (partialBegin app ctx geometry compressed region body d).2.xfer.mode = false := by
  unfold partialBegin
  dsimp only
  split_ifs with hbegin
  · rfl
  all_goals
    split
    · rfl
    · next v hv =>
      apply ackOrFail_off
      rw [partialInline_mode hv]
      rfl

theorem Coupled.replace_off (hc : Coupled d) : pipeMode (odXferReplaceActive d).xfer.mode = false := by
  rw [hc.replace.xfer]
  rfl

/-- A direct START leaves no PIPE transfer, unless it is too long to be looked at. -/
theorem odXferDirectStart_off (hc : Coupled d) {body : Bytes} (hlen : body.length ≤ uint32Max) :
    pipeMode (odXferDirectStart app ctx body d).2.xfer.mode = false := by
  have hoff := hc.replace_off
  unfold odXferDirectStart
  rw [if_neg hlen.not_gt]
  dsimp only
  split
  · exact hoff
  · split_ifs
    · exact hoff
    · exact hoff
    · exact hoff
    · exact directBegin_off

theorem odXferPartialStart_off (hc : Coupled d) {body : Bytes} (hlen : body.length ≤ uint32Max) :
    pipeMode (odXferPartialStart app ctx body d).2.xfer.mode = false := by
  have hoff := hc.replace_off
  unfold odXferPartialStart
  rw [if_neg hlen.not_gt]
  dsimp only
  repeat' split
  all_goals first | exact hoff | exact partialBegin_off

theorem odXferPipeArmFull_off {total : UInt32} {compressed : Bool} {cause : StartCause}
    (h : odXferPipeArmFull app ctx total compressed d = (cause, u)) (hne : cause ≠ .ok)
    (hoff : pipeMode d.xfer.mode = false) : pipeMode u.xfer.mode = false := by
  unfold odXferPipeArmFull at h
  dsimp only at h
  split_ifs at h
  · obtain ⟨-, rfl⟩ := Prod.mk.inj h
    exact hoff
  · obtain ⟨-, rfl⟩ := Prod.mk.inj h
    exact hoff
  · split at h
    · obtain ⟨-, rfl⟩ := Prod.mk.inj h
      exact hoff
    · split_ifs at h
      · obtain ⟨-, rfl⟩ := Prod.mk.inj h
        exact hoff
      · obtain ⟨-, rfl⟩ := Prod.mk.inj h
        exact hoff
      · obtain ⟨-, rfl⟩ := Prod.mk.inj h
        exact hoff
      · exact absurd (Prod.mk.inj h).1.symm hne

theorem odXferPipeArmPartial_off {total oldEtag : UInt32} {compressed : Bool} {x y width height : UInt16}
    {cause : StartCause} {error : UInt8}
    (h : odXferPipeArmPartial app ctx total compressed oldEtag x y width height d = (cause, error, u))
    (hne : cause ≠ .ok) (hoff : pipeMode d.xfer.mode = false) : pipeMode u.xfer.mode = false := by
  have hrefuse : ∀ {e c}, armRefuse e c (d.log .prepareStart) = (cause, error, u) →
      pipeMode u.xfer.mode = false := by
    intro e c he
    simp only [armRefuse, Prod.mk.injEq] at he
    obtain ⟨-, -, rfl⟩ := he
    exact hoff
  unfold odXferPipeArmPartial at h
  split at h
  · simp only [Prod.mk.injEq] at h
    obtain ⟨-, -, rfl⟩ := h
    exact hoff
  split at h
  · simp only [Prod.mk.injEq] at h
    obtain ⟨-, -, rfl⟩ := h
    exact hoff
  dsimp only at h
  repeat' split at h
  all_goals first | exact hrefuse h | exact absurd (Prod.mk.inj h).1.symm hne

theorem pipeOpen_off {isPartial : Bool} {body : Bytes}
    (hn : (pipeOpen app ctx isPartial body d).1 ≠ .ok) :
    pipeMode (pipeOpen app ctx isPartial body d).2.xfer.mode = false := by
  unfold pipeOpen at hn ⊢
  dsimp only at hn ⊢
  split at hn
  · exact absurd rfl hn
  · rfl

/-- A PIPE START that does not succeed leaves no PIPE transfer, unless it came over
another link. -/
theorem odPipeStart_off (hc : Coupled d) {body : Bytes} (ho : ctx.rp.origin = .ble)
    (hn : (odPipeStart app ctx body d).1 ≠ .ok) :
    pipeMode (odPipeStart app ctx body d).2.xfer.mode = false := by
  have hoff := hc.replace_off
  unfold odPipeStart at hn ⊢
  rw [if_neg (not_not.mpr ho)] at hn ⊢
  dsimp only at hn ⊢
  generalize pipeFrameOverhead + 1 + _ = minimumFrame at hn ⊢
  split_ifs at hn ⊢ with hheader hflags hext hframe
  · exact hoff
  · exact hoff
  · exact hoff
  · exact hoff
  · unfold pipeArm at hn ⊢
    generalize decide (byteAt body 1 &&& 0x02 ≠ 0) = isPartial at hn ⊢
    cases isPartial with
    | true =>
      simp only [if_true] at hn ⊢
      split at hn
      · exact pipeOpen_off hn
      · next u hne hr =>
        have hu : pipeMode u.xfer.mode = false := odXferPipeArmPartial_off hr hne hoff
        exact hu
    | false =>
      simp only [Bool.false_eq_true, if_false] at hn ⊢
      split at hn
      · exact pipeOpen_off hn
      · next u hne hr =>
        have hu : pipeMode u.xfer.mode = false := odXferPipeArmFull_off hr hne hoff
        exact hu

theorem odPipeEnd_off (ho : ctx.rp.origin = .ble) (howner : odXferOwnerMatches ctx d = true)
    (hopen : d.pipe.isOpen = true) (hm : pipeMode d.xfer.mode = true) {body : Bytes} :
    pipeMode (odPipeEnd app ctx body d).2.xfer.mode = false := by
  have hfatal : d.xfer.mode ≠ .fatal := by
    intro hf
    rw [hf] at hm
    exact absurd hm Bool.false_ne_true
  unfold odPipeEnd
  rw [if_neg (not_not.mpr ho), if_neg (by simp [hopen]), if_neg (by simp [howner]), if_neg hfatal]
  split
  · next v hs =>
    unfold pipeSackOrFatal at hs
    split at hs
    · cases hs
    · next hsend =>
      obtain ⟨-, rfl⟩ := Prod.mk.inj hs
      rw [pipeSendSack_fatal hsend hm]
      rfl
  · next v hs =>
    dsimp only
    generalize (if v.pipe.queuedCount = 0 then odXferPipeFinalize app v else (.ok, v)) = w
    by_cases hshort : w.2.pipe.queuedCount ≠ 0 ∨ w.1 ≠ .ok ∨ odXferPipeComplete w.2 = false
    · rw [if_pos hshort]
      rfl
    · rw [if_neg hshort]
      have hcomplete : odXferPipeComplete w.2 = true := by
        by_contra hno
        exact hshort (.inr (.inr (Bool.eq_false_of_not_eq_true hno)))
      have hmw : pipeMode w.2.xfer.mode = true := (Bool.and_eq_true _ _ ▸ hcomplete).1
      rw [(Finished.pipeFinish body hmw).mode]
      rfl

theorem Paced.pipeEnd (h : Paced d) (hc : Coupled d) (hm : pipeMode d.xfer.mode = true) {body : Bytes}
    (hu : pipeMode (odPipeEnd app ctx body d).2.xfer.mode = true) :
    Paced (odPipeEnd app ctx body d).2 := by
  have hopen : d.pipe.isOpen = true := hc.isOpen.mpr (.inl hm)
  by_cases ho : ctx.rp.origin = .ble
  · cases howner : odXferOwnerMatches ctx d with
    | true =>
      rw [odPipeEnd_off ho howner hopen hm] at hu
      exact absurd hu Bool.false_ne_true
    | false =>
      have heq : (odPipeEnd app ctx body d).2 = d := by simp [odPipeEnd, ho, hopen, howner]
      rw [heq]
      exact h
  · have heq : odPipeEnd app ctx body d = pipeRefuseOrigin app ctx respPipeEnd 0 d := by
      simp [odPipeEnd, ho]
    rw [heq]
    exact h.keep rfl (.log d (unpaced_of_nack rfl))

theorem Paced.pipeStart (h : pipeMode d.xfer.mode = true → Paced d) (hc : Coupled d) {body : Bytes}
    (hu : pipeMode (odPipeStart app ctx body d).2.xfer.mode = true) :
    Paced (odPipeStart app ctx body d).2 := by
  by_cases ho : ctx.rp.origin = .ble
  · by_cases hok : (odPipeStart app ctx body d).1 = .ok
    · exact (odPipeStart_started app ctx hc hok).opens.paced
    · rw [odPipeStart_off hc ho hok] at hu
      exact absurd hu Bool.false_ne_true
  · have heq : odPipeStart app ctx body d =
        pipeRefuseOrigin app ctx respPipeStart errPipeStartBadHeader d := by
      simp [odPipeStart, ho]
    rw [heq] at hu ⊢
    have hm : pipeMode d.xfer.mode = true := hu
    exact (h hm).keep rfl (.log d (unpaced_of_nack rfl))

theorem Paced.next (h : pipeMode d.xfer.mode = true → Paced d) (hc : Coupled d)
    (hu : pipeMode (step app cmd d).xfer.mode = true) : Paced (step app cmd d) := by
  cases cmd with
  | directStart ctx body =>
    by_cases hlen : body.length ≤ uint32Max
    · exact absurd ((odXferDirectStart_off hc hlen).symm.trans hu) Bool.false_ne_true
    · have heq : step app (.directStart ctx body) d =
          d.log (.replyPlain ctx.rp [respNack, respDirectWriteStartAck]) :=
        congrArg Prod.snd (if_pos (Nat.not_le.mp hlen))
      rw [heq] at hu ⊢
      exact (h hu).keep rfl (.log d rfl)
  | partialStart ctx body =>
    by_cases hlen : body.length ≤ uint32Max
    · exact absurd ((odXferPartialStart_off hc hlen).symm.trans hu) Bool.false_ne_true
    · have heq : step app (.partialStart ctx body) d =
          (partialFail ctx respPartialWriteStart errPartialStream d).2 :=
        congrArg Prod.snd (if_pos (Nat.not_le.mp hlen))
      rw [heq] at hu ⊢
      have hm : pipeMode d.xfer.mode = true := hu
      have hetag : Adds (unpaced · = true) d (odXferAppSetDisplayedEtag 0 d) := .setEtag d 0 rfl
      exact (h hm).keep rfl (hetag.trans (.log _ rfl))
  | data ctx body =>
    have hm := step_open_before hc rfl hu
    have heq : step app (.data ctx body) d = d := odXferData_foreign (.inr (.inl hm))
    rw [heq]
    exact h hm
  | finish ctx body =>
    have hm := step_open_before hc rfl hu
    have heq : step app (.finish ctx body) d = d := odXferEnd_foreign (.inr (.inl hm))
    rw [heq]
    exact h hm
  | pipeStart ctx body => exact Paced.pipeStart h hc hu
  | pipeData ctx body => exact Paced.pipeData h hu
  | pipeEnd ctx body => exact (h (step_open_before hc rfl hu)).pipeEnd hc (step_open_before hc rfl hu) hu
  | reset => exact absurd hu Bool.false_ne_true
  | timeout nowMs limitMs =>
    have hm := step_open_before hc rfl hu
    change Paced (odXferReportTimeout nowMs limitMs d).2
    unfold odXferReportTimeout
    split_ifs
    · exact h hm
    · exact (h hm).keep rfl (.log d rfl)

theorem Reachable.paced (h : Reachable d) (hm : pipeMode d.xfer.mode = true) : Paced d :=
  h.rule (I := fun d => pipeMode d.xfer.mode = true → Paced d)
    (fun _ hm => absurd hm Bool.false_ne_true) (fun _ _ _ hd hp hu => Paced.next hp hd.coupled hu) hm

end Others

section Cadence

variable {app : App} {ctx : Ctx} {d : Dev} {seq : UInt8} {payload : Bytes}

/-- An acknowledgement is asked for, and if it cannot be sent the transfer is fatal. -/
def AsksSack (ctx : Ctx) (d d' : Dev) : Prop :=
  ∃ es block status, d'.events = d.events ++ es ∧
    .reply ctx.rp ([respAck, respPipeData] ++ block) status ∈ es ∧
    (status = .ok ∨ d'.xfer.mode = .fatal)

theorem pipeSackOrFatal_asks (app : App) (ctx : Ctx) (hm : pipeMode d.xfer.mode = true) :
    AsksSack ctx d (pipeSackOrFatal app ctx d).2 := by
  unfold pipeSackOrFatal
  split
  · next u hs =>
    obtain ⟨hes, -⟩ := pipeSendSack_eq hs
    exact ⟨_, pipeBuildSack d, .ok, hes, List.mem_singleton_self _, .inl rfl⟩
  · next status u _ hs =>
    obtain ⟨hes, -⟩ := pipeSendSack_eq hs
    obtain ⟨es, hes', -⟩ := Spends.fatal (n := 0) (.refl (odXferTerminalFailure .replyDelivery u))
    refine ⟨.reply ctx.rp ([respAck, respPipeData] ++ pipeBuildSack d) status ::
      .terminal .replyDelivery :: es, pipeBuildSack d, status, ?_, List.mem_cons_self, .inr
      (pipeSendSack_fatal hs hm)⟩
    rw [hes', odXferTerminalFailure, Dev.log, hes, List.append_assoc, List.append_assoc]
    rfl

theorem AsksSack.after {d' d'' : Dev} {P : Event → Prop} (hadd : Adds P d d')
    (h : AsksSack ctx d' d'') : AsksSack ctx d d'' := by
  obtain ⟨es, hes, -⟩ := hadd
  obtain ⟨es', block, status, hes', hmem, hstatus⟩ := h
  exact ⟨es ++ es', block, status, by rw [hes', hes, List.append_assoc],
    List.mem_append_right _ hmem, hstatus⟩

theorem pipeFirstAck_asks (app : App) (ctx : Ctx) (hm : pipeMode d.xfer.mode = true) :
    AsksSack ctx d (pipeFirstAck app ctx d).2 := by
  have hasks := pipeSackOrFatal_asks app ctx hm
  unfold pipeFirstAck
  split
  · next u hs => rwa [hs] at hasks
  · next u hs => rwa [hs] at hasks

/-- The frame that opens a gap is answered. Nothing was held before it, so there is
room for it. -/
theorem Paced.opens_gap (h : Paced d) (hm : pipeMode d.xfer.mode = true)
    (hlen : payload.length ≤ odPipeReorderPayload) (hgap : d.pipe.gapOpen = false) :
    AsksSack ctx d (pipeOutOfOrder app ctx seq payload d).2 := by
  have hroom : ¬ odPipeReorderSlots ≤ (pipeStore seq payload d).pipe.queuedCount.toNat := by
    have hzero := h.terms.gap hgap
    simp only [pipeStore, hzero]
    split_ifs <;> decide
  obtain ⟨received, highest, hp⟩ := pipeUpdateHighest_terms seq (pipeStore seq payload d).pipe
  have hheld : (pipeHold seq payload d).pipe.gapOpen = false := by
    have hpipe : (pipeHold seq payload d).pipe = _ := hp
    rw [hpipe]
    exact hgap
  have heq : pipeOutOfOrder app ctx seq payload d = pipeFirstAck app ctx { pipeHold seq payload d with
      pipe := { (pipeHold seq payload d).pipe with gapOpen := true } } := by
    unfold pipeOutOfOrder
    rw [if_neg hlen.not_gt]
    dsimp only
    rw [if_neg hroom]
    exact if_pos hheld
  rw [heq]
  have hadd : Adds (fun _ => True) d { pipeHold seq payload d with
    pipe := { (pipeHold seq payload d).pipe with gapOpen := true } } := ⟨_, rfl, fun _ _ => trivial⟩
  have hmh : pipeMode { pipeHold seq payload d with
    pipe := { (pipeHold seq payload d).pipe with gapOpen := true } : Dev }.xfer.mode = true := hm
  exact (pipeFirstAck_asks app ctx hmh).after hadd

/-- In every reachable state of an open PIPE transfer the number of chunks taken in
order since the last acknowledgement is PIPE's own counter, and less than the number
negotiated. A frame that opens a gap is acknowledged at once. So as many chunks as were
negotiated never go by without an acknowledgement among them. -/
theorem pipe_acknowledges {d : Dev} (h : Reachable d) (hm : pipeMode d.xfer.mode = true) :
    (1 ≤ d.pipe.ackEvery.toNat ∧ d.pipe.ackEvery.toNat ≤ d.pipe.window.toNat) ∧
    d.pipe.framesSinceAck.toNat = sinceSack d.events ∧
    sinceSack d.events < d.pipe.ackEvery.toNat ∧
    (∀ app ctx body, pipeIgnores ctx body d = false → pipeFrameFits ctx (body.drop 1) d = true →
      Early (byteAt body 0) d → d.pipe.gapOpen = false →
      AsksSack ctx d (step app (.pipeData ctx body) d)) ∧
    ∀ pre post, d.events = pre ++ post → (∀ m c t, .admitted m c t ∉ post) →
      d.pipe.ackEvery.toNat ≤ post.count .taken → ∃ e ∈ post, e.isSack = true := by
  have hp := h.paced hm
  refine ⟨⟨hp.terms.every, hp.terms.fits⟩, hp.frames, hp.due, ?_, ?_⟩
  · intro app ctx body hi hfits hearly hgap
    have heq : odPipeData app ctx body d = pipeOutOfOrder app ctx (byteAt body 0) (body.drop 1) d := by
      rw [(pipeIgnores_false hi).2.2, if_neg (by rw [hfits]; simp), pipeFrame,
        if_neg hearly.1, if_pos hearly.2]
    have hlen : (body.drop 1).length ≤ odPipeReorderPayload := by
      simp only [pipeFrameFits, decide_eq_true_eq, not_or] at hfits
      exact Nat.not_lt.mp hfits.2.2.2.2
    change AsksSack ctx d (odPipeData app ctx body d).2
    rw [heq]
    exact hp.opens_gap hm hlen hgap
  · intro pre post hes hnone hmany
    by_contra hno
    have hunacked : ∀ e ∈ post, e.isSack = false := by
      intro e he
      cases hs : e.isSack with
      | true => exact absurd ⟨e, he, hs⟩ hno
      | false => rfl
    have hdue := hp.due
    rw [hes, sinceSack_unacked pre hnone hunacked] at hdue
    omega

/-- Three chunks of a transfer that acknowledges every second one. -/
theorem pipe_acknowledges_second :
    let d := run ((.willing, .pipeStart .ble (pipeStartBody 4 2)) :: emptyFrames 3) (Dev.boot 0)
    sinceSack d.events = 1 ∧ d.pipe.ackEvery = 2 ∧
      sinceSack d.events < d.pipe.ackEvery.toNat := by
  intro d
  refine ⟨by decide +kernel, by decide +kernel, ?_⟩
  exact (pipe_acknowledges ⟨0, _, rfl⟩ (by decide +kernel)).2.2.1

end Cadence

end OpenDisplay
