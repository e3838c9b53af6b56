import Mathlib.Order.Interval.Finset.Nat
import OpenDisplay.Pipe.Delivery
import OpenDisplay.Pipe.Reorder
import OpenDisplay.Pipe.Sack

/-! A transfer with its sender. Frames travel in order and may be lost, and so do
the acknowledgements that come back; the sender keeps to the window above the
lowest chunk that no acknowledgement has reported. -/

namespace OpenDisplay

open Serial

/-- The block that an answer to a DATA frame carries. -/
def sackOf : Event → Option Bytes
  | .reply _ (status :: opcode :: block) .ok =>
      if status = respAck ∧ opcode = respPipeData then some block else none
  | .replyPlain _ (status :: opcode :: _ :: block) =>
      if status = respNack ∧ opcode = respPipeData then some block else none
  | _ => none

/-- The chunk that a block names first: the last one below `sent` with its low
eight bits. -/
def sackTop (block : Bytes) (sent : Nat) : Option Nat :=
  let low := (sackHighest block).toNat
  if low < sent then some (low + 256 * ((sent - 1 - low) / 256)) else none

/-- A block reports chunk `j` to a sender that has sent chunks below `sent`. -/
def reports (block : Bytes) (sent j : Nat) : Bool :=
  match sackTop block sent with
  | none => false
  | some t => j == t || decide (j < t) && decide (t - 1 - j < 32) && sackBit block (t - 1 - j)

/-- The device, the frames and blocks on their way, oldest first, and what the
sender knows. Bit `j` of `reported` is set when chunk `j` has been reported. -/
structure Net where
  dev : Dev
  window : Nat
  flight : List Nat := []
  sacks : List Bytes := []
  sent : Nat := 0
  reported : Nat := 0

inductive Act where
  | send (i base : Nat)
  | deliver (app : App) (ctx : Ctx)
  | lose
  | hear
  | loseSack

/-- `base` is the lowest chunk that has not been reported. -/
def Net.isBase (base : Nat) (n : Net) : Bool :=
  (List.range base).all (fun j => n.reported.testBit j) && !n.reported.testBit base

def hearBlock (block : Bytes) (sent reported : Nat) : Nat :=
  (List.range sent).foldl (fun r j => if reports block sent j then r ||| 2 ^ j else r) reported

/-- The oldest frame on its way reaches the device, whose answers set out. -/
def Net.delivered (pay : Nat → Bytes) (app : App) (ctx : Ctx) (i : Nat) (rest : List Nat) (n : Net) :
    Net :=
  let dev := step app (.pipeData ctx (UInt8.ofNat i :: pay i)) n.dev
  { n with
    dev := dev, flight := rest
    sacks := n.sacks ++ (dev.events.drop n.dev.events.length).filterMap sackOf }

/-- A frame is sent only when its chunk is in the window above the base. -/
def Net.act (pay : Nat → Bytes) : Act → Net → Net
  | .send i base, n =>
    if n.isBase base ∧ base ≤ i ∧ i < base + n.window then
      { n with flight := n.flight ++ [i], sent := max n.sent (i + 1) }
    else n
  | .deliver app ctx, n =>
    match n.flight with
    | [] => n
    | i :: rest => n.delivered pay app ctx i rest
  | .lose, n => { n with flight := n.flight.tail }
  | .hear, n =>
    match n.sacks with
    | [] => n
    | block :: rest => { n with sacks := rest, reported := hearBlock block n.sent n.reported }
  | .loseSack, n => { n with sacks := n.sacks.tail }

def Net.run (pay : Nat → Bytes) (acts : List Act) (n : Net) : Net :=
  acts.foldl (fun n a => n.act pay a) n

/-- The act is not a delivery that stores a frame while a clashing one is held. -/
def Net.clear (pay : Nat → Bytes) (a : Act) (n : Net) : Bool :=
  match a, n.flight with
  | .deliver _ ctx, i :: _ => !clash (.pipeData ctx (UInt8.ofNat i :: pay i)) n.dev
  | _, _ => true

def Net.clashFree (pay : Nat → Bytes) : List Act → Net → Bool
  | [], _ => true
  | a :: acts, n => n.clear pay a && Net.clashFree pay acts (n.act pay a)

/-- The sender before its first frame. -/
def Net.start (d : Dev) : Net := { dev := d, window := d.pipe.window.toNat }

section Received

variable {app : App} {ctx : Ctx} {seq : UInt8} {payload : Bytes} {hs : List Bytes} {j : Nat}
  {d d' : Dev} {a b : Turn × Dev}

theorem Stays.received (hk : Stays hs d d') (h : Received d j) : Received d' j := by
  unfold Received Buffered
  rw [hk.taken, hk.reorder]
  exact h

theorem Received.accept (h : Received d j) (hw : Windowed .fresh d) (hm : pipeMode d.xfer.mode = true) :
    Received (pipeAccept seq d) j := by
  unfold Received Buffered
  rw [pipeAccept_progress]
  rcases h with hlt | ⟨i, ho, hl⟩
  · exact .inl (Nat.lt_succ_of_lt hlt)
  · have hahead := hw.ahead hm nofun i ho
    have hne : (d.reorder i).seq ≠ UInt8.ofNat (progress d.events).taken := by
      intro he
      rw [he, lift_self] at hahead
      exact lt_irrefl _ hahead
    exact .inr ⟨i, ho, (lift_succ hne).trans hl⟩

theorem Received.release (h : Received d j) (hw : Windowed .draining d) (hdue : Due d) :
    Received (pipeRelease d) j := by
  unfold Received Buffered
  rw [pipeRelease_progress]
  rcases h with hlt | ⟨i, ho, hl⟩
  · exact .inl (Nat.lt_succ_of_lt hlt)
  · by_cases hi : i = pipeSlot d.pipe.expectedSeq
    · -- this is the chunk that is taken
      rw [hi, hdue.2, hw.next, lift_self] at hl
      exact .inl (hl ▸ Nat.lt_succ_self _)
    · have hne : (d.reorder i).seq ≠ UInt8.ofNat (progress d.events).taken := by
        intro he
        apply hi
        rw [← (hw.slots i ho).1, he, hw.next]
      have heq : (pipeRelease d).reorder i = d.reorder i := Function.update_of_ne hi _ _
      refine .inr ⟨i, ?_, ?_⟩
      · rw [heq]
        exact ho
      · rw [heq]
        exact (lift_succ hne).trans hl

theorem Received.store (h : Received d j) (hw : Windowed .fresh d) (he : Early seq d)
    (hclear : Clear seq d) : Received (pipeStore seq payload d) j := by
  rcases h with hlt | ⟨i, ho, hl⟩
  · exact .inl hlt
  · by_cases hi : i = pipeSlot seq
    · have hseq : (d.reorder i).seq = seq := by
        by_contra hne
        obtain ⟨hslot, hlt⟩ := hw.slots i ho
        have hcl := (pipeSlot_eq_iff hw.bounds.2 ((early_iff hw.next).mp he).2 hlt (Ne.symm hne)).mp
          (hi.symm.trans hslot.symm)
        exact absurd (hcl.symm.trans (hclear he i ho)) nofun
      refine .inr ⟨pipeSlot seq, by rw [pipeStore_slot], ?_⟩
      rw [pipeStore_slot]
      exact hseq ▸ hl
    · exact .inr ⟨i, by rw [pipeStore_other hi]; exact ho, by rw [pipeStore_other hi]; exact hl⟩

theorem Received.hold (h : Received (pipeStore seq payload d) j) :
    Received (pipeHold seq payload d) j := by
  unfold Received Buffered at h ⊢
  rw [pipeHold_progress]
  exact h

theorem Shift.received (hd : Shift seq payload a b) (hw : OnPipe a.2 → Windowed a.1 a.2)
    (hclear : OnPipe a.2 → a.1 = .fresh → Clear seq a.2) (ho : OnPipe b.2) (h : Received a.2 j) :
    Received b.2 j := by
  cases hd with
  | ended _ hi _ => exact absurd ho (not_onPipe_idle hi)
  | stays _ hk => exact hk.received h
  | drained _ => exact h
  | dead _ hk _ _ => exact hk.received h
  | accept hk hm _ =>
    have hw' := hk.windowed (hw (hk.onPipe (.inl hm)))
    exact (hk.received h).accept hw' hm
  | release hk hm hdue =>
    have hw' := hk.windowed (hw (hk.onPipe (.inl hm)))
    exact (hk.received h).release hw' hdue
  | hold hm he _ => exact (h.store (hw (.inl hm)) he (hclear (.inl hm) rfl)).hold
  | overfull hm he _ hk _ => exact hk.received (h.store (hw (.inl hm)) he (hclear (.inl hm) rfl))

end Received

section Words

variable {app : App} {ctx : Ctx} {seq : UInt8} {payload data : Bytes} {d d' u : Dev}
  {a b : Turn × Dev}

/-- Neither the death of a transfer nor an acknowledgement. -/
def Plain (e : Event) : Prop := kills e = false ∧ sackOf e = none

theorem Adds.hand {r : StreamResult} (h : pipeHand app data d = (r, u)) : Adds Plain d u := by
  unfold pipeHand at h
  split_ifs at h
  · obtain ⟨-, rfl⟩ := Prod.mk.inj h
    exact .refl _ d
  · have hs := odXferPipeConsume_streams app data d
    rw [h] at hs
    obtain ⟨es, hes, hall⟩ := hs.events
    refine (Adds.log d (e := .stream data) ⟨rfl, rfl⟩).trans ⟨es, hes, fun e he => ?_⟩
    rcases hall e he with ⟨o, b, c, rfl⟩ | ⟨status, rfl⟩ <;> exact ⟨rfl, rfl⟩

theorem odXferStreamCause_plain (r : StreamResult) : kills (.terminal (odXferStreamCause r)) = false := by
  cases r <;> rfl

theorem Adds.enterFatal (hm : pipeMode d.xfer.mode = true) : Adds Plain d (odXferPipeEnterFatal d) := by
  rw [odXferPipeEnterFatal_eq hm]
  refine ⟨_, rfl, ?_⟩
  split_ifs <;> simp [Plain, kills, sackOf]

theorem Adds.dataNack (hm : pipeMode d.xfer.mode = true) {error : UInt8} {cause : TerminalCause}
    (he : error ≠ 0x04) (hc : kills (.terminal cause) = false) :
    Adds (fun e => kills e = false) d (pipeSendDataNack ctx error cause d).2 := by
  have hreply : Adds (fun e => kills e = false) d
      (odXferReplyError ctx ([respNack, respPipeData, error] ++ pipeBuildSack d) d) :=
    .log d (by simp [kills, he])
  have hterm : Adds (fun e => kills e = false) _ (odXferTerminalFailure cause (odXferReplyError ctx
      ([respNack, respPipeData, error] ++ pipeBuildSack d) d)) := .log _ hc
  have hfatal : Adds Plain _ (pipeSendDataNack ctx error cause d).2 :=
    .enterFatal (d := odXferTerminalFailure cause (odXferReplyError ctx
      ([respNack, respPipeData, error] ++ pipeBuildSack d) d)) hm
  exact (hreply.trans hterm).trans (hfatal.mono fun _ he => he.1)

theorem Adds.ignored (app : App) {body : Bytes} (hi : pipeIgnores ctx body d = true) :
    Adds Plain d (step app (.pipeData ctx body) d) := by
  change Adds Plain d (odPipeData app ctx body d).2
  rcases odPipeData_ignored app hi with heq | ⟨frame, status, heq, hframe⟩
  · rw [heq]
    exact .refl _ d
  · rw [heq]
    refine .log d ⟨rfl, ?_⟩
    cases frame with
    | nil => exact absurd hframe nofun
    | cons first rest =>
      obtain rfl : first = respNack := by simpa using hframe
      cases rest <;> cases status <;> rfl

/-- An acknowledgement that is sent carries the block of the state. -/
theorem sackOrFatal_tells (app : App) (ctx : Ctx) (hm : pipeMode d.xfer.mode = true) :
    Adds (fun e => kills e = false) d (pipeSackOrFatal app ctx d).2 ∧
      (pipeMode (pipeSackOrFatal app ctx d).2.xfer.mode = true →
        ∃ rp, (pipeSackOrFatal app ctx d).2.events =
          d.events ++ [.reply rp ([respAck, respPipeData] ++ pipeBuildSack d) .ok]) := by
  unfold pipeSackOrFatal
  split
  · next u hs =>
    obtain ⟨hes, -⟩ := pipeSendSack_eq hs
    exact ⟨⟨_, hes, by simp [kills]⟩, fun _ => ⟨ctx.rp, hes⟩⟩
  · next status u _ hs =>
    obtain ⟨hes, hx⟩ := pipeSendSack_eq hs
    have hmu : pipeMode (odXferTerminalFailure .replyDelivery u).xfer.mode = true := by
      change pipeMode u.xfer.mode = true
      rw [hx]
      exact hm
    have hterm : Adds (fun e => kills e = false) u (odXferTerminalFailure .replyDelivery u) := .log u rfl
    have hfatal := (Adds.enterFatal hmu).mono (Q := fun e => kills e = false) fun _ he => he.1
    refine ⟨(Adds.trans ⟨_, hes, by simp [kills]⟩ hterm).trans hfatal, fun hp => ?_⟩
    rw [odXferPipeEnterFatal_eq hmu] at hp
    exact absurd hp Bool.false_ne_true

/-- What a deed says, when it finds the frame in the window and room for it. -/
theorem Deed.tells (hd : Deed app ctx seq payload a b)
    (hin : a.1 = .fresh → seq - a.2.pipe.expectedSeq < a.2.pipe.window ∨ a.2.pipe.expectedSeq - seq ≤ a.2.pipe.window)
    (hroom : a.1 = .fresh → Early seq a.2 → (pipeStore seq payload a.2).pipe.queuedCount.toNat < odPipeReorderSlots) :
    Adds (fun e => kills e = false) a.2 b.2 ∧ (pipeMode b.2.xfer.mode = true →
      Adds Plain a.2 b.2 ∨ a.1 ≠ .draining ∧ ∃ rp, b.2.events =
        a.2.events ++ [.reply rp ([respAck, respPipeData] ++ pipeBuildSack a.2) .ok]) := by
  have hplain : Adds Plain a.2 b.2 → Adds (fun e => kills e = false) a.2 b.2 ∧
      (pipeMode b.2.xfer.mode = true → Adds Plain a.2 b.2 ∨ a.1 ≠ .draining ∧ ∃ rp, b.2.events =
        a.2.events ++ [.reply rp ([respAck, respPipeData] ++ pipeBuildSack a.2) .ok]) :=
    fun h => ⟨h.mono fun _ he => he.1, fun _ => .inl h⟩
  cases hd with
  | accept _ _ hr => exact hplain ((Adds.hand hr).trans (.log _ (e := .taken) ⟨rfl, rfl⟩))
  | release _ _ hr => exact hplain ((Adds.hand hr).trans (.log _ (e := .taken) ⟨rfl, rfl⟩))
  | drained _ => exact hplain (.refl _ _)
  | spill he hm _ hr _ =>
    have hmu := pipeHand_mode hr hm
    refine ⟨((Adds.hand hr).mono fun _ he => he.1).trans (.dataNack hmu he (odXferStreamCause_plain _)),
      fun hp => ?_⟩
    rw [dataNack_fatal hmu] at hp
    exact absurd hp nofun
  | hold _ _ _ => exact hplain (.log _ (e := .held _) ⟨rfl, rfl⟩)
  | overfull _ he hfull => exact absurd (hroom rfl he) (Nat.not_lt.mpr hfull)
  | outside _ hfwd hback _ => exact absurd (hin rfl) (not_or.mpr ⟨hfwd, hback⟩)
  | oversize hm =>
    refine ⟨.dataNack hm (by decide) rfl, fun hp => ?_⟩
    rw [dataNack_fatal hm] at hp
    exact absurd hp nofun
  | mark _ _ hk =>
    obtain ⟨gap, frames, acks, rfl⟩ := hk
    exact hplain (.refl _ _)
  | sack ht hm =>
    have htells := sackOrFatal_tells app ctx hm
    exact ⟨htells.1, fun hp => .inr ⟨ht, htells.2 hp⟩⟩
  | finish hm =>
    have hf : Finished _ (pipeFinish app ctx [] _).2 := .pipeFinish [] hm
    refine ⟨hf.added.mono fun _ he => he.2, fun hp => ?_⟩
    rw [hf.mode] at hp
    exact absurd hp nofun

end Words

section Pending

variable {w sent : Nat} {rep : Nat → Prop} {block : Bytes} {blocks : List Bytes} {d d' : Dev}

/-- Blocks on their way, against what the sender knows already. Each means the
same whenever it arrives, reports only chunks that have been received, and was
made when some chunk was due that nothing sent before it reports. -/
def Pending (d : Dev) (w sent : Nat) : (Nat → Prop) → List Bytes → Prop
  | _, [] => True
  | rep, block :: blocks => ∃ (told : Nat → Prop) (due : Nat), ¬ rep due ∧
      (∀ n, sent ≤ n → n ≤ due + w → ∀ j, reports block n j = true ↔ told j) ∧
      (∀ j, told j → Received d j) ∧ Pending d w sent (fun j => rep j ∨ told j) blocks

theorem Pending.mono {n : Nat} {known : Nat → Prop} (h : Pending d w sent rep blocks) (hn : sent ≤ n)
    (hrec : ∀ j, Received d j → Received d' j) (hknown : ∀ j, known j → rep j) :
    Pending d' w n known blocks := by
  induction blocks generalizing rep known with
  | nil => trivial
  | cons block blocks ih =>
    obtain ⟨told, due, hdue, hmeans, htold, hrest⟩ := h
    refine ⟨told, due, fun hk => hdue (hknown due hk), fun m hm => hmeans m (hn.trans hm),
      fun j hj => hrec j (htold j hj), ih hrest fun j hj => ?_⟩
    exact hj.imp_left (hknown j)

theorem Pending.append (h : Pending d w sent rep blocks) (hrep : ∀ j, rep j → Received d j)
    {told : Nat → Prop} {due : Nat} (hdue : ¬ Received d due)
    (hmeans : ∀ n, sent ≤ n → n ≤ due + w → ∀ j, reports block n j = true ↔ told j)
    (htold : ∀ j, told j → Received d j) : Pending d w sent rep (blocks ++ [block]) := by
  induction blocks generalizing rep with
  | nil => exact ⟨told, due, fun hk => hdue (hrep due hk), hmeans, htold, trivial⟩
  | cons first blocks ih =>
    obtain ⟨told', due', hdue', hmeans', htold', hrest⟩ := h
    refine ⟨told', due', hdue', hmeans', htold', ih hrest fun j hj => ?_⟩
    exact hj.elim (hrep j) (htold' j)

/-- The largest chunk accepted has not been given up. -/
def Topped (d : Dev) : Prop := 0 < (progress d.events).seen → Received d (top d)

theorem sackTop_eq {t n : Nat} (hb : sackHighest block = UInt8.ofNat t) (hlt : t < n)
    (hle : n ≤ t + 256) : sackTop block n = some t := by
  unfold sackTop
  dsimp only
  rw [hb, UInt8.toNat_ofNat', if_pos (by omega)]
  congr 1
  omega

/-- The block of a state means the same to the sender for as long as it has sent
no chunk beyond the window of that state. -/
theorem pipeBuildSack_means (hw : Windowed .fresh d) (htop : Topped d)
    (hseen : (progress d.events).seen ≤ sent) : ∃ told : Nat → Prop,
      (∀ n, sent ≤ n → n ≤ (progress d.events).taken + d.pipe.window.toNat →
        ∀ j, reports (pipeBuildSack d) n j = true ↔ told j) ∧ ∀ j, told j → Received d j := by
  have hbounds := hw.bounds
  have hnear := hw.near
  by_cases hs : 0 < (progress d.events).seen
  · have ht : (progress d.events).seen = top d + 1 := by unfold top; omega
    have hhigh : sackHighest (pipeBuildSack d) = UInt8.ofNat (top d) := pipeHighest_eq hw hs
    refine ⟨fun j => j = top d ∨ j < top d ∧ top d - 1 - j < 32 ∧
      sackBit (pipeBuildSack d) (top d - 1 - j) = true, fun n hle hcap j => ?_, ?_⟩
    · unfold reports
      rw [sackTop_eq hhigh (by omega) (by omega)]
      simp [and_assoc]
    · rintro j (rfl | ⟨hlt, hbit, hset⟩)
      · exact htop hs
      · rw [sackBit_eq d hbit, chunkReceived_iff hw hs hbit] at hset
        rcases hset with ⟨hle, -⟩ | ⟨-, hbuf⟩
        · exact .inl (by omega)
        · have hj : top d - 1 - (top d - 1 - j) = j := by omega
          rw [hj] at hbuf
          exact .inr hbuf
  · -- nothing has been received: the block names chunk 255, which is not yet sent
    refine ⟨fun _ => False, fun n _ hcap j => ?_, fun _ h => h.elim⟩
    have hk : (progress d.events).taken = 0 := by omega
    have hhigh : sackHighest (pipeBuildSack d) = 255 := by
      change pipeHighest d = 255
      unfold pipeHighest
      rw [hw.received, decide_eq_false hs, hw.next, hk]
      rfl
    have hnone : sackTop (pipeBuildSack d) n = none := by
      unfold sackTop
      dsimp only
      rw [hhigh, if_neg]
      have : (255 : UInt8).toNat = 255 := rfl
      omega
    simp [reports, hnone]

end Pending

section Talk

variable {app : App} {ctx : Ctx} {seq : UInt8} {payload : Bytes} {hs : List Bytes} {i : Nat}
  {turn : Turn} {d d' u : Dev} {a b : Turn × Dev}

theorem Windowed.occupied_lt (hw : Windowed turn d) (hm : pipeMode d.xfer.mode = true)
    (ht : turn ≠ .draining) : occupiedCount d.reorder < d.pipe.window.toNat := by
  have hcard : occupiedCount d.reorder ≤ (Finset.Ioo (progress d.events).taken
      ((progress d.events).taken + d.pipe.window.toNat)).card := by
    refine Finset.card_le_card_of_injOn (fun i => lift (progress d.events).taken (d.reorder i).seq) ?_ ?_
    · intro i hi
      have ho : (d.reorder i).occupied = true := by simpa using hi
      simpa using ⟨hw.ahead hm ht i ho, (hw.slots i ho).2⟩
    · intro i hi j hj heq
      have hoi : (d.reorder i).occupied = true := by simpa using hi
      have hoj : (d.reorder j).occupied = true := by simpa using hj
      have hseq : (d.reorder i).seq = (d.reorder j).seq := by
        rw [← ofNat_lift (progress d.events).taken (d.reorder i).seq, show lift _ _ = _ from heq, ofNat_lift]
      rw [← (hw.slots i hoi).1, ← (hw.slots j hoj).1, hseq]
  rw [Nat.card_Ioo] at hcard
  have := hw.bounds.1
  omega

theorem Counted.room (h : Counted d) (hw : Windowed .fresh d) (hm : pipeMode d.xfer.mode = true)
    (he : Early seq d) (hclear : Clear seq d) :
    (pipeStore seq payload d).pipe.queuedCount.toNat < odPipeReorderSlots := by
  have hstore : Counted (pipeStore seq payload d) := h.store hw he (hclear he)
  have hlt : occupiedCount (pipeStore seq payload d).reorder < d.pipe.window.toNat := by
    have hwindow := (pipeHold_frame seq payload d).2
    have := Windowed.occupied_lt (d := pipeHold seq payload d) (hw.hold hm he) hm nofun
    rwa [hwindow] at this
  have hbounds := hw.bounds.2
  rw [hstore, show odPipeReorderSlots = 33 from rfl]
  omega

/-- What stays true of an open transfer while chunk `i` is dealt with, which
came when the device was in state `d`. -/
structure Talk (d : Dev) (i : Nat) (a : Turn × Dev) : Prop where
  window : Windowed a.1 a.2
  counted : Counted a.2
  topped : Topped a.2
  width : a.2.pipe.window = d.pipe.window
  seen : (progress a.2.events).seen ≤ max (progress d.events).seen (i + 1)
  grown : (progress d.events).taken ≤ (progress a.2.events).taken
  kept : ∀ j, Received d j → Received a.2 j

theorem Stays.topped (hk : Stays hs d d') (h : Topped d) : Topped d' := by
  unfold Topped top
  rw [hk.seen]
  exact fun hs => hk.received (h hs)

theorem Stays.width (hk : Stays hs d d') : d'.pipe.window = d.pipe.window := by
  obtain ⟨gap, frames, acks, hp⟩ := hk.pipe
  rw [hp]

theorem topped_taken {k seen : Nat} (htaken : (progress d'.events).taken = k + 1)
    (hseen : (progress d'.events).seen = max seen (k + 1))
    (h : 0 < seen → Received d' (seen - 1)) : Topped d' := by
  intro _
  unfold top
  rw [hseen]
  by_cases hle : seen ≤ k + 1
  · refine .inl ?_
    omega
  · have htop := h (by omega)
    rwa [Nat.max_eq_left (by omega)]

theorem Talk.stays (h : Talk d i (turn, u)) (ht : turn ≠ .draining) (hk : Stays hs u d') :
    Talk d i (.answering, d') where
  window := hk.windowed (Windowed.turns h.window ht)
  counted := hk.counted h.counted
  topped := hk.topped h.topped
  width := hk.width.trans h.width
  seen := hk.seen.le.trans h.seen
  grown := h.grown.trans hk.taken.ge
  kept j hj := hk.received (h.kept j hj)

theorem Shift.alive (hd : Shift seq payload a b) (hm : pipeMode b.2.xfer.mode = true) :
    pipeMode a.2.xfer.mode = true := by
  cases hd with
  | ended hp _ _ => exact hp
  | stays _ hk => exact hk.alive hm
  | drained _ => exact hm
  | dead hp _ _ _ => exact hp
  | accept hk hp _ => exact hk.alive hp
  | release hk hp _ => exact hk.alive hp
  | hold hp _ _ => exact hp
  | overfull hp _ _ _ _ => exact hp

/-- Chunk `i` is the next one, and is accepted. -/
theorem Talk.accept {u : Dev} (h : Talk d i (.fresh, d)) (hk : Stays hs d u) (hseq : UInt8.ofNat i = u.pipe.expectedSeq)
    (hnear : nearby i d = true) (hkept : ∀ j, Received d j → Received (pipeAccept (UInt8.ofNat i) u) j) :
    Topped (pipeAccept (UInt8.ofNat i) u) ∧ (pipeAccept (UInt8.ofNat i) u).pipe.window = d.pipe.window ∧
      (progress (pipeAccept (UInt8.ofNat i) u).events).seen ≤ max (progress d.events).seen (i + 1) := by
  have hw : Windowed .fresh d := h.window
  have hlift : lift (progress d.events).taken (UInt8.ofNat i) = (progress d.events).taken := by
    rw [hseq, (hk.windowed hw).next, hk.taken, lift_self]
  have hbounds := hw.bounds.1
  have hi := lift_of_nearby hw hnear (by rw [hlift]; omega)
  have hseen : (progress (pipeAccept (UInt8.ofNat i) u).events).seen =
      max (progress d.events).seen ((progress d.events).taken + 1) := by
    rw [pipeAccept_progress, ← hk.seen, ← hk.taken]
    rfl
  refine ⟨topped_taken (k := (progress d.events).taken) ?_ hseen fun hs => hkept _ (h.topped hs),
    (pipeAccept_frame _ u).2.trans hk.width, ?_⟩
  · rw [pipeAccept_progress, ← hk.taken]
    rfl
  · rw [hseen, ← hlift, hi]

/-- A held chunk whose turn has come is released. -/
theorem Talk.release {c u : Dev} (h : Talk d i (.draining, c)) (hk : Stays hs c u)
    (hm : pipeMode u.xfer.mode = true) (hdue : Due u) (hrec : ∀ {j}, Received c j → Received (pipeRelease u) j) :
    Topped (pipeRelease u) ∧ (pipeRelease u).pipe.window = c.pipe.window ∧
      (progress (pipeRelease u).events).seen ≤ max (progress d.events).seen (i + 1) := by
  have hw := hk.windowed h.window
  have hbelow := hw.below hm _ hdue.1
  rw [hdue.2, hw.next, lift_self] at hbelow
  have hseen : (progress (pipeRelease u).events).seen =
      max (progress c.events).seen ((progress c.events).taken + 1) := by
    rw [pipeRelease_progress, ← hk.seen, ← hk.taken]
    rfl
  refine ⟨topped_taken (k := (progress c.events).taken) ?_ hseen fun hs => hrec (h.topped hs), hk.width, ?_⟩
  · rw [pipeRelease_progress, ← hk.taken]
    rfl
  · rw [hk.seen, hk.taken] at hbelow
    rw [hseen, Nat.max_eq_left hbelow]
    exact h.seen

/-- Chunk `i` is early, and is held. -/
theorem Talk.hold (h : Talk d i (.fresh, d)) (hnear : nearby i d = true) (he : Early (UInt8.ofNat i) d)
    (hrec : ∀ {j}, Received d j → Received (pipeHold (UInt8.ofNat i) payload d) j) :
    Topped (pipeHold (UInt8.ofNat i) payload d) ∧
      (pipeHold (UInt8.ofNat i) payload d).pipe.window = d.pipe.window ∧
      (progress (pipeHold (UInt8.ofNat i) payload d).events).seen ≤ max (progress d.events).seen (i + 1) := by
  have hw : Windowed .fresh d := h.window
  have htop : Topped d := h.topped
  have hi := lift_of_nearby hw hnear ((early_iff hw.next).mp he).2
  have hidx : (progress d.events).taken + (UInt8.ofNat i - d.pipe.expectedSeq).toNat = i := by
    rw [hw.next]
    exact hi
  have hseen : (progress (pipeHold (UInt8.ofNat i) payload d).events).seen =
      max (progress d.events).seen (i + 1) := by
    rw [pipeHold_progress]
    change max _ (_ + _ + 1) = _
    rw [hidx]
  refine ⟨fun _ => ?_, (pipeHold_frame _ payload d).2, hseen.le⟩
  unfold top
  rw [hseen]
  by_cases hle : (progress d.events).seen ≤ i + 1
  · have hnew : Buffered (pipeHold (UInt8.ofNat i) payload d) i := by
      refine ⟨pipeSlot (UInt8.ofNat i), ?_, ?_⟩
      · change ((pipeStore (UInt8.ofNat i) payload d).reorder _).occupied = true
        rw [pipeStore_slot]
      · rw [pipeHold_progress]
        change lift _ ((pipeStore (UInt8.ofNat i) payload d).reorder _).seq = i
        rw [pipeStore_slot]
        exact hi
    rw [Nat.max_eq_right hle]
    exact .inr hnew
  · rw [Nat.max_eq_left (by omega)]
    exact hrec (htop (by omega))

/-- A deed for chunk `i` keeps the talk going, while the transfer lives. -/
theorem Deed.talk (hd : Deed app ctx (UInt8.ofNat i) payload a b) (hfresh : a.1 = .fresh → a.2 = d)
    (hnear : nearby i d = true) (hclear : Clear (UInt8.ofNat i) d) (h : Talk d i a)
    (hm : pipeMode b.2.xfer.mode = true) : Talk d i b := by
  have hw : Windowed b.1 b.2 := hd.windowed (fun _ => h.window) (.inl hm)
  have hclear' : OnPipe a.2 → a.1 = .fresh → Clear (UInt8.ofNat i) a.2 := fun _ ht => by
    rw [hfresh ht]
    exact hclear
  have hcount : Counted b.2 := hd.counted hclear' (fun _ => h.window) (fun _ => h.counted) (.inl hm)
  have hrec : ∀ {j}, Received a.2 j → Received b.2 j := fun {j} hj =>
    hd.shift.received (fun _ => h.window) hclear' (.inl hm) hj
  -- the other facts follow the window
  suffices hrest : Topped b.2 ∧ b.2.pipe.window = a.2.pipe.window ∧
      (progress b.2.events).seen ≤ max (progress d.events).seen (i + 1) by
    exact ⟨hw, hcount, hrest.1, hrest.2.1.trans h.width, hrest.2.2, h.grown.trans hd.shift.grows.1,
      fun j hj => hrec (h.kept j hj)⟩
  cases hd.shift with
  | ended _ hi _ =>
    rw [hi] at hm
    exact absurd hm nofun
  | stays _ hk => exact ⟨hk.topped h.topped, hk.width, hk.seen.le.trans h.seen⟩
  | drained _ => exact ⟨h.topped, rfl, h.seen⟩
  | dead _ _ hf _ =>
    rw [hf] at hm
    exact absurd hm nofun
  | @accept c u hk _ hseq =>
    obtain rfl : c = d := hfresh rfl
    exact h.accept hk hseq hnear fun _ => hrec
  | release hk hmu hdue => exact h.release hk hmu hdue hrec
  | @hold c _ he _ =>
    obtain rfl : c = d := hfresh rfl
    exact h.hold hnear he hrec
  | overfull _ _ _ _ hf =>
    rw [hf] at hm
    exact absurd hm nofun

end Talk

section Frame

variable {app : App} {ctx : Ctx} {payload : Bytes} {i w sent : Nat} {rep : Nat → Prop}
  {sacks : List Bytes} {d d' : Dev} {a b : Turn × Dev}

theorem Windowed.not_received_taken (hw : Windowed .fresh d) (hm : pipeMode d.xfer.mode = true) :
    ¬ Received d (progress d.events).taken := by
  rintro (hlt | ⟨i, ho, hl⟩)
  · exact lt_irrefl _ hlt
  · have := hw.ahead hm nofun i ho
    omega

theorem in_window_of_nearby (hw : Windowed .fresh d) (h : nearby i d = true) :
    UInt8.ofNat i - d.pipe.expectedSeq < d.pipe.window ∨
      d.pipe.expectedSeq - UInt8.ofNat i ≤ d.pipe.window := by
  simp only [nearby, decide_eq_true_eq] at h
  have hbounds := hw.bounds.2
  rw [hw.next, UInt8.lt_iff_toNat_lt, UInt8.le_iff_toNat_le]
  by_cases hle : (progress d.events).taken ≤ i
  · rw [sub_toNat_of_lt hle (by omega)]
    omega
  · rw [sub_toNat_of_lt (by omega : i ≤ _) (by omega)]
    omega

theorem filterMap_plain {es : List Event} (h : ∀ e ∈ es, Plain e) : es.filterMap sackOf = [] :=
  List.filterMap_eq_nil_iff.mpr fun e he => (h e he).2

/-- What has been said since state `d`, and what the sender may make of it. -/
def Heard (d : Dev) (i sent : Nat) (rep : Nat → Prop) (sacks : List Bytes) (a : Turn × Dev) : Prop :=
  ∃ es, a.2.events = d.events ++ es ∧ (∀ e ∈ es, kills e = false) ∧
    (pipeMode a.2.xfer.mode = true → Talk d i a ∧
      Pending a.2 d.pipe.window.toNat sent rep (sacks ++ es.filterMap sackOf))

theorem Deed.heard (hd : Deed app ctx (UInt8.ofNat i) payload a b) (hfresh : a.1 = .fresh → a.2 = d)
    (hmd : pipeMode d.xfer.mode = true) (hnear : nearby i d = true) (hclear : Clear (UInt8.ofNat i) d)
    (htalk : Talk d i (.fresh, d)) (hsent : (progress d.events).seen ≤ sent ∧ i < sent)
    (hrep : ∀ j, rep j → Received d j) (h : Heard d i sent rep sacks a) :
    Heard d i sent rep sacks b := by
  obtain ⟨es, hes, hkills, htell⟩ := h
  have hin : a.1 = .fresh → UInt8.ofNat i - a.2.pipe.expectedSeq < a.2.pipe.window ∨
      a.2.pipe.expectedSeq - UInt8.ofNat i ≤ a.2.pipe.window := by
    intro ht
    rw [hfresh ht]
    exact in_window_of_nearby htalk.window hnear
  have hroom : a.1 = .fresh → Early (UInt8.ofNat i) a.2 →
      (pipeStore (UInt8.ofNat i) payload a.2).pipe.queuedCount.toNat < odPipeReorderSlots := by
    intro ht he
    rw [hfresh ht] at he ⊢
    exact htalk.counted.room htalk.window hmd he hclear
  obtain ⟨⟨es', hes', hkills'⟩, htells⟩ := hd.tells hin hroom
  refine ⟨es ++ es', by rw [hes', hes, List.append_assoc], fun e he => ?_, fun hm => ?_⟩
  · exact (List.mem_append.mp he).elim (hkills e) (hkills' e)
  · have hma := hd.shift.alive hm
    obtain ⟨hta, hpend⟩ := htell hma
    have htb := hd.talk hfresh hnear hclear hta hm
    refine ⟨htb, ?_⟩
    have hrec : ∀ j, Received a.2 j → Received b.2 j := by
      intro j hj
      refine hd.shift.received (fun _ => hta.window) (fun _ ht => ?_) (.inl hm) hj
      rw [hfresh ht]
      exact hclear
    rw [List.filterMap_append, ← List.append_assoc]
    rcases htells hm with ⟨es'', hes'', hplain⟩ | ⟨ht, rp, hreply⟩
    · obtain rfl : es' = es'' := List.append_cancel_left (hes'.symm.trans hes'')
      rw [filterMap_plain hplain, List.append_nil]
      exact hpend.mono le_rfl hrec fun _ hj => hj
    · obtain rfl := List.append_cancel_left (hes'.symm.trans hreply)
      have hwa : Windowed .fresh a.2 := hta.window.turns ht
      have hseen := hta.seen
      have hsaid : (progress a.2.events).seen ≤ sent := by omega
      obtain ⟨told, hmeans, htold⟩ := pipeBuildSack_means hwa hta.topped hsaid
      rw [hta.width] at hmeans
      have hnew := hpend.append (fun j hj => hta.kept j (hrep j hj)) (hwa.not_received_taken hma)
        hmeans htold
      exact hnew.mono le_rfl hrec fun _ hj => hj

/-- One frame of a chunk near the window: the transfer is not killed, and while
it lives the sender can rely on what it is told. -/
theorem chunk_heard (pay : Nat → Bytes)
    (hc : clash (.pipeData ctx (UInt8.ofNat i :: pay i)) d = false)
    (hlive : pipeMode d.xfer.mode = true → nearby i d = true ∧ Talk d i (.fresh, d) ∧
      ((progress d.events).seen ≤ sent ∧ i < sent) ∧ (∀ j, rep j → Received d j) ∧
      Pending d d.pipe.window.toNat sent rep sacks) :
    Heard d i sent rep sacks (.answering, step app (.pipeData ctx (UInt8.ofNat i :: pay i)) d) := by
  cases hi : pipeIgnores ctx (UInt8.ofNat i :: pay i) d with
  | true =>
    obtain ⟨es, hes, hplain⟩ := Adds.ignored app hi
    refine ⟨es, hes, fun e he => (hplain e he).1, fun hm => ?_⟩
    have hk : Stays [] d (step app (.pipeData ctx (UInt8.ofNat i :: pay i)) d) := .ignored hi
    obtain ⟨-, htalk, -, -, hpend⟩ := hlive (hk.alive hm)
    rw [filterMap_plain hplain, List.append_nil]
    exact ⟨htalk.stays nofun hk, hpend.mono le_rfl (fun _ hj => hk.received hj) fun _ hj => hj⟩
  | false =>
    obtain ⟨hm, -, hstep⟩ := pipeIgnores_false hi
    obtain ⟨hnear, htalk, hsent, hrep, hpend⟩ := hlive hm
    cases hfit : pipeFrameFits ctx (pay i) d with
    | false =>
      have heq : step app (.pipeData ctx (UInt8.ofNat i :: pay i)) d =
          (pipeSendDataNack ctx 0x03 .frameSize d).2 :=
        congrArg Prod.snd ((hstep app).trans (if_pos hfit))
      have hadds : Adds (fun e => kills e = false) d (pipeSendDataNack ctx 0x03 .frameSize d).2 :=
        .dataNack hm (by decide) rfl
      obtain ⟨es, hes, hkills⟩ := hadds
      rw [heq]
      refine ⟨es, hes, hkills, fun hp => ?_⟩
      rw [dataNack_fatal hm] at hp
      exact absurd hp nofun
    | true =>
      have hclear : Clear (UInt8.ofNat i) d := clear_of_not_clash hi hfit hc
      have hfirst : Heard d i sent rep sacks (.fresh, d) :=
        ⟨[], by simp, by simp, fun _ => ⟨htalk, by simpa using hpend⟩⟩
      refine ((odPipeData_deeds app hi).rule
        (I := fun a => (a.1 = .fresh → a.2 = d) ∧ Heard d i sent rep sacks a) ?_ ⟨fun _ => rfl, hfirst⟩).2
      rintro a b hdeed ⟨hfresh, hh⟩
      exact ⟨fun ht => absurd ht hdeed.turned,
        hdeed.heard hfresh hm hnear hclear htalk hsent hrep hh⟩

end Frame

section Run

variable {pay : Nat → Bytes} {n : Net} {i base : Nat}

theorem testBit_hearBlock (block : Bytes) (sent reported j : Nat) :
    (hearBlock block sent reported).testBit j =
      (reported.testBit j || decide (j < sent) && reports block sent j) := by
  have hfold : ∀ m, ((List.range m).foldl
      (fun r j => if reports block sent j then r ||| 2 ^ j else r) reported).testBit j =
      (reported.testBit j || decide (j < m) && reports block sent j) := by
    intro m
    induction m with
    | zero => simp
    | succ m ih =>
      rw [List.range_succ, List.foldl_append, List.foldl_cons, List.foldl_nil]
      by_cases hj : j = m
      · subst hj
        split_ifs with hr
        · simp [Nat.testBit_or, hr]
        · rw [ih]
          simp [hr]
      · have hlt : decide (j < m + 1) = decide (j < m) := by
          rw [decide_eq_decide]
          omega
        rw [hlt, ← ih]
        split_ifs
        · rw [Nat.testBit_or, Nat.testBit_two_pow_of_ne (Ne.symm hj), Bool.or_false]
        · rfl
  exact hfold sent

theorem Net.isBase_iff : n.isBase base = true ↔
    (∀ j < base, n.reported.testBit j = true) ∧ n.reported.testBit base = false := by
  simp [Net.isBase]

/-- What the sender and the device rely on while the transfer is open. -/
structure Net.Sound (n : Net) : Prop where
  width : n.window = n.dev.pipe.window.toNat
  counted : Counted n.dev
  topped : Topped n.dev
  known : ∀ j, n.reported.testBit j = true → Received n.dev j
  pending : Pending n.dev n.window n.sent (fun j => n.reported.testBit j = true) n.sacks
  cap : ∀ b, n.reported.testBit b = false → n.sent ≤ b + n.window
  seen : (progress n.dev.events).seen ≤ n.sent
  flight : ∀ i ∈ n.flight, i < (progress n.dev.events).taken + n.window ∧
    (progress n.dev.events).seen ≤ i + n.window ∧ i < n.sent
  order : n.flight.Pairwise fun x y => x < y + n.window

theorem Net.Sound.send (h : n.Sound) (hw : Windowed .fresh n.dev) (hm : pipeMode n.dev.xfer.mode = true)
    (hbase : n.isBase base = true) (hlo : base ≤ i) (hhi : i < base + n.window) :
    Net.Sound { n with flight := n.flight ++ [i], sent := max n.sent (i + 1) } := by
  obtain ⟨hbelow, hopen⟩ := Net.isBase_iff.mp hbase
  have hcap := h.cap base hopen
  have hseen := h.seen
  have hle : ∀ {b}, n.reported.testBit b = false → base ≤ b := by
    intro b hb
    by_contra hlt
    exact absurd ((hbelow b (by omega)).symm.trans hb) nofun
  -- the chunk that is due has not been received, so it has not been reported
  have hdue : base ≤ (progress n.dev.events).taken := by
    refine hle (Bool.eq_false_of_not_eq_true fun hr => ?_)
    exact hw.not_received_taken hm (h.known _ hr)
  refine ⟨h.width, h.counted, h.topped, h.known, h.pending.mono (le_max_left _ _) (fun _ hj => hj)
    fun _ hj => hj, fun b hb => ?_, hseen.trans (le_max_left _ _), ?_, ?_⟩
  · have := hle hb
    have := h.cap b hb
    change max n.sent (i + 1) ≤ b + n.window
    omega
  · intro x hx
    change x < (progress n.dev.events).taken + n.window ∧
      (progress n.dev.events).seen ≤ x + n.window ∧ x < max n.sent (i + 1)
    rcases List.mem_append.mp hx with hx | hx
    · have := h.flight x hx
      omega
    · obtain rfl := List.mem_singleton.mp hx
      omega
  · refine List.pairwise_append.mpr ⟨h.order, List.pairwise_singleton _ _, fun x hx y hy => ?_⟩
    obtain rfl := List.mem_singleton.mp hy
    have := h.flight x hx
    change x < y + n.window
    omega

theorem Net.Sound.lose (h : n.Sound) : Net.Sound { n with flight := n.flight.tail } :=
  ⟨h.width, h.counted, h.topped, h.known, h.pending, h.cap, h.seen,
    fun i hi => h.flight i (List.mem_of_mem_tail hi), h.order.tail⟩

theorem Net.Sound.hear {block : Bytes} {rest : List Bytes} (h : n.Sound) (hs : n.sacks = block :: rest) :
    Net.Sound { n with sacks := rest, reported := hearBlock block n.sent n.reported } := by
  have hpend := h.pending
  rw [hs] at hpend
  obtain ⟨told, due, hdue, hmeans, htold, hrest⟩ := hpend
  have hcap := h.cap due (Bool.eq_false_of_not_eq_true hdue)
  have hnew : ∀ j, (hearBlock block n.sent n.reported).testBit j = true →
      n.reported.testBit j = true ∨ told j := by
    intro j hj
    rw [testBit_hearBlock, Bool.or_eq_true, Bool.and_eq_true] at hj
    exact hj.imp_right fun hr => (hmeans n.sent le_rfl hcap j).mp hr.2
  refine ⟨h.width, h.counted, h.topped, fun j hj => (hnew j hj).elim (h.known j) (htold j),
    hrest.mono le_rfl (fun _ hj => hj) hnew, fun b hb => h.cap b ?_, h.seen, h.flight, h.order⟩
  rw [testBit_hearBlock, Bool.or_eq_false_iff] at hb
  exact hb.1

theorem Net.Sound.loseSack (h : n.Sound) : Net.Sound { n with sacks := n.sacks.tail } := by
  refine ⟨h.width, h.counted, h.topped, h.known, ?_, h.cap, h.seen, h.flight, h.order⟩
  have hpend := h.pending
  change Pending n.dev n.window n.sent _ n.sacks.tail
  cases hs : n.sacks with
  | nil => trivial
  | cons block rest =>
    rw [hs] at hpend
    obtain ⟨told, due, -, -, -, hrest⟩ := hpend
    exact hrest.mono le_rfl (fun _ hj => hj) fun _ hj => .inl hj

theorem alive_of_frame {app : App} {ctx : Ctx} {body : Bytes} {d : Dev}
    (hm : pipeMode (step app (.pipeData ctx body) d).xfer.mode = true) : pipeMode d.xfer.mode = true := by
  cases hi : pipeIgnores ctx body d with
  | true =>
    have hk : Stays [] d (step app (.pipeData ctx body) d) := .ignored hi
    exact hk.alive hm
  | false => exact (pipeIgnores_false hi).1

/-- A delivery neither kills the transfer nor misleads the sender. -/
theorem Net.Sound.delivered (app : App) {ctx : Ctx} {rest : List Nat} (hd : Reachable n.dev)
    (hf : n.flight = i :: rest) (hc : clash (.pipeData ctx (UInt8.ofNat i :: pay i)) n.dev = false)
    (h : pipeMode n.dev.xfer.mode = true → n.Sound) :
    Adds (fun e => kills e = false) n.dev (n.delivered pay app ctx i rest).dev ∧
      (pipeMode (n.delivered pay app ctx i rest).dev.xfer.mode = true →
        (n.delivered pay app ctx i rest).Sound) := by
  have hheard : Heard n.dev i n.sent (fun j => n.reported.testBit j = true) n.sacks
      (.answering, step app (.pipeData ctx (UInt8.ofNat i :: pay i)) n.dev) := by
    refine chunk_heard pay hc fun hm => ?_
    have hs := h hm
    have hw : Windowed .fresh n.dev := hd.windowed (.inl hm)
    have hfl := hs.flight i (by rw [hf]; exact List.mem_cons_self)
    have hnear := hw.near
    have hpend := hs.pending
    rw [hs.width] at hfl hpend
    have htalk : Talk n.dev i (.fresh, n.dev) :=
      ⟨hw, hs.counted, hs.topped, rfl, le_max_left _ _, le_rfl, fun _ hj => hj⟩
    refine ⟨?_, htalk, ⟨hs.seen, hfl.2.2⟩, hs.known, hpend⟩
    simp only [nearby, decide_eq_true_eq]
    omega
  obtain ⟨es, hes, hkills, htell⟩ := hheard
  refine ⟨⟨es, hes, hkills⟩, fun hm => ?_⟩
  obtain ⟨htalk, hpend⟩ := htell hm
  have hs := h (alive_of_frame hm)
  have horder := hs.order
  rw [hf, List.pairwise_cons] at horder
  have hfl := hs.flight i (by rw [hf]; exact List.mem_cons_self)
  have hseen := htalk.seen
  have hgrown := htalk.grown
  have hnew : (step app (.pipeData ctx (UInt8.ofNat i :: pay i)) n.dev).events.drop n.dev.events.length =
      es := by rw [show (step app _ n.dev).events = _ from hes, List.drop_left]
  have hcap : n.sent = (n.delivered pay app ctx i rest).sent := rfl
  refine ⟨?_, htalk.counted, htalk.topped, fun j hj => htalk.kept j (hs.known j hj), ?_, hs.cap, ?_, ?_,
    horder.2⟩
  · rw [show (n.delivered pay app ctx i rest).dev.pipe.window = _ from htalk.width]
    exact hs.width
  · change Pending _ n.window n.sent _ (n.sacks ++ (List.drop _ _).filterMap sackOf)
    rw [hnew, hs.width]
    exact hpend
  · have := hs.seen
    exact hseen.trans (by omega)
  · intro x hx
    have hx' := hs.flight x (by rw [hf]; exact List.mem_cons_of_mem _ hx)
    have hi := horder.1 x hx
    refine ⟨?_, hseen.trans ?_, hx'.2.2⟩
    · exact lt_of_lt_of_le hx'.1 (Nat.add_le_add_right hgrown _)
    · change _ ≤ x + n.window
      omega

/-- A network that began in state `d`, with a transfer that has not been killed. -/
structure Net.Good (d : Dev) (n : Net) : Prop where
  reach : Reachable n.dev
  sound : pipeMode n.dev.xfer.mode = true → n.Sound
  unkilled : Adds (fun e => kills e = false) d n.dev

theorem Net.Good.act {d : Dev} {a : Act} (h : n.Good d) (hfree : n.clear pay a = true) :
    (n.act pay a).Good d := by
  cases a with
  | send i base =>
    change Net.Good d (if n.isBase base ∧ base ≤ i ∧ i < base + n.window then
      { n with flight := n.flight ++ [i], sent := max n.sent (i + 1) } else n)
    split_ifs with hlegal
    · obtain ⟨hbase, hlo, hhi⟩ := hlegal
      exact ⟨h.reach, fun hm => (h.sound hm).send (h.reach.windowed (.inl hm)) hm hbase hlo hhi,
        h.unkilled⟩
    · exact h
  | deliver app ctx =>
    change Net.Good d (match n.flight with
      | [] => n
      | i :: rest => n.delivered pay app ctx i rest)
    cases hf : n.flight with
    | nil => exact h
    | cons i rest =>
      have hc : clash (.pipeData ctx (UInt8.ofNat i :: pay i)) n.dev = false := by
        simpa [Net.clear, hf] using hfree
      obtain ⟨hadds, hsound⟩ := Net.Sound.delivered app h.reach hf hc h.sound
      have hreach : Reachable (n.delivered pay app ctx i rest).dev :=
        h.reach.next app (.pipeData ctx (UInt8.ofNat i :: pay i))
      exact ⟨hreach, hsound, h.unkilled.trans hadds⟩
  | lose => exact ⟨h.reach, fun hm => (h.sound hm).lose, h.unkilled⟩
  | hear =>
    change Net.Good d (match n.sacks with
      | [] => n
      | block :: rest => { n with sacks := rest, reported := hearBlock block n.sent n.reported })
    cases hs : n.sacks with
    | nil => exact h
    | cons block rest => exact ⟨h.reach, fun hm => (h.sound hm).hear hs, h.unkilled⟩
  | loseSack => exact ⟨h.reach, fun hm => (h.sound hm).loseSack, h.unkilled⟩

theorem Net.Good.run {d : Dev} {acts : List Act} (h : n.Good d) (hfree : n.clashFree pay acts = true) :
    (n.run pay acts).Good d := by
  induction acts generalizing n with
  | nil => exact h
  | cons a acts ih =>
    rw [Net.clashFree, Bool.and_eq_true] at hfree
    exact ih (h.act hfree.1) hfree.2

@[simp] theorem Net.act_window (n : Net) (a : Act) : (n.act pay a).window = n.window := by
  cases a with
  | send i base =>
    simp only [Net.act]
    split_ifs <;> rfl
  | deliver app ctx =>
    simp only [Net.act]
    cases n.flight <;> rfl
  | hear =>
    simp only [Net.act]
    cases n.sacks <;> rfl
  | lose => rfl
  | loseSack => rfl

theorem Net.Good.clear {d : Dev} (h : n.Good d) (hw : n.window ≤ 26) (a : Act) : n.clear pay a = true := by
  have hnarrow := not_clash_of_narrow h.reach fun hm => (h.sound hm).width ▸ hw
  cases a with
  | deliver app ctx =>
    cases hf : n.flight with
    | nil => simp [Net.clear, hf]
    | cons i rest => simp [Net.clear, hf, hnarrow]
  | _ => rfl

/-- In a window of at most 26 nothing clashes in any run. -/
theorem Net.Good.clashFree {d : Dev} {acts : List Act} (h : n.Good d) (hw : n.window ≤ 26) :
    n.clashFree pay acts = true := by
  induction acts generalizing n with
  | nil => rfl
  | cons a acts ih =>
    have hclear : n.clear pay a = true := h.clear hw a
    rw [Net.clashFree, hclear, Bool.true_and]
    exact ih (h.act hclear) (by rwa [Net.act_window])

theorem Net.good_start {d : Dev} (hd : Reachable d) (ho : Opens d) : (Net.start d).Good d := by
  refine ⟨hd, fun _ => ?_, .refl _ d⟩
  have hseen : (progress d.events).seen = 0 := by rw [ho.2]
  refine ⟨rfl, ho.counted, fun hs => absurd hs (Nat.not_lt.mpr hseen.le), fun j hj => ?_, trivial,
    fun b _ => Nat.zero_le _, hseen.le, ?_, List.Pairwise.nil⟩
  · simp [Net.start] at hj
  · simp [Net.start]

end Run

/-- After a START that succeeds, over a channel that may lose frames and lose or
delay acknowledgements, a sender that keeps to the window above the lowest chunk
not reported is never answered that a frame is outside the window or that the
buffer is full, in every run whose deliveries meet no clash; and in a window of at
most 26 none does. -/
theorem sender_not_killed (d : Dev) (h : Reachable d) (app : App) (ctx : Ctx) (body : Bytes)
    (hok : (odPipeStart app ctx body d).1 = .ok) (pay : Nat → Bytes) (acts : List Act) :
    ((Net.start (odPipeStart app ctx body d).2).clashFree pay acts = true →
      ∃ es, ((Net.start (odPipeStart app ctx body d).2).run pay acts).dev.events =
        (odPipeStart app ctx body d).2.events ++ es ∧ ∀ e ∈ es, kills e = false) ∧
    ((odPipeStart app ctx body d).2.pipe.window.toNat ≤ 26 →
      (Net.start (odPipeStart app ctx body d).2).clashFree pay acts = true) := by
  have hopens : Opens (odPipeStart app ctx body d).2 := (odPipeStart_started app ctx h.coupled hok).opens
  have hgood := Net.good_start (h.next app (.pipeStart ctx body)) hopens
  exact ⟨fun hfree => (hgood.run hfree).unkilled, hgood.clashFree⟩

/-- One chunk sent above `base` and delivered. -/
def passed (i base : Nat) : List Act := [.send i base, .deliver .willing .ble]

/-- A transfer up to the wrap, with an acknowledgement every 25 frames. Chunk 230
is lost at first, and the frames behind it fill the window. -/
def crowdedActs : List Act := List.flatten [
  (List.range 230).flatMap fun i =>
    List.append (passed i (i / 25 * 25)) (if i % 25 = 24 then [Act.hear] else []),
  [.send 230 225, .lose], passed 231 225, [.hear],
  (List.range 25).flatMap fun i => passed (232 + i) 230, [.hear],
  (List.range 26).flatMap fun _ => passed 230 230, [.hear],
  passed 257 257, passed 258 257]

/-- A transfer with a lost frame. -/
theorem sender_not_killed_lost :
    let d := (odPipeStart .willing .ble (pipeStartBody 8 8) (Dev.boot 7)).2
    let acts : List Act := List.flatten [[.send 0 0, .lose], passed 1 0, [.hear], passed 0 0]
    ((Net.start d).run (fun _ => []) acts).dev.pipe.receivedCount = 2 ∧
      ∀ e ∈ (((Net.start d).run (fun _ => []) acts).dev.events.drop d.events.length), kills e = false := by
  intro d acts
  have hrun := sender_not_killed (Dev.boot 7) ⟨7, [], rfl⟩ .willing .ble (pipeStartBody 8 8) (by decide +kernel)
    (fun _ => []) acts
  obtain ⟨es, hes, hkills⟩ := hrun.1 (hrun.2 (by decide +kernel))
  refine ⟨by decide +kernel, ?_⟩
  rw [hes, List.drop_left]
  exact hkills

/-- The sender keeps to its window, and the device answers that it does not. -/
theorem sender_killed :
    Event.terminal .sequenceWindow ∈ ((Net.start (odPipeStart .willing .ble (pipeStartBody 27 25)
      (Dev.boot 7)).2).run (fun _ => []) crowdedActs).dev.events := by
  decide +kernel

end OpenDisplay
