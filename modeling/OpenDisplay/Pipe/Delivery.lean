import OpenDisplay.Pipe.Window

/-! Delivery. Whatever order, loss and repetition the frames of a transfer come
with, its chunks are handed over in order and once each. -/

namespace OpenDisplay

open Serial

section Chunks

variable {pay : Nat → Bytes} {app : App} {ctx : Ctx} {seq : UInt8} {payload : Bytes} {i : Nat}
  {d d' : Dev} {a b : Turn × Dev}

/-- What the first `m` chunks hand over. -/
def inOrder (pay : Nat → Bytes) (m : Nat) : List Bytes :=
  (List.range m).flatMap fun i => handed (pay i)

theorem inOrder_succ (pay : Nat → Bytes) (m : Nat) :
    inOrder pay (m + 1) = inOrder pay m ++ handed (pay m) := by
  simp [inOrder, List.range_succ]

/-- The chunks taken have been handed over in order, possibly with one more that
was refused and ended the transfer, and every held frame is the chunk that its
sequence number stands for. -/
structure Delivers (pay : Nat → Bytes) (a : Turn × Dev) : Prop where
  handed : (progress a.2.events).handed = inOrder pay (progress a.2.events).taken ∨
    a.2.xfer.mode = .fatal ∧
      (progress a.2.events).handed = inOrder pay ((progress a.2.events).taken + 1)
  window : OnPipe a.2 → Windowed a.1 a.2
  slots : pipeMode a.2.xfer.mode = true → ∀ i, (a.2.reorder i).occupied = true →
    (a.2.reorder i).data = pay (lift (progress a.2.events).taken (a.2.reorder i).seq)

/-- A frame of the window carries the payload of its chunk. -/
def Meant (pay : Nat → Bytes) (seq : UInt8) (payload : Bytes) (d : Dev) : Prop :=
  lift (progress d.events).taken seq < (progress d.events).taken + d.pipe.window.toNat →
    payload = pay (lift (progress d.events).taken seq)

theorem Delivers.alive (h : Delivers pay a) (hm : pipeMode a.2.xfer.mode = true) :
    (progress a.2.events).handed = inOrder pay (progress a.2.events).taken := by
  rcases h.handed with heq | ⟨hf, -⟩
  · exact heq
  · rw [hf] at hm
    exact absurd hm nofun

theorem Stays.alive {hs : List Bytes} (hk : Stays hs d d') (hm : pipeMode d'.xfer.mode = true) :
    pipeMode d.xfer.mode = true := by
  rcases hk.mode with heq | ⟨hp, -⟩
  · rw [← heq]
    exact hm
  · exact hp

theorem Delivers.stays {turn : Turn} (h : Delivers pay (turn, d)) (ht : turn ≠ .draining)
    (hk : Stays [] d d') : Delivers pay (.answering, d') := by
  have hgrown : (progress d'.events).handed = (progress d.events).handed := by
    rw [hk.grown, List.append_nil]
  refine ⟨?_, fun ho => hk.windowed ((h.window (hk.onPipe ho)).turns ht), fun hm i ho => ?_⟩
  · rw [hk.taken, hgrown]
    rcases hk.mode with hm | ⟨hp, hf⟩
    · rw [hm]
      exact h.handed
    · exact .inl (h.alive hp)
  · change (d'.reorder i).occupied = true at ho
    change (d'.reorder i).data = _
    rw [hk.taken, hk.reorder] at *
    exact h.slots (hk.alive hm) i ho

theorem Delivers.hand (h : Delivers pay a) {data : Bytes} {u : Dev} (hk : Stays (OpenDisplay.handed data) a.2 u)
    (hm : pipeMode a.2.xfer.mode = true) (hdata : data = pay (progress a.2.events).taken) :
    (progress u.events).handed = inOrder pay ((progress u.events).taken + 1) := by
  rw [hk.taken, inOrder_succ, hk.grown, h.alive hm, hdata]

theorem Delivers.dueData {turn : Turn} (h : Delivers pay (turn, d)) (hm : pipeMode d.xfer.mode = true)
    (hdue : Due d) : OpenDisplay.dueData d = pay (progress d.events).taken := by
  have hw := h.window (.inl hm)
  have hdata := h.slots hm _ hdue.1
  change OpenDisplay.dueData d = _ at hdata
  rw [hdata]
  change pay (lift _ (d.reorder (pipeSlot d.pipe.expectedSeq)).seq) = _
  rw [hdue.2, hw.next, lift_self]

theorem Meant.due (h : Meant pay seq payload d) (hw : Windowed .fresh d)
    (hseq : seq = d.pipe.expectedSeq) : payload = pay (progress d.events).taken := by
  have hlift : lift (progress d.events).taken seq = (progress d.events).taken := by
    rw [hseq, hw.next, lift_self]
  have hbounds := hw.bounds.1
  have hpay := h (by rw [hlift]; omega)
  rwa [hlift] at hpay

theorem Delivers.accept (h : Delivers pay (.fresh, d)) (hk : Stays (OpenDisplay.handed payload) d d')
    (hm : pipeMode d'.xfer.mode = true) (hseq : seq = d'.pipe.expectedSeq)
    (hmeant : Meant pay seq payload d) : Delivers pay (.draining, pipeAccept seq d') := by
  have hmd := hk.alive hm
  have hw := h.window (.inl hmd)
  have hw' := hk.windowed hw
  have hseq' : seq = d.pipe.expectedSeq := by rw [hseq, hw'.next, hk.taken, hw.next]
  refine ⟨.inl ?_, fun _ => hw'.accept hm hseq, fun _ i ho => ?_⟩
  · rw [pipeAccept_progress]
    exact h.hand hk hmd (hmeant.due hw hseq')
  · change (d'.reorder i).occupied = true at ho
    change (d'.reorder i).data = pay (lift _ (d'.reorder i).seq)
    have hahead := hw'.ahead hm nofun i ho
    have hne : (d'.reorder i).seq ≠ UInt8.ofNat (progress d'.events).taken := by
      intro he
      rw [he, lift_self] at hahead
      exact lt_irrefl _ hahead
    rw [pipeAccept_progress]
    change _ = pay (lift ((progress d'.events).taken + 1) _)
    rw [lift_succ hne, hk.taken]
    rw [hk.reorder] at ho ⊢
    exact h.slots hmd i ho

theorem Delivers.release (h : Delivers pay (.draining, d))
    (hk : Stays (OpenDisplay.handed (OpenDisplay.dueData d')) d d') (hm : pipeMode d'.xfer.mode = true)
    (hdue : Due d') : Delivers pay (.draining, pipeRelease d') := by
  have hmd := hk.alive hm
  have hw := h.window (.inl hmd)
  have hw' := hk.windowed hw
  obtain ⟨hdue', hsame⟩ := hk.due
  refine ⟨.inl ?_, fun _ => hw'.release hm hdue, fun _ i ho => ?_⟩
  · rw [pipeRelease_progress]
    exact h.hand hk hmd (hsame.trans (h.dueData hmd (hdue'.mp hdue)))
  · by_cases hi : i = pipeSlot d'.pipe.expectedSeq
    · subst hi
      simp [pipeRelease, pipeTake, Dev.log] at ho
    · have heq : (pipeRelease d').reorder i = d'.reorder i := Function.update_of_ne hi _ _
      change ((pipeRelease d').reorder i).occupied = true at ho
      change ((pipeRelease d').reorder i).data = pay (lift _ ((pipeRelease d').reorder i).seq)
      rw [heq] at ho ⊢
      have hne : (d'.reorder i).seq ≠ UInt8.ofNat (progress d'.events).taken := by
        intro he
        apply hi
        rw [← (hw'.slots i ho).1, he, hw'.next]
      rw [pipeRelease_progress]
      change _ = pay (lift ((progress d'.events).taken + 1) _)
      rw [lift_succ hne, hk.taken]
      rw [hk.reorder] at ho ⊢
      exact h.slots hmd i ho

theorem Delivers.hold (h : Delivers pay (.fresh, d)) (hm : pipeMode d.xfer.mode = true)
    (he : Early seq d) (hmeant : Meant pay seq payload d) :
    Delivers pay (.answering, pipeHold seq payload d) := by
  have hw := h.window (.inl hm)
  refine ⟨.inl ?_, fun _ => hw.hold hm he, fun _ i ho => ?_⟩
  · rw [pipeHold_progress]
    exact h.alive hm
  · rw [pipeHold_progress]
    change ((pipeStore seq payload d).reorder i).occupied = true at ho
    change ((pipeStore seq payload d).reorder i).data =
      pay (lift (progress d.events).taken ((pipeStore seq payload d).reorder i).seq)
    by_cases hi : i = pipeSlot seq
    · rw [hi, pipeStore_slot]
      exact hmeant ((early_iff hw.next).mp he).2
    · rw [pipeStore_other hi] at ho ⊢
      exact h.slots hm i ho

theorem Deed.delivers (hd : Deed app ctx seq payload a b)
    (hmeant : a.1 = .fresh → pipeMode a.2.xfer.mode = true → Meant pay seq payload a.2)
    (h : Delivers pay a) : Delivers pay b := by
  have hwin : OnPipe b.2 → Windowed b.1 b.2 := hd.windowed h.window
  cases hd.shift with
  | ended hm hi hk =>
    refine ⟨.inl ?_, hwin, fun hp => ?_⟩
    · rw [hk]
      exact h.alive hm
    · rw [hi] at hp
      exact absurd hp nofun
  | stays ht hk => exact h.stays ht hk
  | drained _ => exact ⟨h.handed, hwin, h.slots⟩
  | @dead turn hs d d' hm hk hf hwhat =>
    refine ⟨?_, hwin, fun hp => absurd hp (by rw [hf]; nofun)⟩
    rcases hwhat with rfl | ⟨ht, hseq, rfl⟩ | ⟨ht, hdue, rfl⟩
    · refine .inl ?_
      rw [hk.taken, hk.grown, List.append_nil]
      exact h.alive hm
    · subst ht
      exact .inr ⟨hf, h.hand hk hm ((hmeant rfl hm).due (h.window (.inl hm)) hseq)⟩
    · exact .inr ⟨hf, h.hand hk hm (h.dueData hm hdue)⟩
  | accept hk hm hseq => exact h.accept hk hm hseq (hmeant rfl (hk.alive hm))
  | release hk hm hdue => exact h.release hk hm hdue
  | hold hm he _ => exact h.hold hm he (hmeant rfl hm)
  | overfull hm he _ hk hf =>
    refine ⟨.inl ?_, hwin, fun hp => absurd hp (by rw [hf]; nofun)⟩
    rw [hk.taken, hk.grown, List.append_nil]
    exact h.alive hm

/-- Chunk `i` is no further than a window away from the chunk that is due. -/
def nearby (i : Nat) (d : Dev) : Bool :=
  i < (progress d.events).taken + d.pipe.window.toNat ∧
    (progress d.events).taken ≤ i + d.pipe.window.toNat

theorem lift_of_nearby (hw : Windowed .fresh d) (h : nearby i d = true)
    (hlt : lift (progress d.events).taken (UInt8.ofNat i) < (progress d.events).taken + d.pipe.window.toNat) :
    lift (progress d.events).taken (UInt8.ofNat i) = i := by
  simp only [nearby, decide_eq_true_eq] at h
  have hbounds := hw.bounds.2
  by_cases hle : (progress d.events).taken ≤ i
  · exact lift_ofNat hle (by omega)
  · -- a chunk below the window has the byte of one far ahead of it
    have hshift : UInt8.ofNat i = UInt8.ofNat (i + 256) := by
      rw [UInt8.ofNat_add]
      simp
    rw [hshift, lift_ofNat (by omega) (by omega)] at hlt
    omega

theorem meant_of_nearby (hw : Windowed .fresh d) (h : nearby i d = true) :
    Meant pay (UInt8.ofNat i) (pay i) d := by
  intro hlt
  rw [lift_of_nearby hw h hlt]

theorem Delivers.chunk (h : Delivers pay (.answering, d)) (hnear : d.pipe.isOpen = true → nearby i d = true) :
    Delivers pay (.answering, step app (.pipeData ctx (UInt8.ofNat i :: pay i)) d) := by
  cases hi : pipeIgnores ctx (UInt8.ofNat i :: pay i) d with
  | true => exact h.stays (by simp) (.ignored hi)
  | false =>
    have hopen : d.pipe.isOpen = true := by
      simp only [pipeIgnores, decide_eq_false_iff_not, not_or, Bool.not_eq_false] at hi
      exact hi.2.1
    have hfresh : Delivers pay (.fresh, d) :=
      ⟨h.handed, fun ho => (h.window ho).turns (by simp), h.slots⟩
    refine ((odPipeData_deeds app hi).rule
      (I := fun a => (a.1 = .fresh → a.2 = d) ∧ Delivers pay a) ?_ ⟨fun _ => rfl, hfresh⟩).2
    rintro a b hd ⟨hstart, hdel⟩
    refine ⟨fun ht => absurd ht hd.turned, hd.delivers (fun ht hm => ?_) hdel⟩
    rw [hstart ht] at hm ⊢
    exact meant_of_nearby ((h.window (.inl hm)).turns (by simp)) (hnear hopen)

end Chunks

/-- Frames of a transfer, each with the index of its chunk. -/
def chunks (pay : Nat → Bytes) (frames : List (App × Ctx × Nat)) : List (App × Cmd) :=
  frames.map fun f => (f.1, .pipeData f.2.1 (UInt8.ofNat f.2.2 :: pay f.2.2))

/-- While the transfer is open, no frame is further than a window away from the
chunk that is due when it comes. -/
def allNearby (pay : Nat → Bytes) : List (App × Ctx × Nat) → Dev → Bool
  | [], _ => true
  | (app, ctx, i) :: fs, d => (!d.pipe.isOpen || nearby i d) &&
      allNearby pay fs (step app (.pipeData ctx (UInt8.ofNat i :: pay i)) d)

theorem Delivers.run {pay : Nat → Bytes} {frames : List (App × Ctx × Nat)} {d : Dev}
    (h : Delivers pay (.answering, d)) (hnear : allNearby pay frames d = true) :
    Delivers pay (.answering, OpenDisplay.run (chunks pay frames) d) := by
  induction frames generalizing d with
  | nil => exact h
  | cons f frames ih =>
    obtain ⟨app, ctx, i⟩ := f
    simp only [allNearby, Bool.and_eq_true, Bool.or_eq_true, Bool.not_eq_true'] at hnear
    obtain ⟨hfirst, hrest⟩ := hnear
    refine ih (h.chunk fun hopen => ?_) hrest
    rcases hfirst with hclosed | hn
    · exact absurd (hclosed.symm.trans hopen) nofun
    · exact hn

/-- After a START that succeeds, whatever frames of the window come, in whatever
order and however often, the payloads handed over are those of the chunks taken,
in order and once each; a further one is the chunk whose refusal ended the
transfer. The counter of the chunks is right modulo its width. -/
theorem delivered_in_order (d : Dev) (h : Reachable d) (app : App) (ctx : Ctx) (body : Bytes)
    (hok : (odPipeStart app ctx body d).1 = .ok) (pay : Nat → Bytes)
    (frames : List (App × Ctx × Nat))
    (hnear : allNearby pay frames (odPipeStart app ctx body d).2 = true) :
    let d' := run (chunks pay frames) (odPipeStart app ctx body d).2
    ((progress d'.events).handed = inOrder pay (progress d'.events).taken ∨
      d'.xfer.mode = .fatal ∧
        (progress d'.events).handed = inOrder pay ((progress d'.events).taken + 1)) ∧
    (d'.pipe.isOpen = true → d'.pipe.receivedCount = UInt32.ofNat (progress d'.events).taken ∧
      d'.pipe.expectedSeq = UInt8.ofNat (progress d'.events).taken) := by
  intro d'
  have hopens : Opens (odPipeStart app ctx body d).2 := (odPipeStart_started app ctx h.coupled hok).opens
  have hstart : Delivers pay (.answering, (odPipeStart app ctx body d).2) := by
    refine ⟨.inl ?_, fun _ => hopens.windowed, fun _ i ho => ?_⟩
    · rw [hopens.2]
      rfl
    · change ((odPipeStart app ctx body d).2.reorder i).occupied = true at ho
      rw [hopens.1.2] at ho
      exact absurd ho nofun
  have hdel : Delivers pay (.answering, d') := hstart.run hnear
  refine ⟨hdel.handed, fun hopen => ?_⟩
  have hreach : Reachable d' := (h.next app (.pipeStart ctx body)).run _
  have hw := hdel.window (hreach.coupled.isOpen.mp hopen)
  exact ⟨hw.count, hw.next⟩

/-- Chunks that come out of order and twice. -/
theorem delivered_in_order_shuffled :
    let pay : Nat → Bytes := fun i => [UInt8.ofNat (i + 1)]
    let frames : List (App × Ctx × Nat) :=
      [(.willing, .ble, 1), (.willing, .ble, 0), (.willing, .ble, 0), (.willing, .ble, 2)]
    let d := run (chunks pay frames) (odPipeStart .willing .ble (pipeStartBody 8 8) (Dev.boot 7)).2
    (progress d.events).handed = [[1], [2], [3]] ∧ d.pipe.receivedCount = 3 := by
  intro pay frames d
  have h := delivered_in_order (Dev.boot 7) ⟨7, [], rfl⟩ .willing .ble (pipeStartBody 8 8)
    (by decide +kernel) pay frames (by decide +kernel)
  have htaken : (progress d.events).taken = 3 := by decide +kernel
  have halive : d.xfer.mode ≠ .fatal := by decide +kernel
  constructor
  · rcases h.1 with heq | ⟨hf, -⟩
    · rw [heq, htaken]
      rfl
    · exact absurd hf halive
  · rw [(h.2 (by decide +kernel)).1, htaken]
    rfl

end OpenDisplay
