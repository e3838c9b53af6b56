import OpenDisplay.Pipe.Window
import OpenDisplay.Xfer.Replies

/-! Frames that are not the transfer's own. A DATA or an END from another reply
identity, in the wrong command family or over the wrong link gets at most a reply. -/

namespace OpenDisplay

variable {app : App} {cmd : Cmd} {d d' d'' : Dev}

/-- A DATA or an END that has no claim on the transfer in progress. -/
def Foreign (d : Dev) : Cmd → Prop
  | .data ctx _ | .finish ctx _ => odReplySame ctx.rp d.xfer.owner = false ∨ OnPipe d
  | .pipeData ctx _ | .pipeEnd ctx _ =>
    odReplySame ctx.rp d.xfer.owner = false ∨ ctx.rp.origin ≠ .ble
  | _ => False

/-- At most replies have been sent: no hook is called, and the transfer, PIPE and
its slots, the pump and the ETag are what they were. -/
def Inert (d d' : Dev) : Prop :=
  ∃ es, d' = { d with events := d.events ++ es } ∧ ∀ e ∈ es, e.isReply = true

theorem Inert.refl (d : Dev) : Inert d d := ⟨[], by simp, by simp⟩

theorem Inert.log (d : Dev) {e : Event} (he : e.isReply = true) : Inert d (d.log e) :=
  ⟨[e], rfl, by simpa using he⟩

theorem Inert.trans (h : Inert d d') (h' : Inert d' d'') : Inert d d'' := by
  obtain ⟨es, rfl, hes⟩ := h
  obtain ⟨es', rfl, hes'⟩ := h'
  refine ⟨es ++ es', by simp, ?_⟩
  intro e he
  rcases List.mem_append.mp he with hm | hm
  · exact hes e hm
  · exact hes' e hm

/-- What a command's claim on the transfer rests on is not touched by replies. -/
theorem Inert.foreign (h : Inert d d') : Foreign d' cmd ↔ Foreign d cmd := by
  obtain ⟨es, rfl, -⟩ := h
  rfl

theorem OnPipe.not_direct (h : OnPipe d) :
    d.xfer.mode ≠ .directFull ∧ d.xfer.mode ≠ .directPartial := by
  rcases h with h | h
  · constructor
    all_goals
      intro hm
      simp [hm, pipeMode] at h
  · simp [h]

/-- A direct DATA reaches the handlers of the two direct modes only, and both ask
for the owner before they look at the body. -/
theorem odXferData_foreign {ctx : Ctx} {body : Bytes}
    (h : odReplySame ctx.rp d.xfer.owner = false ∨ OnPipe d) : (odXferData app ctx body d).2 = d := by
  rcases h with ho | hp
  · cases hm : d.xfer.mode <;>
      simp [odXferData, hm, odXferDirectDataImpl, odXferPartialDataImpl, odXferOwnerMatches, ho]
  · obtain ⟨hf, hr⟩ := hp.not_direct
    cases hm : d.xfer.mode <;> simp_all [odXferData]

theorem odXferEnd_foreign {ctx : Ctx} {body : Bytes}
    (h : odReplySame ctx.rp d.xfer.owner = false ∨ OnPipe d) : (odXferEnd app ctx body d).2 = d := by
  rcases h with ho | hp
  · cases hm : d.xfer.mode <;>
      simp [odXferEnd, hm, odXferDirectEndImpl, odXferPartialEndImpl, odXferOwnerMatches, ho]
  · obtain ⟨hf, hr⟩ := hp.not_direct
    cases hm : d.xfer.mode <;> simp_all [odXferEnd]

theorem pipeRefuseOrigin_inert (ctx : Ctx) (opcode error : UInt8) (d : Dev) :
    Inert d (pipeRefuseOrigin app ctx opcode error d).2 :=
  .log d rfl

/-- The owner is asked before the frame's size is judged, so a stranger's oversize
frame is not fatal. -/
theorem odPipeData_foreign {ctx : Ctx} {body : Bytes}
    (h : odReplySame ctx.rp d.xfer.owner = false ∨ ctx.rp.origin ≠ .ble) :
    Inert d (odPipeData app ctx body d).2 := by
  unfold odPipeData
  split_ifs with horigin hclosed howner hfits
  · exact pipeRefuseOrigin_inert ctx _ _ d
  · exact .refl d
  · exact .refl d
  all_goals
    rcases h with ho | hb
    · exact absurd ho howner
    · exact absurd hb horigin

theorem odPipeEnd_foreign {ctx : Ctx} {body : Bytes}
    (h : odReplySame ctx.rp d.xfer.owner = false ∨ ctx.rp.origin ≠ .ble) :
    Inert d (odPipeEnd app ctx body d).2 := by
  unfold odPipeEnd
  split_ifs with horigin hclosed howner hfatal
  · exact pipeRefuseOrigin_inert ctx _ _ d
  · exact .log d rfl
  · exact .refl d
  all_goals
    rcases h with ho | hb
    · exact absurd ho howner
    · exact absurd hb horigin

theorem step_foreign (app : App) (h : Foreign d cmd) : Inert d (step app cmd d) := by
  cases cmd with
  | data ctx body =>
    have he : step app (.data ctx body) d = d := odXferData_foreign h
    rw [he]
    exact .refl d
  | finish ctx body =>
    have he : step app (.finish ctx body) d = d := odXferEnd_foreign h
    rw [he]
    exact .refl d
  | pipeData ctx body => exact odPipeData_foreign h
  | pipeEnd ctx body => exact odPipeEnd_foreign h
  | directStart | partialStart | pipeStart | reset | timeout => exact h.elim

/-- Any number of foreign frames leaves the transfer exactly where it was. -/
theorem foreign_frames_inert {cmds : List (App × Cmd)} (h : ∀ c ∈ cmds, Foreign d c.2) :
    Inert d (run cmds d) := by
  induction cmds using List.reverseRecOn with
  | nil => exact .refl d
  | append_singleton cmds c ih =>
    have hprefix : Inert d (run cmds d) := ih fun c hc => h c (by simp [hc])
    have hlast : Foreign (run cmds d) c.2 := hprefix.foreign.mpr (h c (by simp))
    rw [run_append]
    exact hprefix.trans (step_foreign c.1 hlast)

/-- Another BLE connection. -/
def Ctx.stranger : Ctx := ⟨{ tag := 1 }, 12, false⟩

theorem foreign_frames_inert_at_pipe :
    let d := run [(.willing, .pipeStart .ble (pipeStartBody 4 2))] (Dev.boot 0)
    d.xfer.mode = .pipeFull ∧ Inert d (run [(.willing, .pipeData .stranger (List.replicate 300 0)),
      (.willing, .pipeEnd .stranger []), (.willing, .data .ble [1]), (.willing, .finish .ble [])]
      d) := by
  intro d
  refine ⟨by decide +kernel, foreign_frames_inert ?_⟩
  have hm : pipeMode d.xfer.mode = true := by decide +kernel
  have ho : odReplySame Ctx.stranger.rp d.xfer.owner = false := by decide +kernel
  simp only [List.mem_cons, List.not_mem_nil, or_false]
  rintro c (rfl | rfl | rfl | rfl)
  · exact .inl ho
  · exact .inl ho
  · exact .inr (.inl hm)
  · exact .inr (.inl hm)

end OpenDisplay
