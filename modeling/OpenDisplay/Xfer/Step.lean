import OpenDisplay.Pipe.Model

/-! Commands, and the states that runs of them reach. -/

namespace OpenDisplay

inductive Cmd where
  | directStart (ctx : Ctx) (body : Bytes)
  | partialStart (ctx : Ctx) (body : Bytes)
  | data (ctx : Ctx) (body : Bytes)
  | finish (ctx : Ctx) (body : Bytes)
  | pipeStart (ctx : Ctx) (body : Bytes)
  | pipeData (ctx : Ctx) (body : Bytes)
  | pipeEnd (ctx : Ctx) (body : Bytes)
  | reset
  | timeout (nowMs limitMs : UInt32)
deriving DecidableEq

def odXferData (app : App) (ctx : Ctx) (body : Bytes) (d : Dev) : CmdResult × Dev :=
  match d.xfer.mode with
  | .directFull => odXferDirectDataImpl app ctx body d
  | .directPartial => odXferPartialDataImpl app ctx body d
  | _ => (.ok, d)

def odXferEnd (app : App) (ctx : Ctx) (body : Bytes) (d : Dev) : CmdResult × Dev :=
  match d.xfer.mode with
  | .directFull => odXferDirectEndImpl app ctx body d
  | .directPartial => odXferPartialEndImpl app ctx body d
  | _ => (.ok, d)

def step (app : App) (cmd : Cmd) (d : Dev) : Dev :=
  match cmd with
  | .directStart ctx body => (odXferDirectStart app ctx body d).2
  | .partialStart ctx body => (odXferPartialStart app ctx body d).2
  | .data ctx body => (odXferData app ctx body d).2
  | .finish ctx body => (odXferEnd app ctx body d).2
  | .pipeStart ctx body => (odPipeStart app ctx body d).2
  | .pipeData ctx body => (odPipeData app ctx body d).2
  | .pipeEnd ctx body => (odPipeEnd app ctx body d).2
  | .reset => odXferReset d
  | .timeout nowMs limitMs => (odXferReportTimeout nowMs limitMs d).2

/-- The device at power-up, with whatever ETag the panel shows. -/
def Dev.boot (etag : UInt32) : Dev := { displayedEtag := etag }

def run (cmds : List (App × Cmd)) (d : Dev) : Dev :=
  cmds.foldl (fun d c => step c.1 c.2 d) d

def Reachable (d : Dev) : Prop := ∃ etag cmds, d = run cmds (Dev.boot etag)

theorem run_append (xs ys : List (App × Cmd)) (d : Dev) :
    run (xs ++ ys) d = run ys (run xs d) := List.foldl_append

theorem Reachable.run {d : Dev} (h : Reachable d) (cmds : List (App × Cmd)) :
    Reachable (run cmds d) := by
  obtain ⟨etag, before, rfl⟩ := h
  exact ⟨etag, before ++ cmds, (run_append before cmds _).symm⟩

theorem Reachable.next {d : Dev} (h : Reachable d) (app : App) (cmd : Cmd) :
    Reachable (step app cmd d) := h.run [(app, cmd)]

theorem Reachable.rule {I : Dev → Prop} (hboot : ∀ etag, I (Dev.boot etag))
    (hstep : ∀ app cmd d, Reachable d → I d → I (step app cmd d)) {d : Dev} (h : Reachable d) :
    I d := by
  obtain ⟨etag, cmds, rfl⟩ := h
  induction cmds using List.reverseRecOn with
  | nil => exact hboot etag
  | append_singleton cmds c ih =>
    rw [run_append]
    exact hstep c.1 c.2 _ ⟨etag, cmds, rfl⟩ ih

section Bench

/-- A monochrome panel of 64 by 64 pixels. -/
def panel64 : PanelInfo where
  geometry :=
    { layout := .packedRows, bitsPerPixel := 1, partCount := 1, partialSupported := true
      partWidth := (64, 0), rowBytes := (8, 0), partBytes := (512, 0), totalBytes := 512 }
  width := 64
  height := 64
  partialEnabled := true

example : (odColorDirectGeometry colorSchemeMono 64 64).toOption = some panel64.geometry := by
  decide +kernel

/-- A target on which every hook succeeds. -/
def App.willing : App where
  panelInfo _ := some panel64
  beginFull _ _ := true
  beginPartial _ _ := true
  write _ _ data := UInt32.ofNat data.length
  inflateScratch _ := 64
  beforeRefresh _ _ := true
  refresh _ _ := (true, true)
  nowMs _ := 0
  reply _ _ _ := .ok
  directAutoEnd := false

/-- A frame of twelve bytes on the wire, from the BLE connection. -/
def Ctx.ble : Ctx := ⟨{}, 12, false⟩

/-- The body of a raw full-image PIPE START for `panel64`. -/
def pipeStartBody (w n : UInt8) : Bytes := [pipeVersion, 0, w, n, 244, 0, 0, 2, 0, 0]

/-- A run of in-order frames without payload. -/
def emptyFrames (n : Nat) : List (App × Cmd) :=
  (List.range n).map fun i => (.willing, .pipeData .ble [UInt8.ofNat i])

end Bench

end OpenDisplay
