import Mathlib.Data.List.Infix
import OpenDisplay.Lib.Canvas
import OpenDisplay.Lib.Loop
import OpenDisplay.Xfer.State

/-! The drivers that bring the bytes of a transfer into the display's controller, one for each
target. What the panel library is called with is kept in order, and on the target that has two of
them each is; the bring-up of the panel is one answer that comes from outside, and so is whether a
transfer over SPI fails. -/

namespace OpenDisplay

open Canvases Loops

section Bbep

inductive BbepPlane where
  | plane0 | plane1
deriving DecidableEq

structure PanelWindow where
  x : UInt16 := 0
  y : UInt16 := 0
  width : UInt16
  height : UInt16
deriving DecidableEq

inductive BbepCall where
  | setAddrWindow (w : PanelWindow)
  | partialSetAddrWindow (w : PanelWindow)
  | fill (plane : BbepPlane)
  | startWrite (plane : BbepPlane)
  | writeData (data : Bytes)
deriving DecidableEq

/-- The controller's memory as the drivers rely on it: a plane that is started takes the data that follows, within
the window that was set last. -/
def BbepCall.draw (c : Canvas PanelWindow BbepPlane UInt8) : BbepCall → Canvas PanelWindow BbepPlane UInt8
  | .setAddrWindow w | .partialSetAddrWindow w => c.setWindow w
  | .fill _ => c
  | .startWrite plane => c.start plane
  | .writeData data => c.data data

def drawn (calls : List BbepCall) : Canvas PanelWindow BbepPlane UInt8 := calls.foldl BbepCall.draw {}

/-- A failure is latched until the bus is reset. `spi` is whether the last of the calls fails. -/
def odEpdSpiFaulted (spi : List BbepCall → Bool) (calls : List BbepCall) : Bool := calls.inits.any spi

end Bbep

section Fastepd

/-- The calls of the other panel library, which one target has for a few panels. -/
inductive FastepdCall where
  | prepareHardware
  | directWriteReset
  | directWriteChunk (data : Bytes)
  | partialPrepare (w : PanelWindow)
  | partialWriteChunk (data : Bytes)
deriving DecidableEq

/-- Whether the display is one of its panels, and whether its driver takes the last of the calls where it says so. -/
structure Fastepd where
  driverUsed : Bool := false
  takes : List FastepdCall → Bool := fun _ => true

end Fastepd

section Driver

inductive XferAppMode where
  | idle | fullImage | partialImage
deriving DecidableEq

/-- `calls` is what the controller has been called with since it was woken, `fastepd` the same for a panel of the
other library. -/
structure XferApp where
  mode : XferAppMode := .idle
  geometry : Geometry := {}
  width : UInt16 := 0
  height : UInt16 := 0
  x : UInt16 := 0
  y : UInt16 := 0
  planeSize : UInt32 := 0
  currentPlane : Option BbepPlane := none
  panelUp : Bool := false
  calls : List BbepCall := []
  fastepd : List FastepdCall := []
deriving DecidableEq

/-- The display as it is configured, and whether the panel comes up when it is asked to. -/
structure PanelSetup where
  pixelWidth : UInt16
  pixelHeight : UInt16
  ready : Bool := true
  fastepd : Fastepd := {}

variable (spi : List BbepCall → Bool)

def XferApp.call (c : BbepCall) (s : XferApp) : XferApp := { s with calls := s.calls ++ [c] }

def XferApp.callFastepd (c : FastepdCall) (s : XferApp) : XferApp := { s with fastepd := s.fastepd ++ [c] }

def XferApp.faulted (s : XferApp) : Bool := odEpdSpiFaulted spi s.calls

/-- The planes that a stream is cut into, and what is called before either is started. -/
structure PlaneCut where
  first : BbepPlane
  second : BbepPlane
  size : UInt32
  total : UInt32
  window : List BbepCall

def XferApp.startPlane (cut : PlaneCut) (plane : BbepPlane) (s : XferApp) : XferApp :=
  if s.currentPlane = some plane then s
  else { s with calls := s.calls ++ cut.window ++ [.startWrite plane], currentPlane := some plane }

/-- What is written of `n` bytes in one pass: up to the end of the plane or of the bytes. -/
def planeChunk (cut : PlaneCut) (n : Nat) (logical consumed : UInt32) : UInt32 :=
  let planeEnd := if logical < cut.size then cut.size else cut.total
  let chunk := planeEnd - logical
  if n - consumed.toNat < chunk.toNat then UInt32.ofNat (n - consumed.toNat) else chunk

def planePass (cut : PlaneCut) (streamOffset : UInt32) (data : Bytes) (p : UInt32 × XferApp) :
    Iter (UInt32 × XferApp) (Bool × XferApp) :=
  let (consumed, s) := p
  if data.length ≤ consumed.toNat then .stop (true, s)
  else
    let logical := streamOffset + consumed
    let plane := if logical < cut.size then cut.first else cut.second
    if s.currentPlane ≠ some plane ∧ logical ≠ 0 ∧ logical ≠ cut.size then .stop (false, s)
    else
      let s := s.startPlane cut plane
      let chunk := planeChunk cut data.length logical consumed
      let s := s.call (.writeData ((data.drop consumed.toNat).take chunk.toNat))
      if s.faulted spi then .stop (false, s) else .next (consumed + chunk, s)

/-- The data lies within the image. -/
def StreamFits (total streamOffset : UInt32) (data : Bytes) : Prop :=
  streamOffset ≤ total ∧ data.length ≤ (total - streamOffset).toNat

instance (total streamOffset : UInt32) (data : Bytes) : Decidable (StreamFits total streamOffset data) :=
  inferInstanceAs (Decidable (_ ∧ _))

theorem StreamFits.bound {total streamOffset : UInt32} {data : Bytes} (h : StreamFits total streamOffset data) :
    streamOffset.toNat + data.length ≤ total.toNat := by
  obtain ⟨hle, hlen⟩ := h
  rw [UInt32.toNat_sub_of_le _ _ hle] at hlen
  rw [UInt32.le_iff_toNat_le] at hle
  omega

end Driver

section Chunk

variable {spi : List BbepCall → Bool} {cut : PlaneCut} {streamOffset consumed : UInt32} {data : Bytes}

theorem logical_exact (h : streamOffset.toNat + data.length ≤ cut.total.toNat) (hc : consumed.toNat < data.length) :
    (streamOffset + consumed).toNat = streamOffset.toNat + consumed.toNat := by
  have ht := cut.total.toNat_lt
  rw [UInt32.toNat_add, Nat.mod_eq_of_lt (by omega)]

/-- A pass writes something, no more than there is, and stays on its plane. -/
theorem planeChunk_bound (h : streamOffset.toNat + data.length ≤ cut.total.toNat)
    (hc : consumed.toNat < data.length) :
    0 < (planeChunk cut data.length (streamOffset + consumed) consumed).toNat ∧
    consumed.toNat + (planeChunk cut data.length (streamOffset + consumed) consumed).toNat ≤ data.length ∧
    (streamOffset + consumed < cut.size → streamOffset.toNat + consumed.toNat +
      (planeChunk cut data.length (streamOffset + consumed) consumed).toNat ≤ cut.size.toNat) := by
  have hlogical := logical_exact h hc
  have ht := cut.total.toNat_lt
  have hend : ∀ stop : UInt32, (streamOffset + consumed).toNat < stop.toNat →
      (stop - (streamOffset + consumed)).toNat = stop.toNat - (streamOffset.toNat + consumed.toNat) := by
    intro stop hlt
    rw [UInt32.toNat_sub_of_le _ _ (UInt32.le_iff_toNat_le.mpr hlt.le), hlogical]
  have hrest : (UInt32.ofNat (data.length - consumed.toNat)).toNat = data.length - consumed.toNat :=
    UInt32.toNat_ofNat_of_lt' (by show _ < 2 ^ 32; omega)
  unfold planeChunk
  dsimp only
  by_cases hfirst : streamOffset + consumed < cut.size
  · have hlt := UInt32.lt_iff_toNat_lt.mp hfirst
    rw [if_pos hfirst, hend _ hlt]
    split_ifs with hshort
    · rw [hrest]
      omega
    · rw [hend _ hlt]
      omega
  · have hlt : (streamOffset + consumed).toNat < cut.total.toNat := by omega
    rw [if_neg hfirst, hend _ hlt]
    split_ifs with hshort
    · rw [hrest]
      exact ⟨by omega, by omega, fun hf => absurd hf hfirst⟩
    · rw [hend _ hlt]
      exact ⟨by omega, by omega, fun hf => absurd hf hfirst⟩

theorem planePass_dec (h : streamOffset.toNat + data.length ≤ cut.total.toNat) (p q : UInt32 × XferApp)
    (hp : planePass spi cut streamOffset data p = .next q) :
    data.length - q.1.toNat < data.length - p.1.toNat := by
  obtain ⟨consumed, s⟩ := p
  unfold planePass at hp
  dsimp only at hp
  generalize (if streamOffset + consumed < cut.size then cut.first else cut.second) = plane at hp
  split_ifs at hp with hdone
  obtain rfl := Iter.next.inj hp
  obtain ⟨hpos, hle, -⟩ := planeChunk_bound h (Nat.not_le.mp hdone)
  have ht := cut.total.toNat_lt
  show data.length - (consumed + planeChunk cut data.length (streamOffset + consumed) consumed).toNat <
    data.length - consumed.toNat
  rw [UInt32.toNat_add, Nat.mod_eq_of_lt (by omega)]
  omega

end Chunk

section Write

variable (spi : List BbepCall → Bool)

def writePlanes (cut : PlaneCut) (streamOffset : UInt32) (data : Bytes)
    (h : StreamFits cut.total streamOffset data) (s : XferApp) : Bool × XferApp :=
  loop (planePass spi cut streamOffset data) (fun p => data.length - p.1.toNat) (planePass_dec h.bound) (0, s)

/-- `window` is what is called where the planes change. -/
def xferAppWriteFull (window : List BbepCall) (streamOffset : UInt32) (data : Bytes) (s : XferApp) : Bool × XferApp :=
  if h : StreamFits s.geometry.totalBytes streamOffset data then
    if s.geometry.layout ≠ .controllerPlanes then
      let s := s.call (.writeData data)
      (!s.faulted spi, s)
    else
      writePlanes spi
        { first := .plane0, second := .plane1, size := s.planeSize, total := s.geometry.totalBytes, window := window }
        streamOffset data h s
  else (false, s)

def xferAppWritePartial (streamOffset : UInt32) (data : Bytes) (s : XferApp) : Bool × XferApp :=
  if h : StreamFits (s.planeSize * 2) streamOffset data then
    writePlanes spi
      { first := .plane1, second := .plane0, size := s.planeSize, total := s.planeSize * 2
        window := [.partialSetAddrWindow { x := s.x, y := s.y, width := s.width, height := s.height }] }
      streamOffset data h s
  else (false, s)

def xferAppWrite (window : List BbepCall) (streamOffset : UInt32) (data : Bytes) (s : XferApp) : UInt32 × XferApp :=
  if data = [] ∨ uint32Max < data.length then (0, s)
  else
    let (accepted, s) :=
      match s.mode with
      | .fullImage => xferAppWriteFull spi window streamOffset data s
      | .partialImage => xferAppWritePartial spi streamOffset data s
      | .idle => (false, s)
    (if accepted ∧ s.faulted spi = false then UInt32.ofNat data.length else 0, s)

end Write

section Begin

def startPlaneOf (geometry : Geometry) : BbepPlane := if geometry.initialPlane = .plane0 then .plane0 else .plane1

def planeSizeOf (geometry : Geometry) : UInt32 :=
  if geometry.layout = .controllerPlanes then geometry.partBytes.1 else 0

/-- A panel that has been woken for a whole image. -/
def xferAppFull (width height : UInt16) (geometry : Geometry) (currentPlane : Option BbepPlane) : XferApp where
  mode := .fullImage
  geometry := geometry
  width := width
  height := height
  planeSize := planeSizeOf geometry
  currentPlane := currentPlane
  panelUp := true
  calls := [.setAddrWindow { width := width, height := height }, .startWrite (startPlaneOf geometry)]

/-- A panel that has been woken for a rectangle. -/
def xferAppPartial (region : PartialState) (fills : List BbepCall) : XferApp where
  mode := .partialImage
  width := region.width
  height := region.height
  x := region.x
  y := region.y
  planeSize := region.planeBytes
  panelUp := true
  calls := fills

def whiteFills : List BbepCall := [.fill .plane1, .fill .plane0]

end Begin

namespace Nordic

variable (panel : PanelSetup) (spi : List BbepCall → Bool)

def odXferAppBeginFull (geometry : Geometry) : Bool × XferApp :=
  if geometry.totalBytes = 0 ∨ geometry.layout = .splitHalves then (false, {})
  else if panel.ready = false then (false, {})
  else
    let s := xferAppFull panel.pixelWidth panel.pixelHeight geometry (some (startPlaneOf geometry))
    if s.faulted spi then (false, {}) else (true, s)

def odXferAppBeginPartial (region : PartialState) : Bool × XferApp :=
  if region.planeBytes = 0 ∨ uint32Max / 2 < region.planeBytes.toNat then (false, {})
  else if panel.ready = false then (false, {})
  else
    let s := xferAppPartial region whiteFills
    if s.faulted spi then (false, {}) else (true, s)

def odXferAppWrite (streamOffset : UInt32) (data : Bytes) (s : XferApp) : UInt32 × XferApp :=
  xferAppWrite spi [] streamOffset data s

/-- The mode that the panel is refreshed with. -/
def odXferAppRefresh (mode : UInt8) (s : XferApp) : Option UInt8 × XferApp :=
  if s.mode = .idle ∨ s.panelUp = false then (none, s)
  else if s.faulted spi then (none, s)
  else if s.mode = .partialImage then
    (some (if mode = refreshFull ∨ mode = refreshFast then mode else refreshPartial), {})
  else (some (if mode = refreshFast then refreshFast else refreshFull), {})

end Nordic

namespace Esp32

variable (panel : PanelSetup)

/-- Nothing on this target tells the driver of a failed transfer. -/
def spi : List BbepCall → Bool := fun _ => false

def odXferAppBeginFull (geometry : Geometry) : Bool × XferApp :=
  if geometry.totalBytes = 0 then (false, {})
  else if panel.fastepd.driverUsed then
    (true, { xferAppFull panel.pixelWidth panel.pixelHeight geometry none with
      calls := [], fastepd := [.prepareHardware, .directWriteReset] })
  else
    let currentPlane := if geometry.layout = .controllerPlanes then some (startPlaneOf geometry) else none
    (true, xferAppFull panel.pixelWidth panel.pixelHeight geometry currentPlane)

/-- The planes are equal around the rectangle; there is nothing around one of the size of the panel. -/
def odXferAppBeginPartial (region : PartialState) : Bool × XferApp :=
  if region.planeBytes = 0 then (false, {})
  else if panel.fastepd.driverUsed then
    let w : PanelWindow := { x := region.x, y := region.y, width := region.width, height := region.height }
    (true, { xferAppPartial region [] with fastepd := [.partialPrepare w] })
  else
    let fullFrame : Bool := region.x = 0 ∧ region.y = 0 ∧ region.width = panel.pixelWidth ∧
      region.height = panel.pixelHeight
    (true, xferAppPartial region (if fullFrame then [] else whiteFills))

/-- The other library does not say whether it stored the bytes of a whole image. -/
def xferAppWriteFull (streamOffset : UInt32) (data : Bytes) (s : XferApp) : Bool × XferApp :=
  if panel.fastepd.driverUsed ∧ StreamFits s.geometry.totalBytes streamOffset data then
    (true, s.callFastepd (.directWriteChunk data))
  else
    OpenDisplay.xferAppWriteFull spi [.setAddrWindow { width := s.width, height := s.height }] streamOffset data s

def xferAppWritePartial (streamOffset : UInt32) (data : Bytes) (s : XferApp) : Bool × XferApp :=
  if panel.fastepd.driverUsed ∧ StreamFits (s.planeSize * 2) streamOffset data then
    let s := s.callFastepd (.partialWriteChunk data)
    (panel.fastepd.takes s.fastepd, s)
  else OpenDisplay.xferAppWritePartial spi streamOffset data s

def odXferAppWrite (streamOffset : UInt32) (data : Bytes) (s : XferApp) : UInt32 × XferApp :=
  if data = [] ∨ uint32Max < data.length then (0, s)
  else
    let (accepted, s) :=
      match s.mode with
      | .fullImage => xferAppWriteFull panel streamOffset data s
      | .partialImage => xferAppWritePartial panel streamOffset data s
      | .idle => (false, s)
    (if accepted then UInt32.ofNat data.length else 0, s)

/-- Either library is refreshed with the mode; only the one for most panels corrects it first. -/
def odXferAppRefresh (mode : UInt8) (s : XferApp) : Option UInt8 × XferApp :=
  if s.mode = .idle then (none, s)
  else if panel.fastepd.driverUsed then (some mode, {})
  else if s.mode = .partialImage then (some (if 3 < mode then refreshPartial else mode), {})
  else (some mode, {})

/-- On a panel of the first library the target writes as the others do. -/
theorem odXferAppWrite_bbep (h : panel.fastepd.driverUsed = false) (streamOffset : UInt32) (data : Bytes)
    (s : XferApp) : odXferAppWrite panel streamOffset data s =
      xferAppWrite spi [.setAddrWindow { width := s.width, height := s.height }] streamOffset data s := by
  have hfault : ∀ s : XferApp, s.faulted spi = false := by
    intro s
    simp [XferApp.faulted, odEpdSpiFaulted, spi]
  have hno : ∀ p : Prop, ¬ (panel.fastepd.driverUsed = true ∧ p) :=
    fun p hp => by rw [h] at hp; exact absurd hp.1 (by decide)
  unfold odXferAppWrite xferAppWrite xferAppWriteFull xferAppWritePartial
  simp only [if_neg (hno _), hfault, and_true]

end Esp32

namespace Efr32

variable (panel : PanelSetup)

def odXferAppBeginFull (geometry : Geometry) : Bool × XferApp :=
  if geometry.totalBytes = 0 ∨ geometry.layout = .splitHalves then (false, {})
  else if panel.ready = false then (false, {})
  else (true, xferAppFull panel.pixelWidth panel.pixelHeight geometry (some (startPlaneOf geometry)))

def odXferAppWrite (streamOffset : UInt32) (data : Bytes) (s : XferApp) : UInt32 × XferApp :=
  if s.mode ≠ .fullImage then (0, s) else xferAppWrite Esp32.spi [] streamOffset data s

def odXferAppRefresh (mode : UInt8) (s : XferApp) : Option UInt8 × XferApp :=
  if s.mode ≠ .fullImage ∨ s.panelUp = false then (none, s)
  else (some (if mode = refreshFast then refreshFast else refreshFull), {})

end Efr32

section Targets

/-- A driver as the transfer machine calls it. A target without partial images refuses them. -/
structure PanelDriver where
  panel : PanelSetup
  spi : List BbepCall → Bool
  beginFull : Geometry → Bool × XferApp
  beginPartial : PartialState → Bool × XferApp
  write : UInt32 → Bytes → XferApp → UInt32 × XferApp
  refresh : UInt8 → XferApp → Option UInt8 × XferApp

def nordicDriver (panel : PanelSetup) (spi : List BbepCall → Bool) : PanelDriver where
  panel := panel
  spi := spi
  beginFull := Nordic.odXferAppBeginFull panel spi
  beginPartial := Nordic.odXferAppBeginPartial panel spi
  write := Nordic.odXferAppWrite spi
  refresh := Nordic.odXferAppRefresh spi

def esp32Driver (panel : PanelSetup) : PanelDriver where
  panel := panel
  spi := Esp32.spi
  beginFull := Esp32.odXferAppBeginFull panel
  beginPartial := Esp32.odXferAppBeginPartial panel
  write := Esp32.odXferAppWrite panel
  refresh := Esp32.odXferAppRefresh panel

def efr32Driver (panel : PanelSetup) : PanelDriver where
  panel := panel
  spi := Esp32.spi
  beginFull := Efr32.odXferAppBeginFull panel
  beginPartial := fun _ => (false, {})
  write := Efr32.odXferAppWrite
  refresh := Efr32.odXferAppRefresh

end Targets

end OpenDisplay
