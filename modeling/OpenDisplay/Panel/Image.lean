import OpenDisplay.Panel.Planes

/-! An image on the panel: what a driver has drawn once it has begun for the image and has been
given its bytes in order. -/

namespace OpenDisplay

open Canvases

/-- What the hardware begins for. -/
inductive PanelImage where
  | whole (geometry : Geometry)
  | rect (region : PartialState)

section Image

def BbepPlane.other : BbepPlane → BbepPlane
  | .plane0 => .plane1
  | .plane1 => .plane0

@[simp] theorem BbepPlane.ne_other (p : BbepPlane) : p ≠ p.other := by cases p <;> decide

def PanelImage.total : PanelImage → UInt32
  | .whole g => g.totalBytes
  | .rect r => r.planeBytes * 2

def PanelImage.window (panel : PanelSetup) : PanelImage → PanelWindow
  | .whole _ => { width := panel.pixelWidth, height := panel.pixelHeight }
  | .rect r => { x := r.x, y := r.y, width := r.width, height := r.height }

/-- Whether the image is in two planes. -/
def PanelImage.cuts : PanelImage → Bool
  | .whole g => g.layout = .controllerPlanes
  | .rect _ => true

/-- The plane of the image's front. The new pixels of a rectangle come after the old ones. -/
def PanelImage.first : PanelImage → BbepPlane
  | .whole g => if g.layout = .controllerPlanes then .plane0 else startPlaneOf g
  | .rect _ => .plane1

def PanelImage.size : PanelImage → Nat
  | .whole g => if g.layout = .controllerPlanes then g.partBytes.1.toNat else g.totalBytes.toNat
  | .rect r => r.planeBytes.toNat

/-- The image that the bytes so far stand for is on the panel: the front on one plane and the rest on the other. -/
abbrev PanelImage.On (panel : PanelSetup) (img : PanelImage) (xs : Bytes) (calls : List BbepCall) : Prop :=
  Split (img.window panel) img.first img.first.other img.size xs (drawn calls)

/-- Around a rectangle the two planes are alike. -/
def PanelImage.Margin (panel : PanelSetup) (img : PanelImage) (calls : List BbepCall) : Prop :=
  ∀ r, img = .rect r → whiteFills <+: calls ∨
    (r.x = 0 ∧ r.y = 0 ∧ r.width = panel.pixelWidth ∧ r.height = panel.pixelHeight)

def PanelDriver.begin (drv : PanelDriver) : PanelImage → Bool × XferApp
  | .whole g => drv.beginFull g
  | .rect r => drv.beginPartial r

/-- The driver after it has begun for an image and has been given writes. -/
def PanelDriver.after (drv : PanelDriver) (img : PanelImage) (writes : List (UInt32 × Bytes)) : XferApp :=
  writes.foldl (fun s w => (drv.write w.1 w.2 s).2) (drv.begin img).2

theorem PanelDriver.after_concat (drv : PanelDriver) (img : PanelImage) (writes : List (UInt32 × Bytes))
    (w : UInt32 × Bytes) : drv.after img (writes ++ [w]) = (drv.write w.1 w.2 (drv.after img writes)).2 :=
  List.foldl_concat ..

end Image

section Lawful

def PanelImage.mode : PanelImage → XferAppMode
  | .whole _ => .fullImage
  | .rect _ => .partialImage

/-- A driver that has begun for the image and has not let go of it. -/
structure BegunFor (panel : PanelSetup) (img : PanelImage) (s : XferApp) : Prop where
  mode : s.mode = img.mode
  up : s.panelUp = true
  size : img.mode = .fullImage → s.width = panel.pixelWidth ∧ s.height = panel.pixelHeight

/-- What the drivers have in common. `again` is called where a whole image changes planes. -/
structure PanelDriver.Lawful (drv : PanelDriver) (again : List BbepCall) : Prop where
  frames : Frames { width := drv.panel.pixelWidth, height := drv.panel.pixelHeight } again
  whole : ∀ g, (drv.beginFull g).1 = true → ∃ currentPlane,
    (drv.beginFull g).2 = xferAppFull drv.panel.pixelWidth drv.panel.pixelHeight g currentPlane ∧
    (currentPlane = some (startPlaneOf g) ∨ g.layout ≠ .controllerPlanes)
  rect : ∀ r, (drv.beginPartial r).1 = true → ∃ fills, (drv.beginPartial r).2 = xferAppPartial r fills ∧
    (fills = whiteFills ∨ fills = [] ∧
      r.x = 0 ∧ r.y = 0 ∧ r.width = drv.panel.pixelWidth ∧ r.height = drv.panel.pixelHeight)
  write : ∀ img s streamOffset data, (drv.begin img).1 = true → BegunFor drv.panel img s →
    drv.write streamOffset data s = xferAppWrite drv.spi again streamOffset data s
  refresh : ∀ img s mode, (drv.begin img).1 = true → BegunFor drv.panel img s → s.faulted drv.spi = false →
    ∃ refreshMode, (drv.refresh mode s).1 = some refreshMode

theorem PanelDriver.Lawful.write_extends {drv : PanelDriver} {again : List BbepCall} {img : PanelImage} {s : XferApp}
    (h : drv.Lawful again) (hok : (drv.begin img).1 = true) (hs : BegunFor drv.panel img s) (streamOffset : UInt32)
    (data : Bytes) : s.Extends (drv.write streamOffset data s).2 := by
  rw [h.write img s streamOffset data hok hs]
  exact xferAppWrite_extends again streamOffset data s

theorem PanelDriver.Lawful.begun_whole {drv : PanelDriver} {again : List BbepCall} {g : Geometry} (h : drv.Lawful again)
    (hok : (drv.begin (.whole g)).1 = true) : ∃ currentPlane,
      (drv.begin (.whole g)).2 = xferAppFull drv.panel.pixelWidth drv.panel.pixelHeight g currentPlane ∧
      (currentPlane = some (startPlaneOf g) ∨ g.layout ≠ .controllerPlanes) := h.whole g hok

theorem PanelDriver.Lawful.begun_rect {drv : PanelDriver} {again : List BbepCall} {r : PartialState}
    (h : drv.Lawful again) (hok : (drv.begin (.rect r)).1 = true) : ∃ fills,
      (drv.begin (.rect r)).2 = xferAppPartial r fills ∧ (fills = whiteFills ∨ fills = [] ∧
        r.x = 0 ∧ r.y = 0 ∧ r.width = drv.panel.pixelWidth ∧ r.height = drv.panel.pixelHeight) := h.rect r hok

theorem BegunFor.busy {panel : PanelSetup} {img : PanelImage} {s : XferApp} (h : BegunFor panel img s) :
    s.mode ≠ .idle := by
  rw [h.mode]
  cases img <;> simp [PanelImage.mode]

theorem nordic_lawful (panel : PanelSetup) (spi : List BbepCall → Bool) : (nordicDriver panel spi).Lawful [] where
  frames := .inl rfl
  whole g hg := by
    change (Nordic.odXferAppBeginFull panel spi g).1 = true at hg
    show ∃ cp, (Nordic.odXferAppBeginFull panel spi g).2 = _ ∧ _
    unfold Nordic.odXferAppBeginFull at hg ⊢
    dsimp only at hg ⊢
    split_ifs at hg ⊢
    exact ⟨_, rfl, .inl rfl⟩
  rect r hr := by
    change (Nordic.odXferAppBeginPartial panel spi r).1 = true at hr
    show ∃ fills, (Nordic.odXferAppBeginPartial panel spi r).2 = _ ∧ _
    unfold Nordic.odXferAppBeginPartial at hr ⊢
    dsimp only at hr ⊢
    split_ifs at hr ⊢
    exact ⟨_, rfl, .inl rfl⟩
  write _ _ _ _ _ _ := rfl
  refresh img s mode _ hs hf := by
    show ∃ m, (Nordic.odXferAppRefresh spi mode s).1 = some m
    unfold Nordic.odXferAppRefresh
    rw [if_neg (by simp [hs.busy, hs.up]), if_neg (by simp [show s.faulted spi = false from hf])]
    split_ifs <;> exact ⟨_, rfl⟩

theorem esp32_lawful {panel : PanelSetup} (hbbep : panel.fastepd.driverUsed = false) : (esp32Driver panel).Lawful
    [.setAddrWindow { width := panel.pixelWidth, height := panel.pixelHeight }] where
  frames := .inr (.inl rfl)
  whole g hg := by
    change (Esp32.odXferAppBeginFull panel g).1 = true at hg
    show ∃ cp, (Esp32.odXferAppBeginFull panel g).2 = _ ∧ _
    unfold Esp32.odXferAppBeginFull at hg ⊢
    simp only [hbbep, Bool.false_eq_true, if_false] at hg ⊢
    split_ifs at hg ⊢ with hzero hplanes
    · exact ⟨_, rfl, .inl rfl⟩
    · exact ⟨_, rfl, .inr hplanes⟩
  rect r hr := by
    change (Esp32.odXferAppBeginPartial panel r).1 = true at hr
    show ∃ fills, (Esp32.odXferAppBeginPartial panel r).2 = _ ∧ _
    unfold Esp32.odXferAppBeginPartial at hr ⊢
    simp only [hbbep, Bool.false_eq_true, if_false] at hr ⊢
    split_ifs at hr ⊢ with hzero hfull
    · exact ⟨_, rfl, .inr ⟨rfl, of_decide_eq_true hfull⟩⟩
    · exact ⟨_, rfl, .inl rfl⟩
  write img s streamOffset data _ hs := by
    show Esp32.odXferAppWrite panel streamOffset data s = _
    rw [Esp32.odXferAppWrite_bbep panel hbbep]
    cases img with
    | whole g =>
      obtain ⟨hw, hh⟩ := hs.size rfl
      rw [hw, hh]
      rfl
    | rect r =>
      -- a rectangle has its own window
      have hmode : s.mode = .partialImage := hs.mode
      simp only [xferAppWrite, hmode]
      rfl
  refresh img s mode _ hs _ := by
    show ∃ m, (Esp32.odXferAppRefresh panel mode s).1 = some m
    unfold Esp32.odXferAppRefresh
    rw [if_neg hs.busy, hbbep, if_neg Bool.false_ne_true]
    split_ifs <;> exact ⟨_, rfl⟩

theorem efr32_lawful (panel : PanelSetup) : (efr32Driver panel).Lawful [] where
  frames := .inl rfl
  whole g hg := by
    change (Efr32.odXferAppBeginFull panel g).1 = true at hg
    show ∃ cp, (Efr32.odXferAppBeginFull panel g).2 = _ ∧ _
    unfold Efr32.odXferAppBeginFull at hg ⊢
    split_ifs at hg ⊢
    exact ⟨_, rfl, .inl rfl⟩
  rect r hr := absurd hr Bool.false_ne_true
  write img s streamOffset data hok hs := by
    cases img with
    | whole g => exact if_neg (not_not.mpr hs.mode)
    | rect r => exact absurd hok Bool.false_ne_true
  refresh img s mode hok hs _ := by
    show ∃ m, (Efr32.odXferAppRefresh mode s).1 = some m
    cases img with
    | whole g =>
      have hmode : s.mode = .fullImage := hs.mode
      unfold Efr32.odXferAppRefresh
      rw [if_neg (by simp [hmode, hs.up])]
      exact ⟨_, rfl⟩
    | rect r => exact absurd hok Bool.false_ne_true

end Lawful

section Painted

/-- What is called where the planes of an image change. -/
def PanelImage.between (panel : PanelSetup) (again : List BbepCall) : PanelImage → List BbepCall
  | .whole _ => again
  | .rect r => [.partialSetAddrWindow (PanelImage.window panel (.rect r))]

variable {drv : PanelDriver} {again : List BbepCall} {img : PanelImage} {xs data : Bytes} {s : XferApp}
  {streamOffset : UInt32}

/-- The driver has begun for the image and drawn the bytes so far. -/
structure Painted (drv : PanelDriver) (again : List BbepCall) (img : PanelImage) (xs : Bytes) (s : XferApp) : Prop where
  begun : (drv.begin img).1 = true
  goes : (drv.begin img).2.Extends s
  on : img.On drv.panel xs s.calls
  tracked : img.cuts = true → Tracked (img.window drv.panel) img.first img.first.other img.size
    (img.between drv.panel again) xs s
  packed : img.cuts = false → (drawn s.calls).selected = some img.first ∧
    ((drawn s.calls).planes img.first).1 = some (img.window drv.panel)

theorem PanelDriver.Lawful.begunFor (h : drv.Lawful again) (hok : (drv.begin img).1 = true)
    (hs : (drv.begin img).2.Extends s) : BegunFor drv.panel img s := by
  obtain ⟨plane, calls, rfl⟩ := hs
  cases img with
  | whole g =>
    obtain ⟨cp, hg, -⟩ := h.begun_whole hok
    rw [hg]
    exact ⟨rfl, rfl, fun _ => ⟨rfl, rfl⟩⟩
  | rect r =>
    obtain ⟨fills, hr, -⟩ := h.begun_rect hok
    rw [hr]
    exact ⟨rfl, rfl, fun hm => absurd hm (by simp [PanelImage.mode])⟩

theorem PanelDriver.Lawful.margin (h : drv.Lawful again) (hs : Painted drv again img xs s) :
    img.Margin drv.panel s.calls := by
  rintro r rfl
  obtain ⟨plane, calls, rfl⟩ := hs.goes
  obtain ⟨fills, hr, rfl | ⟨-, hwhole⟩⟩ := h.begun_rect hs.begun
  · left
    rw [hr]
    exact List.prefix_append _ _
  · exact .inr hwhole

/-- What is on the canvas once a plane has been started in the window. -/
theorem drawn_started (w : PanelWindow) (p q : BbepPlane) :
    ((drawn [.setAddrWindow w, .startWrite p]).planes q).2 = [] := by
  show ((Canvas.start p (Canvas.setWindow w {})).planes q).2 = []
  by_cases hq : q = p
  · rw [hq, Canvas.start_self]
  · rw [Canvas.start_of_ne hq]
    rfl

theorem drawn_fills {fills : List BbepCall} (h : fills = whiteFills ∨ fills = []) : drawn fills = {} := by
  rcases h with rfl | rfl <;> rfl

theorem PanelDriver.Lawful.painted (h : drv.Lawful again) (hok : (drv.begin img).1 = true) :
    Painted drv again img [] (drv.begin img).2 := by
  cases img with
  | whole g =>
    obtain ⟨cp, hg, hcp⟩ := h.begun_whole hok
    have hcalls : (drv.begin (.whole g)).2.calls =
        [.setAddrWindow (PanelImage.window drv.panel (.whole g)), .startWrite (startPlaneOf g)] := by
      rw [hg]
      rfl
    have hon : PanelImage.On drv.panel (.whole g) [] (drv.begin (.whole g)).2.calls := by
      rw [PanelImage.On, hcalls]
      exact .nil (drawn_started _ _ _) (drawn_started _ _ _)
    have hstart : (drawn (drv.begin (.whole g)).2.calls).selected = some (startPlaneOf g) ∧
        ((drawn (drv.begin (.whole g)).2.calls).planes (startPlaneOf g)).1 =
          some (PanelImage.window drv.panel (.whole g)) := by
      rw [hcalls]
      exact ⟨rfl, congrArg Prod.fst Canvas.start_self⟩
    refine ⟨hok, .refl _, hon, fun hcut => ⟨hon, fun p hp => ?_, fun hn => absurd rfl hn, fun _ => ?_⟩, fun hcut => ?_⟩
    · have hp' : cp = some p := by
        rw [hg] at hp
        exact hp
      rcases hcp with rfl | hpacked
      · obtain rfl := Option.some.inj hp'
        exact hstart
      · exact absurd (of_decide_eq_true hcut) hpacked
    · rw [hcalls]
      rfl
    · have hfirst : PanelImage.first (.whole g) = startPlaneOf g := if_neg (of_decide_eq_false hcut)
      rw [hfirst]
      exact hstart
  | rect r =>
    obtain ⟨fills, hr, hfills⟩ := h.begun_rect hok
    have hdrawn : drawn (drv.begin (.rect r)).2.calls = {} := by
      rw [hr]
      exact drawn_fills (hfills.imp_right And.left)
    have hon : PanelImage.On drv.panel (.rect r) [] (drv.begin (.rect r)).2.calls := by
      rw [PanelImage.On, hdrawn]
      exact .nil rfl rfl
    refine ⟨hok, .refl _, hon, fun _ => ⟨hon, fun p hp => ?_, fun hn => absurd rfl hn, fun hn => ?_⟩,
      fun hcut => absurd hcut (by simp [PanelImage.cuts])⟩
    · rw [hr] at hp
      exact absurd hp (by simp [xferAppPartial])
    · exact absurd hn (by simp [PanelImage.between])

theorem StreamFits.of_room {total : UInt32} (hoff : streamOffset.toNat = xs.length)
    (hroom : xs.length + data.length ≤ total.toNat) : StreamFits total streamOffset data := by
  have hle : streamOffset ≤ total := by
    rw [UInt32.le_iff_toNat_le]
    omega
  refine ⟨hle, ?_⟩
  rw [UInt32.toNat_sub_of_le _ _ hle]
  omega

theorem Painted.window (hl : drv.Lawful again) (img : PanelImage) :
    Frames (img.window drv.panel) (img.between drv.panel again) := by
  cases img with
  | whole g => exact hl.frames
  | rect r => exact .inr (.inr rfl)

/-- A write of a driver that ends in a failure of the bus, or has drawn what it was given. -/
def Draws (drv : PanelDriver) (again : List BbepCall) (img : PanelImage) (xs : Bytes) (r : Bool × XferApp) : Prop :=
  r.2.faulted drv.spi = true ∨ r.1 = true ∧ Painted drv again img xs r.2

theorem Painted.next (hs : Painted drv again img xs s) {s' : XferApp} (hgoes : s.Extends s') (hcut : img.cuts = true)
    (ht : Tracked (img.window drv.panel) img.first img.first.other img.size (img.between drv.panel again)
      (xs ++ data) s') : Painted drv again img (xs ++ data) s' where
  begun := hs.begun
  goes := hs.goes.trans hgoes
  on := ht.split
  tracked _ := ht
  packed hc := absurd hc (by simp [hcut])

theorem Painted.planes {cut : PlaneCut} (hl : drv.Lawful again) (hs : Painted drv again img xs s)
    (hcuts : img.cuts = true) (hfirst : cut.first = img.first) (hsecond : cut.second = img.first.other)
    (hsize : cut.size.toNat = img.size) (hwindow : cut.window = img.between drv.panel again)
    (h : StreamFits cut.total streamOffset data) (hoff : streamOffset.toNat = xs.length) :
    Draws drv again img (xs ++ data) (writePlanes drv.spi cut streamOffset data h s) := by
  have hcut : Cut (img.window drv.panel) cut xs s := by
    rw [Cut, hfirst, hsecond, hsize, hwindow]
    exact hs.tracked hcuts
  have hne : cut.first ≠ cut.second := by
    rw [hfirst, hsecond]
    exact img.first.ne_other
  refine (writePlanes_tracked drv.spi (hwindow ▸ Painted.window hl img) hne h hoff hcut).imp_right
    (And.imp_right fun ht => hs.next (writePlanes_extends ..) hcuts ?_)
  rw [Cut, hfirst, hsecond, hsize, hwindow] at ht
  exact ht

theorem Painted.row {g : Geometry} (hs : Painted drv again (.whole g) xs s) (hlayout : g.layout ≠ .controllerPlanes)
    (hnil : data ≠ []) (hroom : xs.length + data.length ≤ g.totalBytes.toNat) :
    Painted drv again (.whole g) (xs ++ data) (s.call (.writeData data)) := by
  have hcuts : PanelImage.cuts (.whole g) = false := decide_eq_false hlayout
  have hsize : PanelImage.size (.whole g) = g.totalBytes.toNat := if_neg hlayout
  obtain ⟨hsel, hin⟩ := hs.packed hcuts
  have hdrawn : drawn (s.call (.writeData data)).calls = (drawn s.calls).data data := drawn_concat ..
  have hside : side (PanelImage.first (.whole g)) (PanelImage.first (.whole g)).other (PanelImage.size (.whole g))
      xs.length = PanelImage.first (.whole g) := by
    have hpos := List.length_pos_iff.mpr hnil
    rw [side, if_pos (by omega)]
  refine ⟨hs.begun, hs.goes.trans (.call _ _), ?_, fun hc => absurd (hcuts.symm.trans hc) Bool.false_ne_true,
    fun _ => ?_⟩
  · rw [PanelImage.On, hdrawn]
    refine hs.on.data (BbepPlane.ne_other _) ?_ ?_ fun _ => hsize.symm ▸ hroom
    · rw [hside]
      exact hsel
    · rw [hside]
      exact hin
  · rw [hdrawn, Canvas.data_selected, Canvas.data_self hsel]
    exact ⟨hsel, hin⟩

theorem Painted.writeFull {g : Geometry} (hl : drv.Lawful again) (hs : Painted drv again (.whole g) xs s)
    (hnil : data ≠ []) (hoff : streamOffset.toNat = xs.length) (hroom : xs.length + data.length ≤ g.totalBytes.toNat) :
    Draws drv again (.whole g) (xs ++ data) (xferAppWriteFull drv.spi again streamOffset data s) := by
  have hfields : s.geometry = g ∧ s.planeSize = planeSizeOf g := by
    obtain ⟨plane, calls, rfl⟩ := hs.goes
    obtain ⟨cp, hg, -⟩ := hl.begun_whole hs.begun
    rw [hg]
    exact ⟨rfl, rfl⟩
  obtain ⟨hgeometry, hplane⟩ := hfields
  have hfits : StreamFits s.geometry.totalBytes streamOffset data := by
    rw [hgeometry]
    exact .of_room hoff hroom
  rw [xferAppWriteFull, dif_pos hfits]
  split_ifs with hlayout
  · rw [hgeometry] at hlayout
    by_cases hf : (s.call (.writeData data)).faulted drv.spi = true
    · exact .inl hf
    · exact .inr ⟨by simp only [Bool.eq_false_iff.mpr hf, Bool.not_false], hs.row hlayout hnil hroom⟩
  · rw [hgeometry, not_not] at hlayout
    refine hs.planes hl (decide_eq_true hlayout) ?_ ?_ ?_ rfl hfits hoff
    · exact (if_pos hlayout).symm
    · rw [PanelImage.first, if_pos hlayout]
      rfl
    · rw [PanelImage.size, if_pos hlayout, hplane, planeSizeOf, if_pos hlayout]

theorem Painted.writePartial {r : PartialState} (hl : drv.Lawful again) (hs : Painted drv again (.rect r) xs s)
    (hoff : streamOffset.toNat = xs.length)
    (hroom : xs.length + data.length ≤ (PanelImage.total (.rect r)).toNat) :
    Draws drv again (.rect r) (xs ++ data) (xferAppWritePartial drv.spi streamOffset data s) := by
  have hfields : s.planeSize = r.planeBytes ∧ s.x = r.x ∧ s.y = r.y ∧ s.width = r.width ∧ s.height = r.height := by
    obtain ⟨plane, calls, rfl⟩ := hs.goes
    obtain ⟨fills, hr, -⟩ := hl.begun_rect hs.begun
    rw [hr]
    exact ⟨rfl, rfl, rfl, rfl, rfl⟩
  obtain ⟨hplane, hx, hy, hw, hh⟩ := hfields
  have hfits : StreamFits (s.planeSize * 2) streamOffset data := by
    rw [hplane]
    exact .of_room hoff hroom
  rw [xferAppWritePartial, dif_pos hfits]
  refine hs.planes hl rfl rfl rfl ?_ ?_ hfits hoff
  · rw [hplane]
    rfl
  · rw [hx, hy, hw, hh]
    rfl

/-- A driver that is given the next bytes of its image takes them all, unless the bus fails. -/
theorem Painted.write (hl : drv.Lawful again) (hs : Painted drv again img xs s)
    (hoff : streamOffset.toNat = xs.length) (hroom : xs.length + data.length ≤ img.total.toNat) :
    (drv.write streamOffset data s).2.faulted drv.spi = true ∨
      (drv.write streamOffset data s).1 = UInt32.ofNat data.length ∧
        Painted drv again img (xs ++ data) (drv.write streamOffset data s).2 := by
  have hbegun := hl.begunFor hs.begun hs.goes
  rw [hl.write img s streamOffset data hs.begun hbegun, xferAppWrite]
  by_cases hnil : data = []
  · rw [if_pos (.inl hnil), hnil, List.append_nil]
    exact .inr ⟨rfl, hs⟩
  have hlong : ¬ (data = [] ∨ uint32Max < data.length) := by
    have := img.total.toNat_lt
    rw [not_or, Nat.not_lt]
    exact ⟨hnil, by show _ ≤ 2 ^ 32 - 1; omega⟩
  have hdone : ∀ r : Bool × XferApp, Draws drv again img (xs ++ data) r → r.2.faulted drv.spi = true ∨
      (if r.1 = true ∧ r.2.faulted drv.spi = false then UInt32.ofNat data.length else 0) = UInt32.ofNat data.length ∧
        Painted drv again img (xs ++ data) r.2 := by
    rintro ⟨accepted, s'⟩ hr
    by_cases hf : s'.faulted drv.spi = true
    · exact .inl hf
    · obtain ⟨hok, hp⟩ := hr.resolve_left hf
      exact .inr ⟨if_pos ⟨hok, Bool.eq_false_iff.mpr hf⟩, hp⟩
  rw [if_neg hlong]
  have hmode := hbegun.mode
  cases img with
  | whole g =>
    simp only [hmode, PanelImage.mode]
    exact hdone _ (hs.writeFull hl hnil hoff hroom)
  | rect r =>
    simp only [hmode, PanelImage.mode]
    exact hdone _ (hs.writePartial hl hoff hroom)

end Painted

end OpenDisplay
