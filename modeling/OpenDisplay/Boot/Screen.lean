import Mathlib.Algebra.Ring.Int.Defs
import OpenDisplay.Boot.Payload

/-! The boot screen: what is on it, where it is laid out, and the rows that are sent. An `Int`
stands for an `int`; the casts to shorter words are written out. -/

namespace OpenDisplay

section Words

def u8 (x : Int) : Int := x % 256
def u16 (x : Int) : Int := x % 65536
def i16 (x : Int) : Int := (x + 32768) % 65536 - 32768

end Words

def odColorSchemeBwr : UInt8 := 1
def odColorSchemeBwy : UInt8 := 2
def odColorSchemeGray4 : UInt8 := 5
def odColorSchemeGray8 : UInt8 := 9
def odBootPlanePrimary : Int := 0
def odBootPlaneSecond : Int := 1

/-- The first display, as far as the boot screen reads it. -/
structure BootDisplay where
  panelIcType : UInt16
  pixelWidth : UInt16
  pixelHeight : UInt16
  legacyTagType : UInt16
  rotation : UInt8
  partialUpdateSupport : UInt8
  colorScheme : UInt8

/-- `dataExtended` holds the names of manufacturer and model, if they are loaded. -/
structure BootConfig where
  displays : List BootDisplay
  manufacturerId : UInt16
  dataExtended : Option (Bytes × Bytes)

/-- The sizes of the two buffers, where their pointers are set. -/
structure BootBufs where
  rowLen : Nat
  qrLen : Nat

structure QRCode where
  size : UInt8
  getModule : UInt8 → UInt8 → Bool

/-- The hooks of the target and the library of the code, as functions of their arguments; and
what `printf` makes of a number with so many decimals. -/
structure BootApp where
  beginFrame : UInt16 → UInt16 → UInt8 → Int
  beginPlane : Int → Int
  writeRow : Nat → Nat → Bytes → Int
  endPlane : Int → Int
  endFrame : Int
  bitsPerPixel : UInt8 → Int
  defaultPlane : UInt8 → Int
  direct2bpp : Bool
  segments : UInt8
  deviceId24 : UInt32
  firmwareVersion : UInt8 × UInt8 × UInt8
  batteryVolts : Float32
  chipTempC : Float32
  printFixed : Nat → Float → Bytes
  qrBufferSize : UInt8 → Nat
  qrInitText : UInt8 → Bytes → Int × QRCode

/-- What differs from build to build: extended data, and the sizes of the logo with their bitmaps. -/
structure BootBuild where
  withDataExtended : Bool
  logoSizes : Nat
  logoBitmap : Nat → Bytes

/-- What the renderer hands to the library and to the target. -/
inductive BootCall where
  | qrInitText (version : UInt8) (text : Bytes)
  | beginFrame (width height : UInt16) (segments : UInt8)
  | beginPlane (plane : Int)
  | writeRow (y segment : Nat) (row : Bytes)
  | endPlane (plane : Int)
  | endFrame
deriving DecidableEq

section Pixels

def bootFont5x7 : List (UInt8 × Bytes) := [
  (0x20, [0x00, 0x00, 0x00, 0x00, 0x00]), (0x21, [0x00, 0x00, 0x5F, 0x00, 0x00]),
  (0x22, [0x00, 0x07, 0x00, 0x07, 0x00]), (0x23, [0x14, 0x7F, 0x14, 0x7F, 0x14]),
  (0x25, [0x23, 0x13, 0x08, 0x64, 0x62]), (0x26, [0x36, 0x49, 0x55, 0x22, 0x50]),
  (0x27, [0x00, 0x05, 0x03, 0x00, 0x00]), (0x28, [0x00, 0x1C, 0x22, 0x41, 0x00]),
  (0x29, [0x00, 0x41, 0x22, 0x1C, 0x00]), (0x2A, [0x14, 0x08, 0x3E, 0x08, 0x14]),
  (0x2B, [0x08, 0x08, 0x3E, 0x08, 0x08]), (0x2C, [0x00, 0x50, 0x30, 0x00, 0x00]),
  (0x2D, [0x08, 0x08, 0x08, 0x08, 0x08]), (0x2E, [0x00, 0x00, 0x40, 0x00, 0x00]),
  (0x2F, [0x20, 0x10, 0x08, 0x04, 0x02]), (0x30, [0x3E, 0x51, 0x49, 0x45, 0x3E]),
  (0x31, [0x00, 0x42, 0x7F, 0x40, 0x00]), (0x32, [0x62, 0x51, 0x49, 0x49, 0x46]),
  (0x33, [0x22, 0x49, 0x49, 0x49, 0x36]), (0x34, [0x18, 0x14, 0x12, 0x7F, 0x10]),
  (0x35, [0x2F, 0x49, 0x49, 0x49, 0x31]), (0x36, [0x3E, 0x49, 0x49, 0x49, 0x32]),
  (0x37, [0x01, 0x71, 0x09, 0x05, 0x03]), (0x38, [0x36, 0x49, 0x49, 0x49, 0x36]),
  (0x39, [0x26, 0x49, 0x49, 0x49, 0x3E]), (0x3A, [0x00, 0x36, 0x36, 0x00, 0x00]),
  (0x3B, [0x00, 0x56, 0x36, 0x00, 0x00]), (0x3C, [0x08, 0x14, 0x22, 0x41, 0x00]),
  (0x3D, [0x14, 0x14, 0x14, 0x14, 0x14]), (0x3E, [0x00, 0x41, 0x22, 0x14, 0x08]),
  (0x3F, [0x02, 0x01, 0x51, 0x09, 0x06]), (0x40, [0x32, 0x49, 0x79, 0x41, 0x3E]),
  (0x41, [0x7E, 0x11, 0x11, 0x11, 0x7E]), (0x42, [0x7F, 0x49, 0x49, 0x49, 0x36]),
  (0x43, [0x3E, 0x41, 0x41, 0x41, 0x22]), (0x44, [0x7F, 0x41, 0x41, 0x22, 0x1C]),
  (0x45, [0x7F, 0x49, 0x49, 0x49, 0x41]), (0x46, [0x7F, 0x09, 0x09, 0x09, 0x01]),
  (0x47, [0x3E, 0x41, 0x49, 0x49, 0x7A]), (0x48, [0x7F, 0x08, 0x08, 0x08, 0x7F]),
  (0x49, [0x00, 0x41, 0x7F, 0x41, 0x00]), (0x4A, [0x20, 0x40, 0x40, 0x3F, 0x00]),
  (0x4B, [0x7F, 0x08, 0x14, 0x22, 0x41]), (0x4C, [0x7F, 0x40, 0x40, 0x40, 0x40]),
  (0x4D, [0x7F, 0x02, 0x04, 0x02, 0x7F]), (0x4E, [0x7F, 0x02, 0x0C, 0x10, 0x7F]),
  (0x4F, [0x3E, 0x41, 0x41, 0x41, 0x3E]), (0x50, [0x7F, 0x09, 0x09, 0x09, 0x06]),
  (0x51, [0x3E, 0x41, 0x51, 0x21, 0x5E]), (0x52, [0x7F, 0x09, 0x19, 0x29, 0x46]),
  (0x53, [0x26, 0x49, 0x49, 0x49, 0x32]), (0x54, [0x01, 0x01, 0x7F, 0x01, 0x01]),
  (0x55, [0x3F, 0x40, 0x40, 0x40, 0x3F]), (0x56, [0x07, 0x18, 0x20, 0x18, 0x07]),
  (0x57, [0x3F, 0x40, 0x38, 0x40, 0x3F]), (0x58, [0x63, 0x14, 0x08, 0x14, 0x63]),
  (0x59, [0x07, 0x08, 0x70, 0x08, 0x07]), (0x5A, [0x61, 0x51, 0x49, 0x45, 0x43]),
  (0x5B, [0x00, 0x7F, 0x41, 0x41, 0x00]), (0x5C, [0x02, 0x04, 0x08, 0x10, 0x20]),
  (0x5D, [0x00, 0x41, 0x41, 0x7F, 0x00]), (0x5E, [0x04, 0x02, 0x01, 0x02, 0x04]),
  (0x5F, [0x40, 0x40, 0x40, 0x40, 0x40]), (0x60, [0x00, 0x01, 0x02, 0x04, 0x00]),
  (0x61, [0x20, 0x54, 0x54, 0x54, 0x78]), (0x62, [0x7F, 0x48, 0x44, 0x44, 0x38]),
  (0x63, [0x38, 0x44, 0x44, 0x44, 0x20]), (0x64, [0x38, 0x44, 0x44, 0x48, 0x7F]),
  (0x65, [0x38, 0x54, 0x54, 0x54, 0x18]), (0x66, [0x08, 0x7E, 0x09, 0x01, 0x02]),
  (0x67, [0x08, 0x14, 0x54, 0x54, 0x3C]), (0x68, [0x7F, 0x08, 0x04, 0x04, 0x78]),
  (0x69, [0x00, 0x44, 0x7D, 0x40, 0x00]), (0x6A, [0x20, 0x40, 0x44, 0x3D, 0x00]),
  (0x6B, [0x7F, 0x10, 0x28, 0x44, 0x00]), (0x6C, [0x00, 0x41, 0x7F, 0x40, 0x00]),
  (0x6D, [0x7C, 0x04, 0x18, 0x04, 0x78]), (0x6E, [0x7C, 0x08, 0x04, 0x04, 0x78]),
  (0x6F, [0x38, 0x44, 0x44, 0x44, 0x38]), (0x70, [0x7C, 0x14, 0x14, 0x14, 0x08]),
  (0x71, [0x08, 0x14, 0x14, 0x7C, 0x40]), (0x72, [0x7C, 0x08, 0x04, 0x04, 0x08]),
  (0x73, [0x48, 0x54, 0x54, 0x54, 0x20]), (0x74, [0x04, 0x3F, 0x44, 0x40, 0x20]),
  (0x75, [0x3C, 0x40, 0x40, 0x20, 0x7C]), (0x76, [0x1C, 0x20, 0x40, 0x20, 0x1C]),
  (0x77, [0x3C, 0x40, 0x30, 0x40, 0x3C]), (0x78, [0x44, 0x28, 0x10, 0x28, 0x44]),
  (0x79, [0x0C, 0x50, 0x50, 0x50, 0x3C]), (0x7A, [0x44, 0x64, 0x54, 0x4C, 0x44]),
  (0x7B, [0x00, 0x08, 0x36, 0x41, 0x00]), (0x7C, [0x00, 0x00, 0x7F, 0x00, 0x00]),
  (0x7D, [0x00, 0x41, 0x36, 0x08, 0x00]), (0x7E, [0x08, 0x04, 0x08, 0x10, 0x08])]

def bootGlyph (c : UInt8) : Bytes :=
  (((bootFont5x7.find? fun glyph => glyph.1 = c).or bootFont5x7.head?).map Prod.snd).getD []

def setBootPixelBlack (row : Bytes) (x : Nat) (bitsPerPixel : Int) : Bytes :=
  if bitsPerPixel = 1 then row.modify (x / 8) fun (b : UInt8) => b &&& ~~~((1 : UInt8) <<< UInt8.ofNat (7 - x % 8))
  else if bitsPerPixel = 2 then
    row.modify (x / 4) fun (b : UInt8) => b &&& ~~~((0x03 : UInt8) <<< UInt8.ofNat (6 - x % 4 * 2))
  else row.modify (x / 2) fun (b : UInt8) => if x % 2 = 0 then b &&& 0x0F else b &&& 0xF0

def setBootPixelCode (row : Bytes) (x : Nat) (bitsPerPixel : Int) (code : UInt8) : Bytes :=
  if bitsPerPixel = 1 then
    let bit : UInt8 := 1 <<< UInt8.ofNat (7 - x % 8)
    row.modify (x / 8) fun (b : UInt8) => if code &&& 1 ≠ 0 then b ||| bit else b &&& ~~~bit
  else if bitsPerPixel = 2 then
    let shift := UInt8.ofNat (6 - x % 4 * 2)
    row.modify (x / 4) fun (b : UInt8) => (b &&& ~~~((0x03 : UInt8) <<< shift)) ||| ((code &&& 0x03) <<< shift)
  else
    let nibble : UInt8 := code &&& 0x0F
    row.modify (x / 2) fun (b : UInt8) =>
      if x % 2 = 0 then b &&& (0x0F : UInt8) ||| nibble <<< 4 else b &&& (0xF0 : UInt8) ||| nibble

/-- The characters from the one at `cursor` on; between two of them there is a gap. -/
def bootTextColumn (lx gy scale : Int) : Int → Bytes → Bool
  | _, [] => false
  | cursor, c :: s =>
    if lx < u16 (cursor + 6 * scale) then
      if lx ≥ u16 (cursor + 5 * scale) then false
      else ((bootGlyph c).getD (u8 ((lx - cursor) / scale)).toNat 0).toNat.testBit gy.toNat
    else bootTextColumn lx gy scale (u16 (cursor + 6 * scale)) s

def bootTextPixelBlack (lx ly x0 y0 : Int) (s : Bytes) (scale wLog maxX : Int) : Bool :=
  if scale = 0 then false
  else
    let clipRight := if maxX ≥ 0 ∧ u16 maxX < wLog then u16 maxX else wLog
    if lx ≥ clipRight ∨ lx < x0 then false
    else if ly < y0 ∨ ly ≥ u16 (y0 + 7 * scale) then false
    else bootTextColumn lx (u8 ((ly - y0) / scale)) scale x0 s

def bootQrPixelBlack (lx ly qrX qrY qrPx modulePx quiet : Int) (qr : QRCode) : Bool :=
  if qrX < 0 ∨ lx < u16 qrX ∨ lx ≥ u16 (qrX + qrPx) then false
  else if qrY < 0 ∨ ly < u16 qrY ∨ ly ≥ u16 (qrY + qrPx) then false
  else
    let mx := i16 (i16 ((lx - u16 qrX) / u16 modulePx) - quiet)
    let my := i16 (i16 ((ly - u16 qrY) / u16 modulePx) - quiet)
    if mx < 0 ∨ my < 0 ∨ mx ≥ qr.size.toNat ∨ my ≥ qr.size.toNat then false
    else qr.getModule (UInt8.ofNat mx.toNat) (UInt8.ofNat my.toNat)

structure BootLogo where
  bitmap : Bytes
  width : Int
  height : Int
  stride : Int

def bootLogoPixelBlack (lx ly logoX logoY : Int) (logo : BootLogo) (maxX : Int) : Bool :=
  if lx < logoX ∨ lx ≥ logoX + logo.width then false
  else if lx ≥ maxX then false
  else if ly < logoY ∨ ly ≥ logoY + logo.height then false
  else
    let bx := lx - logoX
    (logo.bitmap.getD ((ly - logoY) * logo.stride + bx / 8).toNat 0).toNat.testBit (7 - bx % 8).toNat

def bootTextWidth (s : Bytes) (scale : Int) : Int := if scale = 0 then 0 else u16 (s.length * 6 * scale)

def bootLineStep (scale : Int) : Int := scale * 10

/-- The boxes of color at the foot of the screen. -/
structure BootSwatches where
  y0 : Int
  y1 : Int
  width : Int
  boxes : List (UInt8 × Bool)

/-- The last box takes what is left of the width. -/
def bootSwatchIndex (s : BootSwatches) (lx ly wLog : Int) : Option Nat :=
  if s.boxes.length = 0 ∨ s.width ≤ 0 then none
  else if ly < s.y0 ∨ ly ≥ s.y1 then none
  else if lx ≥ wLog then none
  else some (if lx / s.width ≥ s.boxes.length then s.boxes.length - 1 else (lx / s.width).toNat)

def bootSwatchIsBorder (s : BootSwatches) (lx ly wLog : Int) : Bool :=
  match bootSwatchIndex s lx ly wLog with
  | none => false
  | some i =>
    let boxX0 := i * s.width
    let boxX1 := if i = s.boxes.length - 1 then wLog else (i + 1) * s.width
    lx = boxX0 ∨ lx = boxX1 - 1 ∨ ly = s.y0 ∨ ly = s.y1 - 1

end Pixels

section Layout

def bootMaxTextWidth (lines : List Bytes) (scale : Int) : Int :=
  lines.foldl (fun maxW line => max maxW (bootTextWidth line (u8 scale))) 0

def formatBootColorSchemeText (scheme : UInt8) : Bytes :=
  match scheme.toNat with
  | 0 => ascii "BW"
  | 1 => ascii "BWR"
  | 2 => ascii "BWY"
  | 3 => ascii "BWRY"
  | 4 => ascii "6 color"
  | 8 => ascii "6c split"
  | 5 => ascii "4 gray"
  | 6 => ascii "16 gray"
  | 7 => ascii "7 color"
  | _ => ascii "?"

def bootQrModuleMax (w hFull : Int) : Int :=
  if w ≥ 1872 ∧ hFull ≥ 1404 then 18
  else if w ≥ 1600 ∧ hFull ≥ 1200 then 16
  else if w ≥ 1200 ∧ hFull ≥ 900 then 12
  else if w ≥ 800 ∧ hFull ≥ 600 then 8
  else if w ≥ 800 ∧ hFull ≥ 480 then 7
  else if w ≥ 600 ∧ hFull ≥ 400 ∧ hFull < 600 then 7
  else 6

def bootMiddleScaleHi (wLog hLog : Int) (useHighResLayout : Bool) : Nat :=
  if wLog ≥ 1600 ∧ hLog ≥ 1200 then 10
  else if wLog ≥ 800 ∧ hLog ≥ 600 then 8
  else if ¬ useHighResLayout then 2
  else if hLog < 600 then if wLog ≥ 600 then 3 else 2
  else 6

def bootMiddlePad (scale wLog hLog : Int) (useZoneLayout : Bool) : Int :=
  if useZoneLayout ∧ wLog < 800 ∧ hLog ≥ 400 ∧ hLog < 600 then 4 * scale else 6 * scale

def bootFooterPlace (scale gap : Int) : Int → List Bytes → List Int
  | _, [] => []
  | x, seg :: segs => x :: bootFooterPlace scale gap (x + bootTextWidth seg (u8 scale) + gap) segs

def bootFooterLayoutSegs (segs : List Bytes) (scale bandLeft bandRight : Int) : List Int :=
  let totalW := (segs.map fun seg => bootTextWidth seg (u8 scale)).sum
  let bandW := bandRight - bandLeft
  let gap := if bandW > totalW then (bandW - totalW) / (segs.length + 1) else 0
  bootFooterPlace scale gap (bandLeft + gap) segs

def bootHeaderLineGap (manufScale : Int) : Int := max 4 (4 * manufScale)

def bootHeaderBlockH (manuf model : Bytes) (manufScale modelScale : Int) : Int :=
  if manuf ≠ [] ∧ model ≠ [] then 7 * manufScale + bootHeaderLineGap manufScale + 7 * modelScale
  else if manuf ≠ [] then 7 * manufScale
  else if model ≠ [] then 7 * modelScale
  else 0

/-- The largest scale up to this one that fits, or one. -/
def bootShrink (fits : Nat → Bool) : Nat → Nat
  | 0 => 1
  | scale + 1 => if scale = 0 ∨ fits (scale + 1) then scale + 1 else bootShrink fits scale

/-- The scale of the manufacturer is 65 percent of the model's, rounded up. -/
def bootManufScale (modelScale : Nat) : Nat := max 1 ((modelScale * 13 + 19) / 20)

def bootFirstScale (availW : Int) (text : Bytes) : Nat := max 1 (availW.tdiv (max 20 text.length * 6)).toNat

def bootPickHeaderScales (headerH headerMaxX pad : Int) (manuf model : Bytes) : Nat × Nat :=
  let availW := headerMaxX - pad
  if manuf = [] ∧ model = [] then (1, 1)
  else if manuf ≠ [] ∧ model ≠ [] then
    let modelS := bootShrink (fun s => bootHeaderBlockH manuf model (bootManufScale s) s ≤ headerH - 8)
      (bootFirstScale availW model)
    (bootManufScale modelS, modelS)
  else if model ≠ [] then
    (1, bootShrink (fun s => bootHeaderBlockH [] model 1 s ≤ headerH - 8) (bootFirstScale availW model))
  else (bootShrink (fun s => bootHeaderBlockH manuf [] s 1 ≤ headerH - 8) (bootFirstScale availW manuf), 1)

structure BootLayout where
  modulePx : Int
  qrPx : Int
  qrRight : Bool
  qrX : Int
  qrY : Int
  availW : Int
  textY : Int

/-- Text on the left and the code on the right, or else text above the code, with modules as
large as they fit. -/
def bootLayoutFrom (w h blockH pad qrModules maxTextW : Int) : Nat → Option BootLayout
  | 0 => none
  | n + 1 =>
    let modulePx : Int := n + 1
    let qrPx := modulePx * qrModules
    let availW := w - pad * 2 - qrPx - pad
    if qrPx > w - pad * 2 then bootLayoutFrom w h blockH pad qrModules maxTextW n
    else if w ≥ pad * 2 + maxTextW + pad + qrPx ∧ h ≥ pad * 2 + max blockH qrPx ∧ maxTextW ≤ availW then
      let zoneY := (h - max blockH qrPx).tdiv 2
      some
        { modulePx := modulePx, qrPx := qrPx, qrRight := true, qrX := w - pad - qrPx
          qrY := if blockH < qrPx then zoneY else zoneY + (blockH - qrPx) / 2
          availW := availW
          textY := if blockH < qrPx then zoneY + (qrPx - blockH) / 2 else zoneY }
    else if w ≥ pad * 2 + maxTextW ∧ h ≥ pad * 2 + blockH + pad + qrPx then
      let zoneY := (h - (blockH + pad + qrPx)).tdiv 2
      some
        { modulePx := modulePx, qrPx := qrPx, qrRight := false, qrX := (w - qrPx).tdiv 2, qrY := zoneY + blockH + pad
          availW := w - pad * 2, textY := zoneY }
    else bootLayoutFrom w h blockH pad qrModules maxTextW n

def bootLayoutFit (w h hFull blockH pad qrModules maxTextW : Int) : Option BootLayout :=
  let moduleIdeal := max 1 (((min w h) - pad * 2).tdiv qrModules)
  bootLayoutFrom w h blockH pad qrModules maxTextW (min moduleIdeal (bootQrModuleMax w hFull)).toNat

end Layout

section Zones

/-- The three zones of a screen that is large enough for them. -/
structure BootZones where
  wLog : Int
  hLog : Int
  useZoneLayout : Bool
  useHighResLayout : Bool
  headerH : Int
  footerH : Int
  footerInfoScale : Int
  footerInfoH : Int
  footerY0 : Int
  middleH : Int

def bootZones (d : BootDisplay) : BootZones :=
  let w : Int := d.pixelWidth.toNat
  let h : Int := d.pixelHeight.toNat
  let is90or270 : Bool := d.rotation = 1 ∨ d.rotation = 3
  let wLog := if is90or270 then h else w
  let hLog := if is90or270 then w else h
  let useZoneLayout : Bool := wLog ≥ 400 ∧ hLog ≥ 300
  let isLandscape : Bool := wLog > hLog
  let headerH := if useZoneLayout then hLog * (if isLandscape then 20 else 15) / 100 else 0
  let footerH := if useZoneLayout then hLog * (if isLandscape then 15 else 12) / 100 else 0
  let targetFooterInfoH := if useZoneLayout then hLog * (if isLandscape then 4 else 3) / 100 else 0
  let footerInfoScale := (targetFooterInfoH - 4).tdiv 7
  { wLog := wLog, hLog := hLog, useZoneLayout := useZoneLayout
    useHighResLayout := useZoneLayout ∧ wLog ≥ 600 ∧ hLog ≥ 400
    headerH := headerH, footerH := footerH, footerInfoScale := footerInfoScale, footerInfoH := footerInfoScale * 7 + 4
    footerY0 := hLog - footerH, middleH := hLog - footerH - headerH }

def kSchemeWhiteValue : Bytes := [0xFF, 0xFF, 0xFF, 0x55, 0x11, 0xFF, 0xFF, 0xFF, 0x11]
def kBwgbrySwatchCodes : Bytes := [0, 1, 2, 3, 5, 6]
def kGray4StoredBase : Bytes := [3, 1, 2, 0]
def kGray4StoredV2 : Bytes := [3, 2, 1, 0]

def bootGray4PanelUsesLutV2 (panelIc : UInt16) : Bool := panelIc = 0x0028 ∨ panelIc = 0x0048

def bootGray4FillSwatchCodes (panelIc : UInt16) (direct2bpp : Bool) : Bytes :=
  if direct2bpp then [0, 1, 2, 3]
  else (if bootGray4PanelUsesLutV2 panelIc then kGray4StoredV2 else kGray4StoredBase).map fun code => ~~~code &&& 3

/-- One box for each color of the scheme, and whether it is on the second plane. -/
def bootSwatchBoxes (d : BootDisplay) (direct2bpp : Bool) : List (UInt8 × Bool) :=
  match d.colorScheme.toNat with
  | 0 | 7 => [(0, false), (1, false)]
  | 1 | 2 => [(0, false), (1, false), (1, true)]
  | 3 => [(0, false), (1, false), (2, false), (3, false)]
  | 4 | 8 => kBwgbrySwatchCodes.map fun code => (code, false)
  | 5 => (bootGray4FillSwatchCodes d.panelIcType direct2bpp).map fun code => (code, false)
  | 6 => (List.range 16).map fun code => (UInt8.ofNat code, false)
  | _ => []

def bootLineSize : Nat := 32

/-- The lines of text in the middle: address, name, firmware and the two of the key. -/
structure BootLines where
  domain : Bytes
  name : Bytes
  fw : Bytes
  k1 : Bytes
  k2 : Bytes

def decimal (n : Nat) : Bytes := (Nat.toDigits 10 n).map fun c => UInt8.ofNat c.toNat

/-- Six hexadecimal digits. -/
def bootLast6 (last3 : UInt32) : Bytes := (List.range 6).map fun i => hexDigit (last3.toNat / 16 ^ (5 - i) % 16)

def bootLines (app : BootApp) (useZoneLayout : Bool) (last3 : UInt32) (keyLines : Bytes × Bytes) : BootLines :=
  let (major, minor, patch) := app.firmwareVersion
  let version := decimal major.toNat ++ ascii "." ++ decimal minor.toNat ++ ascii "." ++ decimal patch.toNat
  { domain := ascii (if useZoneLayout then "URL:  OpenDisplay.org" else "OpenDisplay.org")
    name := snprintf bootLineSize (ascii (if useZoneLayout then "ID:   OD" else "OD") ++ bootLast6 last3)
    fw := snprintf bootLineSize (ascii (if useZoneLayout then "FW:   OD ver " else "FW:O ") ++ version)
    k1 := keyLines.1
    k2 := keyLines.2 }

def BootLines.all (lines : BootLines) : List Bytes := [lines.domain, lines.name, lines.fw, lines.k1, lines.k2]

structure BootMiddle where
  scale : Int
  pad : Int
  layout : BootLayout

/-- The height of the text in the middle. -/
def bootContentH (z : BootZones) (scale : Int) : Int :=
  if z.useZoneLayout then 4 * bootLineStep scale + scale * 6 + 7 * scale else (5 - 1) * bootLineStep scale + 7 * scale

def bootMiddleTry (z : BootZones) (lines : BootLines) (qrModules : Int) : Nat → Option BootMiddle
  | 0 => none
  | n + 1 =>
    let ultraHiResPanel : Bool := z.useZoneLayout ∧ z.wLog ≥ 1872 ∧ z.hLog ≥ 1404
    let scale : Int := if ultraHiResPanel then if n + 1 > 2 then n + 1 - 2 else 1 else n + 1
    let pad := bootMiddlePad scale z.wLog z.hLog z.useZoneLayout
    match bootLayoutFit z.wLog (u16 z.middleH) z.hLog (bootContentH z scale) pad qrModules
      (bootMaxTextWidth lines.all scale) with
    | some layout => some ⟨scale, pad, layout⟩
    | none => bootMiddleTry z lines qrModules n

/-- Where nothing fits, the text stands above the code in the smallest size. -/
def bootMiddleFallback (z : BootZones) (qrModules : Int) : BootMiddle :=
  let pad := bootMiddlePad 1 z.wLog z.hLog z.useZoneLayout
  let qrPx := qrModules
  let contentH := bootContentH z 1
  let totalH := contentH + pad + qrPx
  let zoneY := max pad ((z.middleH - totalH).tdiv 2)
  let zoneY := if zoneY + totalH > z.middleH - pad then z.middleH - pad - totalH else zoneY
  let zoneY := max pad zoneY
  { scale := 1, pad := pad
    layout :=
      { modulePx := 1, qrPx := qrPx, qrRight := false, qrX := (z.wLog - qrPx).tdiv 2, qrY := zoneY + contentH + pad
        availW := z.wLog - pad * 2, textY := zoneY } }

def bootMiddle (z : BootZones) (lines : BootLines) (qrModules : Int) : BootMiddle :=
  let scaleHi := if z.useZoneLayout then bootMiddleScaleHi z.wLog z.hLog z.useHighResLayout else 1
  let m := (bootMiddleTry z lines qrModules scaleHi).getD (bootMiddleFallback z qrModules)
  { m with layout := { m.layout with qrY := m.layout.qrY + z.headerH, textY := m.layout.textY + z.headerH } }

def bootFooterSegs (app : BootApp) (d : BootDisplay) (z : BootZones) : List Bytes :=
  if ¬ z.useZoneLayout then []
  else
    let vStr := snprintf 8
      (if app.batteryVolts ≥ 0 then app.printFixed 2 app.batteryVolts.toFloat ++ ascii "V" else ascii "--V")
    let tStr := snprintf 8
      (if app.chipTempC > -900 then app.printFixed 1 app.chipTempC.toFloat ++ ascii "C" else ascii "--C")
    let resStr := snprintf 16 (decimal z.wLog.toNat ++ ascii "x" ++ decimal z.hLog.toNat)
    if vStr = [] then []
    else
      [vStr, tStr] ++
        if z.useHighResLayout then
          [snprintf 16 (formatBootColorSchemeText d.colorScheme)] ++
            (if d.partialUpdateSupport ≠ 0 then [ascii "+Partial Refresh"] else []) ++ [resStr]
        else []

end Zones

section Frame

structure BootHeader where
  manuf : Bytes
  model : Bytes
  manufScale : Nat
  modelScale : Nat
  manufY : Int
  modelY : Int
  maxX : Int

/-- Everything that decides the color of a pixel. -/
structure BootFrame where
  display : BootDisplay
  zones : BootZones
  lines : BootLines
  middle : BootMiddle
  qr : QRCode
  qrX : Int
  textX : Int
  textMaxX : Int
  header : BootHeader
  logo : BootLogo
  logoX : Int
  logoY : Int
  footerSegs : List Bytes
  footerSegX : List Int
  footerInfoY : Int
  swatches : BootSwatches

def bootLogo (build : BootBuild) (z : BootZones) : BootLogo :=
  let maxLogoH := z.headerH - 16
  let maxLogoW := z.wLog * 3 / 10
  if build.logoSizes ≥ 3 ∧ 260 ≤ maxLogoH ∧ 499 < maxLogoW then ⟨build.logoBitmap 3, 499, 260, 63⟩
  else if build.logoSizes ≥ 2 ∧ 80 ≤ maxLogoH ∧ 154 < maxLogoW then ⟨build.logoBitmap 2, 154, 80, 20⟩
  else ⟨build.logoBitmap 1, 84, 44, 11⟩

/-- A string of a fixed field, up to its NUL. -/
def cString (field : Bytes) : Bytes := field.takeWhile (· ≠ 0)

def bootHeader (build : BootBuild) (cfg : BootConfig) (z : BootZones) (maxX pad : Int) : BootHeader :=
  let (manuf, model) :=
    match build.withDataExtended, cfg.dataExtended with
    | true, some (manuf, model) => (snprintf bootLineSize (cString manuf), snprintf bootLineSize (cString model))
    | _, _ => ([], [])
  let (manufScale, modelScale) := bootPickHeaderScales z.headerH maxX pad manuf model
  let blockY0 := (z.headerH - bootHeaderBlockH manuf model manufScale modelScale).tdiv 2
  { manuf := manuf, model := model, manufScale := manufScale, modelScale := modelScale
    manufY := u16 blockY0
    modelY := if manuf ≠ [] then u16 (blockY0 + 7 * manufScale + bootHeaderLineGap manufScale) else u16 blockY0
    maxX := maxX }

def footerPadTop (z : BootZones) : Int := if z.useZoneLayout then 8 else 0

def bootSwatches (d : BootDisplay) (z : BootZones) (direct2bpp : Bool) (numFooterSegs : Nat) : BootSwatches :=
  let boxes := if z.useZoneLayout ∧ z.footerH > footerPadTop z + 20 then bootSwatchBoxes d direct2bpp else []
  let y0 := z.footerY0 + footerPadTop z + if numFooterSegs > 0 then z.footerInfoH else 0
  { y0 := y0, y1 := z.hLog, boxes := boxes
    width := if boxes.length > 0 ∧ z.hLog - y0 > 2 then z.wLog / boxes.length else 0 }

def bootFrame (build : BootBuild) (app : BootApp) (cfg : BootConfig) (d : BootDisplay) (lines : BootLines)
    (qr : QRCode) : BootFrame :=
  let z := bootZones d
  let middle := bootMiddle z lines (qr.size.toNat + 2 * 4)
  let pad := middle.pad
  let contentRightX := z.wLog - pad
  let beside : Bool := z.useZoneLayout ∧ middle.layout.qrRight
  let qrX := if beside then contentRightX - middle.layout.qrPx else middle.layout.qrX
  let logo := bootLogo build z
  let logoX := contentRightX - logo.width
  let segs := bootFooterSegs app d z
  { display := d, zones := z, lines := lines, middle := middle, qr := qr, qrX := qrX
    textX := max pad (if middle.layout.qrRight then pad else (z.wLog - middle.layout.availW).tdiv 2)
    textMaxX := if beside then qrX - pad else z.wLog
    header := bootHeader build cfg z (logoX - pad) pad
    logo := logo, logoX := logoX, logoY := (z.headerH - logo.height).tdiv 2
    footerSegs := segs
    footerSegX := bootFooterLayoutSegs segs z.footerInfoScale pad (z.wLog - pad)
    footerInfoY := u16 (z.footerY0 + (footerPadTop z + z.footerInfoH - 7 * z.footerInfoScale).tdiv 2)
    swatches := bootSwatches d z app.direct2bpp segs.length }

def BootFrame.text (f : BootFrame) (lx ly y : Int) (s : Bytes) : Bool :=
  bootTextPixelBlack lx ly (u16 f.textX) (u16 y) s (u8 f.middle.scale) f.zones.wLog f.textMaxX

/-- The lines of the middle, each at its height; the second line of the key stands below the first. -/
def BootFrame.middleText (f : BootFrame) (lx ly : Int) : Bool :=
  let ls := bootLineStep f.middle.scale
  let y := f.middle.layout.textY
  let fwY := u16 (y + ls * 2)
  let k1Y := u16 (fwY + ls + if f.zones.useZoneLayout then f.middle.scale * 6 else 0)
  f.text lx ly y f.lines.domain || f.text lx ly (y + ls) f.lines.name || f.text lx ly fwY f.lines.fw ||
    f.text lx ly k1Y f.lines.k1 || f.text lx ly (k1Y + ls) f.lines.k2

def BootFrame.headerText (f : BootFrame) (lx ly : Int) : Bool :=
  let x := u16 f.middle.pad
  (f.header.manuf ≠ [] &&
    bootTextPixelBlack lx ly x f.header.manufY f.header.manuf (u8 f.header.manufScale) f.zones.wLog f.header.maxX) ||
  (f.header.model ≠ [] &&
    bootTextPixelBlack lx ly x f.header.modelY f.header.model (u8 f.header.modelScale) f.zones.wLog f.header.maxX)

def BootFrame.footerText (f : BootFrame) (lx ly : Int) : Bool :=
  (f.footerSegs.zip f.footerSegX).any fun seg =>
    bootTextPixelBlack lx ly (u16 seg.2) f.footerInfoY seg.1 (u8 f.zones.footerInfoScale) f.zones.wLog
      (f.zones.wLog - f.middle.pad)

def BootFrame.black (f : BootFrame) (lx ly : Int) : Bool :=
  let z := f.zones
  bootSwatchIsBorder f.swatches lx ly z.wLog ||
    (z.useZoneLayout &&
      (ly = u16 z.headerH || ly = u16 (z.headerH + 1) || ly = u16 z.footerY0 || ly = u16 (z.footerY0 + 1))) ||
    (z.useZoneLayout && f.headerText lx ly) || f.middleText lx ly || f.footerText lx ly ||
    bootQrPixelBlack lx ly f.qrX f.middle.layout.qrY f.middle.layout.qrPx f.middle.layout.modulePx 4 f.qr ||
    (z.useZoneLayout && bootLogoPixelBlack lx ly f.logoX f.logoY f.logo z.wLog)

/-- Where the user sees a pixel of the panel. -/
def bootLogical (rotation : UInt8) (z : BootZones) (x y : Int) : Int × Int :=
  match rotation.toNat with
  | 1 => (y, u16 (z.hLog - 1 - x))
  | 2 => (u16 (z.wLog - 1 - x), u16 (z.hLog - 1 - y))
  | 3 => (u16 (z.wLog - 1 - y), x)
  | _ => (x, y)

end Frame

section Rows

/-- How the rows of a panel are packed. -/
structure BootPacking where
  bitsPerPixel : Int
  pitch : Nat
  whiteValue : UInt8
  useBitplanes : Bool
  gray4Split : Bool
  planePitch : Nat

def bootPacking (app : BootApp) (d : BootDisplay) : BootPacking :=
  let bitsPerPixel := app.bitsPerPixel d.colorScheme
  let w := d.pixelWidth.toNat
  { bitsPerPixel := bitsPerPixel
    pitch := if bitsPerPixel = 4 then (w + 1) / 2 else if bitsPerPixel = 2 then (w + 3) / 4 else (w + 7) / 8
    whiteValue := kSchemeWhiteValue.getD d.colorScheme.toNat 0xFF
    useBitplanes := d.colorScheme = odColorSchemeBwr ∨ d.colorScheme = odColorSchemeBwy
    gray4Split := d.colorScheme = odColorSchemeGray4 ∧ ¬ app.direct2bpp
    planePitch := (w + 7) / 8 }

def bootPaint (f : BootFrame) (p : BootPacking) (y : Nat) (row : Bytes) (x : Nat) : Bytes :=
  let (lx, ly) := bootLogical f.display.rotation f.zones x y
  if f.black lx ly then setBootPixelBlack row x p.bitsPerPixel
  else
    match bootSwatchIndex f.swatches lx ly f.zones.wLog with
    | some i => setBootPixelCode row x p.bitsPerPixel (f.swatches.boxes.getD i (0, false)).1
    | none => row

/-- On the plane of the second color there is only the inside of its box. -/
def bootPaintColor (f : BootFrame) (y : Nat) (row : Bytes) (x : Nat) : Bytes :=
  let (lx, ly) := bootLogical f.display.rotation f.zones x y
  match bootSwatchIndex f.swatches lx ly f.zones.wLog with
  | some i =>
    if ¬ bootSwatchIsBorder f.swatches lx ly f.zones.wLog ∧ (f.swatches.boxes.getD i (0, false)).2 then
      setBootPixelCode row x 1 1
    else row
  | none => row

/-- One bit of the gray levels of a row. -/
def makeGray4PlaneRow (row2bpp : Bytes) (planePitch w bitSel : Nat) : Bytes :=
  (List.range w).foldl (fun planeRow x =>
    let code := ~~~(byteAt row2bpp (x / 4) >>> UInt8.ofNat (6 - x % 4 * 2)) &&& 0x03
    if (code >>> UInt8.ofNat bitSel) &&& 0x01 ≠ 0 then
      planeRow.modify (x / 8) fun b => b ||| (0x80 : UInt8) >>> UInt8.ofNat (x % 8)
    else planeRow) (List.replicate planePitch 0)

/-- The part of a row that one segment takes. -/
def bootSegment (row : Bytes) (pitch segments segment : Nat) : Bytes :=
  (row.drop (segment * (pitch / segments))).take (pitch / segments)

def bootRow (f : BootFrame) (p : BootPacking) (colorPlanePass : Bool) (segments segment bitSel y : Nat) : Bytes :=
  let w := f.display.pixelWidth.toNat
  let row :=
    if colorPlanePass then (List.range w).foldl (bootPaintColor f y) (List.replicate p.pitch 0)
    else (List.range w).foldl (bootPaint f p y) (List.replicate p.pitch p.whiteValue)
  if p.gray4Split then bootSegment (makeGray4PlaneRow row p.planePitch w bitSel) p.planePitch segments segment
  else bootSegment row p.pitch segments segment

end Rows

section Render

/-- Whether the output is still good, and the calls so far. -/
structure BootOut where
  ok : Bool
  calls : List BootCall

def BootOut.call (o : BootOut) (c : BootCall) (ret : Int) : BootOut := ⟨o.ok && ret = 0, o.calls ++ [c]⟩

def bootRows (app : BootApp) (row : Nat → Bytes) (segment h : Nat) (o : BootOut) : BootOut :=
  (List.range h).foldl (fun o y =>
    if o.ok then o.call (.writeRow y segment (row y)) (app.writeRow y segment (row y)) else o) o

/-- A plane that cannot be begun is not ended. -/
def bootPlane (app : BootApp) (plane : Int) (row : Nat → Bytes) (segment h : Nat) (o : BootOut) : BootOut :=
  let o := o.call (.beginPlane plane) (app.beginPlane plane)
  if ¬ o.ok then o else (bootRows app row segment h o).call (.endPlane plane) (app.endPlane plane)

/-- The second plane of a panel that has one but no colors to show. -/
def bootBlankPlane (app : BootApp) (row : Bytes) (segment h : Nat) (o : BootOut) : BootOut :=
  let o := o.call (.beginPlane odBootPlaneSecond) (app.beginPlane odBootPlaneSecond)
  (bootRows app (fun _ => row) segment h o).call (.endPlane odBootPlaneSecond) (app.endPlane odBootPlaneSecond)

def bootPasses (app : BootApp) (f : BootFrame) (p : BootPacking) (segments segment : Nat) (o : BootOut) : BootOut :=
  let colorSwatchPlane1 : Bool := p.useBitplanes ∧ f.swatches.boxes.length > 0
  let h := f.display.pixelHeight.toNat
  let split : Bool := p.gray4Split ∨ colorSwatchPlane1
  let o := (List.range (if split then 2 else 1)).foldl (fun o pass =>
    let targetPlane :=
      if split then if pass = 0 then odBootPlanePrimary else odBootPlaneSecond
      else if p.useBitplanes then odBootPlanePrimary
      else app.defaultPlane f.display.colorScheme
    if o.ok then bootPlane app targetPlane (bootRow f p (colorSwatchPlane1 && pass = 1) segments segment pass)
      segment h o
    else o) o
  if p.useBitplanes ∧ ¬ colorSwatchPlane1 ∧ o.ok then
    bootBlankPlane app (bootSegment (List.replicate p.pitch 0) p.pitch segments segment) segment h o
  else o

/-- The frame, once everything is laid out. -/
def bootEmit (app : BootApp) (bufs : BootBufs) (f : BootFrame) (calls : List BootCall) : Bool × List BootCall :=
  let p := bootPacking app f.display
  let segments := app.segments.toNat
  let rowRequired := p.pitch + if p.gray4Split then p.planePitch else 0
  if (segments ≠ 1 ∧ segments ≠ 2) ∨ p.pitch % segments ≠ 0 ∨ (p.gray4Split ∧ p.planePitch % segments ≠ 0) ∨
      rowRequired > bufs.rowLen then (false, calls)
  else
    let begin := BootCall.beginFrame f.display.pixelWidth f.display.pixelHeight app.segments
    if app.beginFrame f.display.pixelWidth f.display.pixelHeight app.segments ≠ 0 then (false, calls ++ [begin])
    else
      let o := (List.range segments).foldl (fun o segment => if o.ok then bootPasses app f p segments segment o else o)
        ⟨true, calls ++ [begin]⟩
      let o := o.call .endFrame app.endFrame
      (o.ok, o.calls)

def bootKey (security : Option BootSecurity) : Block :=
  match security with
  | some sec => if odBootKeyState (some sec) = .notSet then .replicate 16 0 else sec.encryptionKey
  | none => .replicate 16 0

/-- The two lines of text about the key, by the size of the screen. -/
def bootKeyLines (useZoneLayout : Bool) (key : Block) (showKey : Bool) : Bytes × Bytes :=
  if useZoneLayout then
    (odBootFormatKeyLine (ascii "KEY1:") (key.toList.take 8) (odBootKeyIsZero key) showKey 24,
      odBootFormatKeyLine (ascii "KEY2:") (key.toList.drop 8) (odBootKeyIsZero key) showKey 24)
  else
    let keyHex := odBootFormatKeyDisplay key showKey
    (keyHex.take 16, keyHex.drop 16)

def bootUrl (app : BootApp) (cfg : BootConfig) (d : BootDisplay) (key : Block) (showKey : Bool) : Option Bytes :=
  odBootUrlBuild d.legacyTagType (app.deviceId24 &&& 0xFFFFFF) key showKey cfg.manufacturerId odBootUrlSize

def odBootScreenRender (build : BootBuild) (app : BootApp) (cfg : Option BootConfig) (security : Option BootSecurity)
    (bufs : Option BootBufs) : Bool × List BootCall :=
  let keyState := odBootKeyState security
  let key := bootKey security
  let showKey : Bool := keyState = .shown
  match cfg, bufs with
  | some cfg, some bufs =>
    match cfg.displays with
    | [] => (false, [])
    | d :: _ =>
      let bitsPerPixel := app.bitsPerPixel d.colorScheme
      if d.colorScheme = odColorSchemeGray8 then (false, [])
      else if bitsPerPixel ≠ 1 ∧ bitsPerPixel ≠ 2 ∧ bitsPerPixel ≠ 4 then (false, [])
      else
        match bootUrl app cfg d key showKey with
        | none => (false, [])
        | some url =>
          let qrVersion := 6
          let qrBufSize := app.qrBufferSize qrVersion
          if qrBufSize = 0 ∨ qrBufSize > bufs.qrLen then (false, [])
          else
            let (ret, qr) := app.qrInitText qrVersion url
            let calls := [BootCall.qrInitText qrVersion url]
            if ret ≠ 0 then (false, calls)
            else
              let useZoneLayout := (bootZones d).useZoneLayout
              let lines := bootLines app useZoneLayout (app.deviceId24 &&& 0xFFFFFF)
                (bootKeyLines useZoneLayout key showKey)
              bootEmit app bufs (bootFrame build app cfg d lines qr) calls
  | _, _ => (false, [])

end Render

end OpenDisplay
