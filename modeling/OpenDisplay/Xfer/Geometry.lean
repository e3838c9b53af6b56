import Mathlib.Algebra.Order.Floor.Div
import OpenDisplay.Wire

/-! The sizes of a frame in 32-bit numbers, against the same sizes over the integers. -/

namespace OpenDisplay

/-- The geometry that the caller passes is cleared before anything else, and written at the end. -/
def odColorDirectGeometryOut (colorScheme : UInt8) (width height : UInt32) (geometry : Option Geometry) :
    ColorStatus × Option Geometry :=
  match geometry with
  | none => (.badGeometry, none)
  | some _ =>
    let geometry : Geometry := {}
    match odColorDirectGeometry colorScheme width height with
    | .error status => (status, some geometry)
    | .ok out => (.ok, some out)

section Sizes

/-- The bits of a pixel and the widths of the parts, for the schemes that are implemented. -/
def schemeParts (colorScheme : UInt8) (width : Nat) : Option (Nat × List Nat) :=
  match colorScheme.toNat with
  | 0 => some (1, [width])
  | 1 | 2 | 5 => some (1, [width, width])
  | 3 => some (2, [width])
  | 4 | 6 | 7 => some (4, [width])
  | 8 => some (4, [width / 2, width - width / 2])
  | _ => none

def rowSize (bits width : Nat) : Nat := (width * bits) ⌈/⌉ 8

def partSize (bits height width : Nat) : Nat := rowSize bits width * height

def totalSize (bits height : Nat) (parts : List Nat) : Nat := (parts.map (partSize bits height)).sum

/-- Every size of the frame is a 32-bit number. -/
structure FrameFits (bits height : Nat) (parts : List Nat) : Prop where
  row : ∀ part ∈ parts, rowSize bits part ≤ uint32Max
  part : ∀ part ∈ parts, partSize bits height part ≤ uint32Max
  total : totalSize bits height parts ≤ uint32Max

end Sizes

section Arithmetic

variable {width height : UInt32} {bitsPerPixel : UInt8}

theorem rowBits_exact (hbits : bitsPerPixel.toNat ≤ 4) :
    (width.toUInt64 * bitsPerPixel.toUInt64 + 7).toNat = width.toNat * bitsPerPixel.toNat + 7 := by
  have hmul : width.toNat * bitsPerPixel.toNat ≤ 2 ^ 32 * 4 :=
    Nat.mul_le_mul width.toNat_lt.le hbits
  rw [UInt64.toNat_add, UInt64.toNat_mul, UInt32.toNat_toUInt64, UInt8.toNat_toUInt64]
  show ((width.toNat * bitsPerPixel.toNat) % 2 ^ 64 + 7) % 2 ^ 64 = _
  omega

theorem row_exact (hbits : bitsPerPixel.toNat ≤ 4) :
    ((width.toUInt64 * bitsPerPixel.toUInt64 + 7) / 8).toNat = rowSize bitsPerPixel.toNat width.toNat := by
  rw [UInt64.toNat_div, rowBits_exact hbits]
  rfl

theorem rowSize_lt (hbits : bitsPerPixel.toNat ≤ 4) : rowSize bitsPerPixel.toNat width.toNat ≤ 2 ^ 31 := by
  have hmul : width.toNat * bitsPerPixel.toNat ≤ (2 ^ 32 - 1) * 4 :=
    Nat.mul_le_mul (Nat.le_pred_of_lt width.toNat_lt) hbits
  show (width.toNat * bitsPerPixel.toNat + 8 - 1) / 8 ≤ 2 ^ 31
  omega

theorem part_exact (hbits : bitsPerPixel.toNat ≤ 4) :
    ((width.toUInt64 * bitsPerPixel.toUInt64 + 7) / 8 * height.toUInt64).toNat =
      partSize bitsPerPixel.toNat height.toNat width.toNat := by
  have hmul : rowSize bitsPerPixel.toNat width.toNat * height.toNat ≤ 2 ^ 31 * 2 ^ 32 :=
    Nat.mul_le_mul (rowSize_lt hbits) height.toNat_lt.le
  rw [UInt64.toNat_mul, row_exact hbits, UInt32.toNat_toUInt64, partSize, Nat.mod_eq_of_lt]
  exact Nat.lt_of_le_of_lt hmul (by decide)

theorem total_exact (part0 part1 : UInt32) : (part0.toUInt64 + part1.toUInt64).toNat = part0.toNat + part1.toNat := by
  have h0 := part0.toNat_lt
  have h1 := part1.toNat_lt
  rw [UInt64.toNat_add, UInt32.toNat_toUInt64, UInt32.toNat_toUInt64]
  omega

theorem partGeometry_exact (hbits : bitsPerPixel.toNat ≤ 4) :
    partGeometry width height bitsPerPixel =
      if uint32Max < rowSize bitsPerPixel.toNat width.toNat ∨
          uint32Max < partSize bitsPerPixel.toNat height.toNat width.toNat then none
      else some (UInt32.ofNat (rowSize bitsPerPixel.toNat width.toNat),
        UInt32.ofNat (partSize bitsPerPixel.toNat height.toNat width.toNat)) := by
  simp only [partGeometry, row_exact hbits, part_exact hbits]
  congr 3
  · rw [← row_exact hbits]
    rfl
  · rw [← part_exact hbits]
    rfl

end Arithmetic

section Scheme

variable {colorScheme : UInt8} {width : UInt32} {s : Geometry}

/-- The widths of the parts that the scheme counts. -/
def Geometry.parts (g : Geometry) : List Nat :=
  if g.partCount = 2 then [g.partWidth.1.toNat, g.partWidth.2.toNat] else [g.partWidth.1.toNat]

/-- What a scheme fixes, and the sizes that it leaves at 0. -/
structure Schemed (colorScheme : UInt8) (width : UInt32) (s : Geometry) : Prop where
  parts : schemeParts colorScheme width.toNat = some (s.bitsPerPixel.toNat, s.parts)
  bits : s.bitsPerPixel.toNat ≤ 4
  count : s.partCount = 1 ∧ s.partWidth.2 = 0 ∨ s.partCount = 2
  split : s.layout = .splitHalves → s.parts.sum = width.toNat

theorem schemed_packed {bits : UInt8} {plane : ColorPlane} {partialSupported : Bool} (hbits : bits.toNat ≤ 4)
    (hparts : schemeParts colorScheme width.toNat = some (bits.toNat, [width.toNat])) :
    Schemed colorScheme width
      { layout := .packedRows, bitsPerPixel := bits, partCount := 1, initialPlane := plane
        partialSupported := partialSupported, partWidth := (width, 0) } :=
  ⟨hparts, hbits, .inl ⟨rfl, rfl⟩, fun h => ColorLayout.noConfusion h⟩

theorem schemed_planes (hparts : schemeParts colorScheme width.toNat = some (1, [width.toNat, width.toNat])) :
    Schemed colorScheme width
      { layout := .controllerPlanes, bitsPerPixel := 1, partCount := 2, initialPlane := .plane0
        partWidth := (width, width) } :=
  ⟨hparts, Nat.le_of_ble_eq_true rfl, .inr rfl, fun h => ColorLayout.noConfusion h⟩

theorem schemed_split
    (hparts : schemeParts colorScheme width.toNat = some (4, [width.toNat / 2, width.toNat - width.toNat / 2])) :
    Schemed colorScheme width
      { layout := .splitHalves, bitsPerPixel := 4, partCount := 2, initialPlane := .none
        partWidth := (width / 2, width - width / 2) } := by
  have hhalf : (width / 2).toNat = width.toNat / 2 := UInt32.toNat_div _ _
  have hrest : (width - width / 2).toNat = width.toNat - width.toNat / 2 := by
    rw [UInt32.toNat_sub_of_le _ _ (by rw [UInt32.le_iff_toNat_le, hhalf]; omega), hhalf]
  refine ⟨?_, Nat.le_of_ble_eq_true rfl, .inr rfl, fun _ => ?_⟩
  · show _ = some (4, [(width / 2).toNat, (width - width / 2).toNat])
    rw [hhalf, hrest, hparts]
  · show [(width / 2).toNat, (width - width / 2).toNat].sum = width.toNat
    rw [hhalf, hrest, List.sum_cons, List.sum_singleton]
    omega

theorem schemeGeometry_schemed (h : schemeGeometry colorScheme width = some s) : Schemed colorScheme width s := by
  unfold schemeGeometry at h
  split at h <;> cases h
  · next hcs => exact schemed_packed (by decide) (by simp only [schemeParts, hcs]; rfl)
  · next hcs => exact schemed_planes (by simp only [schemeParts, hcs])
  · next hcs => exact schemed_planes (by simp only [schemeParts, hcs])
  · next hcs => exact schemed_planes (by simp only [schemeParts, hcs])
  · next hcs => exact schemed_packed (by decide) (by simp only [schemeParts, hcs]; rfl)
  · next hcs => exact schemed_packed (by decide) (by simp only [schemeParts, hcs]; rfl)
  · next hcs => exact schemed_packed (by decide) (by simp only [schemeParts, hcs]; rfl)
  · next hcs => exact schemed_packed (by decide) (by simp only [schemeParts, hcs]; rfl)
  · next hcs => exact schemed_split (by simp only [schemeParts, hcs])

theorem schemeParts_none (h : schemeGeometry colorScheme width = none) :
    schemeParts colorScheme width.toNat = none := by
  unfold schemeGeometry at h
  split at h <;> cases h
  simp only [schemeParts]

end Scheme

section Geometry

variable {colorScheme : UInt8} {width height : UInt32} {s : Geometry}

theorem sizes_zero (bits height : Nat) : rowSize bits 0 = 0 ∧ partSize bits height 0 = 0 := by
  have hrow : rowSize bits 0 = 0 := by rw [rowSize, Nat.zero_mul, zero_ceilDiv]
  exact ⟨hrow, by rw [partSize, hrow, Nat.zero_mul]⟩

/-- A part that is not counted has the width 0 and takes no room. -/
theorem Schemed.sizes (h : Schemed colorScheme width s) (height : Nat) :
    (FrameFits s.bitsPerPixel.toNat height s.parts ↔
      (rowSize s.bitsPerPixel.toNat s.partWidth.1.toNat ≤ uint32Max ∧
          partSize s.bitsPerPixel.toNat height s.partWidth.1.toNat ≤ uint32Max) ∧
        (rowSize s.bitsPerPixel.toNat s.partWidth.2.toNat ≤ uint32Max ∧
          partSize s.bitsPerPixel.toNat height s.partWidth.2.toNat ≤ uint32Max) ∧
        partSize s.bitsPerPixel.toNat height s.partWidth.1.toNat +
          partSize s.bitsPerPixel.toNat height s.partWidth.2.toNat ≤ uint32Max) ∧
      totalSize s.bitsPerPixel.toNat height s.parts =
        partSize s.bitsPerPixel.toNat height s.partWidth.1.toNat +
          partSize s.bitsPerPixel.toNat height s.partWidth.2.toNat ∧
      s.parts.getD 0 0 = s.partWidth.1.toNat ∧ s.parts.getD 1 0 = s.partWidth.2.toNat ∧
      s.partCount.toNat = s.parts.length := by
  rcases h.count with ⟨hone, hzero⟩ | htwo
  · have hparts : s.parts = [s.partWidth.1.toNat] := by
      rw [Geometry.parts, hone, if_neg (by decide)]
    obtain ⟨hrow, hpart⟩ := sizes_zero s.bitsPerPixel.toNat height
    have htotal : totalSize s.bitsPerPixel.toNat height s.parts =
        partSize s.bitsPerPixel.toNat height s.partWidth.1.toNat := by
      rw [hparts, totalSize, List.map_singleton, List.sum_singleton]
    rw [hzero]
    show (_ ↔ _ ∧ (rowSize _ 0 ≤ _ ∧ partSize _ _ 0 ≤ _) ∧ _ + partSize _ _ 0 ≤ _) ∧ _ = _ + partSize _ _ 0 ∧ _ ∧ _ ∧ _
    rw [hrow, hpart, Nat.add_zero]
    refine ⟨⟨fun hf => ?_, fun hf => ?_⟩, htotal, by rw [hparts]; rfl, by rw [hparts]; rfl, by rw [hparts, hone]; rfl⟩
    · have hin : s.partWidth.1.toNat ∈ s.parts := by simp [hparts]
      exact ⟨⟨hf.row _ hin, hf.part _ hin⟩, ⟨Nat.zero_le _, Nat.zero_le _⟩, hf.part _ hin⟩
    · refine ⟨fun part hin => ?_, fun part hin => ?_, htotal.trans_le hf.1.2⟩
      · rw [hparts, List.mem_singleton] at hin
        exact hin ▸ hf.1.1
      · rw [hparts, List.mem_singleton] at hin
        exact hin ▸ hf.1.2
  · have hparts : s.parts = [s.partWidth.1.toNat, s.partWidth.2.toNat] := by
      rw [Geometry.parts, htwo, if_pos rfl]
    have htotal : totalSize s.bitsPerPixel.toNat height s.parts =
        partSize s.bitsPerPixel.toNat height s.partWidth.1.toNat +
          partSize s.bitsPerPixel.toNat height s.partWidth.2.toNat := by
      rw [hparts, totalSize, List.map_cons, List.map_singleton, List.sum_cons, List.sum_singleton]
    refine ⟨⟨fun hf => ?_, fun hf => ?_⟩, htotal, by rw [hparts]; rfl, by rw [hparts]; rfl, by rw [hparts, htwo]; rfl⟩
    · have hin : s.partWidth.1.toNat ∈ s.parts := by simp [hparts]
      have hin' : s.partWidth.2.toNat ∈ s.parts := by simp [hparts]
      exact ⟨⟨hf.row _ hin, hf.part _ hin⟩, ⟨hf.row _ hin', hf.part _ hin'⟩, htotal ▸ hf.total⟩
    · refine ⟨fun part hin => ?_, fun part hin => ?_, htotal.trans_le hf.2.2⟩
      · rw [hparts, List.mem_pair] at hin
        rcases hin with rfl | rfl
        · exact hf.1.1
        · exact hf.2.1.1
      · rw [hparts, List.mem_pair] at hin
        rcases hin with rfl | rfl
        · exact hf.1.2
        · exact hf.2.1.2

/-- The numbers of a geometry are those of its scheme and of the frame over the integers. -/
structure Measures (s g : Geometry) (height : Nat) : Prop where
  scheme : g = { s with rowBytes := g.rowBytes, partBytes := g.partBytes, totalBytes := g.totalBytes }
  count : g.partCount.toNat = s.parts.length
  width : g.partWidth.1.toNat = s.parts.getD 0 0 ∧ g.partWidth.2.toNat = s.parts.getD 1 0
  row : g.rowBytes.1.toNat = rowSize s.bitsPerPixel.toNat (s.parts.getD 0 0) ∧
    g.rowBytes.2.toNat = rowSize s.bitsPerPixel.toNat (s.parts.getD 1 0)
  part : g.partBytes.1.toNat = partSize s.bitsPerPixel.toNat height (s.parts.getD 0 0) ∧
    g.partBytes.2.toNat = partSize s.bitsPerPixel.toNat height (s.parts.getD 1 0)
  total : g.totalBytes.toNat = totalSize s.bitsPerPixel.toNat height s.parts

theorem partGeometry_none (hbits : s.bitsPerPixel.toNat ≤ 4)
    (h : ¬ (rowSize s.bitsPerPixel.toNat width.toNat ≤ uint32Max ∧
      partSize s.bitsPerPixel.toNat height.toNat width.toNat ≤ uint32Max)) :
    partGeometry width height s.bitsPerPixel = none := by
  rw [partGeometry_exact hbits, if_pos]
  omega

theorem partGeometry_some (hbits : s.bitsPerPixel.toNat ≤ 4)
    (h : rowSize s.bitsPerPixel.toNat width.toNat ≤ uint32Max ∧
      partSize s.bitsPerPixel.toNat height.toNat width.toNat ≤ uint32Max) :
    ∃ row part, partGeometry width height s.bitsPerPixel = some (row, part) ∧
      row.toNat = rowSize s.bitsPerPixel.toNat width.toNat ∧
      part.toNat = partSize s.bitsPerPixel.toNat height.toNat width.toNat := by
  have hmax : uint32Max < 2 ^ 32 := by decide
  refine ⟨_, _, by rw [partGeometry_exact hbits, if_neg (by omega)], ?_, ?_⟩
  · exact UInt32.toNat_ofNat_of_lt' (Nat.lt_of_le_of_lt h.1 hmax)
  · exact UInt32.toNat_ofNat_of_lt' (Nat.lt_of_le_of_lt h.2 hmax)

theorem Schemed.second (h : Schemed colorScheme width s) :
    (if s.partCount = 2 then partGeometry s.partWidth.2 height s.bitsPerPixel else some (0, 0)) =
      partGeometry s.partWidth.2 height s.bitsPerPixel := by
  rcases h.count with ⟨hone, hzero⟩ | htwo
  · obtain ⟨hrow, hpart⟩ := sizes_zero s.bitsPerPixel.toNat height.toNat
    rw [hone, if_neg (by decide), hzero, partGeometry_exact h.bits]
    show _ = if _ < rowSize _ 0 ∨ _ < partSize _ _ 0 then none
      else some (UInt32.ofNat (rowSize _ 0), UInt32.ofNat (partSize _ _ 0))
    rw [hrow, hpart, if_neg (by decide)]
    rfl
  · rw [if_pos htwo]

/-- With a scheme that is implemented, the outcome is decided by whether the sizes fit. -/
theorem odColorDirectGeometry_scheme (hscheme : schemeGeometry colorScheme width = some s) (hwidth : width ≠ 0)
    (hheight : height ≠ 0) :
    (FrameFits s.bitsPerPixel.toNat height.toNat s.parts →
      ∃ g, odColorDirectGeometry colorScheme width height = .ok g ∧ Measures s g height.toNat) ∧
    (¬ FrameFits s.bitsPerPixel.toNat height.toNat s.parts →
      odColorDirectGeometry colorScheme width height = .error .overflow) := by
  have hs := schemeGeometry_schemed hscheme
  obtain ⟨hfits, htotal, hfirst, hsecond, hcount⟩ := hs.sizes height.toNat
  rw [hfits, odColorDirectGeometry, if_neg (not_or.mpr ⟨hwidth, hheight⟩), hscheme]
  dsimp only
  rw [hs.second]
  by_cases h0 : rowSize s.bitsPerPixel.toNat s.partWidth.1.toNat ≤ uint32Max ∧
      partSize s.bitsPerPixel.toNat height.toNat s.partWidth.1.toNat ≤ uint32Max
  · obtain ⟨row0, part0, hpart0, hrow0, hsize0⟩ := partGeometry_some hs.bits h0
    rw [hpart0]
    dsimp only
    by_cases h1 : rowSize s.bitsPerPixel.toNat s.partWidth.2.toNat ≤ uint32Max ∧
        partSize s.bitsPerPixel.toNat height.toNat s.partWidth.2.toNat ≤ uint32Max
    · obtain ⟨row1, part1, hpart1, hrow1, hsize1⟩ := partGeometry_some hs.bits h1
      rw [hpart1]
      dsimp only
      by_cases hsum : uint32Max < part0.toNat + part1.toNat
      · rw [if_pos hsum]
        exact ⟨fun h => absurd h.2.2 (by omega), fun _ => rfl⟩
      · rw [if_neg hsum]
        refine ⟨fun _ => ⟨_, rfl, rfl, hcount, ⟨hfirst.symm, hsecond.symm⟩, ⟨?_, ?_⟩, ⟨?_, ?_⟩, ?_⟩,
          fun h => absurd ⟨h0, h1, ?_⟩ h⟩
        · rw [hfirst, ← hrow0]
        · rw [hsecond, ← hrow1]
        · rw [hfirst, ← hsize0]
        · rw [hsecond, ← hsize1]
        · have hmax : uint32Max < 2 ^ 32 := by decide
          show (part0 + part1).toNat = _
          rw [UInt32.toNat_add, htotal]
          omega
        · omega
    · rw [partGeometry_none hs.bits h1]
      exact ⟨fun h => absurd h.2.1 h1, fun _ => rfl⟩
  · rw [partGeometry_none hs.bits h0]
    exact ⟨fun h => absurd h.1 h0, fun _ => rfl⟩

/-- The frames for which there is a geometry. -/
def Describable (colorScheme : UInt8) (width height : UInt32) : Prop :=
  width ≠ 0 ∧ height ≠ 0 ∧ ∃ bits parts, schemeParts colorScheme width.toNat = some (bits, parts) ∧
    FrameFits bits height.toNat parts

theorem odColorDirectGeometryOut_cases (colorScheme : UInt8) (width height : UInt32) (geometry : Geometry) :
    (∃ s g, schemeGeometry colorScheme width = some s ∧ Describable colorScheme width height ∧
      odColorDirectGeometryOut colorScheme width height (some geometry) = (.ok, some g) ∧ Measures s g height.toNat) ∨
    ∃ status, status ≠ .ok ∧ ¬ Describable colorScheme width height ∧
      odColorDirectGeometryOut colorScheme width height (some geometry) = (status, some {}) := by
  have herror : ∀ status, odColorDirectGeometry colorScheme width height = .error status →
      odColorDirectGeometryOut colorScheme width height (some geometry) = (status, some {}) := by
    intro status h
    rw [odColorDirectGeometryOut, h]
  have hok : ∀ g, odColorDirectGeometry colorScheme width height = .ok g →
      odColorDirectGeometryOut colorScheme width height (some geometry) = (.ok, some g) := by
    intro g h
    rw [odColorDirectGeometryOut, h]
  by_cases hzero : width = 0 ∨ height = 0
  · refine .inr ⟨.badGeometry, ColorStatus.noConfusion, fun h => not_or.mpr ⟨h.1, h.2.1⟩ hzero, herror .badGeometry ?_⟩
    rw [odColorDirectGeometry, if_pos hzero]
  obtain ⟨hwidth, hheight⟩ := not_or.mp hzero
  cases hscheme : schemeGeometry colorScheme width with
  | none =>
    refine .inr ⟨.unsupported, ColorStatus.noConfusion, ?_, herror .unsupported ?_⟩
    · rintro ⟨-, -, bits, parts, hparts, -⟩
      cases (schemeParts_none hscheme).symm.trans hparts
    · rw [odColorDirectGeometry, if_neg hzero, hscheme]
  | some s =>
    have hs := schemeGeometry_schemed hscheme
    obtain ⟨hfit, hunfit⟩ := odColorDirectGeometry_scheme hscheme hwidth hheight
    by_cases hfits : FrameFits s.bitsPerPixel.toNat height.toNat s.parts
    · obtain ⟨g, hg, hmeasures⟩ := hfit hfits
      exact .inl ⟨s, g, rfl, ⟨hwidth, hheight, _, _, hs.parts, hfits⟩, hok g hg, hmeasures⟩
    · refine .inr ⟨.overflow, ColorStatus.noConfusion, ?_, herror .overflow (hunfit hfits)⟩
      rintro ⟨-, -, bits, parts, hparts, hfits'⟩
      obtain ⟨rfl, rfl⟩ := Prod.mk.inj (Option.some.inj (hs.parts.symm.trans hparts))
      exact hfits hfits'

/-- The geometry is returned exactly for the frames of an implemented scheme all of whose sizes,
over the integers, are 32-bit numbers; then it is made of these sizes, and otherwise it is all
zero. No sum and no product on the way leaves 64 bits. -/
theorem odColorDirectGeometry_exact (colorScheme : UInt8) (width height : UInt32) (geometry : Geometry) :
    ((odColorDirectGeometryOut colorScheme width height (some geometry)).1 = .ok ↔
      width ≠ 0 ∧ height ≠ 0 ∧ ∃ bits parts, schemeParts colorScheme width.toNat = some (bits, parts) ∧
        FrameFits bits height.toNat parts) ∧
    ((odColorDirectGeometryOut colorScheme width height (some geometry)).1 = .ok →
      ∃ s g, schemeGeometry colorScheme width = some s ∧
        schemeParts colorScheme width.toNat = some (s.bitsPerPixel.toNat, s.parts) ∧
        (odColorDirectGeometryOut colorScheme width height (some geometry)).2 = some g ∧ Measures s g height.toNat ∧
        (g.layout = .splitHalves → s.parts.sum = width.toNat)) ∧
    ((odColorDirectGeometryOut colorScheme width height (some geometry)).1 ≠ .ok →
      (odColorDirectGeometryOut colorScheme width height (some geometry)).2 = some {}) ∧
    (∀ s, schemeGeometry colorScheme width = some s → ∀ part ∈ [s.partWidth.1, s.partWidth.2],
      (part.toUInt64 * s.bitsPerPixel.toUInt64 + 7).toNat = part.toNat * s.bitsPerPixel.toNat + 7 ∧
        ((part.toUInt64 * s.bitsPerPixel.toUInt64 + 7) / 8 * height.toUInt64).toNat =
          partSize s.bitsPerPixel.toNat height.toNat part.toNat) ∧
    ∀ part0 part1 : UInt32, (part0.toUInt64 + part1.toUInt64).toNat = part0.toNat + part1.toNat := by
  have hexact : ∀ s, schemeGeometry colorScheme width = some s → ∀ part ∈ [s.partWidth.1, s.partWidth.2],
      (part.toUInt64 * s.bitsPerPixel.toUInt64 + 7).toNat = part.toNat * s.bitsPerPixel.toNat + 7 ∧
        ((part.toUInt64 * s.bitsPerPixel.toUInt64 + 7) / 8 * height.toUInt64).toNat =
          partSize s.bitsPerPixel.toNat height.toNat part.toNat := by
    intro s hscheme part _
    have hbits := (schemeGeometry_schemed hscheme).bits
    exact ⟨rowBits_exact hbits, part_exact hbits⟩
  rcases odColorDirectGeometryOut_cases colorScheme width height geometry with
    ⟨s, g, hscheme, hdescribable, hout, hmeasures⟩ | ⟨status, hstatus, hnot, hout⟩
  · have hs := schemeGeometry_schemed hscheme
    rw [hout]
    refine ⟨⟨fun _ => hdescribable, fun _ => rfl⟩, fun _ => ⟨s, g, hscheme, hs.parts, rfl, hmeasures, fun hsplit => ?_⟩,
      fun h => absurd rfl h, hexact, total_exact⟩
    rw [hmeasures.scheme] at hsplit
    exact hs.split hsplit
  · rw [hout]
    exact ⟨⟨fun h => absurd h hstatus, fun h => absurd h hnot⟩, fun h => absurd h hstatus, fun _ => rfl, hexact,
      total_exact⟩

end Geometry

end OpenDisplay
