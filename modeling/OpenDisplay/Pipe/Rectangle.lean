import OpenDisplay.Pipe.Window
import OpenDisplay.Xfer.Replies

/-! The two admissions of a partial update. A direct START and a PIPE START check
the panel, the ETag and the rectangle in their own order; both are compared with
one statement of what a rectangle must satisfy. -/

namespace OpenDisplay

section Fits

variable {panel : PanelInfo} {x y width height : UInt16}

/-- What a panel that shows `etag` asks of a rectangle drawn over `oldEtag`. -/
structure PartialFits (panel : PanelInfo) (etag oldEtag : UInt32) (x y width height : UInt16) :
    Prop where
  enabled : panel.partialEnabled = true
  supported : panel.geometry.partialSupported = true
  current : oldEtag ≠ 0 ∧ oldEtag = etag
  area : 0 < width.toNat ∧ 0 < height.toNat
  inside : x.toNat + width.toNat ≤ panel.width.toNat ∧ y.toNat + height.toNat ≤ panel.height.toNat
  aligned : x.toNat % 8 = 0 ∧ width.toNat % 8 = 0

theorem rectOutOfBounds_eq_false : rectOutOfBounds x y width height panel = false ↔
    (0 < width.toNat ∧ 0 < height.toNat) ∧
      x.toNat + width.toNat ≤ panel.width.toNat ∧ y.toNat + height.toNat ≤ panel.height.toNat := by
  have hw : width = 0 ↔ width.toNat = 0 := by rw [← UInt16.toNat_inj]; rfl
  have hh : height = 0 ↔ height.toNat = 0 := by rw [← UInt16.toNat_inj]; rfl
  simp only [rectOutOfBounds, hw, hh, decide_eq_false_iff_not]
  omega

theorem and_seven_eq_zero (n : UInt16) : n &&& 7 = 0 ↔ n.toNat % 8 = 0 := by
  have hand : (n &&& 7).toNat = n.toNat % 8 := by
    rw [UInt16.toNat_and]
    exact Nat.and_two_pow_sub_one_eq_mod n.toNat 3
  rw [← UInt16.toNat_inj, hand]
  rfl

theorem rectMisaligned_eq_false :
    rectMisaligned x width = false ↔ x.toNat % 8 = 0 ∧ width.toNat % 8 = 0 := by
  simp [rectMisaligned, and_seven_eq_zero]

theorem partialFits_iff {etag oldEtag : UInt32} :
    PartialFits panel etag oldEtag x y width height ↔
      ¬ (oldEtag = 0 ∨ oldEtag ≠ etag) ∧
      ¬ (panel.partialEnabled = false ∨ panel.geometry.partialSupported = false) ∧
      rectOutOfBounds x y width height panel = false ∧ rectMisaligned x width = false := by
  rw [rectOutOfBounds_eq_false, rectMisaligned_eq_false]
  simp only [not_or, ne_eq, not_not, Bool.not_eq_false]
  constructor
  · rintro ⟨he, hs, hc, ha, hi, hl⟩
    exact ⟨hc, ⟨he, hs⟩, ⟨ha, hi⟩, hl⟩
  · rintro ⟨hc, ⟨he, hs⟩, ⟨ha, hi⟩, hl⟩
    exact ⟨he, hs, hc, ha, hi, hl⟩

/-- A plane has at most 2¹³ · 2¹⁶ bytes, so neither it nor the pair overflows. -/
theorem plane_bound (width height : UInt16) : (width.toNat + 7) / 8 * height.toNat ≤ 2 ^ 29 := by
  have hw := width.toNat_lt
  have hh := height.toNat_lt
  calc (width.toNat + 7) / 8 * height.toNat ≤ 2 ^ 13 * 2 ^ 16 := by
        apply Nat.mul_le_mul <;> omega
    _ = 2 ^ 29 := rfl

theorem partGeometry_mono (width height : UInt16) :
    ∃ row part, partGeometry width.toUInt32 height.toUInt32 1 = some (row, part) ∧
      part.toNat = (width.toNat + 7) / 8 * height.toNat := by
  have hw := width.toNat_lt
  have hh := height.toNat_lt
  have hb := plane_bound width height
  have hrow : ((width.toUInt32.toUInt64 * (1 : UInt8).toUInt64 + 7) / 8).toNat =
      (width.toNat + 7) / 8 := by
    simp only [UInt64.toNat_div, UInt64.toNat_add, UInt64.toNat_mul, UInt32.toNat_toUInt64,
      UInt16.toNat_toUInt32, UInt8.toNat_toUInt64, show (1 : UInt8).toNat = 1 from rfl,
      show (7 : UInt64).toNat = 7 from rfl, show (8 : UInt64).toNat = 8 from rfl]
    omega
  have hpart : ((width.toUInt32.toUInt64 * (1 : UInt8).toUInt64 + 7) / 8 *
      height.toUInt32.toUInt64).toNat = (width.toNat + 7) / 8 * height.toNat := by
    rw [UInt64.toNat_mul, hrow, UInt32.toNat_toUInt64, UInt16.toNat_toUInt32, Nat.mod_eq_of_lt]
    omega
  refine ⟨_, _, if_neg ?_, ?_⟩
  · rw [hrow, hpart, uint32Max]
    omega
  · rw [UInt64.toNat_toUInt32, hpart]
    omega

theorem rectPlaneBytes_of_area (hw : 0 < width.toNat) (hh : 0 < height.toNat) :
    ∃ plane, rectPlaneBytes width height = some plane ∧
      plane.toNat = (width.toNat + 7) / 8 * height.toNat := by
  obtain ⟨row, part, hg, hp⟩ := partGeometry_mono width height
  have hb := plane_bound width height
  have hw0 : width.toUInt32 ≠ 0 := by
    intro h
    have := congrArg UInt32.toNat h
    simp at this
    omega
  have hh0 : height.toUInt32 ≠ 0 := by
    intro h
    have := congrArg UInt32.toNat h
    simp at this
    omega
  have hpos : 0 < (width.toNat + 7) / 8 * height.toNat := Nat.mul_pos (by omega) hh
  have hp0 : part ≠ 0 := by
    intro h
    rw [h] at hp
    simp only [UInt32.toNat_zero] at hp
    omega
  refine ⟨part, ?_, hp⟩
  have hsum : ¬ uint32Max < part.toNat + (0 : UInt32).toNat := by
    simp only [uint32Max, UInt32.toNat_zero]
    omega
  have hhalf : ¬ (part = 0 ∨ uint32Max / 2 < part.toNat) := by
    simp only [hp0, false_or, uint32Max]
    omega
  simp only [rectPlaneBytes, odColorDirectGeometry, hw0, hh0, or_self, if_false, colorSchemeMono,
    schemeGeometry, UInt8.toNat_zero, hg, show ¬ (1 : UInt8) = 2 by decide, hsum, hhalf]

theorem PartialFits.plane {etag oldEtag : UInt32}
    (h : PartialFits panel etag oldEtag x y width height) :
    ∃ plane, rectPlaneBytes width height = some plane ∧
      plane.toNat = width.toNat / 8 * height.toNat ∧
      (plane * 2).toNat = 2 * (width.toNat / 8 * height.toNat) ∧ plane * 2 ≠ 0 := by
  obtain ⟨plane, hplane, hbytes⟩ := rectPlaneBytes_of_area h.area.1 h.area.2
  have hround : (width.toNat + 7) / 8 = width.toNat / 8 := by
    have := h.aligned.2
    omega
  have hb := plane_bound width height
  rw [hround] at hbytes hb
  have hpos : 0 < width.toNat / 8 * height.toNat := by
    apply Nat.mul_pos _ h.area.2
    have := h.area.1
    have := h.aligned.2
    omega
  have htwice : (plane * 2).toNat = 2 * (width.toNat / 8 * height.toNat) := by
    rw [UInt32.toNat_mul, hbytes, show (2 : UInt32).toNat = 2 from rfl]
    omega
  refine ⟨plane, hplane, hbytes, htwice, ?_⟩
  intro hzero
  rw [hzero, UInt32.toNat_zero] at htwice
  omega

end Fits

section Direct

variable {app : App} {ctx : Ctx} {d d' : Dev} {body : Bytes} {panel : PanelInfo}
  {oldEtag plane : UInt32} {x y width height : UInt16}

/-- A direct START with allowed flags and a new ETag. -/
structure PartialBody (body : Bytes) (oldEtag : UInt32) (x y width height : UInt16) : Prop where
  whole : 17 ≤ body.length
  bounded : body.length ≤ uint32Max
  flags : byteAt body 0 &&& ~~~1 = 0
  newEtag : readBe32 (body.drop 5) ≠ 0
  oldEtag : readBe32 (body.drop 1) = oldEtag
  x : readBe16 (body.drop 9) = x
  y : readBe16 (body.drop 11) = y
  width : readBe16 (body.drop 13) = width
  height : readBe16 (body.drop 15) = height

/-- The state in which a direct START looks at the panel. -/
def partialAsk (d : Dev) : Dev := Dev.log .prepareStart (odXferReplaceActive d)

def partialRegion (body : Bytes) (plane : UInt32) (x y width height : UInt16) : PartialState :=
  { newEtag := readBe32 (body.drop 5), planeBytes := plane, x := x, y := y, width := width
    height := height }

/-- The panel has been asked to begin a partial update. -/
def BeginsPartial (d d' : Dev) : Prop :=
  ∃ es ok, d'.events = d.events ++ es ∧ .beginPartial ok ∈ es

theorem partialAsk_etag (d : Dev) : (partialAsk d).displayedEtag = d.displayedEtag := by
  unfold partialAsk odXferReplaceActive
  dsimp only
  split_ifs <;> rfl

theorem partialAsk_adds (d : Dev) : Adds (fun e => ∀ ok, e ≠ .beginPartial ok) d (partialAsk d) := by
  unfold partialAsk odXferReplaceActive
  dsimp only
  split_ifs
  · exact ⟨[.abort .replaced, .prepareStart], by
      simp [Dev.log, odXferClearState, odPipeResetState, odXferAppAbort], by simp⟩
  · exact ⟨[.prepareStart], rfl, by simp⟩
  · exact ⟨[.prepareStart], rfl, by simp⟩

/-- The checks of a direct START with a good body: ETag, panel, rectangle. -/
theorem odXferPartialStart_eq (hb : PartialBody body oldEtag x y width height) :
    odXferPartialStart app ctx body d =
      if oldEtag = 0 ∨ oldEtag ≠ d.displayedEtag then
        partialFail ctx respPartialWriteStart errPartialEtagMismatch (partialAsk d)
      else
        match app.panelInfo (partialAsk d).events with
        | none => partialFail ctx respPartialWriteStart errPartialUnsupported (partialAsk d)
        | some panel =>
          if panel.partialEnabled = false ∨ panel.geometry.partialSupported = false then
            partialFail ctx respPartialWriteStart errPartialUnsupported (partialAsk d)
          else if rectOutOfBounds x y width height panel then
            partialFail ctx respPartialWriteStart errPartialRectOob (partialAsk d)
          else if rectMisaligned x width then
            partialFail ctx respPartialWriteStart errPartialRectAlign (partialAsk d)
          else
            match rectPlaneBytes width height with
            | none => partialFail ctx respPartialWriteStart errPartialStream (partialAsk d)
            | some plane =>
              partialBegin app ctx panel.geometry (decide (byteAt body 0 &&& 1 ≠ 0))
                (partialRegion body plane x y width height) body (partialAsk d) := by
  have hask : Dev.log .prepareStart (odXferReplaceActive d) = partialAsk d := rfl
  unfold odXferPartialStart
  simp only [hask, if_neg hb.bounded.not_gt, if_neg hb.whole.not_gt, hb.flags, ne_eq,
    not_true_eq_false, if_false, hb.newEtag, or_false, hb.oldEtag, hb.x, hb.y, hb.width, hb.height,
    partialAsk_etag]
  rfl

theorem odXferPartialStart_of_fits (hb : PartialBody body oldEtag x y width height)
    (hp : app.panelInfo (partialAsk d).events = some panel)
    (hf : PartialFits panel d.displayedEtag oldEtag x y width height)
    (hplane : rectPlaneBytes width height = some plane) :
    odXferPartialStart app ctx body d =
      partialBegin app ctx panel.geometry (decide (byteAt body 0 &&& 1 ≠ 0))
        (partialRegion body plane x y width height) body (partialAsk d) := by
  obtain ⟨hetag, henabled, hbounds, halign⟩ := partialFits_iff.mp hf
  rw [odXferPartialStart_eq hb, if_neg hetag]
  simp only [hp, if_neg henabled, hbounds, halign, hplane, Bool.false_eq_true, if_false]

theorem odXferPartialStart_refuses (ctx : Ctx) (hb : PartialBody body oldEtag x y width height)
    (hno : ∀ panel, app.panelInfo (partialAsk d).events = some panel →
      ¬ PartialFits panel d.displayedEtag oldEtag x y width height) :
    ∃ error, odXferPartialStart app ctx body d =
      partialFail ctx respPartialWriteStart error (partialAsk d) := by
  rw [odXferPartialStart_eq hb]
  by_cases hetag : oldEtag = 0 ∨ oldEtag ≠ d.displayedEtag
  · exact ⟨_, if_pos hetag⟩
  · rw [if_neg hetag]
    split
    · exact ⟨_, rfl⟩
    · next panel hp =>
      split_ifs with henabled hbounds halign
      · exact ⟨_, rfl⟩
      · exact ⟨_, rfl⟩
      · exact ⟨_, rfl⟩
      · refine absurd ?_ (hno panel hp)
        exact partialFits_iff.mpr ⟨hetag, henabled, Bool.eq_false_iff.mpr hbounds,
          Bool.eq_false_iff.mpr halign⟩

theorem partialBegun_begins (app : App) (ctx : Ctx) (geometry : Geometry) (compressed : Bool)
    (region : PartialState) (d : Dev) :
    BeginsPartial d (partialBegun app ctx geometry compressed region d) := by
  refine ⟨[.admitted .directPartial compressed (region.planeBytes * 2), .beginPartial
    (app.beginPartial (partialAdmit app ctx geometry compressed region d).events region)], _, ?_,
    List.mem_cons_of_mem _ (List.mem_singleton_self _)⟩
  simp [partialBegun, partialAdmit, Dev.log, odXferClearState, odPipeResetState]

theorem partialBegin_begins (app : App) (ctx : Ctx) (geometry : Geometry) (compressed : Bool)
    (region : PartialState) (body : Bytes) (d : Dev) :
    BeginsPartial d (partialBegin app ctx geometry compressed region body d).2 := by
  obtain ⟨es, ok, hes, hmem⟩ := partialBegun_begins app ctx geometry compressed region d
  obtain ⟨es', hes', -⟩ := Spends.partialBegun (n := 0) (d := d) app ctx geometry compressed region
    (.refl _) body
  exact ⟨es ++ es', ok, by rw [hes', hes, List.append_assoc], List.mem_append_left _ hmem⟩

theorem partialFail_not_begins {error : UInt8} (h : Adds (fun e => ∀ ok, e ≠ .beginPartial ok) d d') :
    ¬ BeginsPartial d (partialFail ctx respPartialWriteStart error d').2 := by
  have hetag : Adds (fun e => ∀ ok, e ≠ .beginPartial ok) d' (odXferAppSetDisplayedEtag 0 d') :=
    .setEtag d' 0 (by simp)
  obtain ⟨es, hes, hall⟩ := (h.trans hetag).trans (Adds.log _ (e := .replyPlain ctx.rp
    [respNack, respPartialWriteStart, error, 0]) (by simp))
  rintro ⟨es', ok, hes', hmem⟩
  have : es = es' := List.append_cancel_left (hes.symm.trans hes')
  exact hall _ (this ▸ hmem) ok rfl

theorem begins_iff_fits (hb : PartialBody body oldEtag x y width height) :
    BeginsPartial d (odXferPartialStart app ctx body d).2 ↔
      ∃ panel, app.panelInfo (partialAsk d).events = some panel ∧
        PartialFits panel d.displayedEtag oldEtag x y width height := by
  constructor
  · intro hbegins
    by_contra hno
    simp only [not_exists, not_and] at hno
    obtain ⟨error, herror⟩ := odXferPartialStart_refuses ctx hb hno
    rw [herror] at hbegins
    exact partialFail_not_begins (partialAsk_adds d) hbegins
  · rintro ⟨panel, hp, hf⟩
    obtain ⟨plane, hplane, -⟩ := hf.plane
    rw [odXferPartialStart_of_fits hb hp hf hplane]
    obtain ⟨es, ok, hes, hmem⟩ := partialBegin_begins app ctx panel.geometry
      (decide (byteAt body 0 &&& 1 ≠ 0)) (partialRegion body plane x y width height) body (partialAsk d)
    obtain ⟨es₀, hes₀, -⟩ := partialAsk_adds d
    exact ⟨es₀ ++ es, ok, by rw [hes, hes₀, List.append_assoc], List.mem_append_right _ hmem⟩

end Direct

section Piped

variable {app : App} {ctx : Ctx} {d : Dev} {panel : PanelInfo} {total oldEtag plane : UInt32}
  {compressed : Bool} {x y width height : UInt16}

theorem odXferPipeArmPartial_of_fits (ctx : Ctx) (compressed : Bool) (hidle : d.xfer.mode = .idle)
    (hp : app.panelInfo (d.log .prepareStart).events = some panel)
    (hf : PartialFits panel d.displayedEtag oldEtag x y width height)
    (hplane : rectPlaneBytes width height = some plane) (htotal : total = plane * 2)
    (hpos : total ≠ 0) :
    odXferPipeArmPartial app ctx total compressed oldEtag x y width height d =
      (.ok, errPipeStartBadHeader, pipeAdmit app ctx .pipePartial total compressed panel.geometry
        { d.xfer.region with
          planeBytes := plane, x := x, y := y, width := width, height := height }
        (d.log .prepareStart)) := by
  have hlog : (d.log .prepareStart).displayedEtag = d.displayedEtag := rfl
  obtain ⟨hetag, henabled, hbounds, halign⟩ := partialFits_iff.mp hf
  unfold odXferPipeArmPartial
  simp only [hidle, ne_eq, not_true_eq_false, if_false, hpos, hp, hlog, if_neg henabled,
    if_neg hetag, hbounds, halign, Bool.false_eq_true, hplane, ← htotal]
  rfl

/-- An idle transfer that PIPE admits had a panel that the rectangle fits; one that it
refuses, other than for a total of nothing, costs the panel its ETag. -/
theorem odXferPipeArmPartial_cases (hidle : d.xfer.mode = .idle) :
    let armed := odXferPipeArmPartial app ctx total compressed oldEtag x y width height d
    (armed.1 = .ok ∧ ∃ panel, app.panelInfo (d.log .prepareStart).events = some panel ∧
        PartialFits panel d.displayedEtag oldEtag x y width height) ∨
      armed.1 = .zeroSize ∨ armed.1 ≠ .ok ∧ armed.2.2.displayedEtag = 0 := by
  have hrefuse : ∀ error cause (u : Dev), cause ≠ StartCause.ok →
      (armRefuse error cause u).1 ≠ .ok ∧ (armRefuse error cause u).2.2.displayedEtag = 0 :=
    fun _ _ _ hc => ⟨hc, rfl⟩
  unfold odXferPipeArmPartial
  rw [if_neg (not_not.mpr hidle)]
  by_cases hzero : total = 0
  · simp [hzero]
  · simp only [hzero, if_false]
    split
    · exact .inr (.inr (hrefuse _ _ _ (by simp)))
    · next panel hp =>
      split_ifs with henabled hetag hbounds halign
      · exact .inr (.inr (hrefuse _ _ _ (by simp)))
      · exact .inr (.inr (hrefuse _ _ _ (by simp)))
      · exact .inr (.inr (hrefuse _ _ _ (by simp)))
      · exact .inr (.inr (hrefuse _ _ _ (by simp)))
      · split
        · exact .inr (.inr (hrefuse _ _ _ (by simp)))
        · split_ifs
          · exact .inr (.inr (hrefuse _ _ _ (by simp)))
          · refine .inl ⟨rfl, panel, hp, ?_⟩
            exact partialFits_iff.mpr ⟨hetag, henabled, Bool.eq_false_iff.mpr hbounds,
              Bool.eq_false_iff.mpr halign⟩

theorem arms_iff_fits (hidle : d.xfer.mode = .idle)
    (htotal : width.toNat % 8 = 0 → total.toNat = 2 * (width.toNat / 8 * height.toNat)) :
    (odXferPipeArmPartial app ctx total compressed oldEtag x y width height d).1 = .ok ↔
      ∃ panel, app.panelInfo (d.log .prepareStart).events = some panel ∧
        PartialFits panel d.displayedEtag oldEtag x y width height := by
  constructor
  · intro hok
    rcases odXferPipeArmPartial_cases hidle with ⟨-, hfits⟩ | hzero | ⟨hno, -⟩
    · exact hfits
    · rw [hok] at hzero
      cases hzero
    · exact absurd hok hno
  · rintro ⟨panel, hp, hf⟩
    obtain ⟨plane, hplane, -, htwice, hpos⟩ := hf.plane
    have heq : total = plane * 2 := UInt32.toNat_inj.mp ((htotal hf.aligned.2).trans htwice.symm)
    rw [odXferPipeArmPartial_of_fits ctx compressed hidle hp hf hplane heq (heq ▸ hpos)]

end Piped

/-- The two admissions of a partial update agree. Asked about the same rectangle, with
the same panel and the same ETag, a direct START begins exactly when PIPE arms; both
then work with the same plane and the same total, neither of which overflows, inside
the panel. A direct START that does not begin clears the ETag, and so does PIPE unless
the total it was given is zero. A width that is no multiple of eight is refused
whatever total comes with it. -/
theorem partial_admissions_agree {app app' : App} {ctx ctx' : Ctx} {d d' : Dev} {body : Bytes}
    {oldEtag total : UInt32} {x y width height : UInt16} {compressed : Bool}
    (hb : PartialBody body oldEtag x y width height) (hidle : d'.xfer.mode = .idle)
    (hpanel : app'.panelInfo (d'.log .prepareStart).events = app.panelInfo (partialAsk d).events)
    (hetag : d'.displayedEtag = d.displayedEtag)
    (htotal : width.toNat % 8 = 0 → total.toNat = 2 * (width.toNat / 8 * height.toNat)) :
    let direct := odXferPartialStart app ctx body d
    let armed := odXferPipeArmPartial app' ctx' total compressed oldEtag x y width height d'
    (BeginsPartial d direct.2 ↔ armed.1 = .ok) ∧
    (armed.1 = .ok → ∃ panel plane,
      app.panelInfo (partialAsk d).events = some panel ∧
      direct = partialBegin app ctx panel.geometry (decide (byteAt body 0 &&& 1 ≠ 0))
        (partialRegion body plane x y width height) body (partialAsk d) ∧
      (partialAdmit app ctx panel.geometry (decide (byteAt body 0 &&& 1 ≠ 0))
        (partialRegion body plane x y width height) (partialAsk d)).xfer.expectedBytes =
          armed.2.2.xfer.expectedBytes ∧
      armed.2.2.xfer.region.planeBytes = plane ∧
      plane.toNat = width.toNat / 8 * height.toNat ∧
      armed.2.2.xfer.expectedBytes.toNat = 2 * (width.toNat / 8 * height.toNat) ∧
      x.toNat + width.toNat ≤ panel.width.toNat ∧ y.toNat + height.toNat ≤ panel.height.toNat) ∧
    (¬ BeginsPartial d direct.2 → direct.2.displayedEtag = 0) ∧
    (armed.1 ≠ .ok → armed.1 ≠ .zeroSize → armed.2.2.displayedEtag = 0) := by
  intro direct armed
  have hbegins : BeginsPartial d direct.2 ↔ _ := begins_iff_fits hb
  have harms : armed.1 = .ok ↔ _ := arms_iff_fits hidle htotal
  rw [hpanel, hetag] at harms
  refine ⟨hbegins.trans harms.symm, ?_, ?_, ?_⟩
  · intro hok
    obtain ⟨panel, hp, hf⟩ := harms.mp hok
    obtain ⟨plane, hplane, hbytes, htwice, hpos⟩ := hf.plane
    have heq : total = plane * 2 := UInt32.toNat_inj.mp ((htotal hf.aligned.2).trans htwice.symm)
    have harmed := odXferPipeArmPartial_of_fits ctx' compressed hidle (hpanel.trans hp) (hetag ▸ hf)
      hplane heq (heq ▸ hpos)
    have hxfer : armed.2.2.xfer.expectedBytes = total ∧ armed.2.2.xfer.region.planeBytes = plane := by
      simp only [armed, harmed, pipeAdmit]
      split_ifs <;> exact ⟨rfl, rfl⟩
    refine ⟨panel, plane, hp, odXferPartialStart_of_fits hb hp hf hplane, ?_, hxfer.2, hbytes, ?_,
      hf.inside⟩
    · rw [hxfer.1, heq]
      rfl
    · rw [hxfer.1, heq, htwice]
  · intro hno
    obtain ⟨error, herror⟩ := odXferPartialStart_refuses ctx hb
      (not_and.mp <| not_exists.mp (mt hbegins.mpr hno) ·)
    simp only [direct, herror]
    rfl
  · intro hno hzero
    rcases odXferPipeArmPartial_cases hidle with ⟨hok, -⟩ | hz | ⟨-, hclear⟩
    · exact absurd hok hno
    · exact absurd hz hzero
    · exact hclear

/-- A rectangle of 8 by 2 pixels at the origin of `panel64`, over the ETag 5. -/
def partialBody8 : Bytes := [0, 0, 0, 0, 5, 0, 0, 0, 6, 0, 0, 0, 0, 0, 8, 0, 2]

theorem partial_admissions_agree_8x2 :
    BeginsPartial (Dev.boot 5) (odXferPartialStart .willing .ble partialBody8 (Dev.boot 5)).2 ∧
      (odXferPipeArmPartial .willing .ble 4 false 5 0 0 8 2 (Dev.boot 5)).1 = .ok := by
  have hb : PartialBody partialBody8 5 0 0 8 2 := by
    constructor <;> decide
  have harmed : (odXferPipeArmPartial .willing .ble 4 false 5 0 0 8 2 (Dev.boot 5)).1 = .ok := by
    decide
  exact ⟨(partial_admissions_agree hb rfl rfl rfl (by decide)).1.mpr harmed, harmed⟩

end OpenDisplay
