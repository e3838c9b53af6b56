import OpenDisplay.Config.Medium

/-! The port over Zephyr settings. The settings have no read at an offset, so that the port keeps
a copy of the record, which it fills on demand and gives up when a write fails. -/

namespace OpenDisplay

open Durable

section Model

/-- The settings subsystem under one key, in states of type `μ`. A load goes to a buffer of a
given size and reports the length of the record, which may be larger. -/
structure ZephyrSettings (μ : Type) where
  settingsSubsysInit : μ → Int × μ
  settingsLoadOne : μ → (buf : Bytes) → (bufSize : Nat) → Int × Bytes × μ
  settingsSaveOne : μ → Bytes → Int × μ
  settingsDelete : μ → Int × μ
  reset : μ → μ

structure NordicNvs (μ : Type) where
  cache : NvsCache
  ready : Bool := false
  medium : μ

variable {μ : Type} (z : ZephyrSettings μ) (b : OdConfigStoreBuild)

namespace NordicNvs

def odHalNvsInit (s : NordicNvs μ) : Int × NordicNvs μ :=
  if s.ready then (odHalNvsOk, s)
  else
    let (rc, medium) := z.settingsSubsysInit s.medium
    if rc ≠ 0 then (odHalNvsEio, { s with medium })
    else (odHalNvsOk, { s with medium, ready := true })

def cacheFill (s : NordicNvs μ) : Int × NordicNvs μ :=
  if s.cache.valid then (odHalNvsOk, s)
  else
    let (rc, s) := s.odHalNvsInit z
    if rc ≠ odHalNvsOk then (odHalNvsEio, s)
    else
      let (got, bytes, medium) := z.settingsLoadOne s.medium s.cache.bytes b.maxRecord.toNat
      let s := { s with cache := { s.cache with bytes }, medium }
      if got < 0 then (odHalNvsEio, s)
      else if got = 0 then (odHalNvsEnoent, s)
      else if got.toNat > b.maxRecord.toNat then (odHalNvsE2big, s)
      else (odHalNvsOk, { s with cache := { s.cache with len := UInt32.ofNat got.toNat, valid := true } })

def odHalNvsSize (s : NordicNvs μ) : Int × UInt32 × NordicNvs μ :=
  let (rc, s) := s.cacheFill z b
  if rc ≠ odHalNvsOk then (rc, 0, s) else (odHalNvsOk, s.cache.len, s)

def odHalNvsRead (s : NordicNvs μ) (offset len : UInt32) : Int × Bytes × NordicNvs μ :=
  let (rc, s) := s.cacheFill z b
  if rc ≠ odHalNvsOk then (rc, [], s)
  else ((s.cache.span offset len).1, (s.cache.span offset len).2, s)

def odHalNvsWrite (s : NordicNvs μ) (record : Bytes) : Int × NordicNvs μ :=
  if record.length = 0 then (odHalNvsEio, s)
  else if record.length > b.maxRecord.toNat then (odHalNvsE2big, s)
  else
    let (rc, s) := s.odHalNvsInit z
    if rc ≠ odHalNvsOk then (odHalNvsEio, s)
    else
      let (rc, medium) := z.settingsSaveOne s.medium record
      if rc ≠ 0 then (odHalNvsEio, { s with cache := s.cache.invalidate, medium })
      else (odHalNvsOk, { s with cache := s.cache.put record, medium })

def odHalNvsErase (s : NordicNvs μ) : Int × NordicNvs μ :=
  let (rc, s) := s.odHalNvsInit z
  if rc ≠ odHalNvsOk then (odHalNvsEio, s)
  else
    let (rc, medium) := z.settingsDelete s.medium
    if rc ≠ 0 then (odHalNvsEio, { s with cache := s.cache.invalidate, medium })
    else (odHalNvsOk, { s with cache := s.cache.drop, medium })

/-- The statics are zero when the part comes up. -/
def boot (medium : μ) : NordicNvs μ :=
  { cache := { bytes := List.replicate b.maxRecord.toNat 0 }, medium }

def port : NvsPort (NordicNvs μ) Empty where
  odHalNvsInit := odHalNvsInit z
  odHalNvsSize := odHalNvsSize z b
  odHalNvsRead := odHalNvsRead z b
  odHalNvsWrite := odHalNvsWrite z b
  odHalNvsErase := odHalNvsErase z
  reset s := boot b (z.reset s.medium)
  formats _ := false
  own := Empty.rec
  ownDeeds := Empty.rec

end NordicNvs

end Model

section Contract

variable {μ : Type}

/-- The settings as documented: a query leaves them as they are, and a failed save or delete has
been done or not. -/
structure ZephyrSettings.Documented (z : ZephyrSettings μ) (stored : μ → Option Bytes) : Prop where
  short : ∀ m record, stored m = some record → record.length < 2 ^ 31
  init : ∀ m, stored (z.settingsSubsysInit m).2 = stored m
  loadOne : ∀ m buf bufSize got buf' m', z.settingsLoadOne m buf bufSize = (got, buf', m') → stored m' = stored m ∧
    (got < 0 ∨ got = 0 ∧ stored m = none ∨ ∃ record, stored m = some record ∧ record ≠ [] ∧ got = record.length ∧
      buf' = record.take bufSize ++ buf.drop (record.take bufSize).length)
  saveOne : ∀ m record rc m', z.settingsSaveOne m record = (rc, m') →
    stored m' = some record ∨ rc ≠ 0 ∧ stored m' = stored m
  delete : ∀ m rc m', z.settingsDelete m = (rc, m') → stored m' = none ∨ rc ≠ 0 ∧ stored m' = stored m
  reset : ∀ m, stored (z.reset m) = stored m

variable {z : ZephyrSettings μ} {stored : μ → Option Bytes} {b : OdConfigStoreBuild} {s s' : NordicNvs μ} {rc : Int}

namespace NordicNvs

theorem odHalNvsInit_spec (hz : z.Documented stored) (h : s.odHalNvsInit z = (rc, s')) :
    s'.cache = s.cache ∧ stored s'.medium = stored s.medium ∧ (rc = odHalNvsOk ∨ rc = odHalNvsEio) := by
  have hinit := hz.init s.medium
  rcases hmedium : z.settingsSubsysInit s.medium with ⟨rc', m⟩
  rw [hmedium] at hinit
  simp only [odHalNvsInit, hmedium] at h
  split_ifs at h
  · obtain ⟨rfl, rfl⟩ := Prod.mk.inj h
    exact ⟨rfl, rfl, .inl rfl⟩
  · obtain ⟨rfl, rfl⟩ := Prod.mk.inj h
    exact ⟨rfl, hinit, .inr rfl⟩
  · obtain ⟨rfl, rfl⟩ := Prod.mk.inj h
    exact ⟨rfl, hinit, .inl rfl⟩

/-- The cache is filled with the record, or it stays invalid and the answer says why. -/
theorem cacheFill_spec (hz : z.Documented stored) (hs : s.cache.Mirrors (stored s.medium))
    (h : s.cacheFill z b = (rc, s')) :
    s'.cache.Mirrors (stored s'.medium) ∧ stored s'.medium = stored s.medium ∧
      Told s'.cache.Holds (fun record => b.maxRecord.toNat < record.length) rc (stored s'.medium) := by
  rw [cacheFill] at h
  by_cases hvalid : s.cache.valid = true
  · rw [if_pos hvalid] at h
    obtain ⟨rfl, rfl⟩ := Prod.mk.inj h
    obtain ⟨record, hr, hholds⟩ := hs hvalid
    exact ⟨hs, rfl, hr ▸ .ok hholds⟩
  rw [if_neg hvalid] at h
  obtain ⟨rcᵢ, sᵢ, hinit⟩ : ∃ rcᵢ sᵢ, s.odHalNvsInit z = (rcᵢ, sᵢ) := ⟨_, _, rfl⟩
  obtain ⟨hcache, hmedium, hrc⟩ := odHalNvsInit_spec hz hinit
  rw [← hcache] at hvalid
  have hinvalid := Bool.not_eq_true _ ▸ hvalid
  simp only [hinit] at h
  rcases hrc with rfl | rfl
  swap
  · obtain ⟨rfl, rfl⟩ := Prod.mk.inj h
    exact ⟨NvsCache.mirrors_of_not_valid hinvalid, hmedium, .eio⟩
  obtain ⟨got, buf, m, hload⟩ :
    ∃ got buf m, z.settingsLoadOne sᵢ.medium sᵢ.cache.bytes b.maxRecord.toNat = (got, buf, m) :=
    ⟨_, _, _, rfl⟩
  obtain ⟨hkept, hgot⟩ := hz.loadOne _ _ _ _ _ _ hload
  simp only [hload, ne_eq, not_true, if_false] at h
  rcases hgot with hneg | ⟨rfl, hnone⟩ | ⟨record, hr, hne, rfl, hbuf⟩
  · rw [if_pos hneg] at h
    obtain ⟨rfl, rfl⟩ := Prod.mk.inj h
    exact ⟨NvsCache.mirrors_of_not_valid hinvalid, hkept.trans hmedium, .eio⟩
  · rw [if_neg (Int.lt_irrefl 0), if_pos rfl] at h
    obtain ⟨rfl, rfl⟩ := Prod.mk.inj h
    exact ⟨NvsCache.mirrors_of_not_valid hinvalid, hkept.trans hmedium, (hkept.trans hnone) ▸ .enoent⟩
  have hpos := List.length_pos_iff.mpr hne
  have hstored : stored m = some record := hkept.trans hr
  rw [if_neg (by omega), if_neg (by omega), Int.toNat_natCast] at h
  by_cases hbig : record.length > b.maxRecord.toNat
  · rw [if_pos hbig] at h
    obtain ⟨rfl, rfl⟩ := Prod.mk.inj h
    exact ⟨NvsCache.mirrors_of_not_valid hinvalid, hkept.trans hmedium, hstored ▸ .e2big hbig⟩
  · rw [if_neg hbig] at h
    obtain ⟨rfl, rfl⟩ := Prod.mk.inj h
    have hlen : (UInt32.ofNat record.length).toNat = record.length :=
      UInt32.toNat_ofNat_of_lt' ((hz.short _ _ hr).trans (by decide))
    have hholds : NvsCache.Holds { bytes := buf, len := UInt32.ofNat record.length, valid := true } record := by
      refine ⟨?_, hlen⟩
      rw [hlen, hbuf, List.take_of_length_le (Nat.not_lt.mp hbig)]
      exact (List.take_left' rfl).symm
    exact ⟨fun _ => ⟨record, hstored, hholds⟩, hkept.trans hmedium, hstored ▸ .ok hholds⟩

theorem odHalNvsSize_spec (hz : z.Documented stored) {len : UInt32} (h : s.odHalNvsSize z b = (rc, len, s'))
    (hs : s.cache.Mirrors (stored s.medium)) :
    s'.cache.Mirrors (stored s'.medium) ∧ stored s'.medium = stored s.medium ∧
      Told (fun record => len.toNat = record.length) (fun record => b.maxRecord.toNat < record.length) rc
        (stored s'.medium) := by
  rcases hfill : s.cacheFill z b with ⟨rcᵢ, sᵢ⟩
  obtain ⟨hmirrors, hkept, htold⟩ := cacheFill_spec hz hs hfill
  simp only [odHalNvsSize, hfill] at h
  generalize hstored : stored sᵢ.medium = c at htold hkept
  cases htold with
  | ok hholds =>
    rw [if_neg (not_not.mpr rfl)] at h
    obtain ⟨rfl, hlen, rfl⟩ := h
    exact ⟨hmirrors, hstored.trans hkept, hstored ▸ .ok hholds.2⟩
  | enoent =>
    obtain ⟨rfl, -, rfl⟩ := h
    exact ⟨hmirrors, hstored.trans hkept, hstored ▸ .enoent⟩
  | e2big hbig =>
    obtain ⟨rfl, -, rfl⟩ := h
    exact ⟨hmirrors, hstored.trans hkept, hstored ▸ .e2big hbig⟩
  | eio =>
    obtain ⟨rfl, -, rfl⟩ := h
    exact ⟨hmirrors, hstored.trans hkept, .eio⟩

theorem odHalNvsRead_spec (hz : z.Documented stored) {offset len : UInt32} {data : Bytes}
    (h : s.odHalNvsRead z b offset len = (rc, data, s')) (hs : s.cache.Mirrors (stored s.medium)) :
    s'.cache.Mirrors (stored s'.medium) ∧ stored s'.medium = stored s.medium ∧
      Told (fun record => offset.toNat + len.toNat ≤ record.length ∧ data = (record.drop offset.toNat).take len.toNat)
        (fun record => b.maxRecord.toNat < record.length ∨ record.length < offset.toNat + len.toNat) rc
        (stored s'.medium) := by
  rcases hfill : s.cacheFill z b with ⟨rcᵢ, sᵢ⟩
  obtain ⟨hmirrors, hkept, htold⟩ := cacheFill_spec hz hs hfill
  simp only [odHalNvsRead, hfill] at h
  generalize hstored : stored sᵢ.medium = c at htold hkept
  cases htold with
  | ok hholds =>
    rw [if_neg (not_not.mpr rfl)] at h
    obtain ⟨rfl, rfl, rfl⟩ := h
    refine ⟨hmirrors, hstored.trans hkept, hstored ▸ ?_⟩
    rcases hholds.span offset len with ⟨hspan, hin⟩ | ⟨hspan, hout⟩
    · rw [hspan]
      exact .ok ⟨hin, rfl⟩
    · rw [hspan]
      exact .e2big (.inr hout)
  | enoent =>
    obtain ⟨rfl, -, rfl⟩ := h
    exact ⟨hmirrors, hstored.trans hkept, hstored ▸ .enoent⟩
  | e2big hbig =>
    obtain ⟨rfl, -, rfl⟩ := h
    exact ⟨hmirrors, hstored.trans hkept, hstored ▸ .e2big (.inl hbig)⟩
  | eio =>
    obtain ⟨rfl, -, rfl⟩ := h
    exact ⟨hmirrors, hstored.trans hkept, .eio⟩

theorem odHalNvsWrite_spec (hz : z.Documented stored) {record : Bytes} (hshort : record.length < 2 ^ 32)
    (h : s.odHalNvsWrite z b record = (rc, s')) (hs : s.cache.Mirrors (stored s.medium)) :
    s'.cache.Mirrors (stored s'.medium) ∧ (rc = odHalNvsOk ∧ stored s'.medium = some record ∨
      rc = odHalNvsE2big ∧ stored s'.medium = stored s.medium ∨
      rc = odHalNvsEio ∧ (stored s'.medium = stored s.medium ∨ stored s'.medium = some record)) := by
  rw [odHalNvsWrite] at h
  split_ifs at h
  · obtain ⟨rfl, rfl⟩ := h
    exact ⟨hs, .inr (.inr ⟨rfl, .inl rfl⟩)⟩
  · obtain ⟨rfl, rfl⟩ := h
    exact ⟨hs, .inr (.inl ⟨rfl, rfl⟩)⟩
  rcases hinit : s.odHalNvsInit z with ⟨rcᵢ, sᵢ⟩
  obtain ⟨hcache, hmedium, hrc⟩ := odHalNvsInit_spec hz hinit
  simp only [hinit] at h
  rcases hrc with rfl | rfl
  swap
  · obtain ⟨rfl, rfl⟩ := h
    exact ⟨hcache ▸ hmedium ▸ hs, .inr (.inr ⟨rfl, .inl hmedium⟩)⟩
  rcases hsave : z.settingsSaveOne sᵢ.medium record with ⟨rcₘ, m⟩
  have hsaved := hz.saveOne _ _ _ _ hsave
  rw [hmedium] at hsaved
  simp only [hsave, ne_eq, not_true, if_false] at h
  by_cases hok : rcₘ = 0
  · rw [if_neg (not_not.mpr hok)] at h
    obtain ⟨rfl, rfl⟩ := h
    have hstored := hsaved.resolve_right fun hfail => hfail.1 hok
    exact ⟨fun _ => ⟨record, hstored, NvsCache.put_holds hshort⟩, .inl ⟨rfl, hstored⟩⟩
  · rw [if_pos hok] at h
    obtain ⟨rfl, rfl⟩ := h
    exact ⟨NvsCache.mirrors_of_not_valid rfl, .inr (.inr ⟨rfl, hsaved.symm.imp_left And.right⟩)⟩

theorem odHalNvsErase_spec (hz : z.Documented stored) (h : s.odHalNvsErase z = (rc, s'))
    (hs : s.cache.Mirrors (stored s.medium)) :
    s'.cache.Mirrors (stored s'.medium) ∧ (rc = odHalNvsOk ∧ stored s'.medium = none ∨
      rc = odHalNvsEio ∧ (stored s'.medium = stored s.medium ∨ stored s'.medium = none)) := by
  rw [odHalNvsErase] at h
  rcases hinit : s.odHalNvsInit z with ⟨rcᵢ, sᵢ⟩
  obtain ⟨hcache, hmedium, hrc⟩ := odHalNvsInit_spec hz hinit
  simp only [hinit] at h
  rcases hrc with rfl | rfl
  swap
  · obtain ⟨rfl, rfl⟩ := h
    exact ⟨hcache ▸ hmedium ▸ hs, .inr ⟨rfl, .inl hmedium⟩⟩
  rcases hdelete : z.settingsDelete sᵢ.medium with ⟨rcₘ, m⟩
  have hdeleted := hz.delete _ _ _ hdelete
  rw [hmedium] at hdeleted
  simp only [hdelete, ne_eq, not_true, if_false] at h
  by_cases hok : rcₘ = 0
  · rw [if_neg (not_not.mpr hok)] at h
    obtain ⟨rfl, rfl⟩ := h
    exact ⟨NvsCache.mirrors_of_not_valid rfl, .inl ⟨rfl, hdeleted.resolve_right fun hfail => hfail.1 hok⟩⟩
  · rw [if_pos hok] at h
    obtain ⟨rfl, rfl⟩ := h
    exact ⟨NvsCache.mirrors_of_not_valid rfl, .inr ⟨rfl, hdeleted.symm.imp_left And.right⟩⟩

/-- The port keeps to the contract, whatever fails. -/
theorem port_contract (hz : z.Documented stored) : (port z b).Contract b (fun s => s.cache.Mirrors (stored s.medium))
    (fun s => stored s.medium) (fun s => {stored s.medium}) where
  found _ _ := rfl
  short s record _ hr := (hz.short _ _ hr).trans (by decide)
  init s hs := by
    show (s.odHalNvsInit z).2.cache.Mirrors (stored (s.odHalNvsInit z).2.medium) ∧
      {stored (s.odHalNvsInit z).2.medium} ⊆ ({stored s.medium} : Set (Option Bytes))
    rcases hinit : s.odHalNvsInit z with ⟨rc, s'⟩
    obtain ⟨hcache, hmedium, -⟩ := odHalNvsInit_spec hz hinit
    rw [hcache, hmedium]
    exact ⟨hs, Set.Subset.refl _⟩
  size s rc len s' h hs := by
    obtain ⟨hmirrors, hkept, htold⟩ := odHalNvsSize_spec hz h hs
    exact ⟨hmirrors, Set.singleton_subset_singleton.mpr hkept, fun _ => rfl, htold⟩
  read s offset len rc data s' h hs _ := by
    obtain ⟨hmirrors, hkept, htold⟩ := odHalNvsRead_spec hz h hs
    exact ⟨hmirrors, Set.singleton_subset_singleton.mpr hkept, fun _ => rfl, hkept, htold⟩
  write s record rc s' h hshort hs := by
    obtain ⟨hmirrors, hout⟩ := odHalNvsWrite_spec hz hshort h hs
    refine ⟨hmirrors, hout.imp ?_ (Or.imp ?_ ?_)⟩
    · exact And.imp_right Set.singleton_subset_singleton.mpr
    · exact And.imp_right Set.singleton_subset_singleton.mpr
    · rintro ⟨hrc, hstored⟩
      exact ⟨hrc, Set.singleton_subset_iff.mpr hstored⟩
  erase s rc s' h hs := by
    obtain ⟨hmirrors, hout⟩ := odHalNvsErase_spec hz h hs
    refine ⟨hmirrors, hout.imp ?_ ?_⟩
    · exact And.imp_right Set.singleton_subset_singleton.mpr
    · rintro ⟨hrc, hstored⟩
      exact ⟨hrc, Set.singleton_subset_iff.mpr hstored⟩
  reset s _ := ⟨NvsCache.mirrors_of_not_valid rfl, Set.singleton_subset_singleton.mpr (hz.reset s.medium)⟩
  own call := call.elim

end NordicNvs

end Contract

section Durable

variable {μ : Type}

/-- Whatever fails, a load answers for one whole record of the run, a saved payload is there until
the next write, and what was cleared is not. -/
theorem nordicNvs_durable (z : ZephyrSettings μ) (stored : μ → Option Bytes) (hz : z.Documented stored)
    (b : OdConfigStoreBuild) (m : μ) :
    (NordicNvs.port z b).LoadsWhole b {stored m} (NordicNvs.boot b m) ∧
      (NordicNvs.port z b).LoadsSaved b (NordicNvs.boot b m) ∧
      (NordicNvs.port z b).LoadsNothing b (NordicNvs.boot b m) .clear
        fun s => ((NordicNvs.port z b).odConfigStoreClear s).1 = .ok := by
  have hboot : (NordicNvs.boot b m).cache.Mirrors (stored (NordicNvs.boot b m).medium) :=
    NvsCache.mirrors_of_not_valid rfl
  have hcontract := NordicNvs.port_contract (b := b) hz
  exact ⟨hcontract.loadsWhole hboot, hcontract.loadsSaved hboot, hcontract.loadsNothing_clear hboot⟩

/-- Settings that are one record and a script: what each call answers and, where it fails, whether
it was done. -/
def scriptedSettings :
    ZephyrSettings (Option { record : Bytes // record ≠ [] ∧ record.length < 2 ^ 31 } × List (Int × Bool)) where
  settingsSubsysInit m := ((m.2.headD (0, true)).1, m.1, m.2.tail)
  settingsLoadOne m buf bufSize :=
    if (m.2.headD (0, true)).1 < 0 then (-5, buf, m.1, m.2.tail)
    else
      match m.1 with
      | none => (0, buf, m.1, m.2.tail)
      | some record =>
        (record.val.length, record.val.take bufSize ++ buf.drop (record.val.take bufSize).length, m.1, m.2.tail)
  settingsSaveOne m record :=
    if h : (record ≠ [] ∧ record.length < 2 ^ 31) ∧ (m.2.headD (0, true)).2 = true then
      ((m.2.headD (0, true)).1, some ⟨record, h.1⟩, m.2.tail)
    else (-5, m.1, m.2.tail)
  settingsDelete m :=
    if (m.2.headD (0, true)).2 = true then ((m.2.headD (0, true)).1, none, m.2.tail) else (-5, m.1, m.2.tail)
  reset m := m

theorem scriptedSettings_documented : scriptedSettings.Documented fun m => m.1.map Subtype.val where
  short := by
    rintro ⟨_ | ⟨record, hne, hshort⟩, script⟩ r hr
    · cases hr
    · obtain rfl := Option.some.inj hr
      exact hshort
  init _ := rfl
  loadOne := by
    rintro ⟨stored, script⟩ buf bufSize got buf' m' h
    simp only [scriptedSettings] at h
    split_ifs at h with hneg
    · obtain ⟨rfl, rfl, rfl⟩ := h
      exact ⟨rfl, .inl (by decide)⟩
    rcases stored with _ | ⟨record, hne, hshort⟩
    · obtain ⟨rfl, rfl, rfl⟩ := h
      exact ⟨rfl, .inr (.inl ⟨rfl, rfl⟩)⟩
    · obtain ⟨rfl, rfl, rfl⟩ := h
      exact ⟨rfl, .inr (.inr ⟨record, rfl, hne, rfl, rfl⟩)⟩
  saveOne := by
    rintro m record rc m' h
    simp only [scriptedSettings] at h
    split_ifs at h with hdone
    · obtain ⟨rfl, rfl⟩ := h
      exact .inl rfl
    · obtain ⟨rfl, rfl⟩ := h
      exact .inr ⟨by decide, rfl⟩
  delete := by
    rintro m rc m' h
    simp only [scriptedSettings] at h
    split_ifs at h with hdone
    · obtain ⟨rfl, rfl⟩ := h
      exact .inl rfl
    · obtain ⟨rfl, rfl⟩ := h
      exact .inr ⟨by decide, rfl⟩
  reset _ := rfl

/-- The second write fails and was done, and the third fails and was not. -/
theorem nordicNvs_durable_scripted :
    (NordicNvs.port scriptedSettings {}).LoadsWhole {} {none}
      (NordicNvs.boot {} (none, [(0, true), (0, true), (-5, true), (-5, false)])) ∧
    (NordicNvs.port scriptedSettings {}).LoadsSaved {}
      (NordicNvs.boot {} (none, [(0, true), (0, true), (-5, true), (-5, false)])) ∧
    (NordicNvs.port scriptedSettings {}).LoadsNothing {}
      (NordicNvs.boot {} (none, [(0, true), (0, true), (-5, true), (-5, false)])) .clear
      fun s => ((NordicNvs.port scriptedSettings {}).odConfigStoreClear s).1 = .ok :=
  nordicNvs_durable scriptedSettings _ scriptedSettings_documented {} _

end Durable

end OpenDisplay
