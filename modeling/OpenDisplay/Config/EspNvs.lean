import OpenDisplay.Config.Medium

/-! The port over the ESP-IDF NVS. A write is visible at once and durable with a commit, a medium
that is unusable when it comes up is erased, and the record can be overwritten before it goes. -/

namespace OpenDisplay

open Durable

section Model

inductive EspErr where
  | ok | nvsNotFound | nvsNoFreePages | nvsNewVersionFound
  | other (code : Int)
deriving DecidableEq

/-- The NVS under one namespace and key, in states of type `μ`. -/
structure EspIdfNvs (μ : Type) where
  nvsFlashInit : μ → EspErr × μ
  nvsFlashErase : μ → EspErr × μ
  nvsOpen : μ → (readWrite : Bool) → EspErr × μ
  nvsGetBlobSize : μ → EspErr × UInt32 × μ
  nvsGetBlob : μ → (buf : Bytes) → (length : UInt32) → EspErr × Bytes × UInt32 × μ
  nvsSetBlob : μ → Bytes → EspErr × μ
  nvsEraseKey : μ → EspErr × μ
  nvsCommit : μ → EspErr × μ
  reset : μ → μ

structure EspNvs (μ : Type) where
  cache : NvsCache
  ready : Bool := false
  medium : μ

variable {μ : Type} (v : EspIdfNvs μ) (b : OdConfigStoreBuild)

namespace EspNvs

/-- The partition is full of dead entries, or it was written by a newer format. -/
def unusable (err : EspErr) : Bool := err = .nvsNoFreePages || err = .nvsNewVersionFound

/-- Loses the record, which is accepted here and nowhere else. -/
def bringUp (medium : μ) : EspErr × μ :=
  let (err, medium) := v.nvsFlashInit medium
  if unusable err then
    let (err, medium) := v.nvsFlashErase medium
    if err = .ok then v.nvsFlashInit medium else (err, medium)
  else (err, medium)

def odHalNvsInit (s : EspNvs μ) : Int × EspNvs μ :=
  if s.ready then (odHalNvsOk, s)
  else
    let (err, medium) := bringUp v s.medium
    if err ≠ .ok then (odHalNvsEio, { s with medium })
    else (odHalNvsOk, { s with medium, ready := true })

def nvsStoredSize (medium : μ) : Int × UInt32 × μ :=
  let (err, stored, medium) := v.nvsGetBlobSize medium
  if err = .nvsNotFound then (odHalNvsEnoent, stored, medium)
  else if err ≠ .ok then (odHalNvsEio, stored, medium)
  else (odHalNvsOk, stored, medium)

def odHalNvsSize (s : EspNvs μ) : Int × UInt32 × EspNvs μ :=
  let (rc, s) := s.odHalNvsInit v
  if rc ≠ odHalNvsOk then (odHalNvsEio, 0, s)
  else
    let (err, medium) := v.nvsOpen s.medium false
    if err = .nvsNotFound then (odHalNvsEnoent, 0, { s with medium })
    else if err ≠ .ok then (odHalNvsEio, 0, { s with medium })
    else
      let (rc, stored, medium) := nvsStoredSize v medium
      if rc ≠ odHalNvsOk then (rc, 0, { s with medium }) else (odHalNvsOk, stored, { s with medium })

def cacheFill (s : EspNvs μ) : Int × EspNvs μ :=
  if s.cache.valid then (odHalNvsOk, s)
  else
    let (rc, s) := s.odHalNvsInit v
    if rc ≠ odHalNvsOk then (odHalNvsEio, s)
    else
      let (err, medium) := v.nvsOpen s.medium false
      if err = .nvsNotFound then (odHalNvsEnoent, { s with medium })
      else if err ≠ .ok then (odHalNvsEio, { s with medium })
      else
        let (rc, stored, medium) := nvsStoredSize v medium
        if rc ≠ odHalNvsOk then (rc, { s with medium })
        else if stored > b.maxRecord then (odHalNvsE2big, { s with medium })
        else
          let (err, bytes, stored, medium) := v.nvsGetBlob medium s.cache.bytes stored
          if err ≠ .ok then (odHalNvsEio, { s with cache := { s.cache with bytes }, medium })
          else (odHalNvsOk, { s with cache := { bytes, len := stored, valid := true }, medium })

def odHalNvsRead (s : EspNvs μ) (offset len : UInt32) : Int × Bytes × EspNvs μ :=
  let (rc, s) := s.cacheFill v b
  if rc ≠ odHalNvsOk then (rc, [], s)
  else ((s.cache.span offset len).1, (s.cache.span offset len).2, s)

def odHalNvsWrite (s : EspNvs μ) (record : Bytes) : Int × EspNvs μ :=
  if record.length = 0 then (odHalNvsEio, s)
  else if record.length > b.maxRecord.toNat then (odHalNvsE2big, s)
  else
    let (rc, s) := s.odHalNvsInit v
    if rc ≠ odHalNvsOk then (odHalNvsEio, s)
    else
      let (err, medium) := v.nvsOpen s.medium true
      if err ≠ .ok then (odHalNvsEio, { s with medium })
      else
        let (err, medium) := v.nvsSetBlob medium record
        let (err, medium) := if err = .ok then v.nvsCommit medium else (err, medium)
        if err ≠ .ok then (odHalNvsEio, { s with cache := s.cache.drop, medium })
        else (odHalNvsOk, { s with cache := s.cache.put record, medium })

/-- The key goes, or it was not there, and the change is committed. -/
def eraseKey (medium : μ) : EspErr × μ :=
  let (err, medium) := v.nvsEraseKey medium
  if err = .nvsNotFound ∨ err = .ok then v.nvsCommit medium else (err, medium)

def odHalNvsErase (s : EspNvs μ) : Int × EspNvs μ :=
  let (rc, s) := s.odHalNvsInit v
  if rc ≠ odHalNvsOk then (odHalNvsEio, s)
  else
    let (err, medium) := v.nvsOpen s.medium true
    if err = .nvsNotFound then (odHalNvsOk, { s with cache := s.cache.drop, medium })
    else if err ≠ .ok then (odHalNvsEio, { s with medium })
    else
      let (err, medium) := eraseKey v medium
      if err ≠ .ok then (odHalNvsEio, { s with cache := s.cache.invalidate, medium })
      else (odHalNvsOk, { s with cache := s.cache.drop, medium })

/-- Zeros as long as the record, when they fit the buffer; what becomes of them is not asked. -/
def zeroWrite (medium : μ) : μ :=
  let (err, stored, medium) := v.nvsGetBlobSize medium
  if err = .ok ∧ stored > 0 then
    (v.nvsCommit (if stored ≤ 64 ∨ stored ≤ b.maxRecord then
      (v.nvsSetBlob medium (List.replicate stored.toNat 0)).2 else medium)).2
  else medium

def odHalNvsSecureErase (s : EspNvs μ) : Int × EspNvs μ :=
  let (rc, s) := s.odHalNvsInit v
  if rc ≠ odHalNvsOk then (odHalNvsEio, s)
  else
    let s := { s with cache := s.cache.drop }
    let (err, medium) := v.nvsOpen s.medium true
    if err = .nvsNotFound then (odHalNvsOk, { s with medium })
    else if err ≠ .ok then (odHalNvsEio, { s with medium })
    else
      let (err, medium) := eraseKey v (zeroWrite v b medium)
      if err ≠ .ok then (odHalNvsEio, { s with medium }) else (odHalNvsOk, { s with medium })

/-- The statics are zero when the part comes up. -/
def boot (medium : μ) : EspNvs μ :=
  { cache := { bytes := List.replicate b.maxRecord.toNat 0 }, medium }

/-- The next call brings the partition up, and it will find it unusable. -/
def formats (s : EspNvs μ) : Bool := !s.ready && unusable (v.nvsFlashInit s.medium).1

def formatDeeds (s : EspNvs μ) : List (Deed (Option Bytes)) := if s.formats v then [.tried {none}] else []

/-- A record of zeros, of any length. -/
def zeros : Set (Option Bytes) := { record | ∃ n, record = some (List.replicate n 0) }

def port : NvsPort (EspNvs μ) Unit where
  odHalNvsInit := odHalNvsInit v
  odHalNvsSize := odHalNvsSize v
  odHalNvsRead := odHalNvsRead v b
  odHalNvsWrite := odHalNvsWrite v b
  odHalNvsErase := odHalNvsErase v
  reset s := boot b (v.reset s.medium)
  formats := formats v
  own _ s := (s.odHalNvsSecureErase v b).2
  ownDeeds _ s := s.formatDeeds v ++
    .tried zeros :: if (s.odHalNvsSecureErase v b).1 = odHalNvsOk then [.put none] else [.tried {none}]

end EspNvs

end Model

section Contract

variable {μ : Type}

/-- What the medium may hold now or after a power cycle. -/
def espHolds (stored : μ → Option Bytes) (survives : μ → Set (Option Bytes)) (m : μ) : Set (Option Bytes) :=
  insert (stored m) (survives m)

/-- The NVS as documented. A namespace that is absent holds nothing, a failed write has been done
or not, and what has not been committed may go with a power cycle or stay. -/
structure EspIdfNvs.Documented (v : EspIdfNvs μ) (stored : μ → Option Bytes) (survives : μ → Set (Option Bytes)) :
    Prop where
  short : ∀ m record, stored m = some record → record.length < 2 ^ 32
  flashInit : ∀ m err m', v.nvsFlashInit m = (err, m') → stored m' = stored m ∧ survives m' ⊆ survives m
  flashErase : ∀ m err m', v.nvsFlashErase m = (err, m') →
    (stored m' = stored m ∨ stored m' = none) ∧ survives m' ⊆ survives m ∪ {none}
  opened : ∀ m readWrite err m', v.nvsOpen m readWrite = (err, m') → stored m' = stored m ∧ survives m' ⊆ survives m ∧
    (err = .nvsNotFound → stored m = none ∧ survives m ⊆ {none})
  getBlobSize : ∀ m err size m', v.nvsGetBlobSize m = (err, size, m') → stored m' = stored m ∧
    survives m' ⊆ survives m ∧
    (err = .nvsNotFound → stored m = none) ∧ (err = .ok → ∃ record, stored m = some record ∧ size.toNat = record.length)
  getBlob : ∀ m buf length err buf' size m', v.nvsGetBlob m buf length = (err, buf', size, m') →
    stored m' = stored m ∧ survives m' ⊆ survives m ∧ (err = .ok → ∃ record, stored m = some record ∧
      size.toNat = record.length ∧ buf' = record ++ buf.drop record.length)
  setBlob : ∀ m record err m', v.nvsSetBlob m record = (err, m') → (err = .ok → stored m' = some record) ∧
    (stored m' = stored m ∨ stored m' = some record) ∧ survives m' ⊆ survives m ∪ {some record}
  eraseKey : ∀ m err m', v.nvsEraseKey m = (err, m') → (err = .ok ∨ err = .nvsNotFound → stored m' = none) ∧
    (stored m' = stored m ∨ stored m' = none) ∧ survives m' ⊆ survives m ∪ {none}
  commit : ∀ m err m', v.nvsCommit m = (err, m') → stored m' = stored m ∧ survives m' ⊆ survives m ∪ {stored m} ∧
    (err = .ok → survives m' ⊆ {stored m})
  reset : ∀ m, stored (v.reset m) ∈ survives m ∧ survives (v.reset m) ⊆ survives m

variable {v : EspIdfNvs μ} {stored : μ → Option Bytes} {survives : μ → Set (Option Bytes)} {b : OdConfigStoreBuild}
  {s s' : EspNvs μ} {rc : Int} {m m' : μ} {V : Set (Option Bytes)} {err : EspErr}

theorem espHolds_mono (hstored : stored m' = stored m) (hsub : survives m' ⊆ survives m) :
    espHolds stored survives m' ⊆ espHolds stored survives m := by
  rw [espHolds, hstored]
  exact Set.insert_subset_insert hsub

theorem espHolds_union (hstored : stored m' = stored m ∨ stored m' ∈ V) (hsub : survives m' ⊆ survives m ∪ V) :
    espHolds stored survives m' ⊆ espHolds stored survives m ∪ V := by
  apply Set.insert_subset
  · exact hstored.imp_left fun h => .inl h
  · exact hsub.trans (Set.union_subset_union_left V (Set.subset_insert _ _))

/-- A commit that is done leaves one record, and one that fails leaves what there was. -/
theorem EspIdfNvs.Documented.commit_spec (hv : v.Documented stored survives) (h : v.nvsCommit m = (err, m')) :
    (err = .ok → espHolds stored survives m' ⊆ {stored m}) ∧
      espHolds stored survives m' ⊆ espHolds stored survives m := by
  obtain ⟨hkept, hsub, hsettled⟩ := hv.commit m err m' h
  refine ⟨fun hok => Set.insert_subset hkept (hsettled hok), Set.insert_subset (.inl hkept) (hsub.trans ?_)⟩
  exact Set.union_subset (Set.subset_insert _ _) (Set.singleton_subset_iff.mpr (Set.mem_insert _ _))

theorem EspIdfNvs.Documented.eraseKey_spec (hv : v.Documented stored survives) (h : EspNvs.eraseKey v m = (err, m')) :
    (err = .ok → espHolds stored survives m' ⊆ {none}) ∧
      espHolds stored survives m' ⊆ espHolds stored survives m ∪ {none} := by
  rcases herase : v.nvsEraseKey m with ⟨err₁, m₁⟩
  obtain ⟨hgone, hstored, hsub⟩ := hv.eraseKey m err₁ m₁ herase
  have hunion := espHolds_union hstored hsub
  simp only [EspNvs.eraseKey, herase] at h
  split_ifs at h with hdone
  · obtain ⟨hsettled, hkept⟩ := hv.commit_spec h
    rw [hgone hdone.symm] at hsettled
    exact ⟨hsettled, hkept.trans hunion⟩
  · obtain ⟨rfl, rfl⟩ := h
    exact ⟨fun hok => absurd (.inr hok) hdone, hunion⟩

theorem EspIdfNvs.Documented.setBlob_spec (hv : v.Documented stored survives) {record : Bytes} {err' : EspErr} {m'' : μ}
    (hset : v.nvsSetBlob m record = (err', m''))
    (hcommit : (if err' = .ok then v.nvsCommit m'' else (err', m'')) = (err, m')) :
    (err = .ok → stored m' = some record ∧ espHolds stored survives m' ⊆ {some record}) ∧
      espHolds stored survives m' ⊆ espHolds stored survives m ∪ {some record} := by
  obtain ⟨hthere, hstored, hsub⟩ := hv.setBlob m record err' m'' hset
  have hunion := espHolds_union hstored hsub
  split_ifs at hcommit with hdone
  · obtain ⟨hsettled, hkept⟩ := hv.commit_spec hcommit
    rw [hthere hdone] at hsettled
    exact ⟨fun hok => ⟨hsettled hok (Set.mem_insert _ _), hsettled hok⟩, hkept.trans hunion⟩
  · obtain ⟨rfl, rfl⟩ := hcommit
    exact ⟨fun hok => absurd hok hdone, hunion⟩

namespace EspNvs

/-- The cache has the record of the medium, and it is filled only once the partition is up. -/
structure Inv (stored : μ → Option Bytes) (s : EspNvs μ) : Prop where
  mirrors : s.cache.Mirrors (stored s.medium)
  ready : s.cache.valid = true → s.ready = true

/-- What a call that starts from here may find. -/
def before (v : EspIdfNvs μ) (stored : μ → Option Bytes) (survives : μ → Set (Option Bytes)) (s : EspNvs μ) :
    Set (Option Bytes) :=
  possible (espHolds stored survives s.medium) (s.formatDeeds v)

theorem formats_of_ready (h : s.ready = true) : s.formats v = false := by
  rw [formats, h]
  rfl

theorem before_of_not_formats (h : s.formats v = false) :
    before v stored survives s = espHolds stored survives s.medium := by
  rw [before, formatDeeds, h]
  rfl

theorem bringUp_spec (hv : v.Documented stored survives) (h : bringUp v m = (err, m')) :
    (unusable (v.nvsFlashInit m).1 = false → stored m' = stored m ∧
      espHolds stored survives m' ⊆ espHolds stored survives m) ∧
    espHolds stored survives m' ⊆ espHolds stored survives m ∪ {none} := by
  rcases hinit : v.nvsFlashInit m with ⟨err₁, m₁⟩
  obtain ⟨hstored₁, hsub₁⟩ := hv.flashInit _ _ _ hinit
  have hkept₁ := espHolds_mono hstored₁ hsub₁
  simp only [bringUp, hinit] at h
  by_cases hunusable : unusable err₁ = true
  swap
  · rw [if_neg hunusable] at h
    obtain ⟨rfl, rfl⟩ := h
    exact ⟨fun _ => ⟨hstored₁, hkept₁⟩, hkept₁.trans Set.subset_union_left⟩
  rw [if_pos hunusable] at h
  refine ⟨fun husable => Bool.noConfusion (hunusable.symm.trans husable), ?_⟩
  rcases herase : v.nvsFlashErase m₁ with ⟨err₂, m₂⟩
  obtain ⟨hstored₂, hsub₂⟩ := hv.flashErase _ _ _ herase
  have hkept₂ := (espHolds_union hstored₂ hsub₂).trans (Set.union_subset_union_left _ hkept₁)
  simp only [herase] at h
  split_ifs at h
  · obtain ⟨hstored₃, hsub₃⟩ := hv.flashInit _ _ _ h
    exact (espHolds_mono hstored₃ hsub₃).trans hkept₂
  · obtain ⟨rfl, rfl⟩ := h
    exact hkept₂

/-- Coming up changes nothing when the port is up, keeps the record of a usable medium, and may
erase an unusable one. -/
theorem odHalNvsInit_spec (hv : v.Documented stored survives) (h : s.odHalNvsInit v = (rc, s')) :
    s'.cache = s.cache ∧ (s.ready = true → s' = s) ∧ (rc = odHalNvsOk ∧ s'.ready = true ∨ rc = odHalNvsEio) ∧
      (s.formats v = false → stored s'.medium = stored s.medium) ∧
      espHolds stored survives s'.medium ⊆ before v stored survives s := by
  by_cases hready : s.ready = true
  · rw [odHalNvsInit, if_pos hready] at h
    obtain ⟨rfl, rfl⟩ := h
    refine ⟨rfl, fun _ => rfl, .inl ⟨rfl, hready⟩, fun _ => rfl, ?_⟩
    rw [before_of_not_formats (formats_of_ready hready)]
  rcases hup : bringUp v s.medium with ⟨err, m⟩
  obtain ⟨husable, hunion⟩ := bringUp_spec hv hup
  have hformats : s.formats v = unusable (v.nvsFlashInit s.medium).1 := by
    rw [formats, Bool.eq_false_iff.mpr hready]
    rfl
  have hkept : s.formats v = false → stored m = stored s.medium := fun h => (husable (hformats ▸ h)).1
  have hsub : espHolds stored survives m ⊆ before v stored survives s := by
    cases hf : s.formats v with
    | false => exact before_of_not_formats hf ▸ (husable (hformats ▸ hf)).2
    | true =>
      rw [before, formatDeeds, hf]
      exact hunion
  simp only [odHalNvsInit, if_neg hready, hup] at h
  split_ifs at h
  · obtain ⟨rfl, rfl⟩ := h
    exact ⟨rfl, fun hr => absurd hr hready, .inr rfl, hkept, hsub⟩
  · obtain ⟨rfl, rfl⟩ := h
    exact ⟨rfl, fun hr => absurd hr hready, .inl ⟨rfl, rfl⟩, hkept, hsub⟩

theorem Inv.of_medium (hs : Inv stored s) (h : stored m = stored s.medium) : Inv stored { s with medium := m } :=
  ⟨h ▸ hs.mirrors, hs.ready⟩

theorem Inv.of_init (hs : Inv stored s) (hv : v.Documented stored survives) (h : s.odHalNvsInit v = (rc, s')) :
    Inv stored s' := by
  obtain ⟨hcache, hup, -⟩ := odHalNvsInit_spec hv h
  cases hvalid : s.cache.valid with
  | false =>
    exact ⟨NvsCache.mirrors_of_not_valid (hcache ▸ hvalid),
      fun hr => Bool.noConfusion ((hcache ▸ hvalid).symm.trans hr)⟩
  | true => exact hup (hs.ready hvalid) ▸ hs

theorem nvsStoredSize_spec (hv : v.Documented stored survives) {len : UInt32} (h : nvsStoredSize v m = (rc, len, m')) :
    stored m' = stored m ∧ survives m' ⊆ survives m ∧
      Told (fun record => len.toNat = record.length) (fun _ => False) rc (stored m') := by
  rcases hsize : v.nvsGetBlobSize m with ⟨err, n, m₁⟩
  obtain ⟨hkept, hsub, hnone, hsome⟩ := hv.getBlobSize _ _ _ _ hsize
  simp only [nvsStoredSize, hsize] at h
  split_ifs at h with habsent hfail
  · obtain ⟨rfl, rfl, rfl⟩ := h
    exact ⟨hkept, hsub, (hkept.trans (hnone habsent)) ▸ .enoent⟩
  · obtain ⟨rfl, rfl, rfl⟩ := h
    exact ⟨hkept, hsub, .eio⟩
  · obtain ⟨rfl, rfl, rfl⟩ := h
    obtain ⟨record, hr, hlen⟩ := hsome (not_not.mp hfail)
    exact ⟨hkept, hsub, (hkept.trans hr) ▸ .ok hlen⟩

theorem odHalNvsSize_spec (hv : v.Documented stored survives) {len : UInt32} (h : s.odHalNvsSize v = (rc, len, s'))
    (hs : Inv stored s) : Inv stored s' ∧ espHolds stored survives s'.medium ⊆ before v stored survives s ∧
      (rc = odHalNvsOk → s'.formats v = false) ∧
      Told (fun record => len.toNat = record.length) (fun record => b.maxRecord.toNat < record.length) rc
        (stored s'.medium) := by
  rcases hinit : s.odHalNvsInit v with ⟨rcᵢ, sᵢ⟩
  have hsᵢ := hs.of_init hv hinit
  obtain ⟨-, -, hrc, -, hsub⟩ := odHalNvsInit_spec hv hinit
  simp only [odHalNvsSize, hinit] at h
  rcases hrc with ⟨rfl, hready⟩ | rfl
  swap
  · obtain ⟨rfl, rfl, rfl⟩ := h
    exact ⟨hsᵢ, hsub, fun hok => absurd hok (by decide), .eio⟩
  rcases hopen : v.nvsOpen sᵢ.medium false with ⟨err, m⟩
  obtain ⟨hkept, hsub', habsent⟩ := hv.opened _ _ _ _ hopen
  have hsubₘ := (espHolds_mono hkept hsub').trans hsub
  simp only [hopen, ne_eq, not_true, if_false] at h
  by_cases hnone : err = .nvsNotFound
  · rw [if_pos hnone] at h
    obtain ⟨rfl, rfl, rfl⟩ := h
    exact ⟨hsᵢ.of_medium hkept, hsubₘ, fun hok => absurd hok (by decide), (hkept.trans (habsent hnone).1) ▸ .enoent⟩
  rw [if_neg hnone] at h
  by_cases hfail : ¬ err = .ok
  · rw [if_pos hfail] at h
    obtain ⟨rfl, rfl, rfl⟩ := h
    exact ⟨hsᵢ.of_medium hkept, hsubₘ, fun hok => absurd hok (by decide), .eio⟩
  rw [if_neg hfail] at h
  rcases hsize : nvsStoredSize v m with ⟨rcₛ, n, m₁⟩
  obtain ⟨hkept₁, hsub₁, htold⟩ := nvsStoredSize_spec hv hsize
  have hinv : Inv stored { sᵢ with medium := m₁ } := hsᵢ.of_medium (hkept₁.trans hkept)
  have hsub₂ := (espHolds_mono hkept₁ hsub₁).trans hsubₘ
  have hup : formats v { sᵢ with medium := m₁ } = false := formats_of_ready hready
  simp only [hsize] at h
  generalize hc : stored m₁ = c at htold
  cases htold with
  | ok hlen =>
    rw [if_neg (not_not.mpr rfl)] at h
    obtain ⟨rfl, rfl, rfl⟩ := h
    exact ⟨hinv, hsub₂, fun _ => hup, hc ▸ .ok hlen⟩
  | enoent =>
    rw [if_pos (by decide)] at h
    obtain ⟨rfl, rfl, rfl⟩ := h
    exact ⟨hinv, hsub₂, fun _ => hup, hc ▸ .enoent⟩
  | e2big hbig => exact hbig.elim
  | eio =>
    rw [if_pos (by decide)] at h
    obtain ⟨rfl, rfl, rfl⟩ := h
    exact ⟨hinv, hsub₂, fun _ => hup, .eio⟩

/-- The cache is filled with the record, or it stays invalid and the answer says why. -/
theorem cacheFill_spec (hv : v.Documented stored survives) (hf : s.formats v = false) (h : s.cacheFill v b = (rc, s'))
    (hs : Inv stored s) : Inv stored s' ∧ espHolds stored survives s'.medium ⊆ espHolds stored survives s.medium ∧
      (rc = odHalNvsOk → s'.formats v = false) ∧ stored s'.medium = stored s.medium ∧
      Told s'.cache.Holds (fun record => b.maxRecord.toNat < record.length) rc (stored s'.medium) := by
  rw [cacheFill] at h
  by_cases hvalid : s.cache.valid = true
  · rw [if_pos hvalid] at h
    obtain ⟨rfl, rfl⟩ := h
    obtain ⟨record, hr, hholds⟩ := hs.mirrors hvalid
    exact ⟨hs, Set.Subset.refl _, fun _ => hf, rfl, hr ▸ .ok hholds⟩
  rw [if_neg hvalid] at h
  rcases hinit : s.odHalNvsInit v with ⟨rcᵢ, sᵢ⟩
  have hsᵢ := hs.of_init hv hinit
  obtain ⟨hcache, -, hrc, hkeptᵢ, hsub⟩ := odHalNvsInit_spec hv hinit
  have hkeptᵢ := hkeptᵢ hf
  rw [before_of_not_formats hf] at hsub
  simp only [hinit] at h
  rcases hrc with ⟨rfl, hready⟩ | rfl
  swap
  · obtain ⟨rfl, rfl⟩ := h
    exact ⟨hsᵢ, hsub, fun hok => absurd hok (by decide), hkeptᵢ, .eio⟩
  rcases hopen : v.nvsOpen sᵢ.medium false with ⟨err, m⟩
  obtain ⟨hkept, hsub', habsent⟩ := hv.opened _ _ _ _ hopen
  have hsubₘ := (espHolds_mono hkept hsub').trans hsub
  simp only [hopen, ne_eq, not_true, if_false] at h
  by_cases hnone : err = .nvsNotFound
  · rw [if_pos hnone] at h
    obtain ⟨rfl, rfl⟩ := h
    exact ⟨hsᵢ.of_medium hkept, hsubₘ, fun hok => absurd hok (by decide), hkept.trans hkeptᵢ,
      (hkept.trans (habsent hnone).1) ▸ .enoent⟩
  rw [if_neg hnone] at h
  by_cases hfail : ¬ err = .ok
  · rw [if_pos hfail] at h
    obtain ⟨rfl, rfl⟩ := h
    exact ⟨hsᵢ.of_medium hkept, hsubₘ, fun hok => absurd hok (by decide), hkept.trans hkeptᵢ, .eio⟩
  rw [if_neg hfail] at h
  rcases hsize : nvsStoredSize v m with ⟨rcₛ, n, m₁⟩
  obtain ⟨hkept₁, hsub₁, htold⟩ := nvsStoredSize_spec hv hsize
  have hinv : Inv stored { sᵢ with medium := m₁ } := hsᵢ.of_medium (hkept₁.trans hkept)
  have hsub₂ := (espHolds_mono hkept₁ hsub₁).trans hsubₘ
  have hup : formats v { sᵢ with medium := m₁ } = false := formats_of_ready hready
  have hkept₂ := hkept₁.trans (hkept.trans hkeptᵢ)
  simp only [hsize] at h
  generalize hc : stored m₁ = c at htold
  cases htold with
  | enoent =>
    rw [if_pos (by decide)] at h
    obtain ⟨rfl, rfl⟩ := h
    exact ⟨hinv, hsub₂, fun _ => hup, hkept₂, hc ▸ .enoent⟩
  | e2big hbig => exact hbig.elim
  | eio =>
    rw [if_pos (by decide)] at h
    obtain ⟨rfl, rfl⟩ := h
    exact ⟨hinv, hsub₂, fun _ => hup, hkept₂, .eio⟩
  | @ok record hlen =>
    rw [if_neg (not_not.mpr rfl)] at h
    by_cases hbig : n > b.maxRecord
    · rw [if_pos hbig] at h
      obtain ⟨rfl, rfl⟩ := h
      rw [gt_iff_lt, UInt32.lt_iff_toNat_lt, hlen] at hbig
      exact ⟨hinv, hsub₂, fun _ => hup, hkept₂, hc ▸ .e2big hbig⟩
    rw [if_neg hbig] at h
    rcases hget : v.nvsGetBlob m₁ sᵢ.cache.bytes n with ⟨err₂, bytes, size, m₂⟩
    obtain ⟨hkept₃, hsub₃, hsome⟩ := hv.getBlob _ _ _ _ _ _ _ hget
    have hkept₄ := hkept₃.trans hkept₂
    have hsub₄ := (espHolds_mono hkept₃ hsub₃).trans hsub₂
    have hinvalid : sᵢ.cache.valid = false := hcache ▸ Bool.eq_false_iff.mpr hvalid
    simp only [hget] at h
    by_cases hfail₂ : ¬ err₂ = .ok
    · rw [if_pos hfail₂] at h
      obtain ⟨rfl, rfl⟩ := h
      exact ⟨⟨NvsCache.mirrors_of_not_valid hinvalid, fun hr => Bool.noConfusion (hinvalid.symm.trans hr)⟩, hsub₄,
        fun hok => absurd hok (by decide), hkept₄, .eio⟩
    rw [if_neg hfail₂] at h
    obtain ⟨rfl, rfl⟩ := h
    obtain ⟨record', hr, hsize, rfl⟩ := hsome (not_not.mp hfail₂)
    have hholds : NvsCache.Holds { bytes := record' ++ sᵢ.cache.bytes.drop record'.length, len := size, valid := true }
        record' := by
      refine ⟨?_, hsize⟩
      rw [hsize]
      exact (List.take_left' rfl).symm
    have hstored : stored m₂ = some record' := hkept₃.trans hr
    exact ⟨⟨fun _ => ⟨record', hstored, hholds⟩, fun _ => hready⟩, hsub₄, fun _ => formats_of_ready hready, hkept₄,
      hstored ▸ .ok hholds⟩

theorem odHalNvsRead_spec (hv : v.Documented stored survives) (hf : s.formats v = false) {offset len : UInt32}
    {data : Bytes} (h : s.odHalNvsRead v b offset len = (rc, data, s')) (hs : Inv stored s) :
    Inv stored s' ∧ espHolds stored survives s'.medium ⊆ espHolds stored survives s.medium ∧
      (rc = odHalNvsOk → s'.formats v = false) ∧ stored s'.medium = stored s.medium ∧
      Told (fun record => offset.toNat + len.toNat ≤ record.length ∧ data = (record.drop offset.toNat).take len.toNat)
        (fun record => b.maxRecord.toNat < record.length ∨ record.length < offset.toNat + len.toNat) rc
        (stored s'.medium) := by
  rcases hfill : s.cacheFill v b with ⟨rcᵢ, sᵢ⟩
  obtain ⟨hinv, hsub, hup, hkept, htold⟩ := cacheFill_spec hv hf hfill hs
  simp only [odHalNvsRead, hfill] at h
  generalize hstored : stored sᵢ.medium = c at htold hkept
  cases htold with
  | ok hholds =>
    rw [if_neg (not_not.mpr rfl)] at h
    obtain ⟨rfl, rfl, rfl⟩ := h
    refine ⟨hinv, hsub, fun _ => hup rfl, hstored.trans hkept, hstored ▸ ?_⟩
    rcases hholds.span offset len with ⟨hspan, hin⟩ | ⟨hspan, hout⟩
    · rw [hspan]
      exact .ok ⟨hin, rfl⟩
    · rw [hspan]
      exact .e2big (.inr hout)
  | enoent =>
    obtain ⟨rfl, -, rfl⟩ := h
    exact ⟨hinv, hsub, hup, hstored.trans hkept, hstored ▸ .enoent⟩
  | e2big hbig =>
    obtain ⟨rfl, -, rfl⟩ := h
    exact ⟨hinv, hsub, hup, hstored.trans hkept, hstored ▸ .e2big (.inl hbig)⟩
  | eio =>
    obtain ⟨rfl, -, rfl⟩ := h
    exact ⟨hinv, hsub, hup, hstored.trans hkept, .eio⟩

theorem inv_of_not_valid (h : s.cache.valid = false) : Inv stored s :=
  ⟨NvsCache.mirrors_of_not_valid h, fun hvalid => Bool.noConfusion (h.symm.trans hvalid)⟩

theorem odHalNvsWrite_spec (hv : v.Documented stored survives) {record : Bytes} (hshort : record.length < 2 ^ 32)
    (h : s.odHalNvsWrite v b record = (rc, s')) (hs : Inv stored s) : Inv stored s' ∧
      (rc = odHalNvsOk ∧ espHolds stored survives s'.medium ⊆ {some record} ∨
        rc = odHalNvsE2big ∧ espHolds stored survives s'.medium ⊆ before v stored survives s ∨
        rc = odHalNvsEio ∧ espHolds stored survives s'.medium ⊆ before v stored survives s ∪ {some record}) := by
  have hself : espHolds stored survives s.medium ⊆ before v stored survives s :=
    subset_formatted (port v b) (fun s => espHolds stored survives s.medium) s
  rw [odHalNvsWrite] at h
  split_ifs at h
  · obtain ⟨rfl, rfl⟩ := h
    exact ⟨hs, .inr (.inr ⟨rfl, hself.trans Set.subset_union_left⟩)⟩
  · obtain ⟨rfl, rfl⟩ := h
    exact ⟨hs, .inr (.inl ⟨rfl, hself⟩)⟩
  rcases hinit : s.odHalNvsInit v with ⟨rcᵢ, sᵢ⟩
  have hsᵢ := hs.of_init hv hinit
  obtain ⟨-, -, hrc, -, hsub⟩ := odHalNvsInit_spec hv hinit
  simp only [hinit] at h
  rcases hrc with ⟨rfl, hready⟩ | rfl
  swap
  · obtain ⟨rfl, rfl⟩ := h
    exact ⟨hsᵢ, .inr (.inr ⟨rfl, hsub.trans Set.subset_union_left⟩)⟩
  rcases hopen : v.nvsOpen sᵢ.medium true with ⟨err, m⟩
  obtain ⟨hkept, hsub', -⟩ := hv.opened _ _ _ _ hopen
  have hsubₘ := (espHolds_mono hkept hsub').trans hsub
  simp only [hopen, ne_eq, not_true, if_false] at h
  by_cases hfail : ¬ err = .ok
  · rw [if_pos hfail] at h
    obtain ⟨rfl, rfl⟩ := h
    exact ⟨hsᵢ.of_medium hkept, .inr (.inr ⟨rfl, hsubₘ.trans Set.subset_union_left⟩)⟩
  rw [if_neg hfail] at h
  rcases hset : v.nvsSetBlob m record with ⟨err₁, m₁⟩
  rcases hcommit : (if err₁ = .ok then v.nvsCommit m₁ else (err₁, m₁)) with ⟨err₂, m₂⟩
  obtain ⟨hsettled, hunion⟩ := hv.setBlob_spec hset hcommit
  simp only [hset, hcommit] at h
  by_cases hfail₂ : ¬ err₂ = .ok
  · rw [if_pos hfail₂] at h
    obtain ⟨rfl, rfl⟩ := h
    exact ⟨inv_of_not_valid rfl, .inr (.inr ⟨rfl, hunion.trans (Set.union_subset_union_left _ hsubₘ)⟩)⟩
  rw [if_neg hfail₂] at h
  obtain ⟨rfl, rfl⟩ := h
  obtain ⟨hstored, hall⟩ := hsettled (not_not.mp hfail₂)
  exact ⟨⟨fun _ => ⟨record, hstored, NvsCache.put_holds hshort⟩, fun _ => hready⟩, .inl ⟨rfl, hall⟩⟩

theorem odHalNvsErase_spec (hv : v.Documented stored survives) (h : s.odHalNvsErase v = (rc, s')) (hs : Inv stored s) :
    Inv stored s' ∧ (rc = odHalNvsOk ∧ espHolds stored survives s'.medium ⊆ {none} ∨
      rc = odHalNvsEio ∧ espHolds stored survives s'.medium ⊆ before v stored survives s ∪ {none}) := by
  rcases hinit : s.odHalNvsInit v with ⟨rcᵢ, sᵢ⟩
  have hsᵢ := hs.of_init hv hinit
  obtain ⟨-, -, hrc, -, hsub⟩ := odHalNvsInit_spec hv hinit
  simp only [odHalNvsErase, hinit] at h
  rcases hrc with ⟨rfl, hready⟩ | rfl
  swap
  · obtain ⟨rfl, rfl⟩ := h
    exact ⟨hsᵢ, .inr ⟨rfl, hsub.trans Set.subset_union_left⟩⟩
  rcases hopen : v.nvsOpen sᵢ.medium true with ⟨err, m⟩
  obtain ⟨hkept, hsub', habsent⟩ := hv.opened _ _ _ _ hopen
  have hsubₘ := (espHolds_mono hkept hsub').trans hsub
  simp only [hopen, ne_eq, not_true, if_false] at h
  by_cases hnone : err = .nvsNotFound
  · rw [if_pos hnone] at h
    obtain ⟨rfl, rfl⟩ := h
    obtain ⟨hgone, hall⟩ := habsent hnone
    exact ⟨inv_of_not_valid rfl, .inl ⟨rfl, Set.insert_subset (hkept.trans hgone) (hsub'.trans hall)⟩⟩
  rw [if_neg hnone] at h
  by_cases hfail : ¬ err = .ok
  · rw [if_pos hfail] at h
    obtain ⟨rfl, rfl⟩ := h
    exact ⟨hsᵢ.of_medium hkept, .inr ⟨rfl, hsubₘ.trans Set.subset_union_left⟩⟩
  rw [if_neg hfail] at h
  rcases herase : eraseKey v m with ⟨err₁, m₁⟩
  obtain ⟨hsettled, hunion⟩ := hv.eraseKey_spec herase
  simp only [herase] at h
  by_cases hfail₁ : ¬ err₁ = .ok
  · rw [if_pos hfail₁] at h
    obtain ⟨rfl, rfl⟩ := h
    exact ⟨inv_of_not_valid rfl, .inr ⟨rfl, hunion.trans (Set.union_subset_union_left _ hsubₘ)⟩⟩
  rw [if_neg hfail₁] at h
  obtain ⟨rfl, rfl⟩ := h
  exact ⟨inv_of_not_valid rfl, .inl ⟨rfl, hsettled (not_not.mp hfail₁)⟩⟩

/-- The overwrite leaves the record, or zeros in its place. -/
theorem zeroWrite_spec (hv : v.Documented stored survives) :
    espHolds stored survives (zeroWrite v b m) ⊆ espHolds stored survives m ∪ zeros := by
  rcases hsize : v.nvsGetBlobSize m with ⟨err, n, m₁⟩
  obtain ⟨hkept, hsub, -⟩ := hv.getBlobSize _ _ _ _ hsize
  have hsub₁ := (espHolds_mono hkept hsub).trans (Set.subset_union_left (t := zeros))
  have hset : espHolds stored survives (v.nvsSetBlob m₁ (List.replicate n.toNat 0)).2 ⊆
      espHolds stored survives m ∪ zeros := by
    obtain ⟨-, hstored, hsub₂⟩ := hv.setBlob m₁ (List.replicate n.toNat 0) _ _ rfl
    have hzeros : ({some (List.replicate n.toNat 0)} : Set (Option Bytes)) ⊆ zeros :=
      Set.singleton_subset_iff.mpr ⟨_, rfl⟩
    exact (espHolds_union hstored hsub₂).trans (Set.union_subset_union (espHolds_mono hkept hsub) hzeros)
  simp only [zeroWrite, hsize]
  split_ifs
  · exact (hv.commit_spec rfl).2.trans hset
  · exact (hv.commit_spec rfl).2.trans hsub₁
  · exact hsub₁

theorem odHalNvsSecureErase_spec (hv : v.Documented stored survives) (h : s.odHalNvsSecureErase v b = (rc, s'))
    (hs : Inv stored s) : Inv stored s' ∧ (rc = odHalNvsOk ∧ espHolds stored survives s'.medium ⊆ {none} ∨
      rc = odHalNvsEio ∧ espHolds stored survives s'.medium ⊆ before v stored survives s ∪ zeros ∪ {none}) := by
  have hbefore : before v stored survives s ⊆ before v stored survives s ∪ zeros ∪ {none} :=
    Set.subset_union_left.trans Set.subset_union_left
  rcases hinit : s.odHalNvsInit v with ⟨rcᵢ, sᵢ⟩
  have hsᵢ := hs.of_init hv hinit
  obtain ⟨-, -, hrc, -, hsub⟩ := odHalNvsInit_spec hv hinit
  simp only [odHalNvsSecureErase, hinit] at h
  rcases hrc with ⟨rfl, hready⟩ | rfl
  swap
  · obtain ⟨rfl, rfl⟩ := h
    exact ⟨hsᵢ, .inr ⟨rfl, hsub.trans hbefore⟩⟩
  rcases hopen : v.nvsOpen sᵢ.medium true with ⟨err, m⟩
  obtain ⟨hkept, hsub', habsent⟩ := hv.opened _ _ _ _ hopen
  have hsubₘ := (espHolds_mono hkept hsub').trans hsub
  simp only [hopen, ne_eq, not_true, if_false] at h
  by_cases hnone : err = .nvsNotFound
  · rw [if_pos hnone] at h
    obtain ⟨rfl, rfl⟩ := h
    obtain ⟨hgone, hall⟩ := habsent hnone
    exact ⟨inv_of_not_valid rfl, .inl ⟨rfl, Set.insert_subset (hkept.trans hgone) (hsub'.trans hall)⟩⟩
  rw [if_neg hnone] at h
  by_cases hfail : ¬ err = .ok
  · rw [if_pos hfail] at h
    obtain ⟨rfl, rfl⟩ := h
    exact ⟨inv_of_not_valid rfl, .inr ⟨rfl, hsubₘ.trans hbefore⟩⟩
  rw [if_neg hfail] at h
  have hzeros := (zeroWrite_spec (b := b) (m := m) hv).trans (Set.union_subset_union_left zeros hsubₘ)
  rcases herase : eraseKey v (zeroWrite v b m) with ⟨err₁, m₁⟩
  obtain ⟨hsettled, hunion⟩ := hv.eraseKey_spec herase
  simp only [herase] at h
  by_cases hfail₁ : ¬ err₁ = .ok
  · rw [if_pos hfail₁] at h
    obtain ⟨rfl, rfl⟩ := h
    exact ⟨inv_of_not_valid rfl, .inr ⟨rfl, hunion.trans (Set.union_subset_union_left _ hzeros)⟩⟩
  rw [if_neg hfail₁] at h
  obtain ⟨rfl, rfl⟩ := h
  exact ⟨inv_of_not_valid rfl, .inl ⟨rfl, hsettled (not_not.mp hfail₁)⟩⟩

/-- The port keeps to the contract, whatever fails. -/
theorem port_contract (hv : v.Documented stored survives) : (port v b).Contract b (Inv stored)
    (fun s => stored s.medium) (fun s => espHolds stored survives s.medium) where
  found s _ := Set.mem_insert _ _
  short s record _ hr := hv.short _ _ hr
  init s hs := by
    obtain ⟨-, -, -, -, hsub⟩ := odHalNvsInit_spec hv (rfl : s.odHalNvsInit v = (_, (s.odHalNvsInit v).2))
    exact ⟨hs.of_init hv (rfl : s.odHalNvsInit v = (_, (s.odHalNvsInit v).2)), hsub⟩
  size _ _ _ _ h hs := odHalNvsSize_spec hv h hs
  read _ _ _ _ _ _ h hs hf := odHalNvsRead_spec hv hf h hs
  write _ _ _ _ h hshort hs := odHalNvsWrite_spec hv hshort h hs
  erase _ _ _ h hs := odHalNvsErase_spec hv h hs
  reset s hs := by
    obtain ⟨hstored, hsub⟩ := hv.reset s.medium
    exact ⟨inv_of_not_valid rfl, Set.insert_subset (.inr hstored) (hsub.trans (Set.subset_insert _ _))⟩
  own _ s hs := by
    rcases herase : s.odHalNvsSecureErase v b with ⟨rc, s'⟩
    obtain ⟨hinv, hout⟩ := odHalNvsSecureErase_spec hv herase hs
    show Inv stored (s.odHalNvsSecureErase v b).2 ∧
      espHolds stored survives (s.odHalNvsSecureErase v b).2.medium ⊆ possible (espHolds stored survives s.medium)
        (s.formatDeeds v ++ .tried zeros :: if (s.odHalNvsSecureErase v b).1 = odHalNvsOk then [.put none]
          else [.tried {none}])
    rw [herase, possible_append]
    refine ⟨hinv, ?_⟩
    rcases hout with ⟨rfl, hsub⟩ | ⟨rfl, hsub⟩
    · exact hsub
    · exact hsub

end EspNvs

end Contract

section Durable

variable {μ : Type}

/-- Whatever fails, and with uncommitted writes lost or kept, a load answers for one whole record of
the run, a saved payload is there until the next write, and what was cleared or overwritten and
erased is not. -/
theorem espNvs_durable (v : EspIdfNvs μ) (stored : μ → Option Bytes) (survives : μ → Set (Option Bytes))
    (hv : v.Documented stored survives) (b : OdConfigStoreBuild) (m : μ) :
    (EspNvs.port v b).LoadsWhole b (insert (stored m) (survives m)) (EspNvs.boot b m) ∧
      (EspNvs.port v b).LoadsSaved b (EspNvs.boot b m) ∧
      (EspNvs.port v b).LoadsNothing b (EspNvs.boot b m) .clear
        (fun s => ((EspNvs.port v b).odConfigStoreClear s).1 = .ok) ∧
      (EspNvs.port v b).LoadsNothing b (EspNvs.boot b m) (.own ())
        fun s => (s.odHalNvsSecureErase v b).1 = odHalNvsOk := by
  have hboot : EspNvs.Inv stored (EspNvs.boot b m) := EspNvs.inv_of_not_valid rfl
  have hcontract := EspNvs.port_contract (b := b) hv
  refine ⟨hcontract.loadsWhole hboot, hcontract.loadsSaved hboot, hcontract.loadsNothing_clear hboot, ?_⟩
  apply hcontract.loadsNothing hboot
  intro s hok
  refine ⟨s.formatDeeds v ++ [.tried EspNvs.zeros], ?_⟩
  show s.formatDeeds v ++ .tried EspNvs.zeros :: (if (s.odHalNvsSecureErase v b).1 = odHalNvsOk then [.put none]
    else [.tried {none}]) = _
  rw [if_pos hok, List.append_assoc]
  rfl

/-- An NVS that is one record as it is seen, one as it is committed, and a script: what each call
answers and, where it fails, whether it was done. -/
structure ScriptedNvs where
  visible : Option { record : Bytes // record.length < 2 ^ 32 } := none
  durable : Option { record : Bytes // record.length < 2 ^ 32 } := none
  script : List (EspErr × Bool)

namespace ScriptedNvs

def answer (m : ScriptedNvs) : EspErr × Bool := m.script.headD (.ok, true)

def next (m : ScriptedNvs) : ScriptedNvs := { m with script := m.script.tail }

def stored (m : ScriptedNvs) : Option Bytes := m.visible.map Subtype.val

def survives (m : ScriptedNvs) : Set (Option Bytes) := {m.durable.map Subtype.val}

def nvs : EspIdfNvs ScriptedNvs where
  nvsFlashInit m := (m.answer.1, m.next)
  nvsFlashErase m :=
    if m.answer.2 then (m.answer.1, { m.next with visible := none, durable := none }) else (.other 1, m.next)
  nvsOpen m _ :=
    if m.answer.1 = .ok then (.ok, m.next)
    else if m.visible = none ∧ m.durable = none then (.nvsNotFound, m.next)
    else (.other 1, m.next)
  nvsGetBlobSize m :=
    match m.answer.1, m.visible with
    | .ok, none => (.nvsNotFound, 0, m.next)
    | .ok, some record => (.ok, UInt32.ofNat record.val.length, m.next)
    | _, _ => (.other 1, 0, m.next)
  nvsGetBlob m buf _ :=
    match m.answer.1, m.visible with
    | .ok, some record =>
      (.ok, record.val ++ buf.drop record.val.length, UInt32.ofNat record.val.length, m.next)
    | _, _ => (.other 1, buf, 0, m.next)
  nvsSetBlob m record :=
    if h : record.length < 2 ^ 32 ∧ m.answer.2 = true then (m.answer.1, { m.next with visible := some ⟨record, h.1⟩ })
    else (.other 1, m.next)
  nvsEraseKey m := if m.answer.2 then (m.answer.1, { m.next with visible := none }) else (.other 1, m.next)
  nvsCommit m := if m.answer.1 = .ok then (.ok, { m.next with durable := m.visible }) else (.other 1, m.next)
  reset m := { m with visible := m.durable }

theorem nvs_documented : nvs.Documented stored survives where
  short := by
    rintro ⟨_ | ⟨record, hshort⟩, durable, script⟩ r hr
    · cases hr
    · obtain rfl := Option.some.inj hr
      exact hshort
  flashInit := by
    rintro m err m' h
    obtain ⟨rfl, rfl⟩ := h
    exact ⟨rfl, Set.Subset.refl _⟩
  flashErase := by
    rintro m err m' h
    simp only [nvs] at h
    split_ifs at h
    · obtain ⟨rfl, rfl⟩ := h
      exact ⟨.inr rfl, Set.subset_union_right⟩
    · obtain ⟨rfl, rfl⟩ := h
      exact ⟨.inl rfl, Set.subset_union_left⟩
  opened := by
    rintro m readWrite err m' h
    simp only [nvs] at h
    split_ifs at h with hok hnone
    · obtain ⟨rfl, rfl⟩ := h
      exact ⟨rfl, Set.Subset.refl _, fun h => by cases h⟩
    · obtain ⟨rfl, rfl⟩ := h
      refine ⟨rfl, Set.Subset.refl _, fun _ => ⟨congrArg _ hnone.1, ?_⟩⟩
      rw [survives, hnone.2]
      exact Set.Subset.refl _
    · obtain ⟨rfl, rfl⟩ := h
      exact ⟨rfl, Set.Subset.refl _, fun h => by cases h⟩
  getBlobSize := by
    rintro m err size m' h
    simp only [nvs] at h
    split at h
    · next _ hnone =>
      obtain ⟨rfl, rfl, rfl⟩ := h
      exact ⟨rfl, Set.Subset.refl _, fun _ => congrArg _ hnone, fun h => by cases h⟩
    · next record _ hsome =>
      obtain ⟨rfl, rfl, rfl⟩ := h
      exact ⟨rfl, Set.Subset.refl _, fun h => (by cases h), fun _ => ⟨record.val, congrArg _ hsome,
        UInt32.toNat_ofNat_of_lt' record.property⟩⟩
    · obtain ⟨rfl, rfl, rfl⟩ := h
      exact ⟨rfl, Set.Subset.refl _, fun h => (by cases h), fun h => by cases h⟩
  getBlob := by
    rintro m buf length err buf' size m' h
    simp only [nvs] at h
    split at h
    · next record _ hsome =>
      obtain ⟨rfl, rfl, rfl, rfl⟩ := h
      exact ⟨rfl, Set.Subset.refl _, fun _ => ⟨record.val, congrArg _ hsome,
        UInt32.toNat_ofNat_of_lt' record.property, rfl⟩⟩
    · obtain ⟨rfl, rfl, rfl, rfl⟩ := h
      exact ⟨rfl, Set.Subset.refl _, fun h => by cases h⟩
  setBlob := by
    rintro m record err m' h
    simp only [nvs] at h
    split_ifs at h with hdone
    · obtain ⟨rfl, rfl⟩ := h
      exact ⟨fun _ => rfl, .inr rfl, Set.subset_union_left⟩
    · obtain ⟨rfl, rfl⟩ := h
      exact ⟨fun h => (by cases h), .inl rfl, Set.subset_union_left⟩
  eraseKey := by
    rintro m err m' h
    simp only [nvs] at h
    split_ifs at h
    · obtain ⟨rfl, rfl⟩ := h
      exact ⟨fun _ => rfl, .inr rfl, Set.subset_union_left⟩
    · obtain ⟨rfl, rfl⟩ := h
      exact ⟨fun h => absurd h (by decide), .inl rfl, Set.subset_union_left⟩
  commit := by
    rintro m err m' h
    simp only [nvs] at h
    split_ifs at h
    · obtain ⟨rfl, rfl⟩ := h
      exact ⟨rfl, Set.subset_union_right, fun _ => Set.Subset.refl _⟩
    · obtain ⟨rfl, rfl⟩ := h
      exact ⟨rfl, Set.subset_union_left, fun h => by cases h⟩
  reset _ := ⟨rfl, Set.Subset.refl _⟩

/-- The partition is unusable at first, and later a blob is set and its commit fails. -/
def worn : ScriptedNvs :=
  { script := [(.nvsNoFreePages, true), (.ok, true), (.ok, true), (.ok, true), (.ok, true), (.other 1, true)] }

end ScriptedNvs

theorem espNvs_durable_scripted :
    (EspNvs.port ScriptedNvs.nvs {}).LoadsWhole {} (insert none {none}) (EspNvs.boot {} ScriptedNvs.worn) ∧
    (EspNvs.port ScriptedNvs.nvs {}).LoadsSaved {} (EspNvs.boot {} ScriptedNvs.worn) ∧
    (EspNvs.port ScriptedNvs.nvs {}).LoadsNothing {} (EspNvs.boot {} ScriptedNvs.worn) .clear
      (fun s => ((EspNvs.port ScriptedNvs.nvs {}).odConfigStoreClear s).1 = .ok) ∧
    (EspNvs.port ScriptedNvs.nvs {}).LoadsNothing {} (EspNvs.boot {} ScriptedNvs.worn) (.own ())
      fun s => (s.odHalNvsSecureErase ScriptedNvs.nvs {}).1 = odHalNvsOk :=
  espNvs_durable ScriptedNvs.nvs ScriptedNvs.stored ScriptedNvs.survives ScriptedNvs.nvs_documented {} _

end Durable

end OpenDisplay
