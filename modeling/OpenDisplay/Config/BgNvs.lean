import OpenDisplay.Config.Medium

/-! The port over NVM3, which reads at an offset: the port keeps nothing of its own, and finds the
size of the record again for each span. -/

namespace OpenDisplay

open Durable

section Model

inductive Nvm3Status where
  | ok | errKeyNotFound
  | other (code : Nat)
deriving DecidableEq

/-- The NVM3 instance under one key, in states of type `μ`. -/
structure Nvm3 (μ : Type) where
  hasBeenOpened : μ → Bool
  initDefault : μ → Nvm3Status × μ
  getObjectInfo : μ → Nvm3Status × UInt32 × μ
  readPartialData : μ → (offset len : UInt32) → Nvm3Status × Bytes × μ
  writeData : μ → Bytes → Nvm3Status × μ
  deleteObject : μ → Nvm3Status × μ
  reset : μ → μ

variable {μ : Type} (n : Nvm3 μ)

namespace BgNvs

def odHalNvsInit (m : μ) : Int × μ :=
  if n.hasBeenOpened m then (odHalNvsOk, m)
  else (if (n.initDefault m).1 = .ok then odHalNvsOk else odHalNvsEio, (n.initDefault m).2)

def odHalNvsSize (m : μ) : Int × UInt32 × μ :=
  let (rc, m) := odHalNvsInit n m
  if rc ≠ odHalNvsOk then (odHalNvsEio, 0, m)
  else
    let (sc, len, m) := n.getObjectInfo m
    if sc = .errKeyNotFound then (odHalNvsEnoent, 0, m)
    else if sc ≠ .ok then (odHalNvsEio, 0, m)
    else (odHalNvsOk, len, m)

def odHalNvsRead (m : μ) (offset len : UInt32) : Int × Bytes × μ :=
  let (rc, stored, m) := odHalNvsSize n m
  if rc ≠ odHalNvsOk then (rc, [], m)
  else if offset > stored ∨ len > stored - offset then (odHalNvsE2big, [], m)
  else if len = 0 then (odHalNvsOk, [], m)
  else
    let (sc, data, m) := n.readPartialData m offset len
    (if sc = .ok then odHalNvsOk else odHalNvsEio, data, m)

def odHalNvsWrite (m : μ) (record : Bytes) : Int × μ :=
  if record.length = 0 then (odHalNvsEio, m)
  else
    let (rc, m) := odHalNvsInit n m
    if rc ≠ odHalNvsOk then (odHalNvsEio, m)
    else
      let (sc, m) := n.writeData m record
      (if sc = .ok then odHalNvsOk else odHalNvsEio, m)

def odHalNvsErase (m : μ) : Int × μ :=
  let (rc, m) := odHalNvsInit n m
  if rc ≠ odHalNvsOk then (odHalNvsEio, m)
  else
    let (sc, m) := n.deleteObject m
    (if sc = .ok ∨ sc = .errKeyNotFound then odHalNvsOk else odHalNvsEio, m)

def port : NvsPort μ Empty where
  odHalNvsInit := odHalNvsInit n
  odHalNvsSize := odHalNvsSize n
  odHalNvsRead := odHalNvsRead n
  odHalNvsWrite := odHalNvsWrite n
  odHalNvsErase := odHalNvsErase n
  reset := n.reset
  formats _ := false
  own := Empty.rec
  ownDeeds := Empty.rec

end BgNvs

end Model

section Contract

variable {μ : Type}

/-- The NVM3 as documented: a query leaves it as it is, and a failed write or delete has been done
or not. -/
structure Nvm3.Documented (n : Nvm3 μ) (stored : μ → Option Bytes) : Prop where
  short : ∀ m record, stored m = some record → record.length < 2 ^ 32
  init : ∀ m, stored (n.initDefault m).2 = stored m
  getObjectInfo : ∀ m sc len m', n.getObjectInfo m = (sc, len, m') → stored m' = stored m ∧
    (sc = .errKeyNotFound → stored m = none) ∧ (sc = .ok → ∃ record, stored m = some record ∧ len.toNat = record.length)
  readPartialData : ∀ m offset len sc data m', n.readPartialData m offset len = (sc, data, m') → stored m' = stored m ∧
    (sc = .ok → ∃ record, stored m = some record ∧ data = (record.drop offset.toNat).take len.toNat)
  writeData : ∀ m record sc m', n.writeData m record = (sc, m') →
    stored m' = some record ∨ sc ≠ .ok ∧ stored m' = stored m
  deleteObject : ∀ m sc m', n.deleteObject m = (sc, m') →
    stored m' = none ∨ sc ≠ .ok ∧ sc ≠ .errKeyNotFound ∧ stored m' = stored m
  reset : ∀ m, stored (n.reset m) = stored m

variable {n : Nvm3 μ} {stored : μ → Option Bytes} {b : OdConfigStoreBuild} {m m' : μ} {rc : Int}

namespace BgNvs

theorem odHalNvsInit_spec (hn : n.Documented stored) (h : odHalNvsInit n m = (rc, m')) :
    stored m' = stored m ∧ (rc = odHalNvsOk ∨ rc = odHalNvsEio) := by
  rw [odHalNvsInit] at h
  split_ifs at h
  · obtain ⟨rfl, rfl⟩ := h
    exact ⟨rfl, .inl rfl⟩
  · obtain ⟨rfl, rfl⟩ := h
    exact ⟨hn.init m, .inl rfl⟩
  · obtain ⟨rfl, rfl⟩ := h
    exact ⟨hn.init m, .inr rfl⟩

theorem odHalNvsSize_spec (hn : n.Documented stored) {len : UInt32} (h : odHalNvsSize n m = (rc, len, m')) :
    stored m' = stored m ∧ Told (fun record => len.toNat = record.length) (fun _ => False) rc (stored m') := by
  rcases hinit : odHalNvsInit n m with ⟨rcᵢ, mᵢ⟩
  obtain ⟨hkept, hrc⟩ := odHalNvsInit_spec hn hinit
  simp only [odHalNvsSize, hinit] at h
  rcases hrc with rfl | rfl
  swap
  · obtain ⟨rfl, rfl, rfl⟩ := h
    exact ⟨hkept, .eio⟩
  rcases hinfo : n.getObjectInfo mᵢ with ⟨sc, size, mₛ⟩
  obtain ⟨hkeptₛ, hnone, hsome⟩ := hn.getObjectInfo _ _ _ _ hinfo
  simp only [hinfo, ne_eq, not_true, if_false] at h
  by_cases habsent : sc = .errKeyNotFound
  · rw [if_pos habsent] at h
    obtain ⟨rfl, rfl, rfl⟩ := h
    exact ⟨hkeptₛ.trans hkept, (hkeptₛ.trans (hnone habsent)) ▸ .enoent⟩
  rw [if_neg habsent] at h
  by_cases hfail : ¬ sc = .ok
  · rw [if_pos hfail] at h
    obtain ⟨rfl, rfl, rfl⟩ := h
    exact ⟨hkeptₛ.trans hkept, .eio⟩
  rw [if_neg hfail] at h
  obtain ⟨rfl, rfl, rfl⟩ := h
  obtain ⟨record, hr, hlen⟩ := hsome (not_not.mp hfail)
  exact ⟨hkeptₛ.trans hkept, (hkeptₛ.trans hr) ▸ .ok hlen⟩

theorem odHalNvsRead_spec (hn : n.Documented stored) {offset len : UInt32} {data : Bytes}
    (h : odHalNvsRead n m offset len = (rc, data, m')) : stored m' = stored m ∧
      Told (fun record => offset.toNat + len.toNat ≤ record.length ∧ data = (record.drop offset.toNat).take len.toNat)
        (fun record => record.length < offset.toNat + len.toNat) rc (stored m') := by
  rcases hsize : odHalNvsSize n m with ⟨rcₛ, size, mₛ⟩
  obtain ⟨hkept, htold⟩ := odHalNvsSize_spec hn hsize
  simp only [odHalNvsRead, hsize] at h
  generalize hstored : stored mₛ = c at htold hkept
  cases htold with
  | enoent =>
    obtain ⟨rfl, -, rfl⟩ := h
    exact ⟨hstored.trans hkept, hstored ▸ .enoent⟩
  | e2big hbig => exact hbig.elim
  | eio =>
    obtain ⟨rfl, -, rfl⟩ := h
    exact ⟨hstored.trans hkept, .eio⟩
  | @ok record hlen =>
    rw [if_neg (not_not.mpr rfl)] at h
    by_cases hpast : offset > size
    · rw [if_pos (.inl hpast)] at h
      obtain ⟨rfl, -, rfl⟩ := h
      rw [gt_iff_lt, UInt32.lt_iff_toNat_lt] at hpast
      exact ⟨hstored.trans hkept, hstored ▸ .e2big (by omega)⟩
    have hoffset := UInt32.not_lt.mp hpast
    have hle := UInt32.le_iff_toNat_le.mp hoffset
    by_cases hspan : len > size - offset
    · rw [if_pos (.inr hspan)] at h
      obtain ⟨rfl, -, rfl⟩ := h
      rw [gt_iff_lt, UInt32.lt_iff_toNat_lt, UInt32.toNat_sub_of_le _ _ hoffset] at hspan
      exact ⟨hstored.trans hkept, hstored ▸ .e2big (by omega)⟩
    rw [if_neg (not_or.mpr ⟨hpast, hspan⟩)] at h
    rw [gt_iff_lt, UInt32.lt_iff_toNat_lt, UInt32.toNat_sub_of_le _ _ hoffset] at hspan
    have hin : offset.toNat + len.toNat ≤ record.length := by omega
    by_cases hzero : len = 0
    · rw [if_pos hzero] at h
      obtain ⟨rfl, rfl, rfl⟩ := h
      refine ⟨hstored.trans hkept, hstored ▸ .ok ⟨hin, ?_⟩⟩
      rw [hzero, UInt32.toNat_zero, List.take_zero]
    rw [if_neg hzero] at h
    rcases hread : n.readPartialData mₛ offset len with ⟨sc, bytes, mᵣ⟩
    obtain ⟨hkeptᵣ, hsome⟩ := hn.readPartialData _ _ _ _ _ _ hread
    simp only [hread] at h
    obtain ⟨rfl, rfl, rfl⟩ := h
    refine ⟨hkeptᵣ.trans (hstored.trans hkept), ?_⟩
    by_cases hok : sc = .ok
    · obtain ⟨record', hr, rfl⟩ := hsome hok
      obtain rfl := Option.some.inj (hr.symm.trans hstored)
      rw [if_pos hok, hkeptᵣ, hstored]
      exact .ok ⟨hin, rfl⟩
    · rw [if_neg hok]
      exact .eio

theorem odHalNvsWrite_spec (hn : n.Documented stored) {record : Bytes} (h : odHalNvsWrite n m record = (rc, m')) :
    rc = odHalNvsOk ∧ stored m' = some record ∨
      rc = odHalNvsEio ∧ (stored m' = stored m ∨ stored m' = some record) := by
  rw [odHalNvsWrite] at h
  by_cases hempty : record.length = 0
  · rw [if_pos hempty] at h
    obtain ⟨rfl, rfl⟩ := h
    exact .inr ⟨rfl, .inl rfl⟩
  rw [if_neg hempty] at h
  rcases hinit : odHalNvsInit n m with ⟨rcᵢ, mᵢ⟩
  obtain ⟨hkept, hrc⟩ := odHalNvsInit_spec hn hinit
  simp only [hinit] at h
  rcases hrc with rfl | rfl
  swap
  · obtain ⟨rfl, rfl⟩ := h
    exact .inr ⟨rfl, .inl hkept⟩
  rcases hwrite : n.writeData mᵢ record with ⟨sc, mₛ⟩
  have hwritten := hn.writeData _ _ _ _ hwrite
  rw [hkept] at hwritten
  simp only [hwrite, ne_eq, not_true, if_false] at h
  obtain ⟨rfl, rfl⟩ := h
  by_cases hok : sc = .ok
  · rw [if_pos hok]
    exact .inl ⟨rfl, hwritten.resolve_right fun hfail => hfail.1 hok⟩
  · rw [if_neg hok]
    exact .inr ⟨rfl, hwritten.symm.imp_left And.right⟩

theorem odHalNvsErase_spec (hn : n.Documented stored) (h : odHalNvsErase n m = (rc, m')) :
    rc = odHalNvsOk ∧ stored m' = none ∨ rc = odHalNvsEio ∧ (stored m' = stored m ∨ stored m' = none) := by
  rcases hinit : odHalNvsInit n m with ⟨rcᵢ, mᵢ⟩
  obtain ⟨hkept, hrc⟩ := odHalNvsInit_spec hn hinit
  simp only [odHalNvsErase, hinit] at h
  rcases hrc with rfl | rfl
  swap
  · obtain ⟨rfl, rfl⟩ := h
    exact .inr ⟨rfl, .inl hkept⟩
  rcases hdelete : n.deleteObject mᵢ with ⟨sc, mₛ⟩
  have hdeleted := hn.deleteObject _ _ _ hdelete
  rw [hkept] at hdeleted
  simp only [hdelete, ne_eq, not_true, if_false] at h
  obtain ⟨rfl, rfl⟩ := h
  by_cases hok : sc = .ok ∨ sc = .errKeyNotFound
  · rw [if_pos hok]
    exact .inl ⟨rfl, hdeleted.resolve_right fun hfail => hok.elim hfail.1 hfail.2.1⟩
  · rw [if_neg hok]
    exact .inr ⟨rfl, hdeleted.symm.imp_left fun hfail => hfail.2.2⟩

/-- The port keeps to the contract, whatever fails. -/
theorem port_contract (hn : n.Documented stored) :
    (port n).Contract b (fun _ => True) stored (fun m => {stored m}) where
  found _ _ := rfl
  short m record _ hr := hn.short _ _ hr
  init m _ := by
    rcases hinit : odHalNvsInit n m with ⟨rc, m'⟩
    show True ∧ {stored (odHalNvsInit n m).2} ⊆ ({stored m} : Set (Option Bytes))
    rw [hinit, (odHalNvsInit_spec hn hinit).1]
    exact ⟨trivial, Set.Subset.refl _⟩
  size m rc len m' h _ := by
    obtain ⟨hkept, htold⟩ := odHalNvsSize_spec hn h
    exact ⟨trivial, Set.singleton_subset_singleton.mpr hkept, fun _ => rfl,
      htold.mono (fun _ h => h) fun _ h => h.elim⟩
  read m offset len rc data m' h _ _ := by
    obtain ⟨hkept, htold⟩ := odHalNvsRead_spec hn h
    exact ⟨trivial, Set.singleton_subset_singleton.mpr hkept, fun _ => rfl, hkept,
      htold.mono (fun _ h => h) fun _ h => .inr h⟩
  write m record rc m' h _ _ := by
    refine ⟨trivial, (odHalNvsWrite_spec hn h).imp (And.imp_right Set.singleton_subset_singleton.mpr) ?_⟩
    rintro ⟨hrc, hstored⟩
    exact .inr ⟨hrc, Set.singleton_subset_iff.mpr hstored⟩
  erase m rc m' h _ := by
    refine ⟨trivial, (odHalNvsErase_spec hn h).imp (And.imp_right Set.singleton_subset_singleton.mpr) ?_⟩
    rintro ⟨hrc, hstored⟩
    exact ⟨hrc, Set.singleton_subset_iff.mpr hstored⟩
  reset m _ := ⟨trivial, Set.singleton_subset_singleton.mpr (hn.reset m)⟩
  own call := call.elim

end BgNvs

end Contract

section Durable

variable {μ : Type}

/-- Whatever fails, a load answers for one whole record of the run, a saved payload is there until
the next write, and what was cleared is not. -/
theorem bgNvs_durable (n : Nvm3 μ) (stored : μ → Option Bytes) (hn : n.Documented stored)
    (b : OdConfigStoreBuild) (m : μ) :
    (BgNvs.port n).LoadsWhole b {stored m} m ∧ (BgNvs.port n).LoadsSaved b m ∧
      (BgNvs.port n).LoadsNothing b m .clear fun m => ((BgNvs.port n).odConfigStoreClear m).1 = .ok := by
  have hcontract := BgNvs.port_contract (b := b) hn
  exact ⟨hcontract.loadsWhole trivial, hcontract.loadsSaved trivial, hcontract.loadsNothing_clear trivial⟩

/-- An NVM3 that is one record and a script: what each call answers and, where it fails, whether it
was done. -/
structure ScriptedNvm3 where
  record : Option { record : Bytes // record.length < 2 ^ 32 } := none
  opened : Bool := false
  script : List (Nvm3Status × Bool)

namespace ScriptedNvm3

def answer (m : ScriptedNvm3) : Nvm3Status × Bool := m.script.headD (.ok, true)

def next (m : ScriptedNvm3) : ScriptedNvm3 := { m with script := m.script.tail }

def stored (m : ScriptedNvm3) : Option Bytes := m.record.map Subtype.val

def nvm3 : Nvm3 ScriptedNvm3 where
  hasBeenOpened := opened
  initDefault m := (m.answer.1, { m.next with opened := m.answer.1 = .ok })
  getObjectInfo m :=
    match m.answer.1, m.record with
    | .ok, none => (.errKeyNotFound, 0, m.next)
    | .ok, some record => (.ok, UInt32.ofNat record.val.length, m.next)
    | _, _ => (.other 1, 0, m.next)
  readPartialData m offset len :=
    match m.answer.1, m.record with
    | .ok, some record => (.ok, (record.val.drop offset.toNat).take len.toNat, m.next)
    | _, _ => (.other 1, [], m.next)
  writeData m record :=
    if h : record.length < 2 ^ 32 ∧ m.answer.2 = true then (m.answer.1, { m.next with record := some ⟨record, h.1⟩ })
    else (.other 1, m.next)
  deleteObject m := if m.answer.2 then (m.answer.1, { m.next with record := none }) else (.other 1, m.next)
  reset m := { m with opened := false }

theorem nvm3_documented : nvm3.Documented stored where
  short := by
    rintro ⟨_ | ⟨record, hshort⟩, opened, script⟩ r hr
    · cases hr
    · obtain rfl := Option.some.inj hr
      exact hshort
  init _ := rfl
  getObjectInfo := by
    rintro m sc len m' h
    simp only [nvm3] at h
    split at h
    · next _ hnone =>
      obtain ⟨rfl, rfl, rfl⟩ := h
      exact ⟨rfl, fun _ => congrArg _ hnone, fun h => by cases h⟩
    · next record _ hsome =>
      obtain ⟨rfl, rfl, rfl⟩ := h
      exact ⟨rfl, fun h => (by cases h), fun _ => ⟨record.val, congrArg _ hsome,
        UInt32.toNat_ofNat_of_lt' record.property⟩⟩
    · obtain ⟨rfl, rfl, rfl⟩ := h
      exact ⟨rfl, fun h => (by cases h), fun h => by cases h⟩
  readPartialData := by
    rintro m offset len sc data m' h
    simp only [nvm3] at h
    split at h
    · next record _ hsome =>
      obtain ⟨rfl, rfl, rfl⟩ := h
      exact ⟨rfl, fun _ => ⟨record.val, congrArg _ hsome, rfl⟩⟩
    · obtain ⟨rfl, rfl, rfl⟩ := h
      exact ⟨rfl, fun h => by cases h⟩
  writeData := by
    rintro m record sc m' h
    simp only [nvm3] at h
    split_ifs at h
    · obtain ⟨rfl, rfl⟩ := h
      exact .inl rfl
    · obtain ⟨rfl, rfl⟩ := h
      exact .inr ⟨by decide, rfl⟩
  deleteObject := by
    rintro m sc m' h
    simp only [nvm3] at h
    split_ifs at h
    · obtain ⟨rfl, rfl⟩ := h
      exact .inl rfl
    · obtain ⟨rfl, rfl⟩ := h
      exact .inr ⟨by decide, by decide, rfl⟩
  reset _ := rfl

/-- The second write fails and was done, and the third fails and was not. -/
def worn : ScriptedNvm3 := { script := [(.ok, true), (.ok, true), (.other 1, true), (.other 1, false)] }

end ScriptedNvm3

theorem bgNvs_durable_scripted :
    (BgNvs.port ScriptedNvm3.nvm3).LoadsWhole { maxSize := 2048 } {none} ScriptedNvm3.worn ∧
    (BgNvs.port ScriptedNvm3.nvm3).LoadsSaved { maxSize := 2048 } ScriptedNvm3.worn ∧
    (BgNvs.port ScriptedNvm3.nvm3).LoadsNothing { maxSize := 2048 } ScriptedNvm3.worn .clear
      fun m => ((BgNvs.port ScriptedNvm3.nvm3).odConfigStoreClear m).1 = .ok :=
  bgNvs_durable ScriptedNvm3.nvm3 ScriptedNvm3.stored ScriptedNvm3.nvm3_documented { maxSize := 2048 } _

end Durable

end OpenDisplay
