import OpenDisplay.Lib.Memory
import OpenDisplay.Config.Crc

/-! The stored record of a configuration: a header with a checksum and the bytes, written
from a workspace in memory and read back by parts. -/

namespace OpenDisplay

open Memories

section Model

def odConfigStoreMagic : UInt32 := 0xDEADBEEF
def odConfigStoreVersion : UInt32 := 1
def odConfigStoreHeaderSize : UInt32 := 16

/-- The build's `OD_CONFIG_MAX_SIZE`, with which the size of a record is still a 32-bit number. -/
structure OdConfigStoreBuild where
  maxSize : UInt32 := 4096
  fits : odConfigStoreHeaderSize.toNat + maxSize.toNat < 2 ^ 32 := by decide

def OdConfigStoreBuild.maxRecord (b : OdConfigStoreBuild) : UInt32 := odConfigStoreHeaderSize + b.maxSize

inductive OdConfigStoreResult where
  | ok | empty | corrupt | tooBig | io
deriving DecidableEq

def odHalNvsOk : Int := 0
def odHalNvsEnoent : Int := -2
def odHalNvsEio : Int := -5
def odHalNvsE2big : Int := -7

/-- The medium under the store, in states of type `μ`. -/
structure OdHalNvs (μ : Type) where
  size : μ → Int × UInt32
  read : μ → (offset len : UInt32) → Int × Bytes
  write : μ → Bytes → Int × μ

variable {μ : Type}

def fromHal (rc : Int) : OdConfigStoreResult :=
  if rc = odHalNvsOk then .ok
  else if rc = odHalNvsEnoent then .empty
  else if rc = odHalNvsE2big then .tooBig
  else .io

def odConfigStoreSave (hal : OdHalNvs μ) (b : OdConfigStoreBuild) (nvs : μ) (mem : Memory UInt8)
    (workspace : Option Nat)
    (workspaceCap : UInt32) (payload : Option Nat) (len : UInt32) : OdConfigStoreResult × Memory UInt8 × μ :=
  match workspace, payload with
  | some ws, some payload =>
    if len > b.maxSize then (.tooBig, mem, nvs)
    else
      let total := odConfigStoreHeaderSize + len
      if workspaceCap < total then (.tooBig, mem, nvs)
      else
        let crc := odConfigStoreCrc32 (load mem payload len.toNat)
        let slot := ws + odConfigStoreHeaderSize.toNat
        let mem := if payload ≠ slot ∧ len > 0 then store mem slot (load mem payload len.toNat) else mem
        let mem := store mem ws (writeLe32 odConfigStoreMagic)
        let mem := store mem (ws + 4) (writeLe32 odConfigStoreVersion)
        let mem := store mem (ws + 8) (writeLe32 crc)
        let mem := store mem (ws + 12) (writeLe32 len)
        let (rc, nvs) := hal.write nvs (load mem ws total.toNat)
        (fromHal rc, mem, nvs)
  | _, _ => (.io, mem, nvs)

/-- `len` is the capacity before and the length after. -/
def odConfigStoreLoad (hal : OdHalNvs μ) (b : OdConfigStoreBuild) (nvs : μ) (mem : Memory UInt8) (payload : Option Nat)
    (len : Option UInt32) : OdConfigStoreResult × Memory UInt8 × Option UInt32 :=
  match len, payload with
  | none, _ => (.io, mem, none)
  | some _, none => (.io, mem, some 0)
  | some cap, some payload =>
    let (rc, stored) := hal.size nvs
    if rc ≠ odHalNvsOk then (fromHal rc, mem, some 0)
    else if stored < odConfigStoreHeaderSize then (.corrupt, mem, some 0)
    else if stored > b.maxRecord then (.tooBig, mem, some 0)
    else
      let (rc, header) := hal.read nvs 0 odConfigStoreHeaderSize
      if rc ≠ odHalNvsOk then (fromHal rc, mem, some 0)
      else if readLe32 header ≠ odConfigStoreMagic then (.corrupt, mem, some 0)
      else
        let dataLen := readLe32 (header.drop 12)
        if dataLen > b.maxSize ∨ dataLen > cap then (.tooBig, mem, some 0)
        else if stored - odConfigStoreHeaderSize < dataLen then (.corrupt, mem, some 0)
        else
          let (rc, data) := if dataLen > 0 then hal.read nvs odConfigStoreHeaderSize dataLen else (odHalNvsOk, [])
          let mem := store mem payload data
          if rc ≠ odHalNvsOk then (fromHal rc, mem, some 0)
          else if odConfigStoreCrc32 (load mem payload dataLen.toNat) ≠ readLe32 (header.drop 8) then
            (.corrupt, mem, some 0)
          else (.ok, mem, some dataLen)

end Model

section Record

/-- The bytes of the record for a payload. -/
def storeRecord (payload : Bytes) : Bytes :=
  writeLe32 odConfigStoreMagic ++ (writeLe32 odConfigStoreVersion ++ (writeLe32 (odConfigStoreCrc32 payload) ++
    (writeLe32 (UInt32.ofNat payload.length) ++ payload)))

/-- The length that the header declares. -/
def recordLen (record : Bytes) : Nat := (readLe32 (record.drop 12)).toNat

def recordPayload (record : Bytes) : Bytes := (record.drop 16).take (recordLen record)

/-- The record is one that a buffer of this capacity can take. -/
structure Loadable (b : OdConfigStoreBuild) (cap : UInt32) (record : Bytes) : Prop where
  header : 16 ≤ record.length
  bounded : record.length ≤ 16 + b.maxSize.toNat
  magic : readLe32 record = odConfigStoreMagic
  maxSize : recordLen record ≤ b.maxSize.toNat
  cap : recordLen record ≤ cap.toNat
  present : recordLen record ≤ record.length - 16
  crc : odConfigStoreCrc32 (recordPayload record) = readLe32 (record.drop 8)

/-- The medium keeps one record: what was last written is what is read. -/
structure OdHalNvs.Keeps {μ : Type} (hal : OdHalNvs μ) (holds : μ → Option Bytes) : Prop where
  empty : ∀ nvs, holds nvs = none → (hal.size nvs).1 = odHalNvsEnoent
  size : ∀ nvs record, holds nvs = some record → (hal.size nvs).1 = odHalNvsOk ∧ (hal.size nvs).2.toNat = record.length
  read : ∀ nvs record, holds nvs = some record → ∀ offset len : UInt32, offset.toNat + len.toNat ≤ record.length →
    hal.read nvs offset len = (odHalNvsOk, (record.drop offset.toNat).take len.toNat)
  write : ∀ nvs record, (hal.write nvs record).1 = odHalNvsOk → holds (hal.write nvs record).2 = some record

end Record

section Load

variable {μ : Type} {hal : OdHalNvs μ} {holds : μ → Option Bytes} {b : OdConfigStoreBuild} {nvs : μ} {record : Bytes}
  {cap : UInt32}

theorem fromHal_ok {rc : Int} (h : rc ≠ odHalNvsOk) : fromHal rc ≠ .ok := by
  unfold fromHal
  rw [if_neg h]
  split
  · exact OdConfigStoreResult.noConfusion
  · split <;> exact OdConfigStoreResult.noConfusion

theorem readLe32_take {n : Nat} (h : 4 ≤ n) (bytes : Bytes) : readLe32 (bytes.take n) = readLe32 bytes := by
  have hget : ∀ i < 4, byteAt (bytes.take n) i = byteAt bytes i := by
    intro i hi
    simp [byteAt, List.getD, show i < n by omega]
  simp only [readLe32, hget 0 (by decide), hget 1 (by decide), hget 2 (by decide), hget 3 (by decide)]

theorem OdConfigStoreBuild.maxRecord_toNat (b : OdConfigStoreBuild) : b.maxRecord.toNat = 16 + b.maxSize.toNat := by
  have hfits := b.fits
  rw [OdConfigStoreBuild.maxRecord, UInt32.toNat_add, Nat.mod_eq_of_lt hfits]
  rfl

/-- The header of a record that is long enough is what the first read returns. -/
theorem OdHalNvs.Keeps.header (hk : hal.Keeps holds) (hr : holds nvs = some record) (hlen : 16 ≤ record.length) :
    ∃ header, hal.read nvs 0 odConfigStoreHeaderSize = (odHalNvsOk, header) ∧ readLe32 header = readLe32 record ∧
      readLe32 (header.drop 8) = readLe32 (record.drop 8) ∧ readLe32 (header.drop 12) = readLe32 (record.drop 12) := by
  have hread := hk.read nvs record hr 0 odConfigStoreHeaderSize (by simpa [odConfigStoreHeaderSize] using hlen)
  refine ⟨_, hread, readLe32_take (n := 16) (by decide) _, ?_, ?_⟩
  · rw [List.drop_take]
    exact readLe32_take (n := 8) (by decide) _
  · rw [List.drop_take]
    exact readLe32_take (n := 4) (by decide) _

/-- What a load of a kept record decides, in its order. -/
theorem odConfigStoreLoad_kept (hk : hal.Keeps holds) (hr : holds nvs = some record) (mem : Memory UInt8) (dst : Nat) :
    odConfigStoreLoad hal b nvs mem (some dst) (some cap) =
      if record.length < 16 then (.corrupt, mem, some 0)
      else if record.length > 16 + b.maxSize.toNat then (.tooBig, mem, some 0)
      else if readLe32 record ≠ odConfigStoreMagic then (.corrupt, mem, some 0)
      else if recordLen record > b.maxSize.toNat ∨ recordLen record > cap.toNat then (.tooBig, mem, some 0)
      else if record.length - 16 < recordLen record then (.corrupt, mem, some 0)
      else if odConfigStoreCrc32 (recordPayload record) ≠ readLe32 (record.drop 8) then
        (.corrupt, store mem dst (recordPayload record), some 0)
      else (.ok, store mem dst (recordPayload record), some (readLe32 (record.drop 12))) := by
  obtain ⟨stored, hstored, hsize⟩ : ∃ stored, hal.size nvs = (odHalNvsOk, stored) ∧ stored.toNat = record.length :=
    ⟨_, Prod.ext (hk.size nvs record hr).1 rfl, (hk.size nvs record hr).2⟩
  have hshort : stored < odConfigStoreHeaderSize ↔ record.length < 16 := by
    rw [UInt32.lt_iff_toNat_lt, hsize]
    rfl
  have hlong : stored > b.maxRecord ↔ record.length > 16 + b.maxSize.toNat := by
    rw [gt_iff_lt, UInt32.lt_iff_toNat_lt, hsize, b.maxRecord_toNat]
  by_cases hheader : record.length < 16
  · simp only [odConfigStoreLoad, hstored, ne_eq, not_true, if_false, if_pos (hshort.mpr hheader), if_pos hheader]
  by_cases hbounded : record.length > 16 + b.maxSize.toNat
  · simp only [odConfigStoreLoad, hstored, ne_eq, not_true, if_false, mt hshort.mp hheader, hlong.mpr hbounded, if_pos,
      if_neg hheader, if_pos hbounded]
  obtain ⟨header, hread, hmagic, hcrc, hlen⟩ := hk.header hr (Nat.not_lt.mp hheader)
  rw [if_neg hheader, if_neg hbounded]
  have hmaxSize : readLe32 (record.drop 12) > b.maxSize ↔ recordLen record > b.maxSize.toNat := UInt32.lt_iff_toNat_lt
  have hcap : readLe32 (record.drop 12) > cap ↔ recordLen record > cap.toNat := UInt32.lt_iff_toNat_lt
  have hpresent : stored - odConfigStoreHeaderSize < readLe32 (record.drop 12) ↔
      record.length - 16 < recordLen record := by
    have hle : odConfigStoreHeaderSize ≤ stored := by
      rw [UInt32.le_iff_toNat_le, hsize]
      exact Nat.not_lt.mp hheader
    rw [UInt32.lt_iff_toNat_lt, UInt32.toNat_sub_of_le _ _ hle, hsize]
    rfl
  by_cases hin : record.length - 16 < recordLen record
  · simp only [odConfigStoreLoad, hstored, ne_eq, not_true, if_false, if_neg (mt hshort.mp hheader),
      if_neg (mt hlong.mp hbounded), hread, hmagic, hlen, hmaxSize, hcap, hpresent, if_pos hin]
  have hpayload : (recordPayload record).length = recordLen record := by
    rw [recordPayload, List.length_take, List.length_drop]
    omega
  have hread' : (if readLe32 (record.drop 12) > 0 then
      hal.read nvs odConfigStoreHeaderSize (readLe32 (record.drop 12)) else (odHalNvsOk, [])) =
      (odHalNvsOk, recordPayload record) := by
    split
    · exact hk.read nvs record hr odConfigStoreHeaderSize (readLe32 (record.drop 12))
        (show 16 + recordLen record ≤ record.length by omega)
    · next hzero =>
      rw [gt_iff_lt, UInt32.lt_iff_toNat_lt] at hzero
      rw [List.length_eq_zero_iff.mp (hpayload.trans (Nat.le_zero.mp (Nat.not_lt.mp hzero)))]
  have hself :
      load (store mem dst (recordPayload record)) dst (readLe32 (record.drop 12)).toNat = recordPayload record := by
    show load _ dst (recordLen record) = recordPayload record
    rw [← hpayload]
    exact load_store_self
  simp only [odConfigStoreLoad, hstored, ne_eq, not_true, if_false, if_neg (mt hshort.mp hheader),
    if_neg (mt hlong.mp hbounded), hread, hmagic, hcrc, hlen, hmaxSize, hcap, hpresent, hread', hself, if_neg hin]

theorem odConfigStoreLoad_ok (hk : hal.Keeps holds) (hr : holds nvs = some record) (mem : Memory UInt8) (dst : Nat) :
    (odConfigStoreLoad hal b nvs mem (some dst) (some cap)).1 = .ok ↔ Loadable b cap record := by
  rw [odConfigStoreLoad_kept hk hr]
  constructor
  · intro h
    split_ifs at h with hheader hbounded hmagic hsizes hin hcrc
    obtain ⟨hmax, hcap⟩ := not_or.mp hsizes
    exact ⟨Nat.not_lt.mp hheader, Nat.not_lt.mp hbounded, not_not.mp hmagic, Nat.not_lt.mp hmax, Nat.not_lt.mp hcap,
      Nat.not_lt.mp hin, not_not.mp hcrc⟩
  · intro h
    rw [if_neg (Nat.not_lt.mpr h.header), if_neg (Nat.not_lt.mpr h.bounded), if_neg (not_not.mpr h.magic),
      if_neg (not_or.mpr ⟨Nat.not_lt.mpr h.maxSize, Nat.not_lt.mpr h.cap⟩), if_neg (Nat.not_lt.mpr h.present),
      if_neg (not_not.mpr h.crc)]

theorem odConfigStoreLoad_loadable (hk : hal.Keeps holds) (hr : holds nvs = some record) (h : Loadable b cap record)
    (mem : Memory UInt8) (dst : Nat) :
    odConfigStoreLoad hal b nvs mem (some dst) (some cap) =
      (.ok, store mem dst (recordPayload record), some (readLe32 (record.drop 12))) := by
  rw [odConfigStoreLoad_kept hk hr, if_neg (Nat.not_lt.mpr h.header), if_neg (Nat.not_lt.mpr h.bounded),
    if_neg (not_not.mpr h.magic), if_neg (not_or.mpr ⟨Nat.not_lt.mpr h.maxSize, Nat.not_lt.mpr h.cap⟩),
    if_neg (Nat.not_lt.mpr h.present), if_neg (not_not.mpr h.crc)]

/-- A load that fails leaves the length at 0. -/
def LoadCleared (out : OdConfigStoreResult × Memory UInt8 × Option UInt32) : Prop := out.1 ≠ .ok → out.2.2 = some 0

theorem odConfigStoreLoad_cleared (hal : OdHalNvs μ) (b : OdConfigStoreBuild) (nvs : μ) (mem : Memory UInt8)
    (payload : Option Nat) (cap : UInt32) : LoadCleared (odConfigStoreLoad hal b nvs mem payload (some cap)) := by
  have hfail : ∀ result mem, LoadCleared (result, mem, some 0) := fun _ _ _ => rfl
  cases payload with
  | none => exact hfail _ _
  | some payload =>
    refine iteInduction (motive := LoadCleared) (fun _ => hfail _ _) fun _ => ?_
    refine iteInduction (motive := LoadCleared) (fun _ => hfail _ _) fun _ => ?_
    refine iteInduction (motive := LoadCleared) (fun _ => hfail _ _) fun _ => ?_
    refine iteInduction (motive := LoadCleared) (fun _ => hfail _ _) fun _ => ?_
    refine iteInduction (motive := LoadCleared) (fun _ => hfail _ _) fun _ => ?_
    refine iteInduction (motive := LoadCleared) (fun _ => hfail _ _) fun _ => ?_
    refine iteInduction (motive := LoadCleared) (fun _ => hfail _ _) fun _ => ?_
    refine iteInduction (motive := LoadCleared) (fun _ => hfail _ _) fun _ => ?_
    exact iteInduction (motive := LoadCleared) (fun _ => hfail _ _) fun _ hok => absurd rfl hok

end Load

section Save

variable {μ : Type} {hal : OdHalNvs μ} {b : OdConfigStoreBuild} {nvs : μ} {len workspaceCap : UInt32}

theorem storeRecord_length (payload : Bytes) : (storeRecord payload).length = 16 + payload.length := by
  simp only [storeRecord, writeLe32, List.length_append, List.length_cons, List.length_nil]
  omega

theorem total_toNat (hlen : len ≤ b.maxSize) : (odConfigStoreHeaderSize + len).toNat = 16 + len.toNat := by
  have hfits := b.fits
  have hle := UInt32.le_iff_toNat_le.mp hlen
  rw [UInt32.toNat_add, Nat.mod_eq_of_lt (Nat.lt_of_le_of_lt (Nat.add_le_add_left hle _) hfits)]
  rfl

/-- The four words of the header, written in front of bytes that are in place. -/
theorem load_header (mem : Memory UInt8) (ws n : Nat) (v₀ v₁ v₂ v₃ : UInt32) :
    load (store (store (store (store mem ws (writeLe32 v₀)) (ws + 4) (writeLe32 v₁)) (ws + 8) (writeLe32 v₂)) (ws + 12)
      (writeLe32 v₃)) ws (16 + n) =
      writeLe32 v₀ ++ (writeLe32 v₁ ++ (writeLe32 v₂ ++ (writeLe32 v₃ ++ load mem (ws + 16) n))) := by
  have hfour : ∀ v, (writeLe32 v).length = 4 := fun _ => rfl
  have hself : ∀ (m : Memory UInt8) (p : Nat) (v : UInt32), load (store m p (writeLe32 v)) p 4 = writeLe32 v :=
    fun _ _ _ => load_store_self
  rw [show 16 + n = 4 + (4 + (4 + (4 + n))) by omega, load_add, load_add, load_add, load_add]
  congr 1
  · rw [load_store_ne (.inl (by omega)), load_store_ne (.inl (by omega)), load_store_ne (.inl (by omega)), hself]
  congr 1
  · rw [load_store_ne (.inl (by omega)), load_store_ne (.inl (by omega)), hself]
  congr 1
  · rw [load_store_ne (.inl (by omega)), hself]
  congr 1
  · rw [hself]
  · rw [load_store_ne (.inr (by rw [hfour])), load_store_ne (.inr (by rw [hfour]; omega)),
      load_store_ne (.inr (by rw [hfour]; omega)), load_store_ne (.inr (by rw [hfour]; omega))]

/-- Wherever the payload lies, what is written is the record for the bytes that it had. -/
theorem odConfigStoreSave_writes (hal : OdHalNvs μ) (nvs : μ) (mem : Memory UInt8) (ws p : Nat) (hlen : len ≤ b.maxSize)
    (hcap : 16 + len.toNat ≤ workspaceCap.toNat) :
    ∃ mem', odConfigStoreSave hal b nvs mem (some ws) workspaceCap (some p) len =
      (fromHal (hal.write nvs (storeRecord (load mem p len.toNat))).1, mem',
        (hal.write nvs (storeRecord (load mem p len.toNat))).2) := by
  have hroom : ¬ workspaceCap < odConfigStoreHeaderSize + len := by
    rw [UInt32.lt_iff_toNat_lt, total_toNat hlen]
    omega
  simp only [odConfigStoreSave, if_neg (UInt32.not_lt.mpr hlen), if_neg hroom, total_toNat hlen, load_header]
  have hslot : load (if p ≠ ws + odConfigStoreHeaderSize.toNat ∧ len > 0 then
      store mem (ws + odConfigStoreHeaderSize.toNat) (load mem p len.toNat) else mem) (ws + 16) len.toNat =
      load mem p len.toNat := by
    split
    · exact load_move
    · next hstays =>
      rcases not_and_or.mp hstays with hp | hzero
      · rw [not_not.mp hp]
        rfl
      · rw [gt_iff_lt, UInt32.lt_iff_toNat_lt] at hzero
        rw [Nat.le_zero.mp (Nat.not_lt.mp hzero)]
        rfl
  rw [hslot, storeRecord, load_length, UInt32.ofNat_toNat]
  exact ⟨_, rfl⟩

theorem odConfigStoreSave_ok {mem : Memory UInt8} {ws p : Nat}
    (h : (odConfigStoreSave hal b nvs mem (some ws) workspaceCap (some p) len).1 = .ok) :
    len ≤ b.maxSize ∧ 16 + len.toNat ≤ workspaceCap.toNat := by
  by_cases hlen : len > b.maxSize
  · simp only [odConfigStoreSave, if_pos hlen] at h
    cases h
  by_cases hroom : workspaceCap < odConfigStoreHeaderSize + len
  · simp only [odConfigStoreSave, if_neg hlen, if_pos hroom] at h
    cases h
  have hlen := UInt32.not_lt.mp hlen
  have hroom := UInt32.le_iff_toNat_le.mp (UInt32.not_lt.mp hroom)
  exact ⟨hlen, total_toNat hlen ▸ hroom⟩

end Save

section RoundTrip

variable {μ : Type} {b : OdConfigStoreBuild} {cap : UInt32}

theorem storeRecord_fields (payload : Bytes) (h : payload.length < 2 ^ 32) :
    readLe32 (storeRecord payload) = odConfigStoreMagic ∧
      readLe32 ((storeRecord payload).drop 8) = odConfigStoreCrc32 payload ∧
      readLe32 ((storeRecord payload).drop 12) = UInt32.ofNat payload.length ∧
      recordLen (storeRecord payload) = payload.length ∧ recordPayload (storeRecord payload) = payload := by
  have hdeclared : readLe32 ((storeRecord payload).drop 12) = UInt32.ofNat payload.length := readLe32_writeLe32 _ _
  have hlen : recordLen (storeRecord payload) = payload.length := by
    rw [recordLen, hdeclared, UInt32.toNat_ofNat_of_lt' h]
  refine ⟨readLe32_writeLe32 _ _, readLe32_writeLe32 _ _, hdeclared, hlen, ?_⟩
  rw [recordPayload, hlen]
  exact List.take_length

theorem storeRecord_loadable {payload : Bytes} (hmax : payload.length ≤ b.maxSize.toNat)
    (hcap : payload.length ≤ cap.toNat) : Loadable b cap (storeRecord payload) := by
  obtain ⟨hmagic, hcrc, -, hlen, hpayload⟩ := storeRecord_fields payload (Nat.lt_of_le_of_lt hmax b.maxSize.toNat_lt)
  have hlength := storeRecord_length payload
  exact ⟨by omega, by omega, hmagic, by omega, by omega, by omega, by rw [hpayload, hcrc]⟩

/-- What was saved is what is loaded, wherever the payload lay in the memory that the record
was made in; a record of any kind is loaded exactly if it is whole, fits and has the right
checksum; and otherwise the length is 0. -/
theorem odConfigStore_round_trip (hal : OdHalNvs μ) (holds : μ → Option Bytes) (hk : hal.Keeps holds)
    (b : OdConfigStoreBuild) :
    (∀ nvs mem ws workspaceCap p len, len ≤ b.maxSize → 16 + len.toNat ≤ workspaceCap.toNat →
      (odConfigStoreSave hal b nvs mem (some ws) workspaceCap (some p) len).1 =
        fromHal (hal.write nvs (storeRecord (load mem p len.toNat))).1) ∧
    (∀ nvs mem ws workspaceCap p len mem' nvs',
      odConfigStoreSave hal b nvs mem (some ws) workspaceCap (some p) len = (.ok, mem', nvs') →
      ∀ mem₁ dst cap, len ≤ cap → ∃ mem₂,
        odConfigStoreLoad hal b nvs' mem₁ (some dst) (some cap) = (.ok, mem₂, some len) ∧
          load mem₂ dst len.toNat = load mem p len.toNat) ∧
    (∀ nvs record, holds nvs = some record → ∀ mem dst cap,
      ((odConfigStoreLoad hal b nvs mem (some dst) (some cap)).1 = .ok ↔ Loadable b cap record) ∧
        (Loadable b cap record → odConfigStoreLoad hal b nvs mem (some dst) (some cap) =
          (.ok, store mem dst (recordPayload record), some (readLe32 (record.drop 12))))) ∧
    (∀ nvs, holds nvs = none → ∀ mem dst cap,
      (odConfigStoreLoad hal b nvs mem (some dst) (some cap)).1 = .empty) ∧
    (∀ nvs mem payload cap, (odConfigStoreLoad hal b nvs mem payload (some cap)).1 ≠ .ok →
      (odConfigStoreLoad hal b nvs mem payload (some cap)).2.2 = some 0) := by
  refine ⟨?_, ?_, fun nvs record hr mem dst cap => ⟨odConfigStoreLoad_ok hk hr mem dst, fun h =>
    odConfigStoreLoad_loadable hk hr h mem dst⟩, ?_, fun nvs mem payload cap =>
    odConfigStoreLoad_cleared hal b nvs mem payload cap⟩
  · intro nvs mem ws workspaceCap p len hlen hcap
    obtain ⟨mem', hsave⟩ := odConfigStoreSave_writes hal nvs mem ws p hlen hcap
    rw [hsave]
  · intro nvs mem ws workspaceCap p len mem' nvs' h mem₁ dst cap hcap
    obtain ⟨hlen, hroom⟩ := odConfigStoreSave_ok (congrArg Prod.fst h)
    obtain ⟨mem'', hsave⟩ := odConfigStoreSave_writes hal nvs mem ws p hlen hroom
    obtain ⟨hrc, hrest⟩ := Prod.mk.inj (hsave.symm.trans h)
    obtain ⟨-, rfl⟩ := Prod.mk.inj hrest
    have hholds := hk.write nvs _ (not_not.mp (mt fromHal_ok (not_not.mpr hrc)))
    have hcount : (load mem p len.toNat).length = len.toNat := load_length
    have hloadable : Loadable b cap (storeRecord (load mem p len.toNat)) :=
      storeRecord_loadable (hcount.trans_le (UInt32.le_iff_toNat_le.mp hlen))
        (hcount.trans_le (UInt32.le_iff_toNat_le.mp hcap))
    obtain ⟨-, -, hdeclared, -, hpayload⟩ :=
      storeRecord_fields (load mem p len.toNat) (hcount.trans_lt len.toNat_lt)
    refine ⟨store mem₁ dst (load mem p len.toNat), ?_, load_move⟩
    rw [odConfigStoreLoad_loadable hk hholds hloadable mem₁ dst, hpayload, hdeclared, hcount, UInt32.ofNat_toNat]
  · intro nvs hnone mem dst cap
    obtain ⟨stored, hsize⟩ : ∃ stored, hal.size nvs = (odHalNvsEnoent, stored) := ⟨_, Prod.ext (hk.empty nvs hnone) rfl⟩
    simp only [odConfigStoreLoad, hsize]
    rfl

/-- A medium that is one record. -/
def recordNvs : OdHalNvs (Option { record : Bytes // record.length < 2 ^ 32 }) where
  size nvs :=
    match nvs with
    | none => (odHalNvsEnoent, 0)
    | some record => (odHalNvsOk, UInt32.ofNat record.val.length)
  read nvs offset len :=
    match nvs with
    | none => (odHalNvsEnoent, [])
    | some record =>
      if record.val.length < offset.toNat + len.toNat then (odHalNvsE2big, [])
      else (odHalNvsOk, (record.val.drop offset.toNat).take len.toNat)
  write nvs record := if h : record.length < 2 ^ 32 then (odHalNvsOk, some ⟨record, h⟩) else (odHalNvsE2big, nvs)

theorem recordNvs_keeps : recordNvs.Keeps (Option.map Subtype.val) := by
  refine ⟨?_, ?_, ?_, ?_⟩
  · rintro (_ | record) hnone
    · rfl
    · cases hnone
  · rintro (_ | record) r hr
    · cases hr
    · obtain rfl := Option.some.inj hr
      exact ⟨rfl, UInt32.toNat_ofNat_of_lt' record.property⟩
  · rintro (_ | record) r hr offset len hin
    · cases hr
    · obtain rfl := Option.some.inj hr
      exact if_neg (Nat.not_lt.mpr hin)
  · intro nvs record hrc
    by_cases h : record.length < 2 ^ 32
    · simp only [recordNvs, dif_pos h, Option.map_some]
    · simp only [recordNvs, dif_neg h] at hrc
      exact absurd hrc (by decide)

/-- A payload that lies across the header and the place that it is moved to. -/
theorem odConfigStore_round_trip_overlap :
    ∃ mem nvs mem', odConfigStoreSave recordNvs {} none UInt8.ofNat (some 100) 64 (some 110) 8 = (.ok, mem, nvs) ∧
      odConfigStoreLoad recordNvs {} nvs mem (some 0) (some 8) = (.ok, mem', some 8) ∧
      load mem' 0 8 = [110, 111, 112, 113, 114, 115, 116, 117] := by
  obtain ⟨hsave, hload, -⟩ := odConfigStore_round_trip recordNvs (Option.map Subtype.val) recordNvs_keeps {}
  have hshort : (storeRecord (load UInt8.ofNat 110 8)).length < 2 ^ 32 := by
    rw [storeRecord_length, load_length]
    decide
  have hok : (odConfigStoreSave recordNvs {} none UInt8.ofNat (some 100) 64 (some 110) 8).1 = .ok := by
    rw [hsave none UInt8.ofNat 100 64 110 8 (by decide) (by decide)]
    simp only [recordNvs, UInt32.reduceToNat, dif_pos hshort]
    rfl
  obtain ⟨mem', hout, hbytes⟩ := hload none UInt8.ofNat 100 64 110 8 _ _ (Prod.ext hok rfl) _ 0 8 (by decide)
  exact ⟨_, _, mem', Prod.ext hok rfl, hout, hbytes.trans rfl⟩

end RoundTrip

end OpenDisplay
