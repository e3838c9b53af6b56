import OpenDisplay.Config.Silabs
import OpenDisplay.Dispatch.ReadStream

/-! A read of the configuration streams the payload of a record that was written, from the object
that writes go through: nothing changes its bytes before the last chunk. -/

namespace OpenDisplay

open Memories Durable

namespace Silabs

section Object

variable {b : OdConfigStoreBuild} {s : ConfigAsm b.maxSize.toNat} {mem : Memory UInt8} {k q : Nat}

theorem set_byte {i : Nat} (hi : i < b.maxSize.toNat) : setAssembler b s mem (bufferAt + i) = s.buffer[i] := by
  have hlen : i < s.buffer.toList.length := by rwa [Vector.length_toList]
  exact (store_inside hlen).trans (Vector.getElem_toList hlen)

/-- What is written is what is read. -/
theorem assembler_set : opendisplayConfigAssembler b (setAssembler b s mem) = s := by
  have hfour : ∀ v : UInt32, (writeLe32 v).length = 4 := fun _ => rfl
  have hread : ∀ v : UInt32, readLe32 (writeLe32 v) = v := by
    intro v
    have h := readLe32_writeLe32 v []
    rwa [List.append_nil] at h
  have hbuffer : s.buffer.toList.length = b.maxSize.toNat := Vector.length_toList
  have hself : ∀ (m : Memory UInt8) (p : Nat) (v : UInt32), load (store m p (writeLe32 v)) p 4 = writeLe32 v :=
    fun m p v => load_store_self
  have hactive : decide (setAssembler b s mem 0 ≠ 0) = s.active := by
    have hzero : setAssembler b s mem 0 = if s.active then 1 else 0 := by
      simp only [setAssembler]
      rw [store_outside (.inl (by decide)), store_outside (.inl (by decide)), store_outside (.inl (by decide)),
        store_outside (.inl (by decide))]
      rfl
    rw [hzero]
    cases s.active <;> decide
  have htotal : load (setAssembler b s mem) 4 4 = writeLe32 s.totalSize := by
    simp only [setAssembler]
    rw [load_store_ne (.inl (by decide)), load_store_ne (.inl (by decide)), load_store_ne (.inl (by decide)), hself]
  have hreceived : load (setAssembler b s mem) 8 4 = writeLe32 s.received := by
    simp only [setAssembler]
    rw [load_store_ne (.inl (by decide)), load_store_ne (.inl (by decide)), hself]
  have hchunks : load (setAssembler b s mem) 12 4 = writeLe32 s.chunks := by
    simp only [setAssembler]
    rw [load_store_ne (.inl (by decide)), hself]
  have hbytes : (Vector.ofFn fun i : Fin b.maxSize.toNat => setAssembler b s mem (bufferAt + i)) = s.buffer := by
    refine Vector.ext fun i hi => ?_
    rw [Vector.getElem_ofFn]
    exact set_byte hi
  rw [opendisplayConfigAssembler, hactive, htotal, hreceived, hchunks, hbytes, hread, hread, hread]

/-- The bytes of the object. -/
theorem load_assembler (hk : k ≤ b.maxSize.toNat) :
    load mem bufferAt k = (opendisplayConfigAssembler b mem).buffer.toList.take k := by
  apply List.ext_getElem
  · rw [load_length, List.length_take, Vector.length_toList, Nat.min_eq_left hk]
  · intro i hi hi'
    simp [load, opendisplayConfigAssembler]

theorem load_behind {s : ConfigAsm b.maxSize.toNat} (hq : frameAt b ≤ q) :
    load (setAssembler b s mem) q k = load mem q k := by
  have hword :
      ∀ (m : Memory UInt8) (p : Nat) (v : UInt32), p + 4 ≤ 16 → load (store m p (writeLe32 v)) q k = load m q k := by
    intro m p v hp
    refine load_store_ne (.inr ?_)
    have hlen : (writeLe32 v).length = 4 := rfl
    have hframe : frameAt b = 16 + b.maxSize.toNat := rfl
    omega
  simp only [setAssembler]
  rw [load_store_ne (.inr (by rw [Vector.length_toList]; exact hq)), hword _ _ _ (by decide), hword _ _ _ (by decide),
    hword _ _ _ (by decide), load_store_ne (.inr ?_)]
  have hframe : frameAt b = 16 + b.maxSize.toNat := rfl
  have hlen : [if s.active then (1 : UInt8) else 0].length = 1 := rfl
  omega

/-- A write behind the words leaves the transfer as it is, but for its bytes. -/
theorem store_active {xs : Bytes} (hq : bufferAt ≤ q) :
    (opendisplayConfigAssembler b (store mem q xs)).active = (opendisplayConfigAssembler b mem).active := by
  have h : store mem q xs 0 = mem 0 := store_outside (.inl (Nat.lt_of_lt_of_le (by decide) hq))
  rw [opendisplayConfigAssembler, opendisplayConfigAssembler, h]

/-- A write behind the object leaves it as it is. -/
theorem assembler_behind {xs : Bytes} (hq : frameAt b ≤ q) :
    opendisplayConfigAssembler b (store mem q xs) = opendisplayConfigAssembler b mem := by
  have hframe : frameAt b = 16 + b.maxSize.toNat := rfl
  have hword : ∀ p, p + 4 ≤ 16 → load (store mem q xs) p 4 = load mem p 4 :=
    fun p hp => load_store_ne (.inl (by omega))
  have hactive : store mem q xs 0 = mem 0 := store_outside (.inl (by omega))
  have hbytes : ∀ i : Fin b.maxSize.toNat, store mem q xs (bufferAt + i) = mem (bufferAt + i) := by
    intro i
    have hi := i.isLt
    have hbuffer : bufferAt = 16 := rfl
    exact store_outside (.inl (by omega))
  simp only [opendisplayConfigAssembler, hactive, hword 4 (by decide), hword 8 (by decide),
    hword 12 (by decide), hbytes]

end Object

section Service

variable {μ : Type} {n : Nvm3 μ} {stored : μ → Option Bytes} {b : OdConfigStoreBuild} {C : Set (Option Bytes)}
  {c c' : Config μ}

/-- Between two frames: a transfer that is going on stands in the object, and the record is one that
the writes may have left. -/
structure Sound (b : OdConfigStoreBuild) (stored : μ → Option Bytes) (C : Set (Option Bytes))
    (c : Config μ) : Prop where
  transfer : (opendisplayConfigAssembler b c.mem).active = true → Assembling (opendisplayConfigAssembler b c.mem) c.sent
  record : stored c.nvs ∈ possible C c.ledger

/-- The configuration with another medium that holds the same, and bytes that leave no transfer where
there was none. -/
theorem Sound.loaded (h : Sound b stored C c) (hidle : (opendisplayConfigAssembler b c'.mem).active = false)
    (hrecord : stored c'.nvs = stored c.nvs) (hledger : c'.ledger = c.ledger) : Sound b stored C c' where
  transfer ha := Bool.noConfusion (hidle.symm.trans ha)
  record := by
    rw [hrecord, hledger]
    exact h.record

theorem initConfigStorage_spec (hn : n.Documented stored) (c : Config μ) :
    ∃ nvs, stored nvs = stored c.nvs ∧ (initConfigStorage n c).2 = { c with nvs } :=
  ⟨_, (BgNvs.odHalNvsInit_spec hn rfl).1, rfl⟩

theorem Sound.init (hn : n.Documented stored) (h : Sound b stored C c) :
    Sound b stored C (initConfigStorage n c).2 := by
  obtain ⟨nvs, hkept, heq⟩ := initConfigStorage_spec hn c
  rw [heq]
  refine ⟨h.transfer, ?_⟩
  show stored nvs ∈ _
  rw [hkept]
  exact h.record

/-- A load writes at its place only. -/
def LoadsAt {σ : Type} (mem : Memory UInt8) (dst : Nat)
    (out : (OdConfigStoreResult × Memory UInt8 × Option UInt32) × σ) :
    Prop :=
  ∃ data, out.1.2.1 = store mem dst data

theorem odConfigStoreLoad_at {σ ε : Type} (port : NvsPort σ ε) (b : OdConfigStoreBuild) (s : σ) (mem : Memory UInt8)
    (dst : Nat) (cap : UInt32) : LoadsAt mem dst (port.odConfigStoreLoad b s mem (some dst) (some cap)) := by
  have hnone : ∀ (rc : OdConfigStoreResult) (s : σ), LoadsAt mem dst ((rc, mem, some 0), s) :=
    fun _ _ => ⟨[], store_nil.symm⟩
  refine iteInduction (motive := LoadsAt mem dst) (fun _ => hnone _ _) fun _ => ?_
  refine iteInduction (motive := LoadsAt mem dst) (fun _ => hnone _ _) fun _ => ?_
  refine iteInduction (motive := LoadsAt mem dst) (fun _ => hnone _ _) fun _ => ?_
  refine iteInduction (motive := LoadsAt mem dst) (fun _ => hnone _ _) fun _ => ?_
  refine iteInduction (motive := LoadsAt mem dst) (fun _ => hnone _ _) fun _ => ?_
  refine iteInduction (motive := LoadsAt mem dst) (fun _ => hnone _ _) fun _ => ?_
  refine iteInduction (motive := LoadsAt mem dst) (fun _ => hnone _ _) fun _ => ?_
  refine iteInduction (motive := LoadsAt mem dst) (fun _ => ⟨_, rfl⟩) fun _ => ?_
  exact iteInduction (motive := LoadsAt mem dst) (fun _ => ⟨_, rfl⟩) fun _ => ⟨_, rfl⟩

/-- What is loaded are the bytes of the record. -/
theorem recordNvs_loads {record : Option { record : Bytes // record.length < 2 ^ 32 }} {mem mem' : Memory UInt8}
    {dst : Nat}
    {cap len : UInt32} (h : odConfigStoreLoad recordNvs b record mem (some dst) (some cap) = (.ok, mem', some len)) :
    ∃ r, record.map Subtype.val = some r ∧ Loadable b cap r ∧ load mem' dst len.toNat = recordPayload r := by
  rcases record with _ | record
  · cases congrArg Prod.fst h
  have hloadable := (odConfigStoreLoad_ok recordNvs_keeps rfl mem dst).mp (congrArg Prod.fst h)
  rw [odConfigStoreLoad_loadable recordNvs_keeps rfl hloadable] at h
  obtain ⟨-, hrest⟩ := Prod.mk.inj h
  obtain ⟨rfl, hlen⟩ := Prod.mk.inj hrest
  obtain rfl := Option.some.inj hlen
  have hlength : (recordPayload record.val).length = recordLen record.val := by
    rw [recordPayload, List.length_take, List.length_drop]
    exact Nat.min_eq_left hloadable.present
  refine ⟨record.val, rfl, hloadable, ?_⟩
  show load _ dst (recordLen record.val) = _
  rw [← hlength]
  exact load_store_self

/-- A load finds the medium as it was; what it answers are the bytes of the record, in the object. -/
theorem loadConfig_spec (hn : n.Documented stored) (c : Config μ) :
    ∃ data nvs, stored nvs = stored c.nvs ∧ (loadConfig n b c).2 = { c with mem := store c.mem bufferAt data, nvs } ∧
      ∀ len, (loadConfig n b c).1 = some len → ∃ record, stored c.nvs = some record ∧ Loadable b b.maxSize record ∧
        load (store c.mem bufferAt data) bufferAt len.toNat = recordPayload record := by
  obtain ⟨data, hdata⟩ := odConfigStoreLoad_at (BgNvs.port n) b c.nvs c.mem bufferAt b.maxSize
  obtain ⟨⟨-, hkept⟩, hout⟩ :=
    (BgNvs.port_contract (b := b) hn).load trivial (s := c.nvs) c.mem (some bufferAt) (some b.maxSize)
  refine ⟨data, _, hkept rfl, ?_, ?_⟩
  · rw [loadConfig, ← hdata]
  · intro len hlen
    simp only [loadConfig] at hlen
    split_ifs at hlen with hok
    rcases hout with hio | ⟨record, hrecord, hload⟩
    · rw [hio] at hok
      cases hok
    obtain ⟨r, hr, hloadable, hbytes⟩ := recordNvs_loads (hload.symm.trans (Prod.ext hok (Prod.ext hdata hlen)))
    exact ⟨r, (show record.map Subtype.val = stored c.nvs from hrecord).symm.trans hr, hloadable, hbytes⟩

theorem load_idle (hidle : (opendisplayConfigAssembler b c.mem).active = false) (data : Bytes) :
    (opendisplayConfigAssembler b (store c.mem bufferAt data)).active = false := by
  rw [store_active (Nat.le_refl _), hidle]

theorem Sound.loadGlobalConfig (hn : n.Documented stored) (h : Sound b stored C c)
    (hidle : (opendisplayConfigAssembler b c.mem).active = false) : Sound b stored C (loadGlobalConfig n b c) := by
  obtain ⟨nvs, hinit, heq⟩ := initConfigStorage_spec hn c
  obtain ⟨data, nvs', hload, hloaded, -⟩ := loadConfig_spec (b := b) hn (initConfigStorage n c).2
  have hbefore : stored (initConfigStorage n c).2.nvs = stored c.nvs := by rw [heq, hinit]
  have hmem : (initConfigStorage n c).2.mem = c.mem := by rw [heq]
  have hledger : (initConfigStorage n c).2.ledger = c.ledger := by rw [heq]
  simp only [Silabs.loadGlobalConfig]
  split
  · exact h.init hn
  · rw [hloaded]
    refine h.loaded ?_ (hload.trans hbefore) hledger
    rw [hmem]
    exact load_idle hidle data

theorem reset_idle (c : Config μ) : (opendisplayConfigAssembler b (odConfigAsmResetHere b c).mem).active = false := by
  rw [odConfigAsmResetHere, assembler_set]
  rfl

/-- What the port did to the record is in the ledger. -/
theorem record_appended {nvs nvs' : μ} {ledger ds : List (Durable.Deed (Option Bytes))}
    (h : stored nvs ∈ possible C ledger)
    (hsub : ({stored nvs'} : Set (Option Bytes)) ⊆ possible {stored nvs} ds) :
    stored nvs' ∈ possible C (ledger ++ ds) := by
  rw [possible_append]
  exact possible_mono (Set.singleton_subset_iff.mpr h) (hsub rfl)

theorem save_deeds (nvs : μ) (mem : Memory UInt8) (data : Nat) (len : UInt32) :
    (BgNvs.port n).deeds b nvs (.save mem (some 0) b.maxRecord (some data) len) =
      saveDeeds (load mem data len.toNat)
        (odConfigStoreSave (BgNvs.port n).odHalNvs b nvs mem (some 0) b.maxRecord (some data) len).1 := by
  have hquiet : (BgNvs.port n).formatDeeds nvs = [] := rfl
  simp only [NvsPort.deeds, hquiet, List.nil_append]
  generalize (odConfigStoreSave (BgNvs.port n).odHalNvs b nvs mem (some 0) b.maxRecord (some data) len).1 = rc
  cases rc <;> rfl

/-- A save that is refused leaves the transfer; one that was tried leaves none. -/
theorem Sound.saveConfig (hn : n.Documented stored) (h : Sound b stored C c) {data : Nat} {len : UInt32}
    {payload : Bytes} (hpayload : load c.mem data len.toNat = payload) :
    Sound b stored C (saveConfig n b data len payload c).2 ∧
      ((saveConfig n b data len payload c).1 = true →
        (opendisplayConfigAssembler b (saveConfig n b data len payload c).2.mem).active = false) := by
  obtain ⟨nvs, hinit, heq⟩ := initConfigStorage_spec hn c
  simp only [Silabs.saveConfig]
  split
  · exact ⟨h, nofun⟩
  split
  · exact ⟨h.init hn, nofun⟩
  refine ⟨⟨fun ha => Bool.noConfusion ((reset_idle _).symm.trans ha), ?_⟩, fun _ => reset_idle _⟩
  rw [heq]
  have hsave := ((BgNvs.port_contract (b := b) hn).save trivial (s := nvs) c.mem (some 0) b.maxRecord (some data) len).2
  rw [save_deeds, hpayload] at hsave
  exact record_appended (hinit ▸ h.record) hsave

theorem Sound.persistConfig (hn : n.Documented stored) (h : Sound b stored C c) {data : Nat} {len : UInt32}
    {payload : Bytes} (hpayload : load c.mem data len.toNat = payload) :
    Sound b stored C (persistConfig n b data len payload c) := by
  obtain ⟨hsound, hidle⟩ := h.saveConfig hn hpayload
  simp only [Silabs.persistConfig]
  split
  · exact hsound
  · next hsaved => exact hsound.loadGlobalConfig hn (hidle (by simpa using hsaved))

theorem Sound.clear (hn : n.Documented stored) (h : Sound b stored C c) :
    Sound b stored C (odCmdAppConfigClear n b c) := by
  obtain ⟨-, herase⟩ := (BgNvs.port_contract (b := b) hn).erase c.nvs _ _ rfl trivial
  simp only [odCmdAppConfigClear]
  split
  · refine ⟨h.transfer, record_appended h.record ?_⟩
    rcases herase with ⟨-, hsub⟩ | ⟨-, hsub⟩
    · exact hsub.trans Set.subset_union_right
    · exact hsub
  · next hdone =>
    have hcleared : Sound b stored C (odConfigAsmResetHere b { c with
        nvs := ((BgNvs.port n).odConfigStoreClear c.nvs).2, ledger := c.ledger ++ [.put none] }) := by
      refine ⟨fun ha => Bool.noConfusion ((reset_idle _).symm.trans ha), record_appended h.record ?_⟩
      rcases herase with ⟨-, hsub⟩ | ⟨hrc, -⟩
      · exact hsub
      · exact absurd (fromHal_ok (hrc ▸ by decide)) hdone
    exact hcleared.loadGlobalConfig hn (reset_idle _)

/-- When the last chunk has come, the bytes that were sent are at the front of the buffer. -/
theorem move_complete {s s' : ConfigAsm b.maxSize.toNat} {sent : Nat × Bytes} {call : AsmCall} {r : Option AsmResult}
    (h : s.active = true → Assembling s sent) (hm : AsmMove s sent call r s') (hr : r = some .complete) :
    s'.active = false ∧ s'.received.toNat = (gather sent (call, r)).2.length ∧
      (gather sent (call, r)).2.length ≤ b.maxSize.toNat ∧
      s'.buffer.toList.take (gather sent (call, r)).2.length = (gather sent (call, r)).2 := by
  cases hm with
  | idle _ hcomplete _ => exact absurd hr hcomplete
  | start => cases hr
  | more => cases hr
  | last hactive hfits hend =>
    have hopen := h hactive
    exact ⟨rfl, hopen.extended_received hfits, hfits.within.trans hopen.storable, hopen.extended_front hfits⟩

theorem Sound.assemble (h : Sound b stored C c) (call : AsmCall) :
    Sound b stored C (assemble b call c).2 ∧
      ((assemble b call c).1 = some .complete →
        load (assemble b call c).2.mem bufferAt
          (opendisplayConfigAssembler b (assemble b call c).2.mem).received.toNat =
          (assemble b call c).2.sent.2) := by
  have hmove := asmStep_move h.transfer call
  simp only [Silabs.assemble, assembler_set]
  refine ⟨⟨?_, h.record⟩, ?_⟩
  · intro ha
    rw [assembler_set] at ha ⊢
    exact hmove.assembling h.transfer ha
  · intro hr
    obtain ⟨-, hreceived, hle, hfront⟩ := move_complete h.transfer hmove hr
    rw [hreceived, load_assembler hle, assembler_set]
    exact hfront

theorem Sound.persistAssembled (hn : n.Documented stored) (h : Sound b stored C c)
    (hsent : load c.mem bufferAt (opendisplayConfigAssembler b c.mem).received.toNat = c.sent.2) :
    Sound b stored C (persistAssembled n b c) :=
  h.persistConfig hn hsent

/-- The frame lies behind the object. -/
theorem Sound.received (h : Sound b stored C c) (body : Bytes) :
    Sound b stored C { c with mem := store c.mem (frameAt b) body } := by
  have hsame : opendisplayConfigAssembler b (store c.mem (frameAt b) body) = opendisplayConfigAssembler b c.mem :=
    assembler_behind (Nat.le_refl (frameAt b))
  refine ⟨?_, h.record⟩
  show (opendisplayConfigAssembler b (store c.mem (frameAt b) body)).active = true → _
  rw [hsame]
  exact h.transfer

theorem start_single {s : ConfigAsm b.maxSize.toNat} {payload : Bytes} (h : (odConfigAsmStart payload s).1 = .single) :
    payload.length < configChunkSizeWithPrefix := by
  by_contra hlong
  by_cases hlen : payload.length = configChunkSizeWithPrefix
  · rw [odConfigAsmStart_sized hlen] at h
    split_ifs at h
  · have hnil : payload ≠ [] := by
      rintro rfl
      exact hlong (by decide)
    rw [odConfigAsmStart, if_neg hnil, if_neg hlong, if_pos (by omega)] at h
    cases h

theorem Sound.write (hn : n.Documented stored) (h : Sound b stored C c) (body : Bytes) :
    Sound b stored C (odCmdAppConfigWrite n b body c) := by
  obtain ⟨hsound, hcomplete⟩ := (h.received body).assemble (.start body)
  simp only [odCmdAppConfigWrite]
  split
  · next hsingle =>
    have hshort := start_single (Option.some.inj hsingle)
    have hlen : (UInt32.ofNat body.length).toNat = body.length :=
      UInt32.toNat_ofNat_of_lt' (hshort.trans (by decide))
    refine hsound.persistConfig hn ?_
    rw [hlen]
    exact (load_behind (Nat.le_refl _)).trans load_store_self
  · next hlast => exact hsound.persistAssembled hn (hcomplete hlast)
  · exact hsound

theorem Sound.chunk (hn : n.Documented stored) (h : Sound b stored C c) (body : Bytes) :
    Sound b stored C (odCmdAppConfigChunk n b body c) := by
  obtain ⟨hsound, hcomplete⟩ := h.assemble (.chunk body)
  simp only [odCmdAppConfigChunk]
  split
  · next hlast => exact hsound.persistAssembled hn (hcomplete hlast)
  · exact hsound

/-- The bytes of a read that is going on: they are in the object, where no transfer is, and they are
those of a record that the writes may have left. -/
structure Streaming (b : OdConfigStoreBuild) (C : Set (Option Bytes)) (c : Config μ) (blob : Bytes) : Prop where
  idle : (opendisplayConfigAssembler b c.mem).active = false
  place : load c.mem bufferAt blob.length = blob
  record : ∃ record, some record ∈ possible C c.ledger ∧ Loadable b b.maxSize record ∧ recordPayload record = blob

theorem Sound.read (hn : n.Documented stored) (h : Sound b stored C c) :
    Sound b stored C (odCmdAppConfigRead n b c).2 ∧
      ((odCmdAppConfigRead n b c).1 ≠ [] → Streaming b C (odCmdAppConfigRead n b c).2
        (odCmdAppConfigRead n b c).1) := by
  obtain ⟨nvs, hinit, heq⟩ := initConfigStorage_spec hn c
  obtain ⟨data, nvs', hload, hloaded, hblob⟩ := loadConfig_spec (b := b) hn { c with nvs }
  simp only [odCmdAppConfigRead]
  split
  · exact ⟨h, fun hne => absurd rfl hne⟩
  next hidle =>
  rw [Bool.not_eq_true] at hidle
  have hsound : Sound b stored C { c with mem := store c.mem bufferAt data, nvs := nvs' } :=
    h.loaded (load_idle hidle data) (hload.trans hinit) rfl
  split
  · exact ⟨h.init hn, fun hne => absurd rfl hne⟩
  rw [heq]
  rcases hout : loadConfig n b { c with nvs } with ⟨_ | len, c'⟩
  · rw [hout] at hloaded
    obtain rfl := hloaded
    exact ⟨hsound, fun hne => absurd rfl hne⟩
  · rw [hout] at hloaded hblob
    obtain rfl := hloaded
    obtain ⟨record, hrecord, hloadable, hbytes⟩ := hblob len rfl
    refine ⟨hsound, fun _ => ⟨load_idle hidle data, ?_, record, ?_, hloadable, hbytes.symm⟩⟩
    · show load _ bufferAt (load (store c.mem bufferAt data) bufferAt len.toNat).length = _
      rw [load_length]
    · rw [← hrecord, hinit]
      exact h.record

/-- A handler keeps the configuration sound. -/
theorem Sound.app (hn : n.Documented stored) (h : Sound b stored C c) (inv : Invocation) :
    Sound b stored C (odCmdApp n b inv c) := by
  simp only [odCmdApp]
  split_ifs
  · exact h.write hn inv.body
  · exact h.chunk hn inv.body
  · exact h.clear hn
  · exact (h.read hn).1
  · exact h

/-- A command that neither writes nor reads the configuration. -/
theorem odCmdApp_other {inv : Invocation} (hcmd : odCmdMutatesConfig inv.cmd = false)
    (hread : inv.cmd ≠ cmdConfigRead) : odCmdApp n b inv c = c := by
  simp only [odCmdMutatesConfig, decide_eq_false_iff_not, not_or] at hcmd
  rw [odCmdApp, if_neg hcmd.1, if_neg hcmd.2.1, if_neg hcmd.2.2, if_neg hread]

end Service

section Routes

variable {slots : Nat} [NeZero slots] {bld : Build} {env : DispatchEnv}

/-- What a frame does to the reader, with the handler that was called. -/
inductive Routed (env : DispatchEnv) (before after : ConfigRead) : Option Invocation → Prop where
  | none : after = before → Routed env before after none
  | other {inv : Invocation} : before.Spared after → inv.cmd ≠ cmdConfigRead →
      (before.active = true → env.mutatesConfig inv.cmd = false) → Routed env before after (some inv)
  | read {inv : Invocation} : inv.cmd = cmdConfigRead → before.active ≠ true →
      (after.active = true → after.blob ≠ [] ∧ after.blob = (env.read inv.ctx inv.body).blob) →
      Routed env before after (some inv)

theorem row_configRead (bld : Build) :
    ∀ row ∈ odDispatchOpcodeRows bld, row.hook = .configRead ↔ row.cmd = cmdConfigRead := by
  obtain ⟨profile, capNfc⟩ := bld
  cases profile <;> cases capNfc <;> decide

variable {ctx : Ctx} {cmd : UInt16} {body : Bytes} {m : Machines} {k : Desk slots} {rp : Reply}

theorem Hook.run_configRead :
    (Hook.configRead.run bld env ctx body m k).2.1 = (configReadHandler ctx (env.read ctx body) m k).2.1 := by
  have hfirst := (resets_rule k.resets).acts rfl ctx.rp (env.read ctx body).first
  have hstart :=
    (odConfigReadStart_resets ctx.rp (env.read ctx body).blob (env.read ctx body).env m.read _).trans hfirst
  exact if_pos ((resets_rule k.resets).acts hstart ctx.rp (env.read ctx body).last)

/-- A read that is started has the blob that the handler loaded. -/
theorem configReadHandler_read (run : ReadRun) (hidle : m.read.active ≠ true)
    (ha : (configReadHandler ctx run m k).2.1.read.active = true) :
    (configReadHandler ctx run m k).2.1.read.blob ≠ [] ∧ (configReadHandler ctx run m k).2.1.read.blob = run.blob := by
  change (odConfigReadStart ctx.rp run.blob run.env m.read (k.acts ctx.rp run.first)).2.1.active = true at ha
  show (odConfigReadStart ctx.rp run.blob run.env m.read (k.acts ctx.rp run.first)).2.1.blob ≠ [] ∧
    (odConfigReadStart ctx.rp run.blob run.env m.read (k.acts ctx.rp run.first)).2.1.blob = run.blob
  by_cases hblob : run.blob = []
  · rw [odConfigReadStart, if_neg hidle, if_pos hblob] at ha
    cases ha
  · rw [(odConfigReadStart_eq ctx.rp run.env (k.acts ctx.rp run.first) hidle hblob).2] at ha ⊢
    split_ifs at ha ⊢
    exact ⟨hblob, rfl⟩

theorem runHandler_routed (hfree : m.read.active = true → cmd ≠ cmdConfigRead ∧ env.mutatesConfig cmd = false)
    (entered : List (Desk slots)) :
    Routed env m.read (runHandler bld env ctx cmd body m k entered).core.read
      (runHandler bld env ctx cmd body m k entered).invoked := by
  have hread :
    (runHandler bld env ctx cmd body m k entered).core.read = (dispatchPlain bld env ctx body cmd m k).2.1.read := rfl
  have hinvoked : (runHandler bld env ctx cmd body m k entered).invoked =
      if (bld.row cmd).isSome then some { cmd := cmd, ctx := ctx, body := body } else none := rfl
  rw [hread, hinvoked, dispatchPlain]
  rcases hrow : bld.row cmd with _ | row
  · exact .none rfl
  have hcmd : row.cmd = cmd := by simpa using List.find?_some hrow
  have hhook := row_configRead bld row (List.mem_of_find?_eq_some hrow)
  rw [hcmd] at hhook
  by_cases hconfig : row.hook = .configRead
  · have hidle : m.read.active ≠ true := fun ha => (hfree ha).1 (hhook.mp hconfig)
    refine .read (hhook.mp hconfig) hidle ?_
    dsimp only
    rw [hconfig, Hook.run_configRead]
    exact configReadHandler_read (env.read ctx body) hidle
  · exact .other ((follows_rule k.session).run (.refl _) bld ctx body hconfig m).2 (mt hhook.mpr hconfig)
      fun ha => (hfree ha).2

theorem dispatchReserved_routed (hfree : m.read.active = true → cmd ≠ cmdConfigRead ∧ env.mutatesConfig cmd = false)
    (wireLen : UInt16) :
    Routed env m.read (dispatchReserved bld env rp wireLen cmd body m k).core.read
      (dispatchReserved bld env rp wireLen cmd body m k).invoked := by
  unfold dispatchReserved
  split_ifs
  · exact .none rfl
  · exact .none rfl
  · split
    · exact runHandler_routed hfree _
    · split
      · exact runHandler_routed hfree _
      · exact .none rfl
  · exact runHandler_routed hfree _

theorem odDispatchFrame_routed (rp : Reply) (frame : Bytes) (core : Core slots) :
    Routed env core.read (odDispatchFrame bld env (some rp) (some frame) core).core.read
      (odDispatchFrame bld env (some rp) (some frame) core).invoked := by
  unfold odDispatchFrame
  dsimp only
  split_ifs with _ _ _ hbusy
  · exact .none rfl
  · refine .none ?_
    unfold refuseOversize
    split <;> rfl
  · exact .none rfl
  · split
    · refine dispatchReserved_routed (fun ha => ?_) _
      obtain ⟨hread, hmutates⟩ := not_or.mp fun hcmd => hbusy ⟨ha, hcmd⟩
      exact ⟨hread, by simpa using hmutates⟩
    · exact .none rfl
  · exact .none rfl

omit [NeZero slots] in
theorem odConfigReadCancel_idle (c : ConfigRead) (q : Txq slots) : (odConfigReadCancel c q).1.active = false := by
  unfold odConfigReadCancel
  split_ifs with hactive
  · rfl
  · exact Bool.eq_false_iff.mpr hactive

theorem odGateOpen_resets (rp : Reply) (cmd : UInt16) (envelope : Bytes) (scratch : Option Nat) (k : Desk slots) :
    (odGateOpen env rp cmd envelope scratch k).2.2.resets = k.resets := by
  unfold odGateOpen
  split
  · rfl
  · split_ifs
    · rfl
    · dsimp only
      split
      · rfl
      · rfl
      · split_ifs <;> rfl
      all_goals rfl

/-- A reset under the frame has ended the read. -/
theorem runHandler_torn (entered : List (Desk slots))
    (h : (runHandler bld env ctx cmd body m k entered).resets ≠ k.resets) :
    (runHandler bld env ctx cmd body m k entered).core.read.active = false := by
  change (dispatchPlain bld env ctx body cmd m k).2.2.resets ≠ k.resets at h
  show (dispatchPlain bld env ctx body cmd m k).2.1.read.active = false
  revert h
  unfold dispatchPlain
  split
  · next row _ =>
    intro h
    change (row.hook.handle bld env ctx body m k).2.2.resets ≠ k.resets at h
    unfold Hook.run
    dsimp only
    rw [if_neg h]
    exact odConfigReadCancel_idle _ _
  · exact fun h => absurd rfl h

theorem dispatchReserved_torn (wireLen : UInt16)
    (h : (dispatchReserved bld env rp wireLen cmd body m k).resets ≠ k.resets) :
    (dispatchReserved bld env rp wireLen cmd body m k).core.read.active = false := by
  revert h
  unfold dispatchReserved
  split_ifs
  · refine fun h => absurd ?_ h
    show (odGateAuthenticate env rp body k).2.resets = k.resets
    unfold odGateAuthenticate
    dsimp only
    split <;> rfl
  · exact fun h => absurd ((resets_rule k.resets).acts rfl rp _) h
  · split
    · next k' hk =>
      obtain rfl := congrArg Prod.snd hk
      exact runHandler_torn _
    · next k' hk =>
      obtain rfl := congrArg Prod.snd hk
      have hopen := @odGateOpen_resets _ _ env rp cmd body (some odSessionPlainMax) (unauthenticatedExempt env cmd k).2
      split
      · next k'' hg =>
        rw [hg] at hopen
        exact fun h => runHandler_torn _ fun heq => h (heq.trans hopen)
      · next k'' _ hg =>
        rw [hg] at hopen
        exact fun h => absurd hopen h
  · exact runHandler_torn _

theorem odDispatchFrame_torn (rp : Reply) (frame : Bytes) (core : Core slots)
    (h : (odDispatchFrame bld env (some rp) (some frame) core).resets ≠ 0) :
    (odDispatchFrame bld env (some rp) (some frame) core).core.read.active = false := by
  revert h
  unfold odDispatchFrame
  dsimp only
  split_ifs
  · exact fun h => absurd rfl h
  · exact fun h => absurd rfl h
  · exact fun h => absurd rfl h
  · split
    · exact dispatchReserved_torn _
    · exact fun h => absurd rfl h
  · exact fun h => absurd rfl h

/-- A pass of the reader that is not the last leaves it its blob. -/
theorem odConfigReadPump_keeps (renv : ReplyEnv) (core : Core slots)
    (ha : (odConfigReadPump renv core).2.read.active = true) :
    core.read.active = true ∧ (odConfigReadPump renv core).2.read.blob = core.read.blob := by
  have hactive : core.read.active = true := by
    by_contra hidle
    rw [odConfigReadPump, if_pos hidle] at ha
    exact hidle ha
  refine ⟨hactive, ?_⟩
  revert ha
  unfold odConfigReadPump
  rw [if_neg (not_not.mpr hactive)]
  split
  · next q token _ =>
    rw [emitChunk_eq]
    dsimp only
    split_ifs
    · exact fun ha => Bool.noConfusion ((odConfigReadCancel_idle _ _).symm.trans ha)
    · exact fun ha => Bool.noConfusion ((odConfigReadCancel_idle _ _).symm.trans ha)
    · exact fun _ => rfl
    · exact fun _ => rfl
  · exact fun _ => rfl

end Routes

section Runs

variable {μ : Type} {n : Nvm3 μ} {stored : μ → Option Bytes} {b : OdConfigStoreBuild} {bld : Build}
  {slots : Nat} [NeZero slots]
  {C : Set (Option Bytes)} {s : Device slots μ}

structure DeviceSound (b : OdConfigStoreBuild) (stored : μ → Option Bytes) (C : Set (Option Bytes))
    (s : Device slots μ) : Prop where
  config : Sound b stored C s.config
  reading : s.core.read.active = true → Streaming b C s.config s.core.read.blob

theorem powerUp_sound (hn : n.Documented stored) (slot : UInt8) (etag : UInt32) {nvs : μ}
    {ledger : List (Durable.Deed (Option Bytes))} (h : stored nvs ∈ possible C ledger) :
    DeviceSound b stored C (powerUp n b slot etag nvs ledger : Device slots μ) := by
  have hidle : (opendisplayConfigAssembler b (fun _ => 0)).active = false := rfl
  have hclear : Sound b stored C { mem := fun _ => 0, nvs, ledger } :=
    ⟨fun ha => Bool.noConfusion (hidle.symm.trans ha), h⟩
  exact ⟨hclear.loadGlobalConfig hn hidle, nofun⟩

/-- A frame that changes the configuration is deferred while a read is going on, and one that starts a
read is given the bytes it has loaded. -/
theorem DeviceSound.frame (hn : n.Documented stored) (h : DeviceSound b stored C s) (env : DispatchEnv) (rp : Reply)
    (frame : Bytes) : DeviceSound b stored C (dispatchWrite n b bld env rp frame s) := by
  have hrouted := @odDispatchFrame_routed _ _ bld (targetEnv n b env s.config) rp frame s.core
  unfold dispatchWrite
  have htorn := @odDispatchFrame_torn _ _ bld (targetEnv n b env s.config) rp frame s.core
  generalize odDispatchFrame bld (targetEnv n b env s.config) (some rp) (some frame) s.core = r at hrouted htorn
  dsimp only
  suffices h : DeviceSound b stored C
      { core := r.core, config := r.invoked.elim s.config (odCmdApp n b · s.config) } by
    split_ifs with hresets
    · exact h
    · exact ⟨h.config.loaded (reset_idle _) rfl rfl, fun ha => Bool.noConfusion ((htorn hresets).symm.trans ha)⟩
  generalize r.invoked = invoked at hrouted
  cases hrouted with
  | none hkept =>
    refine ⟨h.config, fun ha => ?_⟩
    rw [hkept] at ha ⊢
    exact h.reading ha
  | @other inv hkept hcmd hfree =>
    refine ⟨h.config.app hn inv, fun ha => ?_⟩
    have hsame : r.core.read = s.core.read :=
      hkept.resolve_right fun hover => Bool.noConfusion (hover.1.symm.trans ha)
    rw [hsame] at ha ⊢
    show Streaming b C (odCmdApp n b inv s.config) _
    rw [odCmdApp_other (hfree ha) hcmd]
    exact h.reading ha
  | @read inv hcmd _ hblob =>
    refine ⟨h.config.app hn inv, fun ha => ?_⟩
    obtain ⟨hne, hloaded⟩ := hblob ha
    rw [hloaded] at hne ⊢
    have happ : odCmdApp n b inv s.config = (odCmdAppConfigRead n b s.config).2 := by
      rw [odCmdApp, hcmd]
      rfl
    show Streaming b C (odCmdApp n b inv s.config) _
    rw [happ]
    exact (h.config.read hn).2 hne

theorem DeviceSound.step (hn : n.Documented stored) (h : DeviceSound b stored C s) (a : Act) :
    DeviceSound b stored C (step n b bld s a) := by
  cases a with
  | frame env rp frame => exact h.frame hn env rp frame
  | resetTransport =>
    refine ⟨h.config.loaded (reset_idle _) rfl rfl, fun ha => ?_⟩
    exact Bool.noConfusion ((odConfigReadCancel_idle s.core.read s.core.q).symm.trans ha)
  | pump env =>
    refine ⟨h.config, fun ha => ?_⟩
    obtain ⟨hactive, hblob⟩ := odConfigReadPump_keeps env s.core ha
    show Streaming b C s.config (odConfigReadPump env s.core).2.read.blob
    rw [hblob]
    exact h.reading hactive
  | hook a => exact ⟨h.config, h.reading⟩
  | powerCycle slot etag =>
    refine powerUp_sound hn slot etag ?_
    have hkept := ((BgNvs.port_contract (b := b) hn).reset s.config.nvs trivial).2 rfl
    rw [show stored ((BgNvs.port n).reset s.config.nvs) = stored s.config.nvs from hkept]
    exact h.config.record

theorem DeviceSound.run (hn : n.Documented stored) (h : DeviceSound b stored C s) (acts : List Act) :
    DeviceSound b stored C (run n b bld s acts) := by
  induction acts generalizing s with
  | nil => exact h
  | cons a acts ih => exact ih (h.step hn a)

/-- A reader that is active streams what the object still has: the payload of a record that the writes
may have left, which is the one that was saved last if that was the last thing to be done to the record. -/
def ReadsBack (b : OdConfigStoreBuild) (initial : Set (Option Bytes)) (s : Device slots μ) : Prop :=
  s.core.read.active = true →
    (opendisplayConfigAssembler b s.config.mem).active = false ∧
    load s.config.mem bufferAt s.core.read.blob.length = s.core.read.blob ∧
    (∃ record, some record ∈ possible initial s.config.ledger ∧ Loadable b b.maxSize record ∧
      recordPayload record = s.core.read.blob) ∧
    (∀ before payload, s.config.ledger = before ++ [.put (some (storeRecord payload))] → s.core.read.blob = payload) ∧
    ∀ before, s.config.ledger ≠ before ++ [.put none]

omit [NeZero slots] in
theorem DeviceSound.readsBack (h : DeviceSound b stored C s) : ReadsBack b C s := by
  intro ha
  obtain ⟨hidle, hplace, record, hrecord, hloadable, hblob⟩ := h.reading ha
  refine ⟨hidle, hplace, ⟨record, hrecord, hloadable, hblob⟩, ?_, ?_⟩
  · intro before payload hledger
    rw [hledger, possible_append, possible_put] at hrecord
    obtain rfl := Option.some.inj hrecord
    have hbounded := hloadable.bounded
    have hfits : 16 + b.maxSize.toNat < 2 ^ 32 := b.fits
    rw [storeRecord_length] at hbounded
    obtain ⟨-, -, -, -, hpayload⟩ := storeRecord_fields payload (by omega)
    rw [← hblob, hpayload]
  · intro before hledger
    rw [hledger, possible_append, possible_put] at hrecord
    cases hrecord

/-- Over every run of frames, resets and power cycles a read streams the payload of a record that was
written, from the object that writes go through, and a transfer finds there what its frames have spelled. -/
theorem opendisplayConfig_readsBack (n : Nvm3 μ) (stored : μ → Option Bytes) (hn : n.Documented stored)
    (b : OdConfigStoreBuild) (bld : Build) (slot : UInt8) (etag : UInt32) (nvs : μ) (acts : List Act) :
    let s : Device slots μ := run n b bld (powerUp n b slot etag nvs []) acts
    ReadsBack b {stored nvs} s ∧
      ((opendisplayConfigAssembler b s.config.mem).active = true →
        Assembling (opendisplayConfigAssembler b s.config.mem) s.config.sent) := by
  intro s
  have hboot : DeviceSound b stored {stored nvs} (powerUp n b slot etag nvs [] : Device slots μ) :=
    powerUp_sound hn slot etag rfl
  have hsound : DeviceSound b stored {stored nvs} s := hboot.run hn acts
  exact ⟨hsound.readsBack, hsound.config.transfer⟩

end Runs

section Started

/-- A port that answers for the record of a payload loads it. -/
theorem odConfigStoreLoad_answered {σ ε : Type} {port : NvsPort σ ε} {b : OdConfigStoreBuild} {s s₁ s₂ s₃ : σ}
    {payload : Bytes} {len : UInt32} (hlen : len.toNat = payload.length) (hmax : len ≤ b.maxSize) (hsome : len > 0)
    (hsize : port.odHalNvsSize s = (odHalNvsOk, odConfigStoreHeaderSize + len, s₁))
    (hheader : port.odHalNvsRead s₁ 0 odConfigStoreHeaderSize = (odHalNvsOk, (storeRecord payload).take 16, s₂))
    (hdata : port.odHalNvsRead s₂ odConfigStoreHeaderSize len = (odHalNvsOk, payload, s₃)) (mem : Memory UInt8)
    (dst : Nat) :
    port.odConfigStoreLoad b s mem (some dst) (some b.maxSize) = ((.ok, store mem dst payload, some len), s₃) := by
  obtain ⟨hmagic, hcrc, hdeclared, -, -⟩ := storeRecord_fields payload (hlen ▸ len.toNat_lt)
  have htotal := total_toNat hmax
  have hle := UInt32.le_iff_toNat_le.mp hmax
  have hshort : ¬ odConfigStoreHeaderSize + len < odConfigStoreHeaderSize := by
    rw [UInt32.lt_iff_toNat_lt, htotal]
    exact Nat.not_lt.mpr (Nat.le_add_right 16 _)
  have hbounded : ¬ odConfigStoreHeaderSize + len > b.maxRecord := by
    rw [gt_iff_lt, UInt32.lt_iff_toNat_lt, htotal, b.maxRecord_toNat]
    omega
  have hpresent : odConfigStoreHeaderSize + len - odConfigStoreHeaderSize = len := by
    rw [UInt32.add_comm, UInt32.add_sub_cancel]
  have hself : load (store mem dst payload) dst len.toNat = payload := by
    rw [hlen]
    exact load_store_self
  have hmagic : readLe32 ((storeRecord payload).take 16) = odConfigStoreMagic :=
    (readLe32_take (by decide) _).trans hmagic
  have hdeclared : readLe32 (((storeRecord payload).take 16).drop 12) = len := by
    rw [List.drop_take, readLe32_take (by decide), hdeclared, ← hlen, UInt32.ofNat_toNat]
  have hcrc : readLe32 (((storeRecord payload).take 16).drop 8) = odConfigStoreCrc32 payload := by
    rw [List.drop_take, readLe32_take (by decide), hcrc]
  simp only [NvsPort.odConfigStoreLoad, hsize, hheader, hdata, hmagic, hdeclared, hcrc, hpresent, hself,
    ne_eq, not_true, if_false, if_neg hshort, if_neg hbounded, if_neg (UInt32.not_lt.mpr hmax), or_self,
    if_pos hsome, UInt32.lt_irrefl]

/-- An NVM3 that has the record for a payload of 120 bytes, and answers. -/
def savedNvm3 (payload : Bytes) (h : payload.length = 120) (opened : Bool) : ScriptedNvm3 :=
  { record := some ⟨storeRecord payload, by rw [storeRecord_length, h]; decide⟩, opened, script := [] }

variable {payload : Bytes} (h : payload.length = 120) (opened : Bool) (mem : Memory UInt8)

theorem savedNvm3_size :
    BgNvs.odHalNvsSize ScriptedNvm3.nvm3 (savedNvm3 payload h opened) =
      (odHalNvsOk, 136, savedNvm3 payload h true) := by
  have hlen : UInt32.ofNat (storeRecord payload).length = 136 := by
    rw [storeRecord_length, h]
    rfl
  have hinit :
      BgNvs.odHalNvsInit ScriptedNvm3.nvm3 (savedNvm3 payload h opened) = (odHalNvsOk, savedNvm3 payload h true) := by
    cases opened <;> rfl
  rw [BgNvs.odHalNvsSize, hinit, ← hlen]
  rfl

theorem savedNvm3_read {offset len : UInt32} (hin : ¬ (offset > 136 ∨ len > 136 - offset)) (hsome : len ≠ 0) :
    BgNvs.odHalNvsRead ScriptedNvm3.nvm3 (savedNvm3 payload h true) offset len =
      (odHalNvsOk, ((storeRecord payload).drop offset.toNat).take len.toNat, savedNvm3 payload h true) := by
  rw [BgNvs.odHalNvsRead, savedNvm3_size]
  dsimp only
  rw [if_neg (by decide), if_neg hin, if_neg hsome]
  rfl

theorem savedNvm3_inits :
    initConfigStorage ScriptedNvm3.nvm3 { mem, nvs := savedNvm3 payload h opened } =
      (true, { mem, nvs := savedNvm3 payload h true }) := by
  cases opened <;> rfl

theorem savedNvm3_loads :
    loadConfig ScriptedNvm3.nvm3 { maxSize := 128 } { mem, nvs := savedNvm3 payload h opened } =
      (some 120, { mem := store mem bufferAt payload, nvs := savedNvm3 payload h true }) := by
  have hdata : BgNvs.odHalNvsRead ScriptedNvm3.nvm3 (savedNvm3 payload h true) odConfigStoreHeaderSize 120 =
      (odHalNvsOk, payload, savedNvm3 payload h true) := by
    obtain ⟨-, -, -, hdeclared, hpayload⟩ := storeRecord_fields payload (by rw [h]; decide)
    rw [recordPayload, hdeclared, h] at hpayload
    rw [savedNvm3_read h (by decide) (by decide)]
    exact congrArg (odHalNvsOk, ·, _) hpayload
  have hload : (BgNvs.port ScriptedNvm3.nvm3).odConfigStoreLoad { maxSize := 128 } (savedNvm3 payload h opened) mem
      (some bufferAt) (some 128) = ((.ok, store mem bufferAt payload, some 120), savedNvm3 payload h true) :=
    odConfigStoreLoad_answered (by rw [h]; rfl) (by decide) (by decide) (savedNvm3_size h opened)
      (savedNvm3_read h (by decide) (by decide)) hdata mem bufferAt
  rw [loadConfig, hload]
  rfl

/-- A read after the start has the payload. -/
theorem savedNvm3_reads :
    (odCmdAppConfigRead ScriptedNvm3.nvm3 { maxSize := 128 } (loadGlobalConfig ScriptedNvm3.nvm3 { maxSize := 128 }
      { mem := fun _ => 0, nvs := savedNvm3 payload h false })).1 = payload := by
  have hboot : loadGlobalConfig ScriptedNvm3.nvm3 { maxSize := 128 }
      { mem := fun _ => 0, nvs := savedNvm3 payload h false } =
      { mem := store (fun _ => 0) bufferAt payload, nvs := savedNvm3 payload h true } := by
    rw [loadGlobalConfig, savedNvm3_inits]
    dsimp only
    rw [if_neg (by decide), savedNvm3_loads]
  have hidle : (opendisplayConfigAssembler { maxSize := 128 } (store (fun _ => 0) bufferAt payload)).active = false :=
    store_active (b := { maxSize := 128 }) (Nat.le_refl _)
  rw [hboot, odCmdAppConfigRead, if_neg (by rw [hidle]; decide), savedNvm3_inits]
  dsimp only
  rw [if_neg (by decide), savedNvm3_loads]
  show load _ bufferAt 120 = payload
  rw [← h]
  exact load_store_self

/-- A payload for which one pass is needed after the frame that starts the read. -/
theorem opendisplayConfig_readsBack_started :
    let nvs := savedNvm3 (List.replicate 120 7) List.length_replicate false
    let s : Device (odTxqSlots .silabs) ScriptedNvm3 :=
      run ScriptedNvm3.nvm3 { maxSize := 128 } { profile := .silabs, capNfc := false }
        (powerUp ScriptedNvm3.nvm3 { maxSize := 128 } 0 0 nvs []) [.frame plainEnv {} [0x00, 0x40]]
    s.core.read.active = true ∧ ReadsBack { maxSize := 128 } {ScriptedNvm3.stored nvs} s := by
  refine ⟨?_, (opendisplayConfig_readsBack ScriptedNvm3.nvm3 ScriptedNvm3.stored ScriptedNvm3.nvm3_documented _ _ _ _ _
    _).1⟩
  have hread := savedNvm3_reads (List.length_replicate (n := 120) (a := (7 : UInt8)))
  simp only [run, List.foldl_cons, List.foldl_nil, step, dispatchWrite, targetEnv, powerUp, hread]
  decide +kernel

end Started

end Silabs

end OpenDisplay
