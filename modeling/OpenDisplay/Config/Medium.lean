import OpenDisplay.Lib.Durable
import OpenDisplay.Config.Store

/-! The store over a port whose every call may fail and changes the port: its cache, whether it
is initialised, and the medium. What a load answers after any run of calls and power cycles. -/

namespace OpenDisplay

open Memories Durable

section Model

/-- A port of the medium's five functions in states of type `σ`, with what a power cycle leaves,
the states in which the next call erases an unusable medium, and the calls of this port alone. -/
structure NvsPort (σ ε : Type) where
  odHalNvsInit : σ → Int × σ
  odHalNvsSize : σ → Int × UInt32 × σ
  odHalNvsRead : σ → (offset len : UInt32) → Int × Bytes × σ
  odHalNvsWrite : σ → Bytes → Int × σ
  odHalNvsErase : σ → Int × σ
  reset : σ → σ
  formats : σ → Bool
  own : ε → σ → σ
  ownDeeds : ε → σ → List (Deed (Option Bytes))

variable {σ ε : Type}

def NvsPort.odConfigStoreInit (port : NvsPort σ ε) (s : σ) : OdConfigStoreResult × σ :=
  (fromHal (port.odHalNvsInit s).1, (port.odHalNvsInit s).2)

/-- The port as a save uses it. -/
def NvsPort.odHalNvs (port : NvsPort σ ε) : OdHalNvs σ where
  size s := ((port.odHalNvsSize s).1, (port.odHalNvsSize s).2.1)
  read s offset len := ((port.odHalNvsRead s offset len).1, (port.odHalNvsRead s offset len).2.1)
  write := port.odHalNvsWrite

/-- `len` is the capacity before and the length after. -/
def NvsPort.odConfigStoreLoad (port : NvsPort σ ε) (b : OdConfigStoreBuild) (s : σ) (mem : Memory UInt8)
    (payload : Option Nat) (len : Option UInt32) : (OdConfigStoreResult × Memory UInt8 × Option UInt32) × σ :=
  match len, payload with
  | none, _ => ((.io, mem, none), s)
  | some _, none => ((.io, mem, some 0), s)
  | some cap, some payload =>
    let (rc, stored, s) := port.odHalNvsSize s
    if rc ≠ odHalNvsOk then ((fromHal rc, mem, some 0), s)
    else if stored < odConfigStoreHeaderSize then ((.corrupt, mem, some 0), s)
    else if stored > b.maxRecord then ((.tooBig, mem, some 0), s)
    else
      let (rc, header, s) := port.odHalNvsRead s 0 odConfigStoreHeaderSize
      if rc ≠ odHalNvsOk then ((fromHal rc, mem, some 0), s)
      else if readLe32 header ≠ odConfigStoreMagic then ((.corrupt, mem, some 0), s)
      else
        let dataLen := readLe32 (header.drop 12)
        if dataLen > b.maxSize ∨ dataLen > cap then ((.tooBig, mem, some 0), s)
        else if stored - odConfigStoreHeaderSize < dataLen then ((.corrupt, mem, some 0), s)
        else
          let (rc, data, s) :=
            if dataLen > 0 then port.odHalNvsRead s odConfigStoreHeaderSize dataLen else (odHalNvsOk, [], s)
          let mem := store mem payload data
          if rc ≠ odHalNvsOk then ((fromHal rc, mem, some 0), s)
          else if odConfigStoreCrc32 (load mem payload dataLen.toNat) ≠ readLe32 (header.drop 8) then
            ((.corrupt, mem, some 0), s)
          else ((.ok, mem, some dataLen), s)

def NvsPort.odConfigStoreClear (port : NvsPort σ ε) (s : σ) : OdConfigStoreResult × σ :=
  (fromHal (port.odHalNvsErase s).1, (port.odHalNvsErase s).2)

/-- The calls of the firmware and the power cycles between them. -/
inductive StoreCall (ε : Type) where
  | init
  | save (mem : Memory UInt8) (workspace : Option Nat) (workspaceCap : UInt32) (payload : Option Nat) (len : UInt32)
  | load (mem : Memory UInt8) (payload : Option Nat) (len : Option UInt32)
  | clear
  | reset
  | own (call : ε)

def NvsPort.step (port : NvsPort σ ε) (b : OdConfigStoreBuild) (s : σ) : StoreCall ε → σ
  | .init => (port.odConfigStoreInit s).2
  | .save mem workspace workspaceCap payload len =>
    (odConfigStoreSave port.odHalNvs b s mem workspace workspaceCap payload len).2.2
  | .load mem payload len => (port.odConfigStoreLoad b s mem payload len).2
  | .clear => (port.odConfigStoreClear s).2
  | .reset => port.reset s
  | .own call => port.own call s

/-- An erased medium is a write that the caller did not ask for. -/
def NvsPort.formatDeeds (port : NvsPort σ ε) (s : σ) : List (Deed (Option Bytes)) :=
  if port.formats s then [.tried {none}] else []

/-- The writes of a call: done when the answer is OK, and failed when it is IO. -/
def NvsPort.deeds (port : NvsPort σ ε) (b : OdConfigStoreBuild) (s : σ) : StoreCall ε → List (Deed (Option Bytes))
  | .save mem workspace workspaceCap payload len =>
    port.formatDeeds s ++
      match (odConfigStoreSave port.odHalNvs b s mem workspace workspaceCap payload len).1, workspace, payload with
      | .ok, some _, some p => [.put (some (storeRecord (load mem p len.toNat)))]
      | .io, some _, some p => [.tried {some (storeRecord (load mem p len.toNat))}]
      | _, _, _ => []
  | .clear =>
    port.formatDeeds s ++ if (port.odConfigStoreClear s).1 = .ok then [.put none] else [.tried {none}]
  | .init | .load .. => port.formatDeeds s
  | .reset => []
  | .own call => port.ownDeeds call s

end Model

section Contract

variable {σ ε : Type}

/-- What an answer of the port says of the record: `P` of one that is there when it is OK, `Q` of
one that is too big, and nothing when the medium failed. -/
inductive Told (P Q : Bytes → Prop) : Int → Option Bytes → Prop where
  | ok {record : Bytes} : P record → Told P Q odHalNvsOk (some record)
  | enoent : Told P Q odHalNvsEnoent none
  | e2big {record : Bytes} : Q record → Told P Q odHalNvsE2big (some record)
  | eio {stored : Option Bytes} : Told P Q odHalNvsEio stored

theorem Told.mono {P P' Q Q' : Bytes → Prop} {rc : Int} {stored : Option Bytes} (h : Told P Q rc stored)
    (hP : ∀ record, P record → P' record) (hQ : ∀ record, Q record → Q' record) : Told P' Q' rc stored := by
  cases h with
  | ok h => exact .ok (hP _ h)
  | enoent => exact .enoent
  | e2big h => exact .e2big (hQ _ h)
  | eio => exact .eio

/-- The documented contract of a port. `stored` is the record that a call finds in the medium and
`holds` has with it what a power cycle may turn it into. -/
structure NvsPort.Contract (port : NvsPort σ ε) (b : OdConfigStoreBuild) (Inv : σ → Prop) (stored : σ → Option Bytes)
    (holds : σ → Set (Option Bytes)) : Prop where
  found : ∀ s, Inv s → stored s ∈ holds s
  short : ∀ s record, Inv s → stored s = some record → record.length < 2 ^ 32
  init : ∀ s, Inv s → Inv (port.odHalNvsInit s).2 ∧
    holds (port.odHalNvsInit s).2 ⊆ possible (holds s) (port.formatDeeds s)
  size : ∀ s rc len s', port.odHalNvsSize s = (rc, len, s') → Inv s → Inv s' ∧
    holds s' ⊆ possible (holds s) (port.formatDeeds s) ∧ (rc = odHalNvsOk → port.formats s' = false) ∧
    Told (fun record => len.toNat = record.length) (fun record => b.maxRecord.toNat < record.length) rc (stored s')
  read : ∀ s offset len rc data s', port.odHalNvsRead s offset len = (rc, data, s') → Inv s → port.formats s = false →
    Inv s' ∧ holds s' ⊆ holds s ∧ (rc = odHalNvsOk → port.formats s' = false) ∧ stored s' = stored s ∧
    Told (fun record => offset.toNat + len.toNat ≤ record.length ∧ data = (record.drop offset.toNat).take len.toNat)
      (fun record => b.maxRecord.toNat < record.length ∨ record.length < offset.toNat + len.toNat) rc (stored s')
  write : ∀ s record rc s', port.odHalNvsWrite s record = (rc, s') → record.length < 2 ^ 32 → Inv s → Inv s' ∧
    (rc = odHalNvsOk ∧ holds s' ⊆ {some record} ∨
      rc = odHalNvsE2big ∧ holds s' ⊆ possible (holds s) (port.formatDeeds s) ∨
      rc = odHalNvsEio ∧ holds s' ⊆ possible (holds s) (port.formatDeeds s) ∪ {some record})
  erase : ∀ s rc s', port.odHalNvsErase s = (rc, s') → Inv s → Inv s' ∧
    (rc = odHalNvsOk ∧ holds s' ⊆ {none} ∨
      rc = odHalNvsEio ∧ holds s' ⊆ possible (holds s) (port.formatDeeds s) ∪ {none})
  reset : ∀ s, Inv s → Inv (port.reset s) ∧ holds (port.reset s) ⊆ holds s
  own : ∀ call s, Inv s → Inv (port.own call s) ∧ holds (port.own call s) ⊆ possible (holds s) (port.ownDeeds call s)

variable {port : NvsPort σ ε} {b : OdConfigStoreBuild} {Inv : σ → Prop} {stored : σ → Option Bytes}
  {holds : σ → Set (Option Bytes)} {s : σ}

/-- An answer about a record that has the span is the span, or the medium failed. -/
theorem NvsPort.Contract.read_span (h : port.Contract b Inv stored holds) (hs : Inv s) (hf : port.formats s = false)
    {record : Bytes} (hr : stored s = some record) (hmax : record.length ≤ b.maxRecord.toNat) {offset len : UInt32}
    (hin : offset.toNat + len.toNat ≤ record.length) :
    ∃ rc data s', port.odHalNvsRead s offset len = (rc, data, s') ∧
      (Inv s' ∧ holds s' ⊆ holds s ∧ stored s' = some record) ∧
      (rc = odHalNvsOk ∧ port.formats s' = false ∧ data = (record.drop offset.toNat).take len.toNat ∨
        rc = odHalNvsEio) := by
  obtain ⟨hs', hsub, hf', hkeep, htold⟩ := h.read s offset len _ _ _ rfl hs hf
  rw [hr] at hkeep
  refine ⟨_, _, _, rfl, ⟨hs', hsub, hkeep⟩, ?_⟩
  rw [hkeep] at htold
  generalize (port.odHalNvsRead s offset len).1 = rc at htold hf' ⊢
  cases htold with
  | ok hspan => exact .inl ⟨rfl, hf' rfl, hspan.2⟩
  | e2big hbig => omega
  | eio => exact .inr rfl

theorem recordNvs_size {record : Bytes} (h : record.length < 2 ^ 32) {n : UInt32} (hn : n.toNat = record.length) :
    recordNvs.size (some ⟨record, h⟩) = (odHalNvsOk, n) := by
  rw [← UInt32.ofNat_toNat (x := n), hn]
  rfl

theorem recordNvs_read {record : Bytes} (h : record.length < 2 ^ 32) {offset len : UInt32}
    (hin : offset.toNat + len.toNat ≤ record.length) :
    recordNvs.read (some ⟨record, h⟩) offset len = (odHalNvsOk, (record.drop offset.toNat).take len.toNat) :=
  recordNvs_keeps.read _ record rfl offset len hin

/-- The reads after the size of a record that is there find it whole. -/
theorem NvsPort.Contract.load_sized (h : port.Contract b Inv stored holds) {s₁ : σ} {n : UInt32} {record : Bytes}
    (hsize : port.odHalNvsSize s = (odHalNvsOk, n, s₁)) (hs : Inv s₁) (hf : port.formats s₁ = false)
    (hr : stored s₁ = some record) (hn : n.toNat = record.length) (hshort : record.length < 2 ^ 32) (mem : Memory UInt8)
    (dst : Nat) (cap : UInt32) :
    (Inv (port.odConfigStoreLoad b s mem (some dst) (some cap)).2 ∧
      holds (port.odConfigStoreLoad b s mem (some dst) (some cap)).2 ⊆ holds s₁) ∧
    ((port.odConfigStoreLoad b s mem (some dst) (some cap)).1.1 = .io ∨
      (port.odConfigStoreLoad b s mem (some dst) (some cap)).1 =
        OpenDisplay.odConfigStoreLoad recordNvs b (some ⟨record, hshort⟩) mem (some dst) (some cap)) := by
  have hrefl : holds s₁ ⊆ holds s₁ := Set.Subset.refl _
  simp only [NvsPort.odConfigStoreLoad, OpenDisplay.odConfigStoreLoad, hsize, recordNvs_size hshort hn, ne_eq, not_true,
    if_false]
  by_cases hheader : n < odConfigStoreHeaderSize
  · simp only [if_pos hheader]
    exact ⟨⟨hs, hrefl⟩, .inr trivial⟩
  by_cases hbounded : n > b.maxRecord
  · simp only [if_neg hheader, if_pos hbounded]
    exact ⟨⟨hs, hrefl⟩, .inr trivial⟩
  simp only [if_neg hheader, if_neg hbounded]
  rw [UInt32.lt_iff_toNat_lt, hn] at hheader
  rw [gt_iff_lt, UInt32.lt_iff_toNat_lt, hn] at hbounded
  have hin : (0 : UInt32).toNat + odConfigStoreHeaderSize.toNat ≤ record.length := by
    rw [UInt32.toNat_zero, Nat.zero_add]
    exact Nat.not_lt.mp hheader
  obtain ⟨rc, header, s₂, hread, ⟨hs₂, hsub₂, hr₂⟩, hout⟩ :=
    h.read_span hs hf hr (Nat.not_lt.mp hbounded) hin
  simp only [hread, recordNvs_read hshort hin]
  rcases hout with ⟨rfl, hf₂, rfl⟩ | rfl
  swap
  · exact ⟨⟨hs₂, hsub₂⟩, .inl rfl⟩
  generalize (record.drop (0 : UInt32).toNat).take odConfigStoreHeaderSize.toNat = header
  simp only [not_true, if_false]
  by_cases hmagic : ¬ readLe32 header = odConfigStoreMagic
  · simp only [if_pos hmagic]
    exact ⟨⟨hs₂, hsub₂⟩, .inr trivial⟩
  simp only [if_neg hmagic]
  generalize readLe32 (header.drop 12) = dataLen
  by_cases hsizes : dataLen > b.maxSize ∨ dataLen > cap
  · simp only [if_pos hsizes]
    exact ⟨⟨hs₂, hsub₂⟩, .inr trivial⟩
  simp only [if_neg hsizes]
  by_cases hpresent : n - odConfigStoreHeaderSize < dataLen
  · simp only [if_pos hpresent]
    exact ⟨⟨hs₂, hsub₂⟩, .inr trivial⟩
  simp only [if_neg hpresent]
  by_cases hempty : dataLen > 0
  swap
  · simp only [if_neg hempty, not_true, if_false]
    split <;> exact ⟨⟨hs₂, hsub₂⟩, .inr rfl⟩
  have hspan : odConfigStoreHeaderSize.toNat + dataLen.toNat ≤ record.length := by
    have hle : odConfigStoreHeaderSize ≤ n := by
      rw [UInt32.le_iff_toNat_le, hn]
      exact Nat.not_lt.mp hheader
    rw [UInt32.lt_iff_toNat_lt, UInt32.toNat_sub_of_le _ _ hle, hn] at hpresent
    omega
  obtain ⟨rc, data, s₃, hread₃, ⟨hs₃, hsub₃, -⟩, hout⟩ :=
    h.read_span hs₂ hf₂ hr₂ (Nat.not_lt.mp hbounded) hspan
  simp only [if_pos hempty, hread₃, recordNvs_read hshort hspan]
  rcases hout with ⟨rfl, -, rfl⟩ | rfl
  swap
  · exact ⟨⟨hs₃, hsub₃.trans hsub₂⟩, .inl rfl⟩
  simp only [not_true, if_false]
  split <;> exact ⟨⟨hs₃, hsub₃.trans hsub₂⟩, .inr rfl⟩

theorem subset_formatted (port : NvsPort σ ε) (holds : σ → Set (Option Bytes)) (s : σ) :
    holds s ⊆ possible (holds s) (port.formatDeeds s) := by
  rw [NvsPort.formatDeeds]
  split
  · exact Set.subset_union_left
  · exact Set.Subset.refl _

/-- A load meets a failing medium, or it is a load of one whole record. -/
theorem NvsPort.Contract.load (h : port.Contract b Inv stored holds) (hs : Inv s) (mem : Memory UInt8)
    (payload : Option Nat) (len : Option UInt32) :
    (Inv (port.odConfigStoreLoad b s mem payload len).2 ∧
      holds (port.odConfigStoreLoad b s mem payload len).2 ⊆ possible (holds s) (port.formatDeeds s)) ∧
    ((port.odConfigStoreLoad b s mem payload len).1.1 = .io ∨
      ∃ record : Option { record : Bytes // record.length < 2 ^ 32 },
        record.map Subtype.val ∈ possible (holds s) (port.formatDeeds s) ∧
        (port.odConfigStoreLoad b s mem payload len).1 =
          OpenDisplay.odConfigStoreLoad recordNvs b record mem payload len) := by
  cases len with
  | none => exact ⟨⟨hs, subset_formatted _ _ _⟩, .inl rfl⟩
  | some cap =>
  cases payload with
  | none => exact ⟨⟨hs, subset_formatted _ _ _⟩, .inl rfl⟩
  | some dst =>
  obtain ⟨rc, n, s₁, hsize⟩ : ∃ rc n s₁, port.odHalNvsSize s = (rc, n, s₁) := ⟨_, _, _, rfl⟩
  obtain ⟨hs₁, hsub₁, hf₁, htold⟩ := h.size s rc n s₁ hsize hs
  have hfound := hsub₁ (h.found s₁ hs₁)
  generalize hstored : stored s₁ = c at htold hfound
  cases htold with
  | @ok record hn =>
    have hshort := h.short s₁ record hs₁ hstored
    obtain ⟨⟨hinv, hsub⟩, hout⟩ := h.load_sized hsize hs₁ (hf₁ rfl) hstored hn hshort mem dst cap
    exact ⟨⟨hinv, hsub.trans hsub₁⟩, hout.imp_right fun hload => ⟨some ⟨record, hshort⟩, hfound, hload⟩⟩
  | enoent =>
    simp only [NvsPort.odConfigStoreLoad, hsize]
    exact ⟨⟨hs₁, hsub₁⟩, .inr ⟨none, hfound, rfl⟩⟩
  | @e2big record hbig =>
    simp only [NvsPort.odConfigStoreLoad, hsize]
    refine ⟨⟨hs₁, hsub₁⟩, .inr ⟨some ⟨record, h.short s₁ record hs₁ hstored⟩, hfound, ?_⟩⟩
    rw [b.maxRecord_toNat] at hbig
    rw [odConfigStoreLoad_kept recordNvs_keeps rfl, if_neg (show ¬ record.length < 16 by omega), if_pos hbig]
    rfl
  | eio =>
    simp only [NvsPort.odConfigStoreLoad, hsize]
    exact ⟨⟨hs₁, hsub₁⟩, .inl rfl⟩

/-- A save leaves the record for its bytes, that one or the one before, or the one before. -/
theorem NvsPort.Contract.save (h : port.Contract b Inv stored holds) (hs : Inv s) (mem : Memory UInt8)
    (workspace : Option Nat) (workspaceCap : UInt32) (payload : Option Nat) (len : UInt32) :
    Inv (port.step b s (.save mem workspace workspaceCap payload len)) ∧
      holds (port.step b s (.save mem workspace workspaceCap payload len)) ⊆
        possible (holds s) (port.deeds b s (.save mem workspace workspaceCap payload len)) := by
  simp only [NvsPort.step, NvsPort.deeds, possible_append]
  rcases workspace with _ | ws
  · exact ⟨hs, subset_formatted _ _ _⟩
  rcases payload with _ | p
  · exact ⟨hs, subset_formatted _ _ _⟩
  by_cases hlen : len > b.maxSize
  · simp only [odConfigStoreSave, if_pos hlen]
    exact ⟨hs, subset_formatted _ _ _⟩
  by_cases hroom : workspaceCap < odConfigStoreHeaderSize + len
  · simp only [odConfigStoreSave, if_neg hlen, if_pos hroom]
    exact ⟨hs, subset_formatted _ _ _⟩
  have hlen := UInt32.not_lt.mp hlen
  have hroom := UInt32.le_iff_toNat_le.mp (UInt32.not_lt.mp hroom)
  rw [total_toNat hlen] at hroom
  obtain ⟨mem', hsave⟩ := odConfigStoreSave_writes port.odHalNvs s mem ws p hlen hroom
  simp only [hsave]
  have hshort : (storeRecord (Memories.load mem p len.toNat)).length < 2 ^ 32 := by
    have hfits : 16 + b.maxSize.toNat < 2 ^ 32 := b.fits
    have hle := UInt32.le_iff_toNat_le.mp hlen
    rw [storeRecord_length, load_length]
    omega
  obtain ⟨hinv, hwrite⟩ :=
    h.write s _ _ _ (rfl : _ = ((port.odHalNvs.write s _).1, (port.odHalNvs.write s _).2)) hshort hs
  refine ⟨hinv, ?_⟩
  rcases hwrite with ⟨hrc, hsub⟩ | ⟨hrc, hsub⟩ | ⟨hrc, hsub⟩
  · rw [hrc]
    exact hsub
  · rw [hrc]
    exact hsub
  · rw [hrc]
    exact hsub

theorem NvsPort.Contract.step (h : port.Contract b Inv stored holds) (hs : Inv s) (call : StoreCall ε) :
    Inv (port.step b s call) ∧ holds (port.step b s call) ⊆ possible (holds s) (port.deeds b s call) := by
  cases call with
  | init => exact h.init s hs
  | save mem workspace workspaceCap payload len => exact h.save hs mem workspace workspaceCap payload len
  | load mem payload len => exact (h.load hs mem payload len).1
  | clear =>
    simp only [NvsPort.step, NvsPort.deeds, possible_append]
    obtain ⟨hinv, herase⟩ := h.erase s _ _ rfl hs
    refine ⟨hinv, ?_⟩
    rcases herase with ⟨hrc, hsub⟩ | ⟨hrc, hsub⟩
    · rw [if_pos (show (port.odConfigStoreClear s).1 = .ok from congrArg fromHal hrc)]
      exact hsub
    · rw [if_neg (show (port.odConfigStoreClear s).1 ≠ .ok from fromHal_ok (hrc ▸ by decide))]
      exact hsub
  | reset => exact h.reset s hs
  | own call => exact h.own call s hs

end Contract

section Runs

variable {σ ε : Type} {port : NvsPort σ ε} {b : OdConfigStoreBuild} {Inv : σ → Prop} {stored : σ → Option Bytes}
  {holds : σ → Set (Option Bytes)} {s : σ}

def NvsPort.run (port : NvsPort σ ε) (b : OdConfigStoreBuild) (s : σ) (calls : List (StoreCall ε)) : σ :=
  calls.foldl (port.step b) s

/-- The writes of a run and, where the next call would erase the medium, that one. -/
def NvsPort.runDeeds (port : NvsPort σ ε) (b : OdConfigStoreBuild) (s : σ) (calls : List (StoreCall ε)) :
    List (Deed (Option Bytes)) :=
  deedsOf (port.step b) (port.deeds b) s calls ++ port.formatDeeds (port.run b s calls)

/-- After every run a load meets a failing medium, or it is a load of one whole record: that of
the last write that was done, or of one that failed after it. -/
def NvsPort.LoadsWhole (port : NvsPort σ ε) (b : OdConfigStoreBuild) (initial : Set (Option Bytes)) (s : σ) : Prop :=
  ∀ calls mem payload len,
    (port.odConfigStoreLoad b (port.run b s calls) mem payload len).1.1 = .io ∨
      ∃ record : Option { record : Bytes // record.length < 2 ^ 32 },
        record.map Subtype.val ∈ possible initial (port.runDeeds b s calls) ∧
        (port.odConfigStoreLoad b (port.run b s calls) mem payload len).1 =
          OpenDisplay.odConfigStoreLoad recordNvs b record mem payload len

/-- A payload that was saved is loaded until the next write, over power cycles, unless the medium
fails. -/
def NvsPort.LoadsSaved (port : NvsPort σ ε) (b : OdConfigStoreBuild) (s : σ) : Prop :=
  ∀ before mem ws workspaceCap p len after,
    (odConfigStoreSave port.odHalNvs b (port.run b s before) mem (some ws) workspaceCap (some p) len).1 = .ok →
    port.runDeeds b (port.run b s (before ++ [.save mem (some ws) workspaceCap (some p) len])) after = [] →
    ∀ mem' dst cap, len ≤ cap →
      (port.odConfigStoreLoad b (port.run b s (before ++ .save mem (some ws) workspaceCap (some p) len :: after)) mem'
        (some dst) (some cap)).1.1 = .io ∨
      (port.odConfigStoreLoad b (port.run b s (before ++ .save mem (some ws) workspaceCap (some p) len :: after)) mem'
        (some dst) (some cap)).1 = (.ok, store mem' dst (Memories.load mem p len.toNat), some len)

/-- What the call has cleared does not come back before the next write. -/
def NvsPort.LoadsNothing (port : NvsPort σ ε) (b : OdConfigStoreBuild) (s : σ) (call : StoreCall ε)
    (cleared : σ → Prop) : Prop :=
  ∀ before after, cleared (port.run b s before) → port.runDeeds b (port.run b s (before ++ [call])) after = [] →
    ∀ mem dst cap,
      (port.odConfigStoreLoad b (port.run b s (before ++ call :: after)) mem (some dst) (some cap)).1.1 = .io ∨
      (port.odConfigStoreLoad b (port.run b s (before ++ call :: after)) mem (some dst) (some cap)).1 =
        (.empty, mem, some 0)

theorem NvsPort.run_append {calls calls' : List (StoreCall ε)} :
    port.run b s (calls ++ calls') = port.run b (port.run b s calls) calls' :=
  List.foldl_append

theorem NvsPort.Contract.run (h : port.Contract b Inv stored holds) (hs : Inv s) (calls : List (StoreCall ε)) :
    Inv (port.run b s calls) ∧
      holds (port.run b s calls) ⊆ possible (holds s) (deedsOf (port.step b) (port.deeds b) s calls) :=
  holds_run (fun s call (hs : Inv s) => h.step hs call) hs calls

theorem NvsPort.Contract.loadsWhole (h : port.Contract b Inv stored holds) (hs : Inv s) :
    port.LoadsWhole b (holds s) s := by
  intro calls mem payload len
  obtain ⟨hinv, hsub⟩ := h.run hs calls
  refine (h.load hinv mem payload len).2.imp_right ?_
  rintro ⟨record, hmem, hload⟩
  refine ⟨record, ?_, hload⟩
  rw [NvsPort.runDeeds, possible_append]
  exact possible_mono hsub hmem

/-- A load of the record for a payload is that payload. -/
theorem load_storeRecord {payload : Bytes} (hmax : payload.length ≤ b.maxSize.toNat) {cap : UInt32}
    (hcap : payload.length ≤ cap.toNat) {record : Option { record : Bytes // record.length < 2 ^ 32 }}
    (hr : record.map Subtype.val = some (storeRecord payload)) (mem : Memory UInt8) (dst : Nat) :
    odConfigStoreLoad recordNvs b record mem (some dst) (some cap) =
      (.ok, store mem dst payload, some (UInt32.ofNat payload.length)) := by
  have hshort : payload.length < 2 ^ 32 := Nat.lt_of_le_of_lt hmax b.maxSize.toNat_lt
  obtain ⟨-, -, hdeclared, -, hpayload⟩ := storeRecord_fields payload hshort
  rw [odConfigStoreLoad_loadable recordNvs_keeps hr (storeRecord_loadable hmax hcap), hdeclared, hpayload]

/-- After a write that was done and nothing since, a load is one of what was written. -/
theorem NvsPort.Contract.load_settled (h : port.Contract b Inv stored holds) (hs : Inv s)
    {before after : List (StoreCall ε)} {call : StoreCall ε} {ds : List (Deed (Option Bytes))} {written : Option Bytes}
    (hput : port.deeds b (port.run b s before) call = ds ++ [.put written])
    (hquiet : port.runDeeds b (port.run b s (before ++ [call])) after = []) (mem : Memory UInt8) (payload : Option Nat)
    (len : Option UInt32) :
    (port.odConfigStoreLoad b (port.run b s (before ++ call :: after)) mem payload len).1.1 = .io ∨
      ∃ record : Option { record : Bytes // record.length < 2 ^ 32 }, record.map Subtype.val = written ∧
        (port.odConfigStoreLoad b (port.run b s (before ++ call :: after)) mem payload len).1 =
          OpenDisplay.odConfigStoreLoad recordNvs b record mem payload len := by
  obtain ⟨hinv, hsub⟩ := h.run hs (before ++ [call])
  have hsettled : holds (port.run b s (before ++ [call])) ⊆ {written} := by
    rw [deedsOf_append, possible_append] at hsub
    refine hsub.trans ?_
    show possible _ (port.deeds b (port.run b s before) call ++ []) ⊆ _
    rw [List.append_nil, hput, possible_append, possible_put]
  rw [← List.singleton_append (l := after), ← List.append_assoc, NvsPort.run_append]
  refine (h.loadsWhole hinv after mem payload len).imp_right ?_
  rintro ⟨record, hmem, hload⟩
  rw [hquiet] at hmem
  exact ⟨record, hsettled hmem, hload⟩

theorem NvsPort.Contract.loadsSaved (h : port.Contract b Inv stored holds) (hs : Inv s) : port.LoadsSaved b s := by
  intro before mem ws workspaceCap p len after hok hquiet mem' dst cap hcap
  have hlen := (odConfigStoreSave_ok hok).1
  have hcount : (Memories.load mem p len.toNat).length = len.toNat := load_length
  have hput : port.deeds b (port.run b s before) (.save mem (some ws) workspaceCap (some p) len) =
      port.formatDeeds (port.run b s before) ++ [.put (some (storeRecord (Memories.load mem p len.toNat)))] := by
    simp only [NvsPort.deeds, hok]
  refine (h.load_settled hs hput hquiet mem' (some dst) (some cap)).imp_right ?_
  rintro ⟨record, hr, hload⟩
  rw [hload, load_storeRecord (hcount.trans_le (UInt32.le_iff_toNat_le.mp hlen))
    (hcount.trans_le (UInt32.le_iff_toNat_le.mp hcap)) hr, hcount, UInt32.ofNat_toNat]

theorem NvsPort.Contract.loadsNothing (h : port.Contract b Inv stored holds) (hs : Inv s) {call : StoreCall ε}
    {cleared : σ → Prop} (hput : ∀ s, cleared s → ∃ ds, port.deeds b s call = ds ++ [.put none]) :
    port.LoadsNothing b s call cleared := by
  intro before after hcleared hquiet mem dst cap
  obtain ⟨ds, hds⟩ := hput _ hcleared
  refine (h.load_settled hs hds hquiet mem (some dst) (some cap)).imp_right ?_
  rintro ⟨record, hr, hload⟩
  obtain rfl := Option.map_eq_none_iff.mp hr
  rw [hload]
  rfl

theorem NvsPort.Contract.loadsNothing_clear (h : port.Contract b Inv stored holds) (hs : Inv s) :
    port.LoadsNothing b s .clear fun s => (port.odConfigStoreClear s).1 = .ok := by
  apply h.loadsNothing hs
  intro s hok
  exact ⟨port.formatDeeds s, by rw [NvsPort.deeds, if_pos hok]⟩

end Runs

section Cache

/-- The copy of the record in a port whose medium cannot be read at an offset. -/
structure NvsCache where
  bytes : Bytes
  len : UInt32 := 0
  valid : Bool := false

def NvsCache.put (cache : NvsCache) (record : Bytes) : NvsCache :=
  { bytes := record ++ cache.bytes.drop record.length, len := UInt32.ofNat record.length, valid := true }

def NvsCache.drop (cache : NvsCache) : NvsCache := { cache with len := 0, valid := false }

def NvsCache.invalidate (cache : NvsCache) : NvsCache := { cache with valid := false }

/-- The subtraction keeps a large offset from wrapping past the record. -/
def NvsCache.span (cache : NvsCache) (offset len : UInt32) : Int × Bytes :=
  if offset > cache.len ∨ len > cache.len - offset then (odHalNvsE2big, [])
  else if len = 0 then (odHalNvsOk, [])
  else (odHalNvsOk, (cache.bytes.drop offset.toNat).take len.toNat)

def NvsCache.Holds (cache : NvsCache) (record : Bytes) : Prop :=
  record = cache.bytes.take cache.len.toNat ∧ cache.len.toNat = record.length

/-- A cache that is valid has the record of the medium. -/
def NvsCache.Mirrors (cache : NvsCache) (stored : Option Bytes) : Prop :=
  cache.valid = true → ∃ record, stored = some record ∧ cache.Holds record

variable {cache : NvsCache} {stored : Option Bytes} {record : Bytes}

theorem NvsCache.put_holds (h : record.length < 2 ^ 32) : (cache.put record).Holds record := by
  have hlen : (cache.put record).len.toNat = record.length := UInt32.toNat_ofNat_of_lt' h
  refine ⟨?_, hlen⟩
  rw [hlen]
  exact (List.take_left' rfl).symm

theorem NvsCache.mirrors_of_not_valid (h : cache.valid = false) : cache.Mirrors stored :=
  fun hvalid => Bool.noConfusion (h.symm.trans hvalid)

/-- A span of the cache is the span of its record. -/
theorem NvsCache.Holds.span (h : cache.Holds record) (offset len : UInt32) :
    (cache.span offset len = (odHalNvsOk, (record.drop offset.toNat).take len.toNat) ∧
      offset.toNat + len.toNat ≤ record.length) ∨
    cache.span offset len = (odHalNvsE2big, []) ∧ record.length < offset.toNat + len.toNat := by
  obtain ⟨hbytes, hlen⟩ := h
  by_cases hout : offset > cache.len ∨ len > cache.len - offset
  · refine .inr ⟨if_pos hout, ?_⟩
    rw [← hlen]
    by_cases hpast : offset > cache.len
    · exact Nat.lt_of_lt_of_le (UInt32.lt_iff_toNat_lt.mp hpast) (Nat.le_add_right _ _)
    · have hspan := UInt32.lt_iff_toNat_lt.mp (hout.resolve_left hpast)
      rw [UInt32.toNat_sub_of_le _ _ (UInt32.not_lt.mp hpast)] at hspan
      omega
  · obtain ⟨hoffset, hspan⟩ := not_or.mp hout
    have hoffset := UInt32.not_lt.mp hoffset
    rw [gt_iff_lt, UInt32.lt_iff_toNat_lt, UInt32.toNat_sub_of_le _ _ hoffset] at hspan
    have hle := UInt32.le_iff_toNat_le.mp hoffset
    refine .inl ⟨?_, by omega⟩
    rw [NvsCache.span, if_neg hout]
    by_cases hzero : len = 0
    · rw [if_pos hzero, hzero, UInt32.toNat_zero, List.take_zero]
    · rw [if_neg hzero, hbytes, List.drop_take, List.take_take, min_eq_left (by omega)]

end Cache

end OpenDisplay
