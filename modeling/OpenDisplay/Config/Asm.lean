import OpenDisplay.Lib.Buffer
import OpenDisplay.Wire

/-! A configuration that is written in several frames: the first declares its size, and it
is complete when that many bytes have come. -/

namespace OpenDisplay

open Buffers

def configChunkSize : Nat := 200
def configChunkSizeWithPrefix : Nat := 202
def maxConfigChunks : Nat := 20
def odConfigAsmMaxTransferable : Nat := maxConfigChunks * configChunkSize

inductive AsmResult where
  | single | accepted | complete | rejected
deriving DecidableEq

/-- The assembler; `maxSize` is the build's `OD_CONFIG_MAX_SIZE`. -/
structure ConfigAsm (maxSize : Nat) where
  active : Bool
  totalSize : UInt32
  received : UInt32
  chunks : UInt32
  buffer : Vector UInt8 maxSize

section Model

variable {maxSize : Nat}

def odConfigAsmReset (s : ConfigAsm maxSize) : ConfigAsm maxSize :=
  { s with active := false, totalSize := 0, received := 0, chunks := 0 }

def odConfigAsmStart (payload : Bytes) (s : ConfigAsm maxSize) : AsmResult × ConfigAsm maxSize :=
  let s := odConfigAsmReset s
  if payload = [] then (.rejected, s)
  else if payload.length < configChunkSizeWithPrefix then (.single, s)
  else if configChunkSizeWithPrefix < payload.length then (.rejected, s)
  else
    match odSpanSplit payload 2 with
    | none => (.rejected, s)
    | some (totalField, data) =>
      match odSpanSplit data configChunkSize with
      | none => (.rejected, s)
      | some (data, _) =>
        let total := (readLe16 totalField).toUInt32
        if total.toNat ≤ configChunkSize ∨ odConfigAsmMaxTransferable < total.toNat ∨ maxSize < total.toNat then
          (.rejected, s)
        else
          (.accepted,
            { active := true, totalSize := total, received := UInt32.ofNat data.length, chunks := 1
              buffer := copyInto s.buffer 0 data })

def odConfigAsmChunk (payload : Bytes) (s : ConfigAsm maxSize) : AsmResult × ConfigAsm maxSize :=
  if ¬ s.active then (.rejected, s)
  else if payload = [] ∨ configChunkSize < payload.length then (.rejected, odConfigAsmReset s)
  else
    let remaining := (s.totalSize - s.received).toNat
    if remaining < payload.length then (.rejected, odConfigAsmReset s)
    else if payload.length < configChunkSize ∧ payload.length ≠ remaining then (.rejected, odConfigAsmReset s)
    else if maxConfigChunks ≤ s.chunks.toNat then (.rejected, odConfigAsmReset s)
    else
      let s := { s with
        buffer := copyInto s.buffer s.received.toNat payload
        received := s.received + UInt32.ofNat payload.length
        chunks := s.chunks + 1 }
      if s.received = s.totalSize then (.complete, { s with active := false }) else (.accepted, s)

end Model

section Runs

variable {maxSize : Nat}

inductive AsmCall where
  | start (payload : Bytes)
  | chunk (payload : Bytes)
  | reset
deriving DecidableEq

/-- One call; a reset has no result. -/
def asmStep (c : AsmCall) (s : ConfigAsm maxSize) : Option AsmResult × ConfigAsm maxSize :=
  match c with
  | .start payload => let (r, s) := odConfigAsmStart payload s; (some r, s)
  | .chunk payload => let (r, s) := odConfigAsmChunk payload s; (some r, s)
  | .reset => (none, odConfigAsmReset s)

/-- The calls so far with their results. -/
abbrev AsmLog := List (AsmCall × Option AsmResult)

def asmRun : List AsmCall → ConfigAsm maxSize → AsmLog × ConfigAsm maxSize
  | [], s => ([], s)
  | c :: calls, s =>
    let (r, s) := asmStep c s
    let (log, s) := asmRun calls s
    ((c, r) :: log, s)

/-- The size that the last accepted start declared, and its data followed by the chunks
accepted since. -/
def gather (sent : Nat × Bytes) (entry : AsmCall × Option AsmResult) : Nat × Bytes :=
  match entry with
  | (.start payload, some .accepted) => ((readLe16 payload).toNat, payload.drop 2)
  | (.chunk payload, some .accepted) => (sent.1, sent.2 ++ payload)
  | (.chunk payload, some .complete) => (sent.1, sent.2 ++ payload)
  | _ => sent

def gathered (log : AsmLog) : Nat × Bytes := log.foldl gather (0, [])

/-- A transfer is going on: what has come of it stands at the front of the buffer, in whole
chunks. -/
structure Assembling (s : ConfigAsm maxSize) (sent : Nat × Bytes) : Prop where
  total : s.totalSize.toNat = sent.1
  received : s.received.toNat = sent.2.length
  chunks : sent.2.length = s.chunks.toNat * configChunkSize
  transferable : sent.1 ≤ odConfigAsmMaxTransferable
  storable : sent.1 ≤ maxSize
  unfinished : sent.2.length < sent.1
  front : s.buffer.toList.take sent.2.length = sent.2

theorem readLe16_take (b : Bytes) : readLe16 (b.take 2) = readLe16 b := by
  have hbyte : ∀ i < 2, byteAt (b.take 2) i = byteAt b i := by
    intro i hi
    rw [byteAt, byteAt, List.getD_eq_getElem?_getD, List.getD_eq_getElem?_getD, List.getElem?_take_of_lt hi]
  rw [readLe16, readLe16, hbyte 0 (by decide), hbyte 1 (by decide)]

/-- A start of a transfer that can be delivered and stored. -/
structure StartFits (maxSize : Nat) (payload : Bytes) : Prop where
  length : payload.length = configChunkSizeWithPrefix
  min : configChunkSize < (readLe16 payload).toNat
  transferable : (readLe16 payload).toNat ≤ odConfigAsmMaxTransferable
  storable : (readLe16 payload).toNat ≤ maxSize

theorem StartFits.data_length {payload : Bytes} (h : StartFits maxSize payload) :
    (payload.drop 2).length = configChunkSize := by
  rw [List.length_drop, h.length]
  rfl

/-- The assembler after an accepted start. -/
def asmStarted (payload : Bytes) (s : ConfigAsm maxSize) : ConfigAsm maxSize :=
  { active := true, totalSize := (readLe16 payload).toUInt32, received := UInt32.ofNat configChunkSize, chunks := 1
    buffer := copyInto s.buffer 0 (payload.drop 2) }

theorem odConfigAsmStart_sized {payload : Bytes} (hlen : payload.length = configChunkSizeWithPrefix)
    (s : ConfigAsm maxSize) :
    odConfigAsmStart payload s =
      if (readLe16 payload).toNat ≤ configChunkSize ∨ odConfigAsmMaxTransferable < (readLe16 payload).toNat ∨
        maxSize < (readLe16 payload).toNat then (.rejected, odConfigAsmReset s)
      else (.accepted, asmStarted payload s) := by
  have hdata : (payload.drop 2).length = configChunkSize := by
    rw [List.length_drop, hlen]
    rfl
  have hnil : payload ≠ [] := by
    rintro rfl
    exact absurd hlen (by decide)
  have hsplit : odSpanSplit payload 2 = some (payload.take 2, payload.drop 2) := by
    rw [odSpanSplit, if_pos (by rw [hlen]; decide)]
  have hsplit' : odSpanSplit (payload.drop 2) configChunkSize = some (payload.drop 2, []) := by
    rw [odSpanSplit, if_pos hdata.ge, List.take_of_length_le hdata.le, List.drop_of_length_le hdata.le]
  rw [odConfigAsmStart, if_neg hnil, if_neg (by omega), if_neg (by omega), hsplit]
  dsimp only
  rw [hsplit']
  dsimp only
  rw [readLe16_take, UInt16.toNat_toUInt32, hdata]
  rfl

theorem odConfigAsmStart_fits {payload : Bytes} (h : StartFits maxSize payload) (s : ConfigAsm maxSize) :
    odConfigAsmStart payload s = (.accepted, asmStarted payload s) := by
  have hmin := h.min
  have hmax := h.transferable
  have hsize := h.storable
  rw [odConfigAsmStart_sized h.length, if_neg (by omega)]

theorem odConfigAsmStart_refuses {payload : Bytes} (h : ¬ StartFits maxSize payload) (s : ConfigAsm maxSize) :
    ((odConfigAsmStart payload s).1 = .single ∨ (odConfigAsmStart payload s).1 = .rejected) ∧
      (odConfigAsmStart payload s).2 = odConfigAsmReset s := by
  by_cases hlen : payload.length = configChunkSizeWithPrefix
  · rw [odConfigAsmStart_sized hlen, if_pos]
    · exact ⟨.inr rfl, rfl⟩
    · by_contra hfits
      exact h ⟨hlen, by omega, by omega, by omega⟩
  rw [odConfigAsmStart]
  by_cases hnil : payload = []
  · rw [if_pos hnil]
    exact ⟨.inr rfl, rfl⟩
  rw [if_neg hnil]
  by_cases hshort : payload.length < configChunkSizeWithPrefix
  · rw [if_pos hshort]
    exact ⟨.inl rfl, rfl⟩
  · rw [if_neg hshort, if_pos (by omega)]
    exact ⟨.inr rfl, rfl⟩

theorem asmStarted_assembling {payload : Bytes} (h : StartFits maxSize payload) (s : ConfigAsm maxSize) :
    Assembling (asmStarted payload s) ((readLe16 payload).toNat, payload.drop 2) where
  total := UInt16.toNat_toUInt32 _
  received := by
    rw [h.data_length]
    rfl
  chunks := by
    rw [h.data_length]
    exact (Nat.one_mul _).symm
  transferable := h.transferable
  storable := h.storable
  unfinished := by
    rw [h.data_length]
    exact h.min
  front := by
    have hfits : 0 + (payload.drop 2).length ≤ maxSize := by
      have hmin := h.min
      have hsize := h.storable
      rw [h.data_length]
      omega
    have htake := copyInto_take s.buffer hfits
    rwa [Nat.zero_add, List.take_zero, List.nil_append] at htake

/-- A chunk that continues the transfer: full, or all that is left. -/
structure ChunkFits (sent : Nat × Bytes) (payload : Bytes) : Prop where
  nonempty : payload ≠ []
  le : payload.length ≤ configChunkSize
  within : (sent.2 ++ payload).length ≤ sent.1
  full : payload.length = configChunkSize ∨ (sent.2 ++ payload).length = sent.1

/-- The assembler after the bytes of a chunk are stored. -/
def asmExtended (payload : Bytes) (s : ConfigAsm maxSize) : ConfigAsm maxSize :=
  { s with
    buffer := copyInto s.buffer s.received.toNat payload
    received := s.received + UInt32.ofNat payload.length
    chunks := s.chunks + 1 }

section Chunk

variable {s : ConfigAsm maxSize} {sent : Nat × Bytes} {payload : Bytes}

theorem Assembling.remaining (h : Assembling s sent) : (s.totalSize - s.received).toNat = sent.1 - sent.2.length := by
  have hle : s.received ≤ s.totalSize := by
    rw [UInt32.le_iff_toNat_le, h.received, h.total]
    exact h.unfinished.le
  rw [UInt32.toNat_sub_of_le _ _ hle, h.total, h.received]

theorem Assembling.chunks_lt (h : Assembling s sent) : s.chunks.toNat < maxConfigChunks := by
  have hchunks := h.chunks
  have hopen := h.unfinished
  have hmax := h.transferable
  simp only [odConfigAsmMaxTransferable, maxConfigChunks, configChunkSize] at hchunks hmax ⊢
  omega

theorem Assembling.extended_received (h : Assembling s sent) (hfits : ChunkFits sent payload) :
    (asmExtended payload s).received.toNat = (sent.2 ++ payload).length := by
  have hwithin := hfits.within
  have htotal := s.totalSize.toNat_lt
  rw [h.total] at htotal
  rw [List.length_append] at hwithin ⊢
  show (s.received + UInt32.ofNat payload.length).toNat = _
  rw [UInt32.toNat_add, h.received, UInt32.toNat_ofNat_of_lt' (by show payload.length < 2 ^ 32; omega)]
  exact Nat.mod_eq_of_lt (by omega)

theorem Assembling.extended_front (h : Assembling s sent) (hfits : ChunkFits sent payload) :
    (asmExtended payload s).buffer.toList.take (sent.2 ++ payload).length = sent.2 ++ payload := by
  have hwithin := hfits.within
  have hsize := h.storable
  rw [List.length_append] at hwithin ⊢
  have hfit : s.received.toNat + payload.length ≤ maxSize := by
    rw [h.received]
    omega
  have htake := copyInto_take s.buffer hfit
  show (copyInto s.buffer s.received.toNat payload).toList.take _ = _
  rw [h.received, h.front] at htake
  rw [h.received]
  exact htake

theorem odConfigAsmChunk_fits (ha : s.active = true) (h : Assembling s sent) (hfits : ChunkFits sent payload) :
    odConfigAsmChunk payload s =
      if (sent.2 ++ payload).length = sent.1 then (.complete, { asmExtended payload s with active := false })
      else (.accepted, asmExtended payload s) := by
  have hnonempty := hfits.nonempty
  have hle := hfits.le
  have hwithin := hfits.within
  have hfull := hfits.full
  have hlt := h.chunks_lt
  have hreceived := h.extended_received hfits
  rw [List.length_append] at hwithin hfull
  have hend : (asmExtended payload s).received = (asmExtended payload s).totalSize ↔
      (sent.2 ++ payload).length = sent.1 := by
    rw [← UInt32.toNat_inj, hreceived]
    show _ = s.totalSize.toNat ↔ _
    rw [h.total]
  rw [odConfigAsmChunk, if_neg (by rw [ha]; decide), if_neg (by rintro (h | h) <;> [exact hnonempty h; omega]),
    h.remaining]
  dsimp only
  rw [if_neg (by omega), if_neg (by omega), if_neg (by omega)]
  exact if_congr hend rfl rfl

theorem odConfigAsmChunk_refuses (h : s.active = true → Assembling s sent)
    (hfits : ¬ (s.active = true ∧ ChunkFits sent payload)) :
    (odConfigAsmChunk payload s).1 = .rejected ∧ (odConfigAsmChunk payload s).2.active = false := by
  rw [odConfigAsmChunk]
  by_cases ha : s.active = true
  swap
  · rw [if_pos ha]
    exact ⟨rfl, Bool.eq_false_iff.mpr ha⟩
  rw [if_neg (not_not.mpr ha), (h ha).remaining]
  by_cases hshape : payload = [] ∨ configChunkSize < payload.length
  · rw [if_pos hshape]
    exact ⟨rfl, rfl⟩
  rw [if_neg hshape]
  dsimp only
  by_cases hover : sent.1 - sent.2.length < payload.length
  · rw [if_pos hover]
    exact ⟨rfl, rfl⟩
  rw [if_neg hover]
  by_cases hpart : payload.length < configChunkSize ∧ payload.length ≠ sent.1 - sent.2.length
  · rw [if_pos hpart]
    exact ⟨rfl, rfl⟩
  exfalso
  have hopen := (h ha).unfinished
  refine hfits ⟨ha, fun hnil => hshape (.inl hnil), ?_, ?_, ?_⟩
  · omega
  · rw [List.length_append]
    omega
  · rw [List.length_append]
    omega

theorem Assembling.extended (h : Assembling s sent) (hfits : ChunkFits sent payload)
    (hmore : (sent.2 ++ payload).length ≠ sent.1) :
    Assembling (asmExtended payload s) (sent.1, sent.2 ++ payload) where
  total := h.total
  received := h.extended_received hfits
  chunks := by
    have hfull := hfits.full.resolve_right hmore
    have hchunks := h.chunks
    have hlt := h.chunks_lt
    show (sent.2 ++ payload).length = (s.chunks + 1).toNat * configChunkSize
    rw [UInt32.toNat_add, List.length_append, hchunks, hfull]
    rw [maxConfigChunks] at hlt
    rw [UInt32.toNat_one, Nat.mod_eq_of_lt (by omega), Nat.succ_mul]
  transferable := h.transferable
  storable := h.storable
  unfinished := Nat.lt_of_le_of_ne hfits.within hmore
  front := h.extended_front hfits

end Chunk

/-- What one call does to the assembler and to the bytes gathered. -/
inductive AsmMove (s : ConfigAsm maxSize) (sent : Nat × Bytes) :
    AsmCall → Option AsmResult → ConfigAsm maxSize → Prop where
  | idle {c : AsmCall} {r : Option AsmResult} {s' : ConfigAsm maxSize} : r ≠ some .accepted → r ≠ some .complete →
      s'.active = false → AsmMove s sent c r s'
  | start {payload : Bytes} : StartFits maxSize payload → AsmMove s sent (.start payload) (some .accepted)
      (asmStarted payload s)
  | more {payload : Bytes} : s.active = true → ChunkFits sent payload → (sent.2 ++ payload).length ≠ sent.1 →
      AsmMove s sent (.chunk payload) (some .accepted) (asmExtended payload s)
  | last {payload : Bytes} : s.active = true → ChunkFits sent payload → (sent.2 ++ payload).length = sent.1 →
      AsmMove s sent (.chunk payload) (some .complete) { asmExtended payload s with active := false }

theorem asmStep_move {s : ConfigAsm maxSize} {sent : Nat × Bytes} (h : s.active = true → Assembling s sent)
    (c : AsmCall) : AsmMove s sent c (asmStep c s).1 (asmStep c s).2 := by
  cases c with
  | start payload =>
    by_cases hfits : StartFits maxSize payload
    · simp only [asmStep, odConfigAsmStart_fits hfits]
      exact .start hfits
    · obtain ⟨hr, hs⟩ := odConfigAsmStart_refuses hfits s
      refine .idle ?_ ?_ ?_
      · show some (odConfigAsmStart payload s).1 ≠ _
        rcases hr with hr | hr <;> rw [hr] <;> nofun
      · show some (odConfigAsmStart payload s).1 ≠ _
        rcases hr with hr | hr <;> rw [hr] <;> nofun
      · show (odConfigAsmStart payload s).2.active = false
        rw [hs]
        rfl
  | chunk payload =>
    by_cases hfits : s.active = true ∧ ChunkFits sent payload
    · obtain ⟨ha, hfits⟩ := hfits
      simp only [asmStep, odConfigAsmChunk_fits ha (h ha) hfits]
      by_cases hend : (sent.2 ++ payload).length = sent.1
      · rw [if_pos hend]
        exact .last ha hfits hend
      · rw [if_neg hend]
        exact .more ha hfits hend
    · obtain ⟨hr, hs⟩ := odConfigAsmChunk_refuses h hfits
      refine .idle ?_ ?_ hs
      · show some (odConfigAsmChunk payload s).1 ≠ _
        rw [hr]
        nofun
      · show some (odConfigAsmChunk payload s).1 ≠ _
        rw [hr]
        nofun
  | reset => exact .idle nofun nofun rfl

theorem AsmMove.assembling {s s' : ConfigAsm maxSize} {sent : Nat × Bytes} {c : AsmCall} {r : Option AsmResult}
    (h : s.active = true → Assembling s sent) (hm : AsmMove s sent c r s') (ha : s'.active = true) :
    Assembling s' (gather sent (c, r)) := by
  cases hm with
  | idle _ _ hidle => exact absurd ha (by rw [hidle]; nofun)
  | start hfits => exact asmStarted_assembling hfits s
  | more hactive hfits hmore => exact (h hactive).extended hfits hmore
  | last => cases ha

theorem asmRun_assembling {s : ConfigAsm maxSize} {sent : Nat × Bytes} (h : s.active = true → Assembling s sent)
    (calls : List AsmCall) (ha : (asmRun calls s).2.active = true) :
    Assembling (asmRun calls s).2 ((asmRun calls s).1.foldl gather sent) := by
  induction calls generalizing s sent with
  | nil => exact h ha
  | cons c calls ih => exact ih (fun hactive => (asmStep_move h c).assembling h hactive) ha

theorem Assembling.bounds {s : ConfigAsm maxSize} {sent : Nat × Bytes} (h : Assembling s sent) :
    s.received ≤ s.totalSize ∧ s.totalSize.toNat ≤ min odConfigAsmMaxTransferable maxSize ∧
      s.chunks.toNat ≤ maxConfigChunks := by
  refine ⟨?_, ?_, h.chunks_lt.le⟩
  · rw [UInt32.le_iff_toNat_le, h.received, h.total]
    exact h.unfinished.le
  · rw [h.total]
    exact Nat.le_min.mpr ⟨h.transferable, h.storable⟩

end Runs

section Transfer

variable {maxSize : Nat}

/-- The frames of a configuration: its size and the first chunk, and the other chunks, all
of them full but perhaps the last. -/
def configFrames (blob : Bytes) : List AsmCall :=
  .start
      ((UInt16.ofNat blob.length).toUInt8 :: (UInt16.ofNat blob.length >>> 8).toUInt8 :: blob.take configChunkSize) ::
    (pieces configChunkSize ((blob.length - 1) / configChunkSize) (blob.drop configChunkSize)).map .chunk

def asmResults (log : AsmLog) : List (Option AsmResult) := log.map Prod.snd

/-- The chunks of the rest of a transfer, of which there are `k + 1`. -/
theorem chunks_run {s : ConfigAsm maxSize} {sent : Nat × Bytes} (k : Nat) (rest : Bytes) (ha : s.active = true)
    (h : Assembling s sent) (hrest : (sent.2 ++ rest).length = sent.1) (hmore : k * configChunkSize < rest.length)
    (hlast : rest.length ≤ (k + 1) * configChunkSize) :
    let run := asmRun ((pieces configChunkSize (k + 1) rest).map .chunk) s
    asmResults run.1 = List.replicate k (some .accepted) ++ [some .complete] ∧
      run.2.buffer.toList.take sent.1 = sent.2 ++ rest := by
  induction k generalizing s sent rest with
  | zero =>
    rw [Nat.zero_add, Nat.one_mul] at hlast
    have htake : rest.take configChunkSize = rest := List.take_of_length_le hlast
    have hfits : ChunkFits sent rest := ⟨by rintro rfl; simp at hmore, hlast, hrest.le, .inr hrest⟩
    have hchunk := odConfigAsmChunk_fits ha h hfits
    rw [if_pos hrest] at hchunk
    simp only [pieces, htake, List.map_cons, List.map_nil, asmRun, asmStep, hchunk]
    refine ⟨rfl, ?_⟩
    rw [← hrest]
    exact h.extended_front hfits
  | succ k ih =>
    have hfirst : (rest.take configChunkSize).length = configChunkSize := by
      rw [List.length_take]
      rw [Nat.succ_mul] at hmore
      omega
    have hsplit : sent.2 ++ rest = (sent.2 ++ rest.take configChunkSize) ++ rest.drop configChunkSize := by
      rw [List.append_assoc, List.take_append_drop]
    have hdrop : (rest.drop configChunkSize).length = rest.length - configChunkSize := List.length_drop
    have hbefore : (sent.2 ++ rest.take configChunkSize).length < sent.1 := by
      rw [← hrest, List.length_append, List.length_append, hfirst]
      rw [Nat.succ_mul] at hmore
      omega
    have hfits : ChunkFits sent (rest.take configChunkSize) :=
      ⟨by intro hnil; rw [hnil] at hfirst; exact absurd hfirst (by decide), hfirst.le, hbefore.le, .inl hfirst⟩
    have hchunk := odConfigAsmChunk_fits ha h hfits
    rw [if_neg hbefore.ne] at hchunk
    obtain ⟨hresults, hbuffer⟩ := ih (rest.drop configChunkSize) (s := asmExtended (rest.take configChunkSize) s) ha
      (h.extended hfits hbefore.ne) (by rw [← hsplit]; exact hrest) (by rw [Nat.succ_mul] at hmore; omega)
      (by rw [Nat.succ_mul] at hlast; omega)
    rw [pieces]
    simp only [List.map_cons, asmRun, asmStep, hchunk]
    refine ⟨?_, ?_⟩
    · show some AsmResult.accepted :: _ = _
      rw [List.replicate_succ, List.cons_append]
      exact congrArg _ hresults
    · rw [hsplit]
      exact hbuffer

theorem AsmMove.reports {s s' : ConfigAsm maxSize} {sent : Nat × Bytes} {c : AsmCall} {r : Option AsmResult}
    (h : s.active = true → Assembling s sent) (hm : AsmMove s sent c r s') :
    (r = some .complete ↔
      (r = some .accepted ∨ r = some .complete) ∧ (gather sent (c, r)).2.length = (gather sent (c, r)).1) ∧
    (r = some .complete → s'.totalSize.toNat = (gather sent (c, r)).1 ∧
      s'.buffer.toList.take s'.totalSize.toNat = (gather sent (c, r)).2) := by
  cases hm with
  | idle hna hnc _ =>
    exact ⟨⟨fun hr => absurd hr hnc, fun hr => absurd hr.1 (by simp [hna, hnc])⟩, fun hr => absurd hr hnc⟩
  | @start payload hfits =>
    refine ⟨⟨nofun, fun hr => ?_⟩, nofun⟩
    have hlen : (payload.drop 2).length = (readLe16 payload).toNat := hr.2
    rw [hfits.data_length] at hlen
    exact absurd hfits.min (by rw [hlen]; exact Nat.lt_irrefl _)
  | more _ _ hmore => exact ⟨⟨nofun, fun hr => absurd hr.2 hmore⟩, nofun⟩
  | @last payload ha hfits hend =>
    have htotal : (asmExtended payload s).totalSize.toNat = sent.1 := (h ha).total
    refine ⟨⟨fun hr => ⟨.inr hr, hend⟩, fun _ => rfl⟩, fun _ => ⟨htotal, ?_⟩⟩
    show (asmExtended payload s).buffer.toList.take (asmExtended payload s).totalSize.toNat = sent.2 ++ payload
    rw [htotal, ← hend]
    exact (h ha).extended_front hfits

/-- A configuration in the frames of `configFrames` arrives whole, from any state. -/
theorem configFrames_run (s : ConfigAsm maxSize) {blob : Bytes} (hmin : configChunkSize < blob.length)
    (hmax : blob.length ≤ odConfigAsmMaxTransferable) (hsize : blob.length ≤ maxSize) :
    let run := asmRun (configFrames blob) s
    asmResults run.1 =
        List.replicate ((blob.length - 1) / configChunkSize) (some .accepted) ++ [some .complete] ∧
      run.2.buffer.toList.take blob.length = blob := by
  have hsmall : blob.length < 2 ^ 16 := by
    simp only [odConfigAsmMaxTransferable, maxConfigChunks, configChunkSize] at hmax
    omega
  have hdeclared : (UInt16.ofNat blob.length).toNat = blob.length := UInt16.toNat_ofNat_of_lt' hsmall
  generalize hn : UInt16.ofNat blob.length = n at hdeclared
  have hread := readLe16_le n (blob.take configChunkSize)
  have hfits : StartFits maxSize (n.toUInt8 :: (n >>> 8).toUInt8 :: blob.take configChunkSize) := by
    refine ⟨?_, ?_, ?_, ?_⟩
    · rw [List.length_cons, List.length_cons, List.length_take, Nat.min_eq_left hmin.le]
      rfl
    all_goals rw [hread, hdeclared]; assumption
  have hassembling := asmStarted_assembling hfits s
  rw [hread, hdeclared] at hassembling
  obtain ⟨k, hk⟩ : ∃ k, (blob.length - 1) / configChunkSize = k + 1 := by
    refine Nat.exists_eq_succ_of_ne_zero (Nat.div_pos (by omega) (by decide)).ne'
  have hbounds : (k + 1) * configChunkSize ≤ blob.length - 1 ∧
      blob.length - 1 < (k + 1) * configChunkSize + configChunkSize := by
    rw [← hk]
    have hdiv := Nat.div_add_mod (blob.length - 1) configChunkSize
    have hlt := Nat.mod_lt (blob.length - 1) (show 0 < configChunkSize by decide)
    rw [Nat.mul_comm] at hdiv
    constructor <;> omega
  have hdrop : (blob.drop configChunkSize).length = blob.length - configChunkSize := List.length_drop
  have hwhole : blob.take configChunkSize ++ blob.drop configChunkSize = blob := List.take_append_drop _ _
  obtain ⟨hresults, hbuffer⟩ := chunks_run k (blob.drop configChunkSize) rfl hassembling
    (by show (blob.take configChunkSize ++ blob.drop configChunkSize).length = blob.length; rw [hwhole])
    (by rw [Nat.succ_mul] at hbounds; omega) (by omega)
  rw [configFrames, hn, hk]
  simp only [asmRun, asmStep, odConfigAsmStart_fits hfits]
  refine ⟨?_, ?_⟩
  · show some AsmResult.accepted :: _ = _
    rw [List.replicate_succ, List.cons_append]
    exact congrArg _ hresults
  · exact hbuffer.trans hwhole

/-- Whatever the calls, a transfer in progress stays within both limits, a rejection ends
it, and it is complete exactly when the declared number of bytes has been accepted, with
these bytes at the front of the buffer. Any configuration within the limits can be sent. -/
theorem odConfigAsm_integrity (maxSize : Nat) :
    (∀ (s₀ : ConfigAsm maxSize) (calls : List AsmCall) (c : AsmCall), s₀.active = false →
      let run := asmRun calls s₀
      let step := asmStep c run.2
      let before := gathered run.1
      let sent := gathered (run.1 ++ [(c, step.1)])
      (step.2.active = true → step.2.received ≤ step.2.totalSize ∧
        step.2.totalSize.toNat ≤ min odConfigAsmMaxTransferable maxSize ∧ step.2.chunks.toNat ≤ maxConfigChunks) ∧
      (step.1 = some .rejected → step.2.active = false) ∧
      (step.1 = some .complete ↔
        (step.1 = some .accepted ∨ step.1 = some .complete) ∧ sent.2.length = sent.1) ∧
      (∀ payload, c = .chunk payload → run.2.active = true → payload ≠ [] → payload.length ≤ configChunkSize →
        (before.2 ++ payload).length = before.1 → step.1 = some .complete) ∧
      (step.1 = some .complete → step.2.totalSize.toNat = sent.1 ∧
        step.2.buffer.toList.take step.2.totalSize.toNat = sent.2)) ∧
    (∀ (s : ConfigAsm maxSize) (blob : Bytes), configChunkSize < blob.length →
      blob.length ≤ odConfigAsmMaxTransferable → blob.length ≤ maxSize →
      let run := asmRun (configFrames blob) s
      asmResults run.1 =
          List.replicate ((blob.length - 1) / configChunkSize) (some .accepted) ++ [some .complete] ∧
        run.2.buffer.toList.take blob.length = blob) := by
  refine ⟨?_, fun s blob hmin hmax hsize => configFrames_run s hmin hmax hsize⟩
  intro s₀ calls c hidle run step before sent
  have hrun : run.2.active = true → Assembling run.2 before :=
    asmRun_assembling (fun ha => absurd ha (by rw [hidle]; nofun)) calls
  have hmove := asmStep_move hrun c
  have hsent : sent = gather before (c, step.1) := by
    show gathered (run.1 ++ [(c, step.1)]) = _
    rw [gathered, List.foldl_append]
    rfl
  obtain ⟨hiff, hbuffer⟩ := hmove.reports hrun
  rw [hsent]
  refine ⟨fun ha => (hmove.assembling hrun ha).bounds, fun hr => ?_, hiff, ?_, hbuffer⟩
  · have hmove' : AsmMove run.2 before c (some .rejected) step.2 := hr ▸ hmove
    cases hmove' with
    | idle _ _ hidle => exact hidle
  · rintro payload rfl ha hne hle hend
    have hfits : ChunkFits before payload := ⟨hne, hle, hend.le, .inr hend⟩
    show some (odConfigAsmChunk payload run.2).1 = _
    rw [odConfigAsmChunk_fits ha (hrun ha) hfits, if_pos hend]

/-- Three hundred bytes in two frames, and a chunk that comes without a start. -/
theorem odConfigAsm_integrity_two_frames :
    (asmStep (.chunk [1]) (asmRun [.reset] (⟨false, 0, 0, 0, Vector.replicate 512 0⟩ : ConfigAsm 512)).2).1 ≠
        some .complete ∧
      asmResults (asmRun (configFrames (List.replicate 300 7))
          (⟨true, 0, 9, 0, Vector.replicate 512 0⟩ : ConfigAsm 512)).1 =
        [some .accepted, some .complete] := by
  obtain ⟨hcalls, hblobs⟩ := odConfigAsm_integrity 512
  constructor
  · intro hcomplete
    have hlen := ((hcalls ⟨false, 0, 0, 0, Vector.replicate 512 0⟩ [.reset] (.chunk [1]) rfl).2.2.1.mp hcomplete).2
    rw [hcomplete] at hlen
    exact absurd hlen (by decide)
  · have hblob := (hblobs ⟨true, 0, 9, 0, Vector.replicate 512 0⟩ (List.replicate 300 7)
      (by rw [List.length_replicate]; decide) (by rw [List.length_replicate]; decide)
      (by rw [List.length_replicate]; decide)).1
    rw [hblob, List.length_replicate]
    rfl

end Transfer

end OpenDisplay
