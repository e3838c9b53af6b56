import OpenDisplay.Dispatch.Nfc
import OpenDisplay.Lib.Trace

/-! A record written in several frames: what reaches the tag is what its owner sent. -/

namespace OpenDisplay

open Traces

section Tag

/-- The write that a frame asks of the tag. -/
def nfcTagWrite (ctx : Ctx) (body : Bytes) (n : Nfc) : Option (UInt8 × Bytes) :=
  if byteAt body 0 = nfcSubWrite then
    let declared := (readBe16 (body.drop 2)).toNat
    if declared + 4 ≤ body.length ∧ recTypeValid (byteAt body 1) then
      some (byteAt body 1, (body.drop 4).take declared)
    else none
  else if byteAt body 0 = nfcSubWriteEnd ∧ nfcOwnedBy ctx n ∧ n.receivedLen = n.totalLen then
    some (n.recType, n.data.take n.totalLen.toNat)
  else none

/-- Everything that a frame can do to the assembly, with the write it asks of the tag. -/
inductive NfcDid (ctx : Ctx) (body : Bytes) (n : Nfc) : Option (UInt8 × Bytes) → CmdResult → Nfc → Prop where
  | refused : NfcDid ctx body n none .nack n
  | read (r : CmdResult) : byteAt body 0 = nfcSubRead → NfcDid ctx body n none r n
  | atOnce (r : CmdResult) : byteAt body 0 = nfcSubWrite → (readBe16 (body.drop 2)).toNat + 4 ≤ body.length →
      NfcDid ctx body n (some (byteAt body 1, (body.drop 4).take (readBe16 (body.drop 2)).toNat)) r n
  | armed : byteAt body 0 = nfcSubWriteStart → readBe16 (body.drop 2) ≠ 0 →
      (readBe16 (body.drop 2)).toNat ≤ odNfcAssemblyMax →
      NfcDid ctx body n none .ok
        { owner := ctx.rp, recType := byteAt body 1, totalLen := readBe16 (body.drop 2), active := true }
  | taken : byteAt body 0 = nfcSubWriteData → nfcOwnedBy ctx n = true →
      n.receivedLen.toNat + (body.drop 1).length ≤ n.totalLen.toNat →
      NfcDid ctx body n none .ok
        { n with
          data := n.data.take n.receivedLen.toNat ++ body.drop 1
          receivedLen := UInt16.ofNat (n.receivedLen.toNat + (body.drop 1).length) }
  | dropped : NfcDid ctx body n none .nack {}
  | wrote (r : CmdResult) : byteAt body 0 = nfcSubWriteEnd → nfcOwnedBy ctx n = true → n.receivedLen = n.totalLen →
      NfcDid ctx body n (some (n.recType, n.data.take n.totalLen.toNat)) r {}

variable {ctx : Ctx} {body : Bytes} {n : Nfc}

theorem nfcTagWrite_none (hw : byteAt body 0 ≠ nfcSubWrite) (he : byteAt body 0 ≠ nfcSubWriteEnd) :
    nfcTagWrite ctx body n = none := by
  rw [nfcTagWrite, if_neg hw, if_neg fun h => he h.1]

theorem nfcTagWrite_inline (hw : byteAt body 0 = nfcSubWrite) :
    nfcTagWrite ctx body n =
      if (readBe16 (body.drop 2)).toNat + 4 ≤ body.length ∧ recTypeValid (byteAt body 1) then
        some (byteAt body 1, (body.drop 4).take (readBe16 (body.drop 2)).toNat)
      else none := by
  rw [nfcTagWrite, if_pos hw]

theorem nfcTagWrite_end (he : byteAt body 0 = nfcSubWriteEnd) :
    nfcTagWrite ctx body n =
      if nfcOwnedBy ctx n = true ∧ n.receivedLen = n.totalLen then some (n.recType, n.data.take n.totalLen.toNat)
      else none := by
  rw [nfcTagWrite, if_neg (by rw [he]; decide)]
  exact if_congr ⟨And.right, fun h => ⟨he, h⟩⟩ rfl rfl

end Tag

section Frame

variable {slots : Nat} [NeZero slots] (app : NfcApp) (ctx : Ctx) (body : Bytes) (n : Nfc) (k : Desk slots)

theorem nfcHandleRead_keeps : (nfcHandleRead app ctx n k).2.1 = n := by
  unfold nfcHandleRead
  dsimp only
  split
  · rfl
  · split_ifs <;> rfl

theorem nfcHandleInlineWrite_eq (hw : byteAt body 0 = nfcSubWrite) :
    nfcHandleInlineWrite app ctx body n k =
      match nfcTagWrite ctx body n with
      | some (type, data) =>
        if app.write type data then
          nfcAckCommitted app ctx [respAck, respNfcEndpoint, nfcStatusWriteCommitted] n (k.hooks app.hooks)
        else nfcNack app ctx nfcErrTagWriteFailed n (k.hooks app.hooks)
      | none =>
        nfcNack app ctx
          (if body.length < (readBe16 (body.drop 2)).toNat + 4 then nfcErrMalformed else nfcErrInvalidRecType)
          n k := by
  rw [nfcTagWrite_inline hw]
  unfold nfcHandleInlineWrite
  dsimp only
  generalize (readBe16 (body.drop 2)).toNat = declared
  by_cases hshort : body.length < declared + 4
  · have hcall : ¬ (declared + 4 ≤ body.length ∧ recTypeValid (byteAt body 1) = true) := fun h => by omega
    rw [if_neg hcall, if_pos hshort, if_pos hshort, ite_self]
  · have hlen : ¬ body.length < 4 := by omega
    have hrest : ¬ (body.drop 4).length < declared := by
      rw [List.length_drop]
      omega
    rw [if_neg hlen, if_neg hshort, if_neg hshort, if_neg hrest]
    by_cases htype : recTypeValid (byteAt body 1) = true
    · have hcall : declared + 4 ≤ body.length ∧ recTypeValid (byteAt body 1) = true := ⟨by omega, htype⟩
      rw [if_neg (not_not.mpr htype), if_pos hcall]
      exact ite_not _ _ _
    · have hcall : ¬ (declared + 4 ≤ body.length ∧ recTypeValid (byteAt body 1) = true) := fun h => htype h.2
      rw [if_pos htype, if_neg hcall]

theorem nfcHandleEnd_eq (he : byteAt body 0 = nfcSubWriteEnd) :
    nfcHandleEnd app ctx n k =
      match nfcTagWrite ctx body n with
      | some (type, data) =>
        if app.write type data then
          nfcAckCommitted app ctx [respAck, respNfcEndpoint, nfcStatusWriteCommitted] {} (k.hooks app.hooks)
        else nfcNack app ctx nfcErrTagWriteFailed {} (k.hooks app.hooks)
      | none => nfcNack app ctx (if nfcOwnedBy ctx n then nfcErrEndLenMismatch else nfcErrChunkNoStart) n k := by
  rw [nfcTagWrite_end he]
  unfold nfcHandleEnd
  by_cases howned : nfcOwnedBy ctx n = true
  · rw [if_neg (not_not.mpr howned), if_pos howned]
    by_cases hlen : n.receivedLen = n.totalLen
    · have hcall : nfcOwnedBy ctx n = true ∧ n.receivedLen = n.totalLen := ⟨howned, hlen⟩
      rw [if_neg (not_not.mpr hlen), if_pos hcall]
      exact ite_not _ _ _
    · have hcall : ¬ (nfcOwnedBy ctx n = true ∧ n.receivedLen = n.totalLen) := fun h => hlen h.2
      rw [if_pos hlen, if_neg hcall]
  · have hcall : ¬ (nfcOwnedBy ctx n = true ∧ n.receivedLen = n.totalLen) := fun h => howned h.1
    rw [if_pos howned, if_neg hcall, if_neg howned]

theorem nfcAckArmed_cases :
    (nfcAckArmed app ctx n k).1 = .ok ∧ (nfcAckArmed app ctx n k).2.1 = n ∨
      (nfcAckArmed app ctx n k).1 = .nack ∧ (nfcAckArmed app ctx n k).2.1 = {} := by
  unfold nfcAckArmed
  dsimp only
  split_ifs
  · exact .inr ⟨rfl, rfl⟩
  · exact .inl ⟨rfl, rfl⟩

theorem nfcHandleStart_did (hsub : byteAt body 0 = nfcSubWriteStart) :
    NfcDid ctx body n none (nfcHandleStart app ctx body n k).1 (nfcHandleStart app ctx body n k).2.1 := by
  unfold nfcHandleStart
  dsimp only
  split_ifs with hlen htype htotal
  · exact .refused
  · exact .refused
  · obtain ⟨hzero, hmax⟩ := not_or.mp htotal
    rcases nfcAckArmed_cases app ctx
        { odNfcReset n with
          owner := ctx.rp, recType := byteAt body 1, totalLen := readBe16 (body.drop 2), active := true } k with
      ⟨hr, hn⟩ | ⟨hr, hn⟩
    · rw [hr, hn]
      exact .armed hsub hzero (Nat.not_lt.mp hmax)
    · rw [hr, hn]
      exact .dropped
  · exact .refused

theorem nfcHandleData_did (hsub : byteAt body 0 = nfcSubWriteData) :
    NfcDid ctx body n none (nfcHandleData app ctx body n k).1 (nfcHandleData app ctx body n k).2.1 := by
  unfold nfcHandleData
  dsimp only
  split_ifs with howned hshape hfits
  · exact .refused
  · exact .dropped
  · rcases nfcAckArmed_cases app ctx
        { n with
          data := n.data.take n.receivedLen.toNat ++ body.drop 1
          receivedLen := UInt16.ofNat (n.receivedLen.toNat + (body.drop 1).length) } k with
      ⟨hr, hn⟩ | ⟨hr, hn⟩
    · rw [hr, hn]
      exact .taken hsub howned (Nat.not_lt.mp hfits)
    · rw [hr, hn]
      exact .dropped
  · exact .refused

theorem odNfcFrame_did :
    NfcDid ctx body n (nfcTagWrite ctx body n) (odNfcFrame app ctx true body n k).1
      (odNfcFrame app ctx true body n k).2.1 := by
  unfold odNfcFrame
  rw [if_neg (not_not.mpr rfl)]
  split_ifs with hlen hread hwrite hstart hdata hend
  · have hbyte : byteAt body 0 = 0 := by
      rw [List.length_eq_zero_iff.mp (Nat.lt_one_iff.mp hlen)]
      rfl
    rw [nfcTagWrite_none (by rw [hbyte]; decide) (by rw [hbyte]; decide)]
    exact .refused
  · rw [nfcTagWrite_none (by rw [hread]; decide) (by rw [hread]; decide), nfcHandleRead_keeps]
    exact .read _ hread
  · rw [nfcHandleInlineWrite_eq app ctx body n k hwrite, nfcTagWrite_inline hwrite]
    by_cases hcall : (readBe16 (body.drop 2)).toNat + 4 ≤ body.length ∧ recTypeValid (byteAt body 1) = true
    · rw [if_pos hcall]
      dsimp only
      split_ifs
      · exact .atOnce _ hwrite hcall.1
      · exact .atOnce _ hwrite hcall.1
    · rw [if_neg hcall]
      exact .refused
  · rw [nfcTagWrite_none (by rw [hstart]; decide) (by rw [hstart]; decide)]
    exact nfcHandleStart_did app ctx body n k hstart
  · rw [nfcTagWrite_none (by rw [hdata]; decide) (by rw [hdata]; decide)]
    exact nfcHandleData_did app ctx body n k hdata
  · rw [nfcHandleEnd_eq app ctx body n k hend, nfcTagWrite_end hend]
    by_cases hcall : nfcOwnedBy ctx n = true ∧ n.receivedLen = n.totalLen
    · rw [if_pos hcall]
      dsimp only
      split_ifs
      · exact .wrote _ hend hcall.1 hcall.2
      · exact .wrote _ hend hcall.1 hcall.2
    · rw [if_neg hcall]
      exact .refused
  · rw [nfcTagWrite_none hwrite hend]
    exact .refused

/-- The tag is asked for that write and no other, and the frame ends as the tag answers. -/
def AsksTag : Prop :=
  (nfcTagWrite ctx body n = none → ∀ write,
    odNfcFrame { app with write := write } ctx true body n k = odNfcFrame app ctx true body n k) ∧
  ∀ type data, nfcTagWrite ctx body n = some (type, data) →
    odNfcFrame app ctx true body n k =
      let left : Nfc := if byteAt body 0 = nfcSubWriteEnd then {} else n
      if app.write type data then
        nfcAckCommitted app ctx [respAck, respNfcEndpoint, nfcStatusWriteCommitted] left (k.hooks app.hooks)
      else nfcNack app ctx nfcErrTagWriteFailed left (k.hooks app.hooks)

theorem odNfcFrame_asks : AsksTag app ctx body n k := by
  unfold AsksTag odNfcFrame
  simp only [not_true_eq_false, if_false]
  by_cases hlen : body.length < 1
  · have hbyte : byteAt body 0 = 0 := by
      rw [List.length_eq_zero_iff.mp (Nat.lt_one_iff.mp hlen)]
      rfl
    rw [nfcTagWrite_none (by rw [hbyte]; decide) (by rw [hbyte]; decide)]
    simp only [if_pos hlen]
    exact ⟨fun _ _ => rfl, by simp⟩
  simp only [if_neg hlen]
  by_cases hwrite : byteAt body 0 = nfcSubWrite
  · have hread : byteAt body 0 ≠ nfcSubRead := by rw [hwrite]; decide
    have hend : byteAt body 0 ≠ nfcSubWriteEnd := by rw [hwrite]; decide
    simp only [if_neg hread, if_pos hwrite, if_neg hend, nfcHandleInlineWrite_eq _ ctx body n k hwrite]
    constructor
    · intro hnone write
      rw [hnone]
      rfl
    · intro type data hsome
      rw [hsome]
  by_cases hend : byteAt body 0 = nfcSubWriteEnd
  · have hread : byteAt body 0 ≠ nfcSubRead := by rw [hend]; decide
    have hstart : byteAt body 0 ≠ nfcSubWriteStart := by rw [hend]; decide
    have hdata : byteAt body 0 ≠ nfcSubWriteData := by rw [hend]; decide
    simp only [if_neg hread, if_neg hwrite, if_neg hstart, if_neg hdata, if_pos hend,
      nfcHandleEnd_eq _ ctx body n k hend]
    constructor
    · intro hnone write
      rw [hnone]
      rfl
    · intro type data hsome
      rw [hsome]
  · rw [nfcTagWrite_none hwrite hend]
    simp only [if_neg hwrite, if_neg hend]
    exact ⟨fun _ _ => rfl, by simp⟩

end Frame

section Runs

variable {slots : Nat} [NeZero slots]

/-- A frame for the endpoint, with what the tag and the reply queue do meanwhile. -/
structure NfcCall (slots : Nat) where
  app : NfcApp
  ctx : Ctx
  body : Bytes
  desk : Desk slots

inductive NfcOp (slots : Nat) where
  | frame (c : NfcCall slots)
  | reset

/-- A frame as it was answered, and the write it asked of the tag. -/
structure NfcDeed where
  rp : Reply
  body : Bytes
  result : CmdResult
  wrote : Option (UInt8 × Bytes)

def NfcCall.run (c : NfcCall slots) (n : Nfc) : CmdResult × Nfc × Desk slots :=
  odNfcFrame c.app c.ctx true c.body n c.desk

def nfcStep (w : Nfc × List NfcDeed) : NfcOp slots → Nfc × List NfcDeed
  | .frame c => ((c.run w.1).2.1, w.2 ++ [⟨c.ctx.rp, c.body, (c.run w.1).1, nfcTagWrite c.ctx c.body w.1⟩])
  | .reset => (odNfcReset w.1, w.2)

def nfcRun (ops : List (NfcOp slots)) : Nfc × List NfcDeed := ops.foldl nfcStep ({}, [])

/-- An accepted start, and the chunks accepted since, each with its sender. -/
structure Staged where
  rp : Reply
  type : UInt8
  total : UInt16
  chunks : List (Reply × Bytes) := []

def Staged.data (s : Staged) : Bytes := (s.chunks.map Prod.snd).flatten

def stagedStep (s : Option Staged) (e : NfcDeed) : Option Staged :=
  if e.result = .ok ∧ byteAt e.body 0 = nfcSubWriteStart then
    some { rp := e.rp, type := byteAt e.body 1, total := readBe16 (e.body.drop 2) }
  else if e.result = .ok ∧ byteAt e.body 0 = nfcSubWriteData then
    s.map fun s => { s with chunks := s.chunks ++ [(e.rp, e.body.drop 1)] }
  else s

def staged (es : List NfcDeed) : Option Staged := es.foldl stagedStep none

/-- A write after an end is the whole record of the last start, from one sender. -/
def RecordWhole (pre : List NfcDeed) (e : NfcDeed) : Prop :=
  byteAt e.body 0 = nfcSubWriteEnd → ∀ type data, e.wrote = some (type, data) →
    ∃ s, staged pre = some s ∧ e.rp = s.rp ∧ (∀ c ∈ s.chunks, c.1 = s.rp) ∧ type = s.type ∧ data = s.data ∧
      data.length = s.total.toNat ∧ 1 ≤ s.total.toNat ∧ s.total.toNat ≤ odNfcAssemblyMax

/-- What is staged in the endpoint is what was accepted. -/
structure Assembles (n : Nfc) (s : Staged) : Prop where
  rp : n.owner = s.rp
  type : n.recType = s.type
  total : n.totalLen = s.total
  some : 1 ≤ s.total.toNat
  senders : ∀ c ∈ s.chunks, c.1 = s.rp
  data : n.data.take n.receivedLen.toNat = s.data
  received : n.receivedLen.toNat = s.data.length

structure NfcSound (w : Nfc × List NfcDeed) : Prop where
  received : w.1.receivedLen.toNat ≤ w.1.totalLen.toNat
  total : w.1.totalLen.toNat ≤ odNfcAssemblyMax
  staged : w.1.active = true → ∃ s, staged w.2 = some s ∧ Assembles w.1 s
  writes : Always RecordWhole w.2

theorem staged_append (es : List NfcDeed) (e : NfcDeed) : staged (es ++ [e]) = stagedStep (staged es) e := by
  rw [staged, List.foldl_append]
  rfl

theorem nfcOwnedBy_iff {ctx : Ctx} {n : Nfc} : nfcOwnedBy ctx n = true ↔ n.active = true ∧ ctx.rp = n.owner := by
  obtain ⟨⟨origin, tag⟩, len, wasProtected⟩ := ctx
  obtain ⟨⟨origin', tag'⟩, total, received, type, active, data⟩ := n
  simp [nfcOwnedBy, odReplySame]

theorem stagedStep_other {s : Option Staged} {e : NfcDeed}
    (h : e.result = .nack ∨ byteAt e.body 0 ≠ nfcSubWriteStart ∧ byteAt e.body 0 ≠ nfcSubWriteData) :
    stagedStep s e = s := by
  rw [stagedStep, if_neg, if_neg]
  · rintro ⟨hok, hsub⟩
    rcases h with hnack | hother
    · exact absurd (hnack.symm.trans hok) (by decide)
    · exact hother.2 hsub
  · rintro ⟨hok, hsub⟩
    rcases h with hnack | hother
    · exact absurd (hnack.symm.trans hok) (by decide)
    · exact hother.1 hsub

theorem NfcSound.keep {w : Nfc × List NfcDeed} (h : NfcSound w) {e : NfcDeed}
    (he : e.result = .nack ∨ byteAt e.body 0 ≠ nfcSubWriteStart ∧ byteAt e.body 0 ≠ nfcSubWriteData)
    (hwhole : RecordWhole w.2 e) : NfcSound (w.1, w.2 ++ [e]) where
  received := h.received
  total := h.total
  staged hactive := by
    obtain ⟨s, hs, ha⟩ := h.staged hactive
    refine ⟨s, ?_, ha⟩
    rw [staged_append, stagedStep_other he, hs]
  writes := always_concat.mpr ⟨h.writes, hwhole⟩

theorem NfcSound.drop {w : Nfc × List NfcDeed} (h : NfcSound w) {e : NfcDeed} (hwhole : RecordWhole w.2 e) :
    NfcSound ({}, w.2 ++ [e]) :=
  ⟨Nat.le_refl _, Nat.zero_le _, nofun, always_concat.mpr ⟨h.writes, hwhole⟩⟩

theorem NfcSound.start {w : Nfc × List NfcDeed} (h : NfcSound w) {rp : Reply} {body : Bytes}
    (hsub : byteAt body 0 = nfcSubWriteStart) (hzero : readBe16 (body.drop 2) ≠ 0)
    (hmax : (readBe16 (body.drop 2)).toNat ≤ odNfcAssemblyMax) :
    NfcSound ({ owner := rp, recType := byteAt body 1, totalLen := readBe16 (body.drop 2), active := true },
      w.2 ++ [⟨rp, body, .ok, none⟩]) := by
  refine ⟨Nat.zero_le _, hmax, fun _ => ?_, always_concat.mpr ⟨h.writes, fun _ _ _ hw => by cases hw⟩⟩
  refine ⟨{ rp := rp, type := byteAt body 1, total := readBe16 (body.drop 2) }, ?_, rfl, rfl, rfl, ?_, nofun, rfl, rfl⟩
  · rw [staged_append, stagedStep, if_pos ⟨rfl, hsub⟩]
  · exact Nat.pos_of_ne_zero fun hn => hzero (UInt16.toNat_inj.mp hn)

theorem NfcSound.chunk {w : Nfc × List NfcDeed} (h : NfcSound w) {ctx : Ctx} {body : Bytes}
    (hsub : byteAt body 0 = nfcSubWriteData) (howned : nfcOwnedBy ctx w.1 = true)
    (hfits : w.1.receivedLen.toNat + (body.drop 1).length ≤ w.1.totalLen.toNat) :
    NfcSound
      ({ w.1 with
          data := w.1.data.take w.1.receivedLen.toNat ++ body.drop 1
          receivedLen := UInt16.ofNat (w.1.receivedLen.toNat + (body.drop 1).length) },
        w.2 ++ [⟨ctx.rp, body, .ok, none⟩]) := by
  obtain ⟨hactive, howner⟩ := nfcOwnedBy_iff.mp howned
  obtain ⟨s, hs, ha⟩ := h.staged hactive
  have hlen : (UInt16.ofNat (w.1.receivedLen.toNat + (body.drop 1).length)).toNat =
      w.1.receivedLen.toNat + (body.drop 1).length := by
    have htotal := h.total
    rw [UInt16.toNat_ofNat']
    exact Nat.mod_eq_of_lt (by simp only [odNfcAssemblyMax] at htotal; omega)
  have hdata : ({ s with chunks := s.chunks ++ [(ctx.rp, body.drop 1)] } : Staged).data = s.data ++ body.drop 1 := by
    simp [Staged.data]
  refine ⟨?_, h.total, fun _ => ?_, always_concat.mpr ⟨h.writes, fun _ _ _ hw => by cases hw⟩⟩
  · dsimp only
    rw [hlen]
    exact hfits
  refine ⟨{ s with chunks := s.chunks ++ [(ctx.rp, body.drop 1)] }, ?_, ha.rp, ha.type, ha.total, ha.some, ?_, ?_, ?_⟩
  · rw [staged_append, hs, stagedStep,
      if_neg (by rintro ⟨-, hstart⟩; rw [hsub] at hstart; exact absurd hstart (by decide)),
      if_pos ⟨rfl, hsub⟩]
    rfl
  · intro c hc
    rcases List.mem_append.mp hc with hold | hnew
    · exact ha.senders c hold
    · rw [List.mem_singleton.mp hnew]
      exact howner.trans ha.rp
  · dsimp only
    rw [hlen, hdata, ha.data, ha.received, ← List.length_append]
    exact List.take_length
  · dsimp only
    rw [hlen, hdata, ha.received, List.length_append]

theorem NfcSound.end {w : Nfc × List NfcDeed} (h : NfcSound w) {ctx : Ctx} {body : Bytes} {r : CmdResult}
    (howned : nfcOwnedBy ctx w.1 = true) (hlen : w.1.receivedLen = w.1.totalLen) :
    RecordWhole w.2 ⟨ctx.rp, body, r, some (w.1.recType, w.1.data.take w.1.totalLen.toNat)⟩ := by
  rintro - type data hwrote
  obtain ⟨rfl, rfl⟩ := Prod.mk.inj (Option.some.inj hwrote)
  obtain ⟨hactive, howner⟩ := nfcOwnedBy_iff.mp howned
  obtain ⟨s, hs, ha⟩ := h.staged hactive
  have hdata : w.1.data.take w.1.totalLen.toNat = s.data := by
    rw [← hlen]
    exact ha.data
  have htotal : s.data.length = s.total.toNat := by
    rw [← ha.received, hlen, ha.total]
  refine ⟨s, hs, howner.trans ha.rp, ha.senders, ha.type, hdata, ?_, ha.some, ?_⟩
  · rw [hdata, htotal]
  · rw [← ha.total]
    exact h.total

theorem NfcSound.step {w : Nfc × List NfcDeed} (h : NfcSound w) (o : NfcOp slots) : NfcSound (nfcStep w o) := by
  cases o with
  | reset => exact ⟨Nat.le_refl _, Nat.zero_le _, nofun, h.writes⟩
  | frame c =>
    have hdid := odNfcFrame_did c.app c.ctx c.body w.1 c.desk
    unfold nfcStep NfcCall.run
    dsimp only
    generalize nfcTagWrite c.ctx c.body w.1 = wrote at hdid
    generalize (odNfcFrame c.app c.ctx true c.body w.1 c.desk).1 = r at hdid
    generalize (odNfcFrame c.app c.ctx true c.body w.1 c.desk).2.1 = n at hdid
    have hsilent : ∀ r, RecordWhole w.2 ⟨c.ctx.rp, c.body, r, none⟩ := fun r _ _ _ hw => by cases hw
    cases hdid with
    | refused => exact h.keep (.inl rfl) (hsilent _)
    | read r hsub =>
      refine h.keep (.inr ⟨?_, ?_⟩) (hsilent _)
      · rw [hsub]
        decide
      · rw [hsub]
        decide
    | atOnce r hsub _ =>
      refine h.keep (.inr ⟨?_, ?_⟩) fun hend => ?_
      · rw [hsub]
        decide
      · rw [hsub]
        decide
      · exact absurd (hsub.symm.trans hend) (by decide)
    | armed hsub hzero hmax => exact h.start hsub hzero hmax
    | taken hsub howned hfits => exact h.chunk hsub howned hfits
    | dropped => exact h.drop (hsilent _)
    | wrote r _ howned hlen => exact h.drop (h.end howned hlen)

theorem nfcRun_sound (ops : List (NfcOp slots)) : NfcSound (nfcRun ops) := by
  induction ops using List.reverseRecOn with
  | nil => exact ⟨Nat.le_refl _, Nat.zero_le _, nofun, Always.nil⟩
  | append_singleton ops o ih =>
    rw [nfcRun, List.foldl_append]
    exact ih.step o

/-- A chunk from the owner, whose acknowledgement finds room. -/
structure Continues (n : Nfc) (c : NfcCall slots) : Prop where
  owner : c.ctx.rp = n.owner
  sub : byteAt c.body 0 = nfcSubWriteData
  chunk : c.body.drop 1 ≠ []
  queued : (c.desk.reply c.ctx.rp [respAck, respNfcEndpoint, nfcStatusChunkAccepted] c.app.env).1 = .ok

def missing (cs : List (NfcCall slots)) : Bytes := (cs.map (·.body.drop 1)).flatten

section Handled

variable {n : Nfc} {c : NfcCall slots}

theorem byteAt_pos {body : Bytes} {b : UInt8} (hb : b ≠ 0) (h : byteAt body 0 = b) : ¬ body.length < 1 := by
  intro hlen
  rw [List.length_eq_zero_iff.mp (Nat.lt_one_iff.mp hlen)] at h
  exact hb h.symm

theorem NfcCall.run_start (h : byteAt c.body 0 = nfcSubWriteStart) :
    c.run n = nfcHandleStart c.app c.ctx c.body n c.desk := by
  have hlen := byteAt_pos (by decide) h
  rw [NfcCall.run, odNfcFrame, if_neg (not_not.mpr rfl), if_neg hlen, if_neg (by rw [h]; decide),
    if_neg (by rw [h]; decide), if_pos h]

theorem NfcCall.run_data (h : byteAt c.body 0 = nfcSubWriteData) :
    c.run n = nfcHandleData c.app c.ctx c.body n c.desk := by
  have hlen := byteAt_pos (by decide) h
  rw [NfcCall.run, odNfcFrame, if_neg (not_not.mpr rfl), if_neg hlen, if_neg (by rw [h]; decide),
    if_neg (by rw [h]; decide), if_neg (by rw [h]; decide), if_pos h]

theorem NfcCall.run_end (h : byteAt c.body 0 = nfcSubWriteEnd) :
    c.run n = nfcHandleEnd c.app c.ctx n c.desk := by
  have hlen := byteAt_pos (by decide) h
  rw [NfcCall.run, odNfcFrame, if_neg (not_not.mpr rfl), if_neg hlen, if_neg (by rw [h]; decide),
    if_neg (by rw [h]; decide), if_neg (by rw [h]; decide), if_neg (by rw [h]; decide), if_pos h]

end Handled

theorem NfcCall.run_continues {n : Nfc} {c : NfcCall slots} (h : Continues n c) (hactive : n.active = true)
    (hfits : n.receivedLen.toNat + (c.body.drop 1).length ≤ n.totalLen.toNat) :
    (c.run n).2.1 =
      { n with
        data := n.data.take n.receivedLen.toNat ++ c.body.drop 1
        receivedLen := UInt16.ofNat (n.receivedLen.toNat + (c.body.drop 1).length) } := by
  have howned : nfcOwnedBy c.ctx n = true := nfcOwnedBy_iff.mpr ⟨hactive, h.owner⟩
  have hshape : ¬ (c.body.length < 1 ∨ c.body.drop 1 = []) := fun hor => hor.elim (byteAt_pos (by decide) h.sub) h.chunk
  rw [c.run_data h.sub, nfcHandleData, if_neg (not_not.mpr howned), if_neg hshape]
  dsimp only
  rw [if_neg (Nat.not_lt.mpr hfits), nfcAckArmed]
  dsimp only
  rw [if_neg (not_not.mpr h.queued)]

/-- The missing bytes, in any chunks, complete the record. -/
theorem nfc_completes {n : Nfc} (hactive : n.active = true) (htotal : n.totalLen.toNat ≤ odNfcAssemblyMax)
    (hdata : n.receivedLen.toNat ≤ n.data.length) {cs : List (NfcCall slots)} (hcs : ∀ c ∈ cs, Continues n c)
    (hlen : n.receivedLen.toNat + (missing cs).length = n.totalLen.toNat) :
    let left := cs.foldl (fun n c => (c.run n).2.1) n
    left.active = true ∧ left.owner = n.owner ∧ left.recType = n.recType ∧ left.totalLen = n.totalLen ∧
      left.receivedLen = n.totalLen ∧
      left.data.take n.totalLen.toNat = n.data.take n.receivedLen.toNat ++ missing cs := by
  induction cs generalizing n with
  | nil =>
    have hsame : n.receivedLen = n.totalLen := UInt16.toNat_inj.mp hlen
    refine ⟨hactive, rfl, rfl, rfl, hsame, ?_⟩
    rw [hsame]
    exact (List.append_nil _).symm
  | cons c cs ih =>
    have hsum : (missing (c :: cs)).length = (c.body.drop 1).length + (missing cs).length := by
      simp [missing]
    have hc := hcs c List.mem_cons_self
    have hrun := c.run_continues hc hactive (by omega)
    have hgrown : (UInt16.ofNat (n.receivedLen.toNat + (c.body.drop 1).length)).toNat =
        n.receivedLen.toNat + (c.body.drop 1).length := by
      rw [UInt16.toNat_ofNat']
      exact Nat.mod_eq_of_lt (by simp only [odNfcAssemblyMax] at htotal; omega)
    have htaken : (n.data.take n.receivedLen.toNat).length = n.receivedLen.toNat := by
      rw [List.length_take]
      omega
    rw [List.foldl_cons, hrun]
    have hnext := ih (n := { n with
        data := n.data.take n.receivedLen.toNat ++ c.body.drop 1
        receivedLen := UInt16.ofNat (n.receivedLen.toNat + (c.body.drop 1).length) }) hactive htotal
      (by dsimp only; rw [hgrown, List.length_append, htaken])
      (fun c' hc' => ⟨(hcs c' (List.mem_cons_of_mem _ hc')).owner, (hcs c' (List.mem_cons_of_mem _ hc')).sub,
        (hcs c' (List.mem_cons_of_mem _ hc')).chunk, (hcs c' (List.mem_cons_of_mem _ hc')).queued⟩)
      (by dsimp only; rw [hgrown]; omega)
    obtain ⟨ha, ho, ht, hl, hr, hd⟩ := hnext
    refine ⟨ha, ho, ht, hl, hr, ?_⟩
    dsimp only at hd
    rw [hd, hgrown, List.take_of_length_le (by rw [List.length_append, htaken]), List.append_assoc]
    rfl

/-- A frame that is answered by the acknowledgement of a chunk, if that finds room. -/
inductive ChunkAcked (c : NfcCall slots) (n : Nfc) : Prop where
  | start : byteAt c.body 0 = nfcSubWriteStart → 4 ≤ c.body.length → recTypeValid (byteAt c.body 1) = true →
      readBe16 (c.body.drop 2) ≠ 0 → (readBe16 (c.body.drop 2)).toNat ≤ odNfcAssemblyMax → ChunkAcked c n
  | data : byteAt c.body 0 = nfcSubWriteData → nfcOwnedBy c.ctx n = true → c.body.drop 1 ≠ [] →
      n.receivedLen.toNat + (c.body.drop 1).length ≤ n.totalLen.toNat → ChunkAcked c n

/-- What ends an assembly: its write, whatever the tag says, an overflow, or an acknowledgement without room. -/
inductive Finishes (c : NfcCall slots) (n : Nfc) : Prop where
  | wrote : byteAt c.body 0 = nfcSubWriteEnd → nfcTagWrite c.ctx c.body n ≠ none → Finishes c n
  | overflow : byteAt c.body 0 = nfcSubWriteData → nfcOwnedBy c.ctx n = true → c.body.drop 1 ≠ [] →
      n.totalLen.toNat < n.receivedLen.toNat + (c.body.drop 1).length → Finishes c n
  | unqueued : ChunkAcked c n →
      (c.desk.reply c.ctx.rp [respAck, respNfcEndpoint, nfcStatusChunkAccepted] c.app.env).1 ≠ .ok → Finishes c n

theorem NfcCall.run_finishes {c : NfcCall slots} {n : Nfc} (h : Finishes c n) : (c.run n).2.1 = {} := by
  cases h with
  | wrote hsub hwrote =>
    rw [c.run_end hsub, nfcHandleEnd_eq c.app c.ctx c.body n c.desk hsub]
    obtain ⟨⟨type, data⟩, hsome⟩ := Option.ne_none_iff_exists'.mp hwrote
    rw [hsome]
    dsimp only
    split_ifs <;> rfl
  | overflow hsub howned hchunk hover =>
    have hshape : ¬ (c.body.length < 1 ∨ c.body.drop 1 = []) := fun hor => hor.elim (byteAt_pos (by decide) hsub) hchunk
    rw [c.run_data hsub, nfcHandleData, if_neg (not_not.mpr howned), if_neg hshape]
    dsimp only
    rw [if_pos hover]
    rfl
  | unqueued hacked hfull =>
    cases hacked with
    | start hsub hlen htype hzero hmax =>
      have htotal : ¬ (readBe16 (c.body.drop 2) = 0 ∨ odNfcAssemblyMax < (readBe16 (c.body.drop 2)).toNat) :=
        fun hor => hor.elim hzero (Nat.not_lt.mpr hmax)
      rw [c.run_start hsub, nfcHandleStart, if_neg (Nat.not_lt.mpr hlen)]
      dsimp only
      rw [if_neg (not_not.mpr htype), if_neg htotal, nfcAckArmed]
      dsimp only
      rw [if_pos hfull]
      rfl
    | data hsub howned hchunk hfits =>
      have hshape : ¬ (c.body.length < 1 ∨ c.body.drop 1 = []) :=
        fun hor => hor.elim (byteAt_pos (by decide) hsub) hchunk
      rw [c.run_data hsub, nfcHandleData, if_neg (not_not.mpr howned), if_neg hshape]
      dsimp only
      rw [if_neg (Nat.not_lt.mpr hfits), nfcAckArmed]
      dsimp only
      rw [if_pos hfull]
      rfl

theorem NfcCall.run_foreign {c : NfcCall slots} {n : Nfc}
    (hsub : byteAt c.body 0 = nfcSubWriteData ∨ byteAt c.body 0 = nfcSubWriteEnd) (howned : nfcOwnedBy c.ctx n ≠ true) :
    (c.run n).2.1 = n ∧ nfcTagWrite c.ctx c.body n = none := by
  rcases hsub with hsub | hsub
  · rw [c.run_data hsub, nfcHandleData, if_pos howned]
    exact ⟨rfl, nfcTagWrite_none (by rw [hsub]; decide) (by rw [hsub]; decide)⟩
  · rw [c.run_end hsub, nfcHandleEnd, if_pos howned, nfcTagWrite_end hsub, if_neg fun h => howned h.1]
    exact ⟨rfl, rfl⟩

/-- An end that comes too early is refused, and the rest may follow. -/
theorem NfcCall.run_short {c : NfcCall slots} {n : Nfc} (hsub : byteAt c.body 0 = nfcSubWriteEnd)
    (hshort : n.receivedLen ≠ n.totalLen) : (c.run n).2.1 = n ∧ nfcTagWrite c.ctx c.body n = none := by
  rw [c.run_end hsub, nfcHandleEnd, nfcTagWrite_end hsub]
  refine ⟨?_, if_neg fun h => hshort h.2⟩
  by_cases howned : nfcOwnedBy c.ctx n = true
  · rw [if_neg (not_not.mpr howned), if_pos hshort]
    rfl
  · rw [if_pos howned]
    rfl

/-- What is written to the tag is one sender's record, whole; others' frames do nothing to it, an early end does not
spoil it, and nothing is left once it ends. -/
theorem odNfcFrame_integrity :
    (∀ (app : NfcApp) (ctx : Ctx) (body : Bytes) (n : Nfc) (k : Desk slots), AsksTag app ctx body n k) ∧
    (∀ ops : List (NfcOp slots), Always RecordWhole (nfcRun ops).2 ∧
      (nfcRun ops).1.receivedLen.toNat ≤ (nfcRun ops).1.totalLen.toNat ∧
      (nfcRun ops).1.totalLen.toNat ≤ odNfcAssemblyMax) ∧
    (∀ (c : NfcCall slots) (n : Nfc), byteAt c.body 0 = nfcSubWriteData ∨ byteAt c.body 0 = nfcSubWriteEnd →
      odReplySame c.ctx.rp n.owner = false → (c.run n).2.1 = n ∧ nfcTagWrite c.ctx c.body n = none) ∧
    (∀ (ops : List (NfcOp slots)) (c : NfcCall slots), byteAt c.body 0 = nfcSubWriteEnd →
      nfcOwnedBy c.ctx (nfcRun ops).1 = true → (nfcRun ops).1.receivedLen ≠ (nfcRun ops).1.totalLen →
      let n := (nfcRun ops).1
      (c.run n).2.1 = n ∧ nfcTagWrite c.ctx c.body n = none ∧
      ∀ cs : List (NfcCall slots), (∀ c' ∈ cs, Continues n c') →
        n.receivedLen.toNat + (missing cs).length = n.totalLen.toNat →
        nfcTagWrite c.ctx c.body (cs.foldl (fun n c => (c.run n).2.1) n) =
          some (n.recType, n.data.take n.receivedLen.toNat ++ missing cs)) ∧
    (∀ (c : NfcCall slots) (n : Nfc), Finishes c n → (c.run n).2.1.active = false) ∧
    (∀ (ctx : Ctx) (body : Bytes) (n : Nfc) (type : UInt8) (data : Bytes), byteAt body 0 = nfcSubWrite →
      nfcTagWrite ctx body n = some (type, data) →
      (readBe16 (body.drop 2)).toNat + 4 ≤ body.length ∧ data = (body.drop 4).take (readBe16 (body.drop 2)).toNat ∧
        data.length = (readBe16 (body.drop 2)).toNat) := by
  refine ⟨odNfcFrame_asks, fun ops => ?_, fun c n hsub hother => ?_, fun ops c hsub howned hshort => ?_,
    fun c n h => ?_, ?_⟩
  · have h := nfcRun_sound ops
    exact ⟨h.writes, h.received, h.total⟩
  · refine c.run_foreign hsub fun howned => ?_
    rw [nfcOwnedBy, Bool.and_eq_true, hother] at howned
    exact absurd howned.2 Bool.false_ne_true
  · have h := nfcRun_sound ops
    obtain ⟨hactive, howner⟩ := nfcOwnedBy_iff.mp howned
    obtain ⟨s, -, ha⟩ := h.staged hactive
    refine ⟨(c.run_short hsub hshort).1, (c.run_short hsub hshort).2, fun cs hcs hlen => ?_⟩
    have hheld : (nfcRun ops).1.receivedLen.toNat ≤ (nfcRun ops).1.data.length := by
      have htake := congrArg List.length ha.data
      rw [List.length_take, ← ha.received] at htake
      omega
    obtain ⟨hactive', howner', htype, htotal, hreceived, hdata⟩ := nfc_completes hactive h.total hheld hcs hlen
    have howned' := nfcOwnedBy_iff.mpr ⟨hactive', howner.trans howner'.symm⟩
    rw [nfcTagWrite_end hsub, if_pos ⟨howned', hreceived.trans htotal.symm⟩, htype, htotal, hdata]
  · rw [c.run_finishes h]
  · intro ctx body n type data hsub hwrote
    rw [nfcTagWrite_inline hsub] at hwrote
    by_cases hcall : (readBe16 (body.drop 2)).toNat + 4 ≤ body.length ∧ recTypeValid (byteAt body 1) = true
    · rw [if_pos hcall] at hwrote
      obtain ⟨-, rfl⟩ := Prod.mk.inj (Option.some.inj hwrote)
      refine ⟨hcall.1, rfl, ?_⟩
      rw [List.length_take, List.length_drop]
      omega
    · rw [if_neg hcall] at hwrote
      cases hwrote

/-- Two bytes in two chunks; the end comes once too early. -/
theorem odNfcFrame_integrity_two_chunks :
    let app : NfcApp :=
      { read := none, write := fun _ _ => true, hooks := []
        env := { sec := none, nowMs := 0, hal := oneHal, live := true } }
    let call : Bytes → NfcCall (odTxqSlots .standard) := fun body =>
      { app := app, ctx := { rp := {}, wireLen := 0, wasProtected := false }, body := body
        desk := { session := odSessionInit 0, q := { Txq.init _ with reserved := 1 }, token := { remaining := 1 } } }
    let n := (nfcRun [.frame (call [0x10, 0x00, 0x00, 0x02]), .frame (call [0x11, 0x41])]).1
    nfcTagWrite (call [0x12]).ctx [0x12] n = none ∧
      nfcTagWrite (call [0x12]).ctx [0x12] ((call [0x11, 0x42]).run n).2.1 = some (0, [0x41, 0x42]) := by
  intro app call n
  have h := odNfcFrame_integrity.2.2.2.1 [.frame (call [0x10, 0x00, 0x00, 0x02]), .frame (call [0x11, 0x41])]
    (call [0x12]) rfl (by decide) (by decide)
  refine ⟨h.2.1, (h.2.2 [call [0x11, 0x42]] ?_ (by decide)).trans (by decide)⟩
  intro c hc
  rw [List.mem_singleton.mp hc]
  exact ⟨by decide, rfl, by decide, by decide⟩

end Runs

end OpenDisplay
