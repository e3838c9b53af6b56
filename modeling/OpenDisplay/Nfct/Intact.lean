import OpenDisplay.Lib.Trace
import OpenDisplay.Nfct.Codec

/-! Writes that are refused. The buffer is cleared before a payload is looked at, so that the record
on the tag survives a refusal only if it was made before, or if there was nothing to clear. -/

namespace OpenDisplay

open Memories Programs Traces

section Rules

/-- The payload is refused before its type and its contents are looked at. -/
def RefusedUnseen (data : Option NfcPayload) : Prop := ∀ d ∈ data, d.bytes = [] ∨ d.bytes.length > odNfcNdefMax

/-- When a refusal leaves the record as it was. -/
def RefusalSpares (data : Option NfcPayload) (s : NdefStore) : Prop :=
  RefusedUnseen data ∨ s.ndef = Vector.replicate odNfcNdefMax 0

/-- Whatever the tag refuses to write, it spares the record. -/
def NfctCallOk (t : Nfct) : NfctCall → Prop
  | .write type data _ => t.enabled = true → (nfcEncodeNdef type data t.store).1 = false → RefusalSpares data t.store
  | _ => True

def Nfct.refuses (t : Nfct) : NfctCall → Bool
  | .write type data _ => !(t.enabled && (nfcEncodeNdef type data t.store).1)
  | _ => false

/-- The calls of a run without the writes that are refused in it. -/
def withoutRefused (lm20 : Bool) : Nfct → List NfctCall → List NfctCall
  | _, [] => []
  | t, c :: calls =>
    if t.refuses c then withoutRefused lm20 (nfctStep lm20 t c) calls
    else c :: withoutRefused lm20 (nfctStep lm20 t c) calls

end Rules

section Refusal

variable {type : UInt8} {data : Option NfcPayload} {s : NdefStore}

/-- A write is refused unseen, or refused behind the clearing of the buffer, or accepted. -/
theorem nfcEncodeNdef_cases (type : UInt8) (data : Option NfcPayload) (s : NdefStore) :
    (RefusedUnseen data ∧ nfcEncodeNdef type data s = (false, s)) ∨
      (¬ RefusedUnseen data ∧
        (nfcEncodeNdef type data s = (false, { s with ndef := Vector.replicate odNfcNdefMax 0 }) ∨
          (nfcEncodeNdef type data s).1 = true)) := by
  cases data with
  | none => exact .inl ⟨fun _ h => (Option.not_mem_none _ h).elim, rfl⟩
  | some d =>
    have hunseen : RefusedUnseen (some d) ↔ d.bytes = [] ∨ d.bytes.length > odNfcNdefMax :=
      ⟨fun h => h d rfl, fun h _ he => Option.some.inj he ▸ h⟩
    rw [hunseen, nfcEncodeNdef]
    by_cases hempty : d.len = 0
    · rw [if_pos hempty]
      exact .inl ⟨.inl (d.len_eq_zero.mp hempty), rfl⟩
    · rw [if_neg hempty]
      by_cases hlong : d.len.toNat > odNfcNdefMax
      · rw [if_pos hlong]
        exact .inl ⟨.inr (d.len_toNat ▸ hlong), rfl⟩
      · rw [if_neg hlong]
        refine .inr ⟨fun h => ?_, ?_⟩
        · rcases h with h | h
          · exact hempty (d.len_eq_zero.mpr h)
          · exact hlong (d.len_toNat ▸ h)
        · dsimp only
          cases nfcEncodeRecord type d (Vector.replicate odNfcNdefMax 0) with
          | none => exact .inl rfl
          | some record => exact .inr rfl

theorem nfcEncodeNdef_spares (h : (nfcEncodeNdef type data s).1 = false) :
    (nfcEncodeNdef type data s).2 = s ↔ RefusalSpares data s := by
  rcases nfcEncodeNdef_cases type data s with ⟨hunseen, heq⟩ | ⟨hseen, heq | haccepted⟩
  · rw [heq]
    exact iff_of_true rfl (.inl hunseen)
  · rw [heq]
    refine ⟨fun hs => .inr (congrArg NdefStore.ndef hs).symm, fun hs => ?_⟩
    show { s with ndef := Vector.replicate odNfcNdefMax 0 } = s
    rw [← hs.resolve_left hseen]
  · rw [haccepted] at h
    cases h

theorem nfcEncodeNdef_clears (hseen : ¬ RefusedUnseen data) (h : (nfcEncodeNdef type data s).1 = false) :
    (nfcEncodeNdef type data s).2.ndef = Vector.replicate odNfcNdefMax 0 := by
  rcases nfcEncodeNdef_cases type data s with ⟨hunseen, -⟩ | ⟨-, heq | haccepted⟩
  · exact absurd hunseen hseen
  · rw [heq]
  · rw [haccepted] at h
    cases h

theorem odNfcAppWrite_refused {t : Nfct} {lib : NfcT2t} (hon : t.enabled = true)
    (h : (nfcEncodeNdef type data t.store).1 = false) :
    odNfcAppWrite lib type data t = (false, { t with store := (nfcEncodeNdef type data t.store).2 }) := by
  rw [odNfcAppWrite, if_neg (not_not.mpr hon)]
  dsimp only
  rw [h, if_pos Bool.false_ne_true]

/-- On a tag that is cleared there is nothing to read. -/
theorem nfcParseNdef_cleared {given : Bool} {outMax : UInt16} (h : s.ndef = Vector.replicate odNfcNdefMax 0) :
    Leads (fun _ => True) (fun ok _ => ok = false) (nfcParseNdef s given outMax) := by
  have hzero : s.byte 0 = 0 := by
    have hpos : 0 < odNfcNdefMax := by decide
    simp [NdefStore.byte, byteAt, h, hpos]
  unfold nfcParseNdef
  refine .ite (fun _ => .pure fun _ _ => rfl) fun _ => Leads.ndefByte (fun _ _ h => h) ?_
  rw [hzero, if_pos (by decide)]
  exact .pure fun _ _ => rfl

theorem odNfcAppRead_enabled {t : Nfct} {given : Bool} {maxLen : UInt16} {r : NfcRead} (h : t.enabled = true) :
    odNfcAppRead given maxLen t r = (nfcParseNdef t.store given maxLen).run r := if_neg (not_not.mpr h)

theorem NfcRead.found_of_returns {found : Bool × NfcRead} {xs : Bytes} (h : Returns type xs found.1 found.2) :
    NfcRead.found found = some (type, xs) := by
  rw [NfcRead.found, if_pos h.ok, h.type, h.len, h.out]

theorem NfcRead.found_of_refused {found : Bool × NfcRead} (h : found.1 = false) : NfcRead.found found = none := by
  rw [NfcRead.found, if_neg (by rw [h]; exact Bool.false_ne_true)]

end Refusal

section Runs

variable {lm20 : Bool} {t : Nfct} {c : NfctCall} {calls : List NfctCall}

/-- A refused write that spares the record does nothing at all. -/
theorem nfctStep_refused (hok : NfctCallOk t c) (h : t.refuses c = true) : nfctStep lm20 t c = t := by
  cases c with
  | applyConfig cfg lib => cases h
  | read given maxLen => cases h
  | write type data lib =>
    show (odNfcAppWrite lib type data t).2 = t
    by_cases hon : t.enabled = true
    · have hrefused : (nfcEncodeNdef type data t.store).1 = false := by
        simpa [Nfct.refuses, hon] using h
      rw [odNfcAppWrite_refused hon hrefused, (nfcEncodeNdef_spares hrefused).mpr (hok hon hrefused)]
    · rw [odNfcAppWrite, if_pos hon]

theorem withoutRefused_run (h : Each (nfctStep lm20) NfctCallOk t calls) :
    nfctRun lm20 t (withoutRefused lm20 t calls) = nfctRun lm20 t calls := by
  induction calls generalizing t with
  | nil => rfl
  | cons c calls ih =>
    obtain ⟨hok, hrest⟩ := h
    have hrun := ih hrest
    rw [withoutRefused]
    by_cases hrefused : t.refuses c = true
    · rw [if_pos hrefused]
      -- the step that is left out leads nowhere
      calc nfctRun lm20 t (withoutRefused lm20 (nfctStep lm20 t c) calls)
          = nfctRun lm20 (nfctStep lm20 t c) (withoutRefused lm20 (nfctStep lm20 t c) calls) := by
            rw [nfctStep_refused hok hrefused]
        _ = nfctRun lm20 (nfctStep lm20 t c) calls := hrun
    · rw [if_neg hrefused]
      exact hrun

/-- In whatever state the tag is, a refusal leaves the record as it was just if it is made unseen or
finds the buffer clear; and as long as all refusals are like that, the tag shows and returns the
same without the writes that it refused. -/
theorem nfcEncodeNdef_intact (lm20 : Bool) (calls : List NfctCall) :
    (∀ type data, (nfcEncodeNdef type data (nfctRun lm20 {} calls).store).1 = false →
      ((nfcEncodeNdef type data (nfctRun lm20 {} calls).store).2 = (nfctRun lm20 {} calls).store ↔
        RefusalSpares data (nfctRun lm20 {} calls).store)) ∧
      (Each (nfctStep lm20) NfctCallOk {} calls →
        nfctRun lm20 {} (withoutRefused lm20 {} calls) = nfctRun lm20 {} calls) :=
  ⟨fun _ _ h => nfcEncodeNdef_spares h, withoutRefused_run⟩

def nfctBoard : NfcGlobalConfig := { loaded := true, nfcConfigs := [⟨odNfcIcSocNfct, 0x01, 0xFF⟩] }

/-- A tag with a short text on it. -/
def nfctWritten : Nfct :=
  nfctRun false {} [.applyConfig (some nfctBoard) {}, .write odNfcRecText (some ⟨[0x41], by decide⟩) {}]

theorem nfctWritten_accepted : nfcEncodeNdef odNfcRecText (some ⟨[0x41], by decide⟩)
    (nfctRun false {} [.applyConfig (some nfctBoard) {}]).store = (true, nfctWritten.store) := rfl

theorem nfctWritten_found : NfcRead.found (odNfcAppRead true 512 nfctWritten {}) = some (odNfcRecText, [0x41]) := by
  have hreturns : Leads (fun _ => True) (Returns odNfcRecText [0x41]) (nfcParseNdef nfctWritten.store true 512) :=
    nfcParseNdef_returns (.inl rfl) nfctWritten_accepted (by decide)
  rw [odNfcAppRead_enabled rfl]
  exact NfcRead.found_of_returns (hreturns {} trivial)

def nfctHugeText : NfcPayload := ⟨List.replicate 513 0x61, List.length_replicate.trans_lt (by decide)⟩

/-- A payload that no tag holds is refused unseen, and the text stays. -/
theorem nfcEncodeNdef_intact_absent :
    nfctWritten = nfctRun false {} [.applyConfig (some nfctBoard) {}, .write odNfcRecText (some ⟨[0x41], by decide⟩) {},
      .write odNfcRecText (some nfctHugeText) {}] ∧
      NfcRead.found (odNfcAppRead true 512 nfctWritten {}) = some (odNfcRecText, [0x41]) := by
  have hunseen : RefusedUnseen (some nfctHugeText) := fun d hd =>
    .inr (by rw [← Option.some.inj hd, nfctHugeText, List.length_replicate]; decide)
  have hrefuses : nfctWritten.refuses (.write odNfcRecText (some nfctHugeText) {}) = true := by
    rcases nfcEncodeNdef_cases odNfcRecText (some nfctHugeText) nfctWritten.store with ⟨-, heq⟩ | ⟨hseen, -⟩
    · rw [Nfct.refuses, heq, Bool.and_false, Bool.not_false]
    · exact absurd hunseen hseen
  have hwrites : Nfct.refuses (nfctStep false {} (.applyConfig (some nfctBoard) {}))
      (.write odNfcRecText (some ⟨[0x41], by decide⟩) {}) = false := by
    have haccepted := congrArg Prod.fst nfctWritten_accepted
    show (!(true && (nfcEncodeNdef odNfcRecText (some ⟨[0x41], by decide⟩)
      (nfctRun false {} [.applyConfig (some nfctBoard) {}]).store).1)) = false
    rw [haccepted]
    rfl
  have hkept := (nfcEncodeNdef_intact false [.applyConfig (some nfctBoard) {},
    .write odNfcRecText (some ⟨[0x41], by decide⟩) {}, .write odNfcRecText (some nfctHugeText) {}]).2
    ⟨trivial, fun _ hf => absurd ((congrArg Prod.fst nfctWritten_accepted).symm.trans hf) (by decide),
      fun _ _ => .inl hunseen, trivial⟩
  have hleft : withoutRefused false nfctWritten [.write odNfcRecText (some nfctHugeText) {}] = [] := if_pos hrefuses
  have hwritten : withoutRefused false {} [.applyConfig (some nfctBoard) {},
      .write odNfcRecText (some ⟨[0x41], by decide⟩) {}, .write odNfcRecText (some nfctHugeText) {}] =
      [.applyConfig (some nfctBoard) {}, .write odNfcRecText (some ⟨[0x41], by decide⟩) {}] := by
    rw [withoutRefused, if_neg (by decide), withoutRefused, if_neg (Bool.eq_false_iff.mp hwrites)]
    exact congrArg (fun calls =>
      .applyConfig (some nfctBoard) {} :: .write odNfcRecText (some ⟨[0x41], by decide⟩) {} :: calls) hleft
  rw [hwritten] at hkept
  exact ⟨hkept, nfctWritten_found⟩

def nfctLongText : NfcPayload := ⟨List.replicate 253 0x61, List.length_replicate.trans_lt (by decide)⟩

/-- A text that is one byte too long wipes the one that is on the tag. -/
theorem nfcEncodeNdef_wipes :
    let t' := nfctStep false nfctWritten (.write odNfcRecText (some nfctLongText) {})
    (nfcEncodeNdef odNfcRecText (some nfctLongText) nfctWritten.store).1 = false ∧
      (nfcEncodeNdef odNfcRecText (some nfctLongText) nfctWritten.store).2 ≠ nfctWritten.store ∧
      NfcRead.found (odNfcAppRead true 512 nfctWritten {}) = some (odNfcRecText, [0x41]) ∧
      NfcRead.found (odNfcAppRead true 512 t' {}) = none := by
  intro t'
  have hbefore := nfctWritten_found
  have hrefused : (nfcEncodeNdef odNfcRecText (some nfctLongText) nfctWritten.store).1 = false := by decide +kernel
  have henabled : nfctWritten.enabled = true := rfl
  have hseen : ¬ RefusedUnseen (some nfctLongText) := by
    intro hunseen
    rcases hunseen nfctLongText rfl with hempty | hlong
    · cases hempty
    · rw [nfctLongText, List.length_replicate] at hlong
      revert hlong
      decide
  have hstep :
      t' = { nfctWritten with store := (nfcEncodeNdef odNfcRecText (some nfctLongText) nfctWritten.store).2 } := by
    show (odNfcAppWrite {} odNfcRecText (some nfctLongText) nfctWritten).2 = _
    rw [odNfcAppWrite_refused henabled hrefused]
  have hclears := nfcEncodeNdef_clears hseen hrefused
  clear_value t'
  generalize nfcEncodeNdef odNfcRecText (some nfctLongText) nfctWritten.store = out at *
  have hcleared : t'.store.ndef = Vector.replicate odNfcNdefMax 0 := by
    rw [hstep]
    exact hclears
  have hafter : NfcRead.found (odNfcAppRead true 512 t' {}) = none := by
    have henabled' : t'.enabled = true := by rw [hstep, henabled]
    rw [odNfcAppRead_enabled henabled']
    exact NfcRead.found_of_refused (nfcParseNdef_cleared hcleared {} trivial)
  refine ⟨hrefused, fun hsame => ?_, hbefore, hafter⟩
  rw [hstep, hsame, hbefore] at hafter
  cases hafter

end Runs

end OpenDisplay
