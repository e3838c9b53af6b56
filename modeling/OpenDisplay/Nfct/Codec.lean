import OpenDisplay.Lib.Program
import OpenDisplay.Nfct.Model

/-! What is encoded for the tag is read back as it was, and whatever else stands there, a read
keeps to the record and to the buffer of its caller. -/

namespace OpenDisplay

open Buffers Memories Programs

section Lengths

/-- A length that is cut to what fits. -/
theorem cut_toNat (len outMax : UInt16) :
    (if len > outMax then outMax else len).toNat = min len.toNat outMax.toNat := by
  split_ifs with h
  · have := UInt16.lt_iff_toNat_lt.mp h
    omega
  · have := UInt16.le_iff_toNat_le.mp (UInt16.not_lt.mp h)
    omega

theorem pred_toNat {len : UInt16} (h : 1 ≤ len.toNat) : (len - 1).toNat = len.toNat - 1 :=
  UInt16.toNat_sub_of_le _ _ (UInt16.le_iff_toNat_le.mpr h)

/-- Two lengths of one byte and the byte in front of them are not too much for 16 bits. -/
theorem pack_toNat (tlen plen : UInt8) : (1 + tlen.toUInt16 + plen.toUInt16).toNat = 1 + tlen.toNat + plen.toNat := by
  have ht := tlen.toNat_lt
  have hp := plen.toNat_lt
  rw [UInt16.toNat_add, UInt16.toNat_add, UInt8.toNat_toUInt16, UInt8.toNat_toUInt16]
  show ((1 + tlen.toNat) % 2 ^ 16 + plen.toNat) % 2 ^ 16 = _
  omega

/-- What is left of `len` bytes behind a length byte and as many bytes as it says. -/
theorem rest_toNat {len : UInt16} {n : UInt8} (h : ¬ 1 + n.toUInt16 > len) :
    1 + n.toNat ≤ len.toNat ∧ (len - 1 - n.toUInt16).toNat = len.toNat - 1 - n.toNat := by
  have hn := n.toNat_lt
  have hsum : (1 + n.toUInt16).toNat = 1 + n.toNat := by
    rw [UInt16.toNat_add, UInt8.toNat_toUInt16]
    show (1 + n.toNat) % 2 ^ 16 = _
    omega
  have hle := UInt16.le_iff_toNat_le.mp (UInt16.not_lt.mp h)
  rw [hsum] at hle
  have hpred := pred_toNat (Nat.le_trans (Nat.le_add_right 1 _) hle)
  have hrest : n.toUInt16 ≤ len - 1 := by
    rw [UInt16.le_iff_toNat_le, hpred, UInt8.toNat_toUInt16]
    omega
  exact ⟨hle, by rw [UInt16.toNat_sub_of_le _ _ hrest, hpred, UInt8.toNat_toUInt16]⟩

theorem lang_toNat (lang : UInt8) : (4 + 1 + lang.toUInt16).toNat = 5 + lang.toNat := by
  have hl := lang.toNat_lt
  rw [UInt16.toNat_add, UInt8.toNat_toUInt16]
  show (5 + lang.toNat) % 2 ^ 16 = _
  omega

end Lengths

section Inside

variable {s : NdefStore} {ln : Nat} {outMax : UInt16} {Q : UInt16 → Prop}

/-- What has been read stands before `ln`, and what has been written before `outMax`. -/
structure ReadInside (ln : Nat) (outMax : UInt16) (Q : UInt16 → Prop) (r : NfcRead) : Prop where
  reads : ∀ i ∈ r.reads, i < ln
  writes : ∀ i ∈ r.writes, i < outMax.toNat
  len : Q r.len

/-- A read that has ended reports no more than its caller has room for. -/
def ReadEnded (ln : Nat) (outMax : UInt16) (ok : Bool) : NfcRead → Prop :=
  ReadInside ln outMax fun len => ok = true → len ≤ outMax

theorem ReadInside.refuse : Leads (ReadInside ln outMax Q) (ReadEnded ln outMax) (pure false) :=
  .pure fun _ h => ⟨h.reads, h.writes, fun hok => by cases hok⟩

theorem ReadInside.accept : Leads (ReadInside ln outMax (· ≤ outMax)) (ReadEnded ln outMax) (pure true) :=
  .pure fun _ h => ⟨h.reads, h.writes, fun _ => h.len⟩

theorem ReadInside.byte {i : Nat} (hi : i < ln) : Preserves (ReadInside ln outMax Q) (ndefByte s i) := by
  refine .modifyGet fun r h => ⟨fun j hj => ?_, h.writes, h.len⟩
  rcases List.mem_append.mp hj with hj | hj
  · exact h.reads j hj
  · rwa [List.mem_singleton.mp hj]

theorem ReadInside.setType {type : UInt8} : Preserves (ReadInside ln outMax Q) (setType type) :=
  .modify fun _ h => ⟨h.reads, h.writes, h.len⟩

theorem ReadInside.setLen {len : UInt16} (hlen : len ≤ outMax) :
    Leads (ReadInside ln outMax Q) (fun _ => ReadInside ln outMax (· ≤ outMax)) (OpenDisplay.setLen len) :=
  fun _ h => ⟨h.reads, h.writes, hlen⟩

theorem ReadInside.putOut {i : Nat} {b : UInt8} (hi : i < outMax.toNat) :
    Preserves (ReadInside ln outMax Q) (putOut i b) := by
  refine .modify fun r h => ⟨h.reads, fun j hj => ?_, h.len⟩
  rcases List.mem_append.mp hj with hj | hj
  · exact h.writes j hj
  · rwa [List.mem_singleton.mp hj]

theorem ReadInside.copyOut {dst src n : Nat} (hsrc : src + n ≤ ln) (hdst : dst + n ≤ outMax.toNat) :
    Preserves (ReadInside ln outMax Q) (copyOut s dst src n) := by
  refine .modify fun r h => ⟨fun j hj => ?_, fun j hj => ?_, h.len⟩
  · rcases List.mem_append.mp hj with hj | hj
    · exact h.reads j hj
    · obtain ⟨k, hk, rfl⟩ := List.mem_map.mp hj
      have := List.mem_range.mp hk
      omega
  · rcases List.mem_append.mp hj with hj | hj
    · exact h.writes j hj
    · obtain ⟨k, hk, rfl⟩ := List.mem_map.mp hj
      have := List.mem_range.mp hk
      omega

theorem nfcParseRaw_inside :
    Leads (ReadInside s.ndefLen.toNat outMax Q) (ReadEnded s.ndefLen.toNat outMax) (nfcParseRaw s outMax) := by
  have hcut := cut_toNat s.ndefLen outMax
  unfold nfcParseRaw
  dsimp only
  generalize (if s.ndefLen > outMax then outMax else s.ndefLen) = len at hcut
  have hle : len ≤ outMax := UInt16.le_iff_toNat_le.mpr (by omega)
  refine Leads.bind (ReadInside.setLen hle) fun _ => Leads.bind ReadInside.setType.leads fun _ => ?_
  exact Leads.bind (ReadInside.copyOut (by omega) (by omega)).leads fun _ => ReadInside.accept

variable {tlen plen : UInt8}

theorem nfcParseMime_inside (hfits : 3 + tlen.toNat + plen.toNat ≤ s.ndefLen.toNat) :
    Leads (ReadInside s.ndefLen.toNat outMax Q) (ReadEnded s.ndefLen.toNat outMax)
      (nfcParseMime s tlen plen outMax) := by
  have hpack := pack_toNat tlen plen
  unfold nfcParseMime
  dsimp only
  generalize 1 + tlen.toUInt16 + plen.toUInt16 = outPack at hpack
  refine Leads.bind ReadInside.setType.leads fun _ => .ite (fun _ => ReadInside.refuse) fun _ => ?_
  refine .ite (fun _ => ReadInside.refuse) fun hroom => ?_
  have hle : outPack ≤ outMax := UInt16.not_lt.mp hroom
  have hle' := UInt16.le_iff_toNat_le.mp hle
  refine Leads.bind (ReadInside.putOut (by omega)).leads fun _ => ?_
  refine Leads.bind (ReadInside.copyOut (by omega) (by omega)).leads fun _ => ?_
  refine Leads.bind (ReadInside.copyOut (by omega) (by omega)).leads fun _ => ?_
  exact Leads.bind (ReadInside.setLen hle) fun _ => ReadInside.accept

theorem nfcParseCopy_inside {off copyLen : UInt16} (hfits : off.toNat + copyLen.toNat ≤ s.ndefLen.toNat) :
    Leads (ReadInside s.ndefLen.toNat outMax Q) (ReadEnded s.ndefLen.toNat outMax)
      (nfcParseCopy s off copyLen outMax) := by
  have hcut := cut_toNat copyLen outMax
  unfold nfcParseCopy
  dsimp only
  generalize (if copyLen > outMax then outMax else copyLen) = len at hcut
  have hle : len ≤ outMax := UInt16.le_iff_toNat_le.mpr (by omega)
  refine Leads.bind (ReadInside.copyOut (by omega) (by omega)).leads fun _ => ?_
  exact Leads.bind (ReadInside.setLen hle) fun _ => ReadInside.accept

theorem nfcParseText_inside (hfits : 4 + plen.toNat ≤ s.ndefLen.toNat) :
    Leads (ReadInside s.ndefLen.toNat outMax Q) (ReadEnded s.ndefLen.toNat outMax) (nfcParseText s plen outMax) := by
  unfold nfcParseText
  refine Leads.bind ReadInside.setType.leads fun _ => .ite (fun _ => ReadInside.refuse) fun hplen => ?_
  have hpos := UInt8.le_iff_toNat_le.mp (UInt8.not_lt.mp hplen)
  change 1 ≤ plen.toNat at hpos
  refine Leads.bind (ReadInside.byte (by omega)).leads fun status => .ite (fun _ => ReadInside.refuse) fun hlang => ?_
  have hoff := lang_toNat (status &&& 0x3F)
  obtain ⟨hle, hlen⟩ := rest_toNat hlang
  rw [UInt8.toNat_toUInt16] at hle hlen
  exact nfcParseCopy_inside (by omega)

theorem nfcParseUri_inside (hfits : 4 + plen.toNat ≤ s.ndefLen.toNat) :
    Leads (ReadInside s.ndefLen.toNat outMax Q) (ReadEnded s.ndefLen.toNat outMax) (nfcParseUri s plen outMax) := by
  unfold nfcParseUri
  refine Leads.bind ReadInside.setType.leads fun _ => .ite (fun _ => ReadInside.refuse) fun hplen => ?_
  have hpos := UInt8.le_iff_toNat_le.mp (UInt8.not_lt.mp hplen)
  change 1 ≤ plen.toNat at hpos
  refine Leads.bind (ReadInside.byte (by omega)).leads fun uriPrefix => .ite (fun _ => ReadInside.refuse) fun _ => ?_
  have hlen : (plen.toUInt16 - 1).toNat = plen.toNat - 1 := by
    rw [pred_toNat (by rwa [UInt8.toNat_toUInt16]), UInt8.toNat_toUInt16]
  have hoff : (4 + 1 : UInt16).toNat = 5 := rfl
  exact nfcParseCopy_inside (by omega)

theorem nfcParseWellKnownRaw_inside (hfits : 3 + tlen.toNat + plen.toNat ≤ s.ndefLen.toNat) :
    Leads (ReadInside s.ndefLen.toNat outMax Q) (ReadEnded s.ndefLen.toNat outMax)
      (nfcParseWellKnownRaw s tlen plen outMax) := by
  have hpack := pack_toNat tlen plen
  have hcut := cut_toNat (1 + tlen.toUInt16 + plen.toUInt16) outMax
  unfold nfcParseWellKnownRaw
  dsimp only
  generalize (if 1 + tlen.toUInt16 + plen.toUInt16 > outMax then outMax else 1 + tlen.toUInt16 + plen.toUInt16) = rawLen
    at hcut
  have hle : rawLen ≤ outMax := UInt16.le_iff_toNat_le.mpr (by omega)
  refine Leads.bind ReadInside.setType.leads fun _ => .ite (fun _ => ?_) fun hne => ?_
  · exact Leads.bind (ReadInside.setLen (UInt16.le_iff_toNat_le.mpr (Nat.zero_le _))) fun _ => ReadInside.accept
  · have hpos : 1 ≤ rawLen.toNat := by
      rw [← UInt16.toNat_inj] at hne
      exact Nat.one_le_iff_ne_zero.mpr hne
    have hrest := pred_toNat hpos
    refine Leads.bind (ReadInside.putOut (by omega)).leads fun _ => ?_
    refine Leads.bind (ReadInside.copyOut (by omega) (by omega)).leads fun _ => ?_
    exact Leads.bind (ReadInside.setLen hle) fun _ => ReadInside.accept

theorem nfcParseWellKnown_inside (hfits : 3 + tlen.toNat + plen.toNat ≤ s.ndefLen.toNat) :
    Leads (ReadInside s.ndefLen.toNat outMax Q) (ReadEnded s.ndefLen.toNat outMax)
      (nfcParseWellKnown s tlen plen outMax) := by
  unfold nfcParseWellKnown
  refine .ite (fun hone => ?_) fun _ => nfcParseWellKnownRaw_inside hfits
  have hfour : 4 + plen.toNat ≤ s.ndefLen.toNat := by
    rw [hone] at hfits
    exact hfits
  refine Leads.bind (ReadInside.byte (by omega)).leads fun letter => .ite (fun _ => nfcParseText_inside hfour)
    fun _ => ?_
  exact .ite (fun _ => nfcParseUri_inside hfour) fun _ => nfcParseWellKnownRaw_inside hfits

theorem nfcParseNdef_inside (given : Bool) :
    Leads (ReadInside s.ndefLen.toNat outMax Q) (ReadEnded s.ndefLen.toNat outMax) (nfcParseNdef s given outMax) := by
  unfold nfcParseNdef
  refine .ite (fun _ => ReadInside.refuse) fun hgiven => ?_
  have hlen : 3 ≤ s.ndefLen.toNat := UInt16.le_iff_toNat_le.mp (UInt16.not_lt.mp fun h => hgiven (.inr h))
  refine Leads.bind (ReadInside.byte (by omega)).leads fun head => .ite (fun _ => ReadInside.refuse) fun _ => ?_
  refine .ite (fun _ => nfcParseRaw_inside) fun _ => Leads.bind (ReadInside.byte (by omega)).leads fun tlen => ?_
  refine Leads.bind (ReadInside.byte (by omega)).leads fun plen => .ite (fun _ => ReadInside.refuse) fun hfits => ?_
  refine .ite (fun _ => nfcParseMime_inside (by omega)) fun _ => ?_
  exact .ite (fun _ => nfcParseWellKnown_inside (by omega)) fun _ => nfcParseRaw_inside

end Inside

section Records

/-- A short record: its type and its payload stand behind their lengths. -/
structure NdefRecord where
  head : UInt8
  type : Bytes
  payload : Bytes
  typeShort : type.length < 256
  payloadShort : payload.length < 256

def NdefRecord.lead (r : NdefRecord) : Bytes := [r.head, UInt8.ofNat r.type.length, UInt8.ofNat r.payload.length]

def NdefRecord.bytes (r : NdefRecord) : Bytes := r.lead ++ r.type ++ r.payload

/-- The record is what stands on the tag. -/
structure NdefStore.Holds (s : NdefStore) (r : NdefRecord) : Prop where
  len : s.ndefLen.toNat = r.bytes.length
  bytes : load s.byte 0 r.bytes.length = r.bytes

variable {s : NdefStore} {r : NdefRecord} {ndef : Vector UInt8 odNfcNdefMax} {data : NfcPayload}

theorem load_copyInto {xs : Bytes} (h : s.ndef = copyInto ndef 0 xs) (hfits : xs.length ≤ odNfcNdefMax) :
    load s.byte 0 xs.length = xs := by
  apply List.ext_getElem load_length
  intro i hi hi'
  have hlt : i < odNfcNdefMax := Nat.lt_of_lt_of_le hi' hfits
  have hbyte : s.byte i = (copyInto ndef 0 xs)[i] := by
    simp [NdefStore.byte, byteAt, h, hlt]
  simp [load, hbyte, copyInto_get, hi']

theorem NdefStore.Holds.lead (h : s.Holds r) : load s.byte 0 r.lead.length = r.lead := load_left (load_left h.bytes)

theorem NdefStore.Holds.type (h : s.Holds r) : load s.byte 3 r.type.length = r.type := by
  have htype := load_right (load_left h.bytes)
  rwa [Nat.zero_add] at htype

theorem NdefStore.Holds.payload (h : s.Holds r) : load s.byte (3 + r.type.length) r.payload.length = r.payload := by
  have hpayload := load_right h.bytes
  rwa [Nat.zero_add, List.length_append] at hpayload

/-- The record of a text or a link. -/
theorem nfcEncodeLetter_holds {letter : UInt8} {front : Bytes} (hfront : front.length ≤ 3)
    (hshort : data.bytes.length ≤ odNfcNdefMax) (h : nfcEncodeLetter letter front data ndef = some s) :
    ∃ r : NdefRecord, s.Holds r ∧ r.head = 0xD1 ∧ r.type = [letter] ∧ r.payload = front ++ data.bytes := by
  have hdata := data.len_toNat
  change data.bytes.length ≤ 512 at hshort
  have hsum : (UInt16.ofNat front.length + data.len).toNat = (front ++ data.bytes).length := by
    rw [UInt16.toNat_add, UInt16.toNat_ofNat', hdata, List.length_append]
    omega
  rw [nfcEncodeLetter] at h
  dsimp only at h
  generalize UInt16.ofNat front.length + data.len = payloadLen at h hsum
  by_cases hlong : payloadLen > 255 ∨ payloadLen > UInt16.ofNat (odNfcNdefMax - 4)
  · rw [if_pos hlong] at h
    cases h
  · rw [if_neg hlong] at h
    have hle : payloadLen.toNat ≤ 255 := UInt16.le_iff_toNat_le.mp (UInt16.not_lt.mp (not_or.mp hlong).1)
    let r : NdefRecord := ⟨0xD1, [letter], front ++ data.bytes, by simp, by omega⟩
    refine ⟨r, ?_, rfl, rfl, rfl⟩
    have hbytes : [0xD1, 0x01, payloadLen.toUInt8, letter] ++ front ++ data.bytes = r.bytes := by
      have hlen : payloadLen.toUInt8 = UInt8.ofNat (front ++ data.bytes).length := by
        rw [← hsum]
        exact UInt8.toNat_inj.mp (by simp)
      rw [hlen, List.append_assoc]
      rfl
    rw [copyInto_append, hbytes] at h
    have hsize : r.bytes.length = 4 + payloadLen.toNat := by
      rw [hsum]
      simp [r, NdefRecord.bytes, NdefRecord.lead]
      omega
    obtain rfl := Option.some.inj h
    have hlen : (4 + payloadLen).toNat = r.bytes.length := by
      rw [UInt16.toNat_add, hsize]
      show (4 + payloadLen.toNat) % 2 ^ 16 = _
      omega
    refine ⟨hlen, load_copyInto rfl ?_⟩
    rw [hsize]
    show 4 + payloadLen.toNat ≤ 512
    omega

/-- The copy of no bytes is left out. -/
theorem copyInto_guard {pos : Nat} {xs : Bytes} {len : UInt16} :
    (if len > 0 then copyInto ndef pos (xs.take len.toNat) else ndef) = copyInto ndef pos (xs.take len.toNat) := by
  split_ifs with h
  · rfl
  · have hzero : len.toNat = 0 := Nat.le_zero.mp (UInt16.le_iff_toNat_le.mp (UInt16.not_lt.mp h))
    rw [hzero, List.take_zero, copyInto_nil]

/-- What has to stand at the front of a payload that brings its own type. -/
theorem nfcEncodeTyped_some {head : UInt8} {minLen : UInt16} (h : nfcEncodeTyped head minLen data ndef = some s) :
    ∃ typeLen rest, data.bytes = typeLen :: rest ∧ typeLen ≠ 0 ∧ typeLen.toNat ≤ rest.length ∧
      rest.length - typeLen.toNat ≤ 255 ∧ 3 + rest.length ≤ odNfcNdefMax ∧ s.ndefLen.toNat = 3 + rest.length ∧
      s.ndef = copyInto (copyInto (copyInto ndef 0 [head, typeLen, UInt8.ofNat (rest.length - typeLen.toNat)]) 3
        (rest.take typeLen.toNat)) (3 + typeLen.toNat) (rest.drop typeLen.toNat) := by
  have hdata := data.len_toNat
  rw [nfcEncodeTyped] at h
  split_ifs at h with hmin
  cases hb : data.bytes with
  | nil =>
    rw [hb] at h
    cases h
  | cons typeLen rest =>
    rw [hb] at h hdata
    simp only [byteAt, List.getD_cons_zero, List.drop_succ_cons, List.drop_zero, Nat.add_comm 1, copyInto_guard] at h
    split_ifs at h with hbad hlong hfull
    obtain ⟨hne, hroom⟩ := not_or.mp hbad
    obtain ⟨hle, hbody⟩ := rest_toNat hroom
    rw [hdata, List.length_cons] at hle hbody
    generalize data.len - 1 - typeLen.toUInt16 = bodyLen at h hlong hfull hbody
    replace hbody : bodyLen.toNat = rest.length - typeLen.toNat := by omega
    have ht := typeLen.toNat_lt
    have hshort : bodyLen.toNat ≤ 255 := UInt16.le_iff_toNat_le.mp (UInt16.not_lt.mp hlong)
    have hrecord : (3 + typeLen.toUInt16 + bodyLen).toNat = 3 + rest.length := by
      rw [UInt16.toNat_add, UInt16.toNat_add, UInt8.toNat_toUInt16]
      show ((3 + typeLen.toNat) % 2 ^ 16 + bodyLen.toNat) % 2 ^ 16 = _
      omega
    rw [hrecord] at hfull
    obtain rfl := Option.some.inj h
    refine ⟨typeLen, rest, rfl, hne, by omega, by omega, Nat.not_lt.mp hfull, hrecord, ?_⟩
    have htake : (rest.drop typeLen.toNat).take bodyLen.toNat = rest.drop typeLen.toNat :=
      List.take_of_length_le (by rw [List.length_drop, hbody])
    have hlen : bodyLen.toUInt8 = UInt8.ofNat (rest.length - typeLen.toNat) := by
      rw [← hbody]
      exact UInt8.toNat_inj.mp (by simp)
    rw [htake, hlen]

/-- The record of such a payload. -/
theorem nfcEncodeTyped_holds {head : UInt8} {minLen : UInt16} (h : nfcEncodeTyped head minLen data ndef = some s) :
    ∃ r : NdefRecord, s.Holds r ∧ r.head = head ∧ r.type ≠ [] ∧
      data.bytes = UInt8.ofNat r.type.length :: (r.type ++ r.payload) := by
  obtain ⟨typeLen, rest, hb, hne, hle, hshort, hfull, hlen, hndef⟩ := nfcEncodeTyped_some h
  have ht := typeLen.toNat_lt
  have htype : (rest.take typeLen.toNat).length = typeLen.toNat := List.length_take_of_le hle
  have hpayload : (rest.drop typeLen.toNat).length = rest.length - typeLen.toNat := List.length_drop
  let r : NdefRecord :=
    ⟨head, rest.take typeLen.toNat, rest.drop typeLen.toNat, htype.trans_lt ht, hpayload.trans_lt (by omega)⟩
  have hlead : r.lead = [head, typeLen, UInt8.ofNat (rest.length - typeLen.toNat)] := by
    simp only [NdefRecord.lead, r, htype, hpayload, UInt8.ofNat_toNat]
  have hsize : r.bytes.length = 3 + rest.length := by
    rw [NdefRecord.bytes, List.append_assoc, List.length_append, hlead]
    simp only [r, List.take_append_drop]
    rfl
  refine ⟨r, ?_, rfl, ?_, ?_⟩
  · have hplace : (r.lead ++ r.type).length = 3 + typeLen.toNat := by
      rw [List.length_append, hlead, htype]
      rfl
    have hbytes : s.ndef = copyInto ndef 0 r.bytes := by
      calc s.ndef
          = copyInto (copyInto (copyInto ndef 0 r.lead) r.lead.length r.type) (r.lead ++ r.type).length r.payload := by
            rw [hndef, ← hlead, hplace]
            rfl
        _ = copyInto ndef 0 r.bytes := by
            rw [copyInto_append, copyInto_append]
            rfl
    exact ⟨hlen.trans hsize.symm, load_copyInto hbytes (hsize ▸ hfull)⟩
  · rw [← List.length_pos_iff, htype, Nat.pos_iff_ne_zero]
    exact fun h0 => hne (UInt8.toNat_inj.mp h0)
  · rw [hb]
    simp only [r, htype, List.take_append_drop, UInt8.ofNat_toNat]

end Records

section Returns

variable {s : NdefStore} {P : NfcRead → Prop} {Q : Bool → NfcRead → Prop} {type : UInt8} {xs ys : Bytes}
  {outMax : UInt16}

/-- The type is reported, and the bytes stand at the front of the buffer. -/
structure Starts (type : UInt8) (xs : Bytes) (r : NfcRead) : Prop where
  type : r.type = type
  out : load r.out 0 xs.length = xs

/-- The read succeeds with just these bytes. -/
structure Returns (type : UInt8) (xs : Bytes) (ok : Bool) (r : NfcRead) : Prop where
  ok : ok = true
  type : r.type = type
  len : r.len.toNat = xs.length
  out : load r.out 0 xs.length = xs

theorem Starts.setType : Leads P (fun _ => Starts type []) (setType type) := fun _ _ => ⟨rfl, rfl⟩

theorem Starts.putOut {i : Nat} {b : UInt8} (hi : i = xs.length) :
    Leads (Starts type xs) (fun _ => Starts type (xs ++ [b])) (putOut i b) :=
  fun _ h => ⟨h.type, load_store_append h.out (hi.trans (Nat.zero_add _).symm)⟩

theorem Starts.copyOut {dst src n : Nat} (hdst : dst = xs.length) (hsrc : load s.byte src n = ys) :
    Leads (Starts type xs) (fun _ => Starts type (xs ++ ys)) (copyOut s dst src n) := by
  subst hsrc
  exact fun _ h => ⟨h.type, load_store_append h.out (hdst.trans (Nat.zero_add _).symm)⟩

theorem Starts.finish {len : UInt16} (hlen : len.toNat = xs.length) :
    Leads (Starts type xs) (Returns type xs) (do setLen len; return true) :=
  fun _ h => ⟨rfl, h.type, hlen, h.out⟩

/-- Which places have been looked at makes no difference. -/
theorem Leads.ndefByte {i : Nat} {f : UInt8 → StateM NfcRead Bool} (hP : ∀ r reads, P r → P { r with reads := reads })
    (h : Leads P Q (f (s.byte i))) : Leads P Q (ndefByte s i >>= f) :=
  fun r hr => h _ (hP r _ hr)

theorem nfcParseCopy_returns {off copyLen : UInt16} (hsrc : load s.byte off.toNat copyLen.toNat = xs)
    (hroom : xs.length ≤ outMax.toNat) : Leads (Starts type []) (Returns type xs)
    (nfcParseCopy s off copyLen outMax) := by
  have hlen : copyLen.toNat = xs.length := by rw [← hsrc, load_length]
  have hcut : ¬ copyLen > outMax := UInt16.not_lt.mpr (UInt16.le_iff_toNat_le.mpr (hlen ▸ hroom))
  unfold nfcParseCopy
  dsimp only
  rw [if_neg hcut]
  exact Leads.bind (Starts.copyOut rfl hsrc) fun _ => Starts.finish hlen

theorem nfcParseText_returns {plen : UInt8} (hlang : s.byte 4 = 0x02) (hplen : plen.toNat = 3 + xs.length)
    (hsrc : load s.byte 7 xs.length = xs) (hroom : xs.length ≤ outMax.toNat) :
    Leads P (Returns odNfcRecText xs) (nfcParseText s plen outMax) := by
  have hpos : ¬ plen < 1 := by
    rw [UInt8.lt_iff_toNat_lt, hplen]
    show ¬ 3 + xs.length < 1
    omega
  have hfits : ¬ 1 + (0x02 &&& 0x3F : UInt8).toUInt16 > plen.toUInt16 := by
    rw [gt_iff_lt, UInt16.lt_iff_toNat_lt, UInt8.toNat_toUInt16, hplen]
    show ¬ 3 + xs.length < 3
    omega
  obtain ⟨-, hlen⟩ := rest_toNat hfits
  rw [UInt8.toNat_toUInt16, hplen] at hlen
  unfold nfcParseText
  refine Leads.bind Starts.setType fun _ => ?_
  rw [if_neg hpos]
  refine Leads.ndefByte (fun _ _ h => ⟨h.type, h.out⟩) ?_
  rw [hlang]
  dsimp only
  rw [if_neg hfits]
  refine nfcParseCopy_returns ?_ hroom
  rw [lang_toNat, hlen]
  show load s.byte 7 (3 + xs.length - 1 - 2) = xs
  rw [show 3 + xs.length - 1 - 2 = xs.length by omega, hsrc]

theorem nfcParseUri_returns {plen : UInt8} (hzero : s.byte 4 = 0x00) (hplen : plen.toNat = 1 + xs.length)
    (hsrc : load s.byte 5 xs.length = xs) (hroom : xs.length ≤ outMax.toNat) :
    Leads P (Returns odNfcRecUri xs) (nfcParseUri s plen outMax) := by
  have hpos : ¬ plen < 1 := by
    rw [UInt8.lt_iff_toNat_lt, hplen]
    show ¬ 1 + xs.length < 1
    omega
  have hlen : (plen.toUInt16 - 1).toNat = xs.length := by
    rw [pred_toNat (by rw [UInt8.toNat_toUInt16, hplen]; omega), UInt8.toNat_toUInt16, hplen, Nat.add_sub_cancel_left]
  unfold nfcParseUri
  refine Leads.bind Starts.setType fun _ => ?_
  rw [if_neg hpos]
  refine Leads.ndefByte (fun _ _ h => ⟨h.type, h.out⟩) ?_
  rw [hzero, if_neg (not_not.mpr rfl)]
  refine nfcParseCopy_returns ?_ hroom
  rw [hlen]
  exact hsrc

theorem nfcParseMime_returns {tlen plen : UInt8} (hne : tlen ≠ 0) (htype : load s.byte 3 tlen.toNat = xs)
    (hpayload : load s.byte (3 + tlen.toNat) plen.toNat = ys) (hroom : 1 + tlen.toNat + plen.toNat ≤ outMax.toNat) :
    Leads P (Returns odNfcRecMime (tlen :: (xs ++ ys))) (nfcParseMime s tlen plen outMax) := by
  have hpack := pack_toNat tlen plen
  have hx : xs.length = tlen.toNat := by rw [← htype, load_length]
  have hy : ys.length = plen.toNat := by rw [← hpayload, load_length]
  have hshort : ¬ (plen.toNat > 255 ∨ tlen = 0) := by
    have := plen.toNat_lt
    exact not_or.mpr ⟨by omega, hne⟩
  unfold nfcParseMime
  dsimp only
  generalize 1 + tlen.toUInt16 + plen.toUInt16 = outPack at hpack
  have hfits : ¬ outPack > outMax := UInt16.not_lt.mpr (UInt16.le_iff_toNat_le.mpr (by omega))
  rw [if_neg hshort, if_neg hfits]
  refine Leads.bind Starts.setType fun _ => Leads.bind (Starts.putOut rfl) fun _ => ?_
  refine Leads.bind (Starts.copyOut rfl htype) fun _ => ?_
  refine Leads.bind (Starts.copyOut (by simp [hx, Nat.add_comm]) hpayload) fun _ => ?_
  exact Starts.finish (by rw [hpack]; simp [hx, hy]; omega)

theorem nfcParseWellKnownRaw_returns {tlen plen : UInt8} (hload : load s.byte 3 (tlen.toNat + plen.toNat) = xs)
    (hroom : 1 + tlen.toNat + plen.toNat ≤ outMax.toNat) :
    Leads P (Returns odNfcRecWellKnownRaw (tlen :: xs)) (nfcParseWellKnownRaw s tlen plen outMax) := by
  have hpack := pack_toNat tlen plen
  have hx : xs.length = tlen.toNat + plen.toNat := by rw [← hload, load_length]
  unfold nfcParseWellKnownRaw
  dsimp only
  generalize 1 + tlen.toUInt16 + plen.toUInt16 = rawLen at hpack
  have hfits : ¬ rawLen > outMax := UInt16.not_lt.mpr (UInt16.le_iff_toNat_le.mpr (by omega))
  have hne : ¬ rawLen = 0 := by
    rw [← UInt16.toNat_inj, hpack]
    show ¬ 1 + tlen.toNat + plen.toNat = 0
    omega
  have hrest : (rawLen - 1).toNat = tlen.toNat + plen.toNat := by
    rw [pred_toNat (by omega), hpack]
    omega
  rw [if_neg hfits, if_neg hne]
  refine Leads.bind Starts.setType fun _ => Leads.bind (Starts.putOut rfl) fun _ => ?_
  refine Leads.bind (Starts.copyOut rfl (hrest ▸ hload)) fun _ => ?_
  exact Starts.finish (by rw [hpack]; simp [hx]; omega)

end Returns

section RoundTrip

variable {s : NdefStore} {r : NdefRecord} {Q : Bool → NfcRead → Prop} {xs : Bytes} {outMax : UInt16}

/-- A short record is read by its own kind. -/
theorem nfcParseNdef_of_holds (h : s.Holds r) (hshort : r.head &&& 0x10 ≠ 0) (hwhole : r.head &&& 0x08 = 0)
    (hbody : Leads (fun _ => True) Q
      (if r.head &&& 7 = 2 then nfcParseMime s (UInt8.ofNat r.type.length) (UInt8.ofNat r.payload.length) outMax
      else if r.head &&& 7 = 1 then
        nfcParseWellKnown s (UInt8.ofNat r.type.length) (UInt8.ofNat r.payload.length) outMax
      else nfcParseRaw s outMax)) :
    Leads (fun _ => True) Q (nfcParseNdef s true outMax) := by
  have hlead : [s.byte 0, s.byte 1, s.byte 2] = r.lead := h.lead
  obtain ⟨hhead, hrest⟩ := List.cons.inj hlead
  obtain ⟨htlen, hrest⟩ := List.cons.inj hrest
  obtain ⟨hplen, -⟩ := List.cons.inj hrest
  have hlen : s.ndefLen.toNat = 3 + r.type.length + r.payload.length := by
    rw [h.len, NdefRecord.bytes, List.length_append, List.length_append]
    rfl
  have hgiven : ¬ (¬ (true = true) ∨ s.ndefLen < 3) := by
    rintro (hgiven | hlong)
    · exact hgiven rfl
    · rw [UInt16.lt_iff_toNat_lt, hlen] at hlong
      change 3 + r.type.length + r.payload.length < 3 at hlong
      omega
  have hfits : ¬ 3 + (UInt8.ofNat r.type.length).toNat + (UInt8.ofNat r.payload.length).toNat > s.ndefLen.toNat := by
    rw [UInt8.toNat_ofNat_of_lt' r.typeShort, UInt8.toNat_ofNat_of_lt' r.payloadShort, hlen]
    exact lt_irrefl _
  unfold nfcParseNdef
  rw [if_neg hgiven]
  refine Leads.ndefByte (fun _ _ h => h) ?_
  rw [hhead, if_neg hshort, if_neg (not_not.mpr hwhole)]
  refine Leads.ndefByte (fun _ _ h => h) ?_
  rw [htlen]
  refine Leads.ndefByte (fun _ _ h => h) ?_
  rw [hplen, if_neg hfits]
  exact hbody

theorem nfcParseNdef_mime (h : s.Holds r) (hhead : r.head = 0xD2) (hne : r.type ≠ [])
    (hroom : 1 + r.type.length + r.payload.length ≤ outMax.toNat) :
    Leads (fun _ => True) (Returns odNfcRecMime (UInt8.ofNat r.type.length :: (r.type ++ r.payload)))
      (nfcParseNdef s true outMax) := by
  have ht := UInt8.toNat_ofNat_of_lt' r.typeShort
  have hp := UInt8.toNat_ofNat_of_lt' r.payloadShort
  refine nfcParseNdef_of_holds h (by rw [hhead]; decide) (by rw [hhead]; decide) ?_
  rw [if_pos (by rw [hhead]; decide)]
  refine nfcParseMime_returns (fun h0 => hne ?_) (by rw [ht]; exact h.type) (by rw [ht, hp]; exact h.payload)
    (by rw [ht, hp]; exact hroom)
  rw [← List.length_eq_zero_iff, ← ht, h0]
  rfl

/-- A record of a well-known type, whose reading `hbody` is about. -/
theorem nfcParseNdef_wellKnown (h : s.Holds r) (hhead : r.head = 0xD1)
    (hbody : Leads (fun _ => True) Q
      (nfcParseWellKnown s (UInt8.ofNat r.type.length) (UInt8.ofNat r.payload.length) outMax)) :
    Leads (fun _ => True) Q (nfcParseNdef s true outMax) := by
  refine nfcParseNdef_of_holds h (by rw [hhead]; decide) (by rw [hhead]; decide) ?_
  rw [if_neg (by rw [hhead]; decide), if_pos (by rw [hhead]; decide)]
  exact hbody

theorem NdefStore.Holds.letter {letter : UInt8} (h : s.Holds r) (htype : r.type = [letter]) : s.byte 3 = letter := by
  have hletter := h.type
  rw [htype] at hletter
  exact (List.cons.inj hletter).1

/-- The payload of a record with a letter for its type stands behind the letter. -/
theorem NdefStore.Holds.behind {letter : UInt8} (h : s.Holds r) (htype : r.type = [letter]) :
    load s.byte 4 r.payload.length = r.payload := by
  have hpayload := h.payload
  rwa [htype] at hpayload

/-- A record with a letter for its type, whose reading `hbody` is about. -/
theorem nfcParseNdef_letter {letter : UInt8} (h : s.Holds r) (hhead : r.head = 0xD1) (htype : r.type = [letter])
    (hbody : Leads (fun _ => True) Q
      (if letter = 0x54 then nfcParseText s (UInt8.ofNat r.payload.length) outMax
      else if letter = 0x55 then nfcParseUri s (UInt8.ofNat r.payload.length) outMax
      else nfcParseWellKnownRaw s 1 (UInt8.ofNat r.payload.length) outMax)) :
    Leads (fun _ => True) Q (nfcParseNdef s true outMax) := by
  have hone : UInt8.ofNat r.type.length = 1 := by
    rw [htype]
    rfl
  refine nfcParseNdef_wellKnown h hhead ?_
  unfold nfcParseWellKnown
  rw [hone, if_pos rfl]
  refine Leads.ndefByte (fun _ _ h => h) ?_
  rw [h.letter htype]
  exact hbody

theorem nfcParseNdef_text (h : s.Holds r) (hhead : r.head = 0xD1) (htype : r.type = [0x54])
    (hpayload : r.payload = [0x02, 0x65, 0x6E] ++ xs) (hroom : xs.length ≤ outMax.toNat) :
    Leads (fun _ => True) (Returns odNfcRecText xs) (nfcParseNdef s true outMax) := by
  have hplen : (UInt8.ofNat r.payload.length).toNat = 3 + xs.length := by
    rw [UInt8.toNat_ofNat_of_lt' r.payloadShort, hpayload, List.length_append]
    rfl
  have hbehind := h.behind htype
  rw [hpayload] at hbehind
  have hfront := load_left hbehind
  refine nfcParseNdef_letter h hhead htype ?_
  rw [if_pos rfl]
  exact nfcParseText_returns (List.cons.inj hfront).1 hplen (load_right hbehind) hroom

theorem nfcParseNdef_uri (h : s.Holds r) (hhead : r.head = 0xD1) (htype : r.type = [0x55])
    (hpayload : r.payload = [0x00] ++ xs) (hroom : xs.length ≤ outMax.toNat) :
    Leads (fun _ => True) (Returns odNfcRecUri xs) (nfcParseNdef s true outMax) := by
  have hplen : (UInt8.ofNat r.payload.length).toNat = 1 + xs.length := by
    rw [UInt8.toNat_ofNat_of_lt' r.payloadShort, hpayload, List.length_append]
    rfl
  have hbehind := h.behind htype
  rw [hpayload] at hbehind
  have hfront := load_left hbehind
  refine nfcParseNdef_letter h hhead htype ?_
  rw [if_neg (by decide), if_pos rfl]
  exact nfcParseUri_returns (List.cons.inj hfront).1 hplen (load_right hbehind) hroom

theorem nfcParseNdef_wellKnownRaw (h : s.Holds r) (hhead : r.head = 0xD1) (hother : r.type ≠ [0x54] ∧ r.type ≠ [0x55])
    (hroom : 1 + r.type.length + r.payload.length ≤ outMax.toNat) :
    Leads (fun _ => True) (Returns odNfcRecWellKnownRaw (UInt8.ofNat r.type.length :: (r.type ++ r.payload)))
      (nfcParseNdef s true outMax) := by
  have ht := UInt8.toNat_ofNat_of_lt' r.typeShort
  have hp := UInt8.toNat_ofNat_of_lt' r.payloadShort
  have hload : load s.byte 3 ((UInt8.ofNat r.type.length).toNat + (UInt8.ofNat r.payload.length).toNat) =
      r.type ++ r.payload := by
    rw [ht, hp, load_add, h.type, h.payload]
  have hraw : Leads (fun _ => True) (Returns odNfcRecWellKnownRaw (UInt8.ofNat r.type.length :: (r.type ++ r.payload)))
      (nfcParseWellKnownRaw s (UInt8.ofNat r.type.length) (UInt8.ofNat r.payload.length) outMax) :=
    nfcParseWellKnownRaw_returns hload (by rw [ht, hp]; exact hroom)
  by_cases hone : UInt8.ofNat r.type.length = 1
  · have hlen : r.type.length = 1 := by
      rw [← ht, hone]
      rfl
    obtain ⟨letter, htype⟩ := List.length_eq_one_iff.mp hlen
    rw [htype] at hother
    refine nfcParseNdef_letter h hhead htype ?_
    rw [if_neg fun h => hother.1 (by rw [h]), if_neg fun h => hother.2 (by rw [h]), ← hone]
    exact hraw
  · refine nfcParseNdef_wellKnown h hhead ?_
    unfold nfcParseWellKnown
    rw [if_neg hone]
    exact hraw

/-- The types whose records are read back as they were. -/
def ReadsBack (recType : UInt8) (data : NfcPayload) : Prop :=
  recType = odNfcRecText ∨ recType = odNfcRecUri ∨ recType = odNfcRecMime ∨
    (recType = odNfcRecWellKnownRaw ∧
      ¬ (byteAt data.bytes 0 = 1 ∧ (byteAt data.bytes 1 = 0x54 ∨ byteAt data.bytes 1 = 0x55)))

theorem nfcEncodeNdef_accepts {recType : UInt8} {data : NfcPayload} {s' : NdefStore}
    (h : nfcEncodeNdef recType (some data) s = (true, s')) :
    data.bytes.length ≤ odNfcNdefMax ∧
      nfcEncodeRecord recType data (Vector.replicate odNfcNdefMax 0) = some s' := by
  rw [nfcEncodeNdef] at h
  dsimp only at h
  split_ifs at h with hempty hlong
  · cases h
  · cases h
  · refine ⟨data.len_toNat ▸ Nat.not_lt.mp hlong, ?_⟩
    cases hrecord : nfcEncodeRecord recType data (Vector.replicate odNfcNdefMax 0) with
    | none =>
      rw [hrecord] at h
      cases h
    | some record =>
      rw [hrecord] at h
      rw [(Prod.mk.inj h).2]

theorem nfcParseNdef_returns {recType : UInt8} {data : NfcPayload} {s' : NdefStore} (hback : ReadsBack recType data)
    (h : nfcEncodeNdef recType (some data) s = (true, s')) (hroom : data.bytes.length ≤ outMax.toNat) :
    Leads (fun _ => True) (Returns recType data.bytes) (nfcParseNdef s' true outMax) := by
  obtain ⟨hshort, hrecord⟩ := nfcEncodeNdef_accepts h
  rcases hback with rfl | rfl | rfl | ⟨rfl, hother⟩
  · obtain ⟨r, hholds, hhead, htype, hpayload⟩ := nfcEncodeLetter_holds (by decide) hshort hrecord
    exact nfcParseNdef_text hholds hhead htype hpayload hroom
  · obtain ⟨r, hholds, hhead, htype, hpayload⟩ := nfcEncodeLetter_holds (by decide) hshort hrecord
    exact nfcParseNdef_uri hholds hhead htype hpayload hroom
  · obtain ⟨r, hholds, hhead, hne, hdata⟩ := nfcEncodeTyped_holds hrecord
    rw [hdata] at hroom ⊢
    refine nfcParseNdef_mime hholds hhead hne ?_
    simp only [List.length_cons, List.length_append] at hroom
    omega
  · obtain ⟨r, hholds, hhead, hne, hdata⟩ := nfcEncodeTyped_holds hrecord
    rw [hdata] at hroom hother ⊢
    have hletter : r.type ≠ [0x54] ∧ r.type ≠ [0x55] :=
      ⟨fun htype => hother (by rw [htype]; exact ⟨rfl, .inl rfl⟩),
        fun htype => hother (by rw [htype]; exact ⟨rfl, .inr rfl⟩)⟩
    refine nfcParseNdef_wellKnownRaw hholds hhead hletter ?_
    simp only [List.length_cons, List.length_append] at hroom
    omega

/-- What is accepted is read back with its type and its length, into any buffer that has the room; and
whatever stands on the tag, a read keeps to the record and to the buffer, and reports no more than fits. -/
theorem nfcParseNdef_faithful :
    (∀ recType data s s' outMax r, ReadsBack recType data → nfcEncodeNdef recType (some data) s = (true, s') →
      data.bytes.length ≤ outMax.toNat →
        let found := (nfcParseNdef s' true outMax).run r
        found.1 = true ∧ found.2.type = recType ∧ found.2.len.toNat = data.bytes.length ∧
          load found.2.out 0 found.2.len.toNat = data.bytes) ∧
      ∀ (s : NdefStore) (given : Bool) (outMax : UInt16) (r : NfcRead), r.reads = [] → r.writes = [] →
        let found := (nfcParseNdef s given outMax).run r
        (∀ i ∈ found.2.reads, i < s.ndefLen.toNat) ∧ (∀ i ∈ found.2.writes, i < outMax.toNat) ∧
          (found.1 = true → found.2.len ≤ outMax) := by
  constructor
  · intro recType data s s' outMax r hback h hroom
    obtain ⟨hok, htype, hlen, hout⟩ := nfcParseNdef_returns hback h hroom r trivial
    exact ⟨hok, htype, hlen, hlen ▸ hout⟩
  · intro s given outMax r hreads hwrites
    have hinside : ReadInside s.ndefLen.toNat outMax (fun _ => True) r :=
      ⟨by simp [hreads], by simp [hwrites], trivial⟩
    obtain ⟨hreads', hwrites', hlen⟩ := nfcParseNdef_inside given r hinside
    exact ⟨hreads', hwrites', hlen⟩

def nfctMime : NfcPayload := ⟨[1, 0x61, 0x62], by decide⟩

theorem nfcParseNdef_faithful_mime :
    let found := (nfcParseNdef (nfcEncodeNdef odNfcRecMime (some nfctMime) {}).2 true 3).run {}
    found.1 = true ∧ found.2.type = odNfcRecMime ∧ found.2.len.toNat = nfctMime.bytes.length ∧
      load found.2.out 0 found.2.len.toNat = nfctMime.bytes := by
  have haccepted : (nfcEncodeNdef odNfcRecMime (some nfctMime) {}).1 = true := rfl
  exact nfcParseNdef_faithful.1 odNfcRecMime nfctMime {} _ 3 {} (.inr (.inr (.inl rfl))) (Prod.ext haccepted rfl)
    (by decide)

end RoundTrip

end OpenDisplay
