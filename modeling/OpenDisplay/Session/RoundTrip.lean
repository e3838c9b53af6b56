import OpenDisplay.Session.Invariant

/-! Seal and open agree: what one side of a session seals the other side opens, at
every length that a frame can have. The cipher is assumed to undo itself and nothing
else. -/

namespace OpenDisplay

section Framing

theorem shiftLeft_or_toNat (v : UInt64) (x : UInt8) (hv : v.toNat < 2 ^ 56) :
    ((v <<< 8) ||| x.toUInt64).toNat = v.toNat * 256 + x.toNat := by
  have hx := x.toNat_lt
  rw [UInt64.toNat_or, UInt64.toNat_shiftLeft, UInt8.toNat_toUInt64, show (8 : UInt64).toNat % 64 = 8 from rfl,
    Nat.shiftLeft_eq, Nat.mod_eq_of_lt (by omega), Nat.mul_comm, ← Nat.two_pow_add_eq_or_of_lt hx]

theorem odBe64_byte (v : UInt64) {k : Nat} (hk : k < 64) :
    ((v >>> UInt64.ofNat k) &&& 0xff).toUInt8.toNat = v.toNat / 2 ^ k % 256 := by
  rw [UInt64.toNat_toUInt8, UInt64.toNat_and, UInt64.toNat_shiftRight, UInt64.toNat_ofNat',
    Nat.mod_eq_of_lt (show k < 2 ^ 64 by omega), Nat.mod_eq_of_lt hk, Nat.shiftRight_eq_div_pow,
    show (0xff : UInt64).toNat = 2 ^ 8 - 1 from rfl, Nat.and_two_pow_sub_one_eq_mod]
  omega

theorem odBe64_length (v : UInt64) : (odBe64 v).length = 8 := rfl

/-- The bytes read so far are the value without the bits that are still to come. -/
theorem odRdBe64_first (v : UInt64) {k : Nat} (hk : k ≤ 8) :
    (odRdBe64 ((List.range k).map fun i => ((v >>> UInt64.ofNat (56 - i * 8)) &&& 0xff).toUInt8)).toNat =
      v.toNat / 2 ^ (64 - k * 8) := by
  have hv := v.toNat_lt
  induction k with
  | zero =>
    have hzero : v.toNat / 2 ^ 64 = 0 := Nat.div_eq_of_lt hv
    simpa [odRdBe64] using hzero.symm
  | succ k ih =>
    have hbits : 64 - k * 8 = (64 - (k + 1) * 8) + 8 := by omega
    have hprev := ih (by omega)
    rw [hbits, Nat.pow_add, ← Nat.div_div_eq_div_mul] at hprev
    have hsmall : v.toNat / 2 ^ (64 - (k + 1) * 8) / 2 ^ 8 < 2 ^ 56 := by
      have := Nat.div_le_self v.toNat (2 ^ (64 - (k + 1) * 8))
      omega
    rw [odRdBe64, List.range_succ, List.map_append, List.foldl_append]
    change ((odRdBe64 _ <<< 8) ||| UInt8.toUInt64 _).toNat = _
    rw [shiftLeft_or_toNat _ _ (by rw [hprev]; exact hsmall), hprev, odBe64_byte v (by omega),
      show 56 - k * 8 = 64 - (k + 1) * 8 by omega]
    omega

theorem odRdBe64_odBe64 (v : UInt64) : odRdBe64 (odBe64 v) = v := by
  have h := odRdBe64_first v (Nat.le_refl 8)
  rw [show 64 - 8 * 8 = 0 from rfl, Nat.pow_zero, Nat.div_one] at h
  exact UInt64.toNat_inj.mp h

theorem buildNonce_length (s : Session) (c : UInt64) : (buildNonce s c).length = odSessionNonceLen := by
  rw [buildNonce, List.length_append, odBe64_length, Vector.length_toList]
  rfl

variable (s : Session) (c : UInt64) (ct : Bytes)

theorem envelopeNonce_build : envelopeNonce (buildNonce s c ++ ct) = buildNonce s c :=
  List.take_left' (buildNonce_length s c)

theorem envelopeId_build : (envelopeNonce (buildNonce s c ++ ct)).take odSessionIdLen = s.sessionId.toList := by
  rw [envelopeNonce_build]
  exact List.take_left' Vector.length_toList

theorem envelopeCounter_build : envelopeCounter (buildNonce s c ++ ct) = c := by
  have hdrop : (buildNonce s c).drop odSessionIdLen = odBe64 c := List.drop_left' Vector.length_toList
  rw [envelopeCounter, envelopeNonce_build, hdrop]
  exact odRdBe64_odBe64 c

end Framing

section Sides

/-- What the first engine encrypts under its slot the second decrypts under its own. -/
def SharesKey (hal : Hal) (slot : UInt8) (hal' : Hal) (slot' : UInt8) : Prop :=
  ∀ nonce aad plain, (hal.ccmEncrypt slot nonce aad plain).1 = .ok →
    (hal'.ccmDecrypt slot' nonce aad (hal.ccmEncrypt slot nonce aad plain).2.toList).1 = .ok ∧
      (hal'.ccmDecrypt slot' nonce aad (hal.ccmEncrypt slot nonce aad plain).2.toList).2.toList = plain

variable {s : Session}

theorem sealFrame_ok {frame : Bytes} {c : SealCall} (h : (sealFrame s frame c).result = .ok) :
    let inner := UInt8.ofNat (frame.drop 2).length :: frame.drop 2
    let sealing := c.hal.ccmEncrypt s.slot ((buildNonce s s.txCounter).drop 3) (frame.take 2) inner
    sealing.1 = .ok ∧ (sealFrame s frame c).out = frame.take 2 ++ buildNonce s s.txCounter ++ sealing.2.toList := by
  unfold sealFrame at h ⊢
  dsimp only at h ⊢
  split at h
  · next ct hsealed =>
    change c.hal.ccmEncrypt s.slot ((buildNonce s s.txCounter).drop 3) _ _ = _ at hsealed
    rw [hsealed]
    exact ⟨rfl, rfl⟩
  · exact absurd h (by simp)

theorem openEnvelope_opened {envelope payload : Bytes} {outCap : Nat} {c : OpenCall} {len : UInt8}
    (hasks : s.Asks envelope outCap) (hdecrypt : envelopeDecrypt s c.cmd envelope c.hal = (.ok, len :: payload))
    (hlen : len.toNat = payload.length) :
    (openEnvelope s envelope outCap c).result = .ok ∧ (openEnvelope s envelope outCap c).out = payload := by
  unfold openEnvelope
  dsimp only
  rw [if_neg (not_not_intro hasks.id), if_neg (not_not_intro hasks.check), if_neg (Nat.not_lt.mpr hasks.room),
    hdecrypt]
  simp [hlen]

theorem odSessionOpen_eq {c : OpenCall} {envelope : Bytes} {outCap : Nat}
    (halive : (odSessionAlive s c.nowMs).1 = true) (hcap : c.outCap = some outCap)
    (henv : c.envelope = some envelope)
    (hlegal : odSessionEnvelopeMin.toNat ≤ envelope.length ∧ envelope.length ≤ odSessionEnvelopeMax) :
    odSessionOpen s c = openEnvelope s envelope outCap c := by
  unfold odSessionOpen
  rw [hcap, henv]
  simp only [(alive_of_true halive).1, not_true_eq_false, if_false]
  rw [if_neg (Nat.not_lt.mpr hlegal.1), if_neg (Nat.not_lt.mpr hlegal.2)]

/-- Two open sessions that share an id and a key, a frame for the one and room for the
frame when it is sealed. -/
structure Exchange (A B : Session) (sc : SealCall) (oc : OpenCall) (payload : Bytes) : Prop where
  sealer : (odSessionAlive A sc.nowMs).1 = true
  opener : (odSessionAlive B oc.nowMs).1 = true
  id : A.sessionId = B.sessionId
  key : SharesKey sc.hal A.slot oc.hal B.slot
  frame : sc.plainFrame = some (cmdBytes oc.cmd ++ payload)
  fits : (cmdBytes oc.cmd ++ payload).length ≤ odSessionPlainFrameMax
  room : ∃ cap, sc.outCap = some cap ∧ (cmdBytes oc.cmd ++ payload).length + 29 ≤ cap

variable {A B : Session} {sc : SealCall} {oc : OpenCall} {payload : Bytes}

theorem Exchange.length_le (h : Exchange A B sc oc payload) : payload.length ≤ odSessionPayloadMax := by
  have hfits := h.fits
  rw [List.length_append] at hfits
  exact Nat.le_of_add_le_add_left hfits

/-- Past the preflight only the counter and the cipher can refuse. -/
theorem Exchange.seal_eq (h : Exchange A B sc oc payload) :
    odSessionSeal A sc =
      if A.txCounter = UInt64.ofNat (2 ^ 64 - 1) then { session := A, result := .counterExhausted }
      else sealFrame A (cmdBytes oc.cmd ++ payload) sc := by
  obtain ⟨cap, hcap, hroom⟩ := h.room
  have hshort : ¬ (cmdBytes oc.cmd ++ payload).length < 2 := by simp [cmdBytes]
  have hroom : ¬ cap < (cmdBytes oc.cmd ++ payload).length + odSessionNonceLen + 1 + odHalCryptoTagLen :=
    Nat.not_lt.mpr hroom
  unfold odSessionSeal
  rw [hcap, h.frame]
  simp only [(alive_of_true h.sealer).1, not_true_eq_false, if_false]
  rw [if_neg hshort, if_neg (Nat.not_lt.mpr h.fits), if_neg hroom]

theorem Exchange.sealed (h : Exchange A B sc oc payload) (hok : (odSessionSeal A sc).result = .ok) :
    let sealing := sc.hal.ccmEncrypt A.slot ((buildNonce A A.txCounter).drop 3) (cmdBytes oc.cmd)
      (UInt8.ofNat payload.length :: payload)
    sealing.1 = .ok ∧ (odSessionSeal A sc).drawn = some A.txCounter ∧
      (odSessionSeal A sc).out = cmdBytes oc.cmd ++ (buildNonce A A.txCounter ++ sealing.2.toList) := by
  have hseal := h.seal_eq
  split_ifs at hseal with hmax
  · rw [hseal] at hok
    exact absurd hok (by simp)
  · rw [hseal] at hok ⊢
    obtain ⟨hsealing, hout⟩ := sealFrame_ok hok
    refine ⟨hsealing, (sealFrame_spends A _ sc).2.1, ?_⟩
    rw [hout, List.append_assoc]
    rfl

theorem sealed_length {hal : Hal} {slot : UInt8} {nonce aad plain : Bytes} :
    (hal.ccmEncrypt slot nonce aad plain).2.toList.length = plain.length + odHalCryptoTagLen :=
  Vector.length_toList

theorem Exchange.opened (h : Exchange A B sc oc payload) (hok : (odSessionSeal A sc).result = .ok)
    (hcheck : odNonceCheck B.rx A.txCounter = .ok) {outCap : Nat} (hcap : oc.outCap = some outCap)
    (hroom : payload.length + 1 ≤ outCap) (henv : oc.envelope = some ((odSessionSeal A sc).out.drop 2)) :
    (odSessionOpen B oc).result = .ok ∧ (odSessionOpen B oc).out = payload := by
  obtain ⟨hsealing, -, hout⟩ := h.sealed hok
  have hbound := h.length_le
  generalize hct : sc.hal.ccmEncrypt A.slot ((buildNonce A A.txCounter).drop 3) (cmdBytes oc.cmd)
    (UInt8.ofNat payload.length :: payload) = ct at hsealing hout
  have hlength : ct.2.toList.length = payload.length + 13 := by
    rw [← hct, sealed_length]
    rfl
  have henvelope : oc.envelope = some (buildNonce A A.txCounter ++ ct.2.toList) := by
    rw [henv, hout]
    rfl
  have hsize : (buildNonce A A.txCounter ++ ct.2.toList).length = payload.length + 29 := by
    rw [List.length_append, buildNonce_length, hlength]
    change 16 + _ = _
    omega
  have hlegal : odSessionEnvelopeMin.toNat ≤ payload.length + 29 ∧ payload.length + 29 ≤ odSessionEnvelopeMax := by
    refine ⟨Nat.le_add_left _ _, ?_⟩
    change _ ≤ 222 at hbound
    change _ ≤ 251
    omega
  rw [odSessionOpen_eq h.opener hcap henvelope (by rw [hsize]; exact hlegal)]
  apply openEnvelope_opened
  · refine ⟨?_, ?_, ?_⟩
    · rw [envelopeId_build, h.id]
      exact (odCtEqual_iff rfl).mpr rfl
    · rw [envelopeCounter_build]
      exact hcheck
    · rw [hsize]
      change payload.length + 29 - 16 - 12 ≤ outCap
      omega
  · have hdecrypt := h.key ((buildNonce A A.txCounter).drop 3) (cmdBytes oc.cmd)
      (UInt8.ofNat payload.length :: payload) (by rw [hct, hsealing])
    rw [hct] at hdecrypt
    unfold envelopeDecrypt
    rw [envelopeNonce_build, List.drop_left' (buildNonce_length A A.txCounter)]
    exact Prod.ext hdecrypt.1 hdecrypt.2
  · rw [UInt8.toNat_ofNat', Nat.mod_eq_of_lt]
    change _ ≤ 222 at hbound
    change _ < 256
    omega

theorem seal_misfit {c : SealCall} {frame : Bytes} (hframe : c.plainFrame = some frame)
    (hmisfit : ¬ (2 ≤ frame.length ∧ frame.length ≤ odSessionPlainFrameMax)) :
    (odSessionSeal s c).result.refused = true ∧ (odSessionSeal s c).drawn = none ∧
      ((odSessionAlive s c.nowMs).1 = true → (odSessionSeal s c).session = s) := by
  unfold odSessionSeal
  rw [hframe]
  rcases hcap : c.outCap with - | outCap
  · exact ⟨rfl, rfl, fun _ => rfl⟩
  dsimp only
  by_cases halive : (odSessionAlive s c.nowMs).1 = true
  · simp only [(alive_of_true halive).1, not_true_eq_false, if_false]
    by_cases hshort : frame.length < 2
    · rw [if_pos hshort]
      exact ⟨rfl, rfl, fun _ => rfl⟩
    · have hlong : odSessionPlainFrameMax < frame.length := by omega
      rw [if_neg hshort, if_pos hlong]
      exact ⟨rfl, rfl, fun _ => rfl⟩
  · rw [if_pos halive]
    exact ⟨rfl, rfl, fun h => absurd h halive⟩

end Sides

/-- What one side seals the other opens, if its window takes the counter, and gets the
payload back. The sealed frame is 29 bytes longer than the frame, at every length that the
envelope carries; at every other length the frame is refused and no counter is spent. -/
theorem seal_open_round_trip :
    (∀ A B sc oc payload, Exchange A B sc oc payload →
      let out := odSessionSeal A sc
      out.result ∈ [.ok, .cryptoError, .counterExhausted] ∧
      (out.result = .ok → ∀ c, out.drawn = some c →
        out.out.length = (cmdBytes oc.cmd ++ payload).length + 29 ∧ out.out.length ≤ 253 ∧
        (odNonceCheck B.rx c = .ok → ∀ outCap, oc.outCap = some outCap → payload.length + 1 ≤ outCap →
          oc.envelope = some (out.out.drop 2) →
          (odSessionOpen B oc).result = .ok ∧ (odSessionOpen B oc).out = payload))) ∧
    ∀ s c frame, c.plainFrame = some frame → ¬ (2 ≤ frame.length ∧ frame.length ≤ 224) →
      (odSessionSeal s c).result.refused = true ∧ (odSessionSeal s c).drawn = none ∧
        ((odSessionAlive s c.nowMs).1 = true → (odSessionSeal s c).session = s) := by
  refine ⟨?_, fun s c frame hframe hmisfit => seal_misfit hframe hmisfit⟩
  intro A B sc oc payload h out
  refine ⟨?_, fun hok c hdrawn => ?_⟩
  · have hseal : out = _ := h.seal_eq
    rw [hseal]
    split_ifs with hmax
    · simp
    · have hrefused := (sealFrame_spends A (cmdBytes oc.cmd ++ payload) sc).1
      revert hrefused
      cases (sealFrame A (cmdBytes oc.cmd ++ payload) sc).result <;> simp [SealResult.refused]
  · obtain ⟨-, hcounter, hout⟩ := h.sealed hok
    obtain rfl : A.txCounter = c := Option.some.inj (hcounter.symm.trans hdrawn)
    have hlength : out.out.length = (cmdBytes oc.cmd ++ payload).length + 29 := by
      rw [hout, List.length_append, List.length_append, buildNonce_length, sealed_length, List.length_cons,
        List.length_append]
      change _ + (16 + (_ + 1 + 12)) = _
      omega
    refine ⟨hlength, ?_, fun hcheck outCap hcap hroom henv => h.opened hok hcheck hcap hroom henv⟩
    rw [hlength]
    exact Nat.add_le_add_right h.fits 29

/-- An engine whose ciphertext is the plaintext with a tag of zeros behind it. -/
def echoHal : Hal :=
  { oneHal with
    ccmEncrypt := fun _ _ _ plain => (.ok, ⟨(plain ++ List.replicate odHalCryptoTagLen 0).toArray, by simp⟩)
    ccmDecrypt := fun _ _ _ ct => (.ok, ⟨(ct.take (ct.length - odHalCryptoTagLen)).toArray, by simp⟩) }

/-- An open session with a key in each of two slots. -/
def pairedSession (slot : UInt8) : Session :=
  { slot := slot, authenticated := true, keyLoaded := true, sessionId := .replicate 8 7 }

def echoSeal : SealCall :=
  { plainFrame := some [0x00, 0x44, 0x01, 0x02], outCap := some 33, nowMs := 5, hal := echoHal }

def echoOpen : OpenCall :=
  { cmd := 0x0044, envelope := some ((odSessionSeal (pairedSession 0) echoSeal).out.drop 2), outCap := some 3
    nowMs := 9, hal := echoHal }

theorem seal_open_round_trip_echo :
    (odSessionOpen (pairedSession 1) echoOpen).result = .ok ∧
      (odSessionOpen (pairedSession 1) echoOpen).out = [0x01, 0x02] := by
  have hexchange : Exchange (pairedSession 0) (pairedSession 1) echoSeal echoOpen [0x01, 0x02] := by
    refine ⟨rfl, rfl, rfl, ?_, rfl, by decide, ⟨33, rfl, by decide⟩⟩
    intro nonce aad plain _
    refine ⟨rfl, ?_⟩
    simp [echoHal, echoSeal, echoOpen, Vector.toList]
  exact ((seal_open_round_trip.1 _ _ _ _ _ hexchange).2 rfl 0 rfl).2.2 (by decide) 3 rfl (by decide) rfl

end OpenDisplay
