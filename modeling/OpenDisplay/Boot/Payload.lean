import OpenDisplay.Lib.Base64
import OpenDisplay.Session.Model

/-! What the boot screen may say about the key: one decision, the lines of text made from it,
and the link in the code. Strings are their bytes, up to the NUL. -/

namespace OpenDisplay

def odBootPayloadSize : Nat := 23
def odBootKeySize : Nat := 16
def odBootKeyHexSize : Nat := 33
def odBootUrlSize : Nat := 64
def odSecurityFlagShowKeyOnScreen : UInt8 := 0x02

section Text

def ascii (s : String) : Bytes := s.toList.map fun c => UInt8.ofNat c.toNat

/-- What fits into a buffer before the NUL. -/
def snprintf (outSize : Nat) (text : Bytes) : Bytes := text.take (outSize - 1)

def hexDigit (n : Nat) : UInt8 := (ascii "0123456789ABCDEF").getD n 0

def odBootBytesToHex (bytes : Bytes) (outSize : Nat) : Bytes :=
  if outSize < bytes.length * 2 + 1 then []
  else bytes.flatMap fun (b : UInt8) => [hexDigit ((b >>> 4) &&& 0x0F).toNat, hexDigit (b &&& 0x0F).toNat]

end Text

section Key

/-- The security packet, as far as the boot screen reads it. -/
structure BootSecurity extends SecurityConfig where
  flags : UInt8

inductive BootKeyState where
  | notSet | hidden | shown
deriving DecidableEq

def odBootKeyIsZero (key : Block) : Bool := key.toList.all (· = 0)

def odBootKeyState : Option BootSecurity → BootKeyState
  | none => .notSet
  | some sec =>
    if sec.encryptionEnabled = 0 ∨ odBootKeyIsZero sec.encryptionKey then .notSet
    else if sec.flags &&& odSecurityFlagShowKeyOnScreen ≠ 0 then .shown
    else .hidden

def odBootFormatKeyDisplay (key : Block) (showKey : Bool) : Bytes :=
  if odBootKeyIsZero key then List.replicate (odBootKeyHexSize - 1) 0x2D
  else if ¬ showKey then List.replicate (odBootKeyHexSize - 1) 0x58
  else odBootBytesToHex key.toList odBootKeyHexSize

def odBootFormatKeyLine (label keyPart : Bytes) (keyIsZero showKey : Bool) (outSize : Nat) : Bytes :=
  if keyIsZero then snprintf outSize (label ++ ascii " not set")
  else if ¬ showKey then snprintf outSize (label ++ ascii " hidden")
  else snprintf outSize (label ++ ascii " " ++ odBootBytesToHex keyPart odBootKeyHexSize)

end Key

section Link

def odBootPayloadBuild (legacyTagType : UInt16) (deviceId24 : UInt32) (key : Block) (showKey : Bool)
    (manufacturerId : UInt16) : Bytes :=
  [(legacyTagType >>> 8).toUInt8, legacyTagType.toUInt8, (deviceId24 >>> 16).toUInt8, (deviceId24 >>> 8).toUInt8,
    deviceId24.toUInt8] ++ (if showKey then key.toList else List.replicate odBootKeySize 0) ++
    [(manufacturerId >>> 8).toUInt8, manufacturerId.toUInt8]

def base64urlTable : Bytes := ascii "ABCDEFGHIJKLMNOPQRSTUVWXYZabcdefghijklmnopqrstuvwxyz0123456789-_"

def base64urlLetter (value : UInt32) (shift : UInt32) : UInt8 := base64urlTable.getD ((value >>> shift) &&& 63).toNat 0

/-- The end of the text, if the NUL fits. -/
def base64urlClose (outSize : Nat) (out : Bytes) : Nat × Bytes :=
  if out.length ≥ outSize then (0, out) else (out.length, out ++ [0])

/-- `out` is what has been written so far. -/
def base64urlFrom (outSize : Nat) : Bytes → Bytes → Nat × Bytes
  | a :: b :: c :: rest, out =>
    let value := (a.toUInt32 <<< 16) ||| (b.toUInt32 <<< 8) ||| c.toUInt32
    if out.length + 4 ≥ outSize then (0, out)
    else
      base64urlFrom outSize rest (out ++
        [base64urlLetter value 18, base64urlLetter value 12, base64urlLetter value 6, base64urlLetter value 0])
  | [a, b], out =>
    let value := (a.toUInt32 <<< 16) ||| (b.toUInt32 <<< 8)
    if out.length + 3 ≥ outSize then (0, out)
    else base64urlClose outSize (out ++ [base64urlLetter value 18, base64urlLetter value 12, base64urlLetter value 6])
  | [a], out =>
    let value := a.toUInt32 <<< 16
    if out.length + 2 ≥ outSize then (0, out)
    else base64urlClose outSize (out ++ [base64urlLetter value 18, base64urlLetter value 12])
  | [], out => base64urlClose outSize out

/-- The length of the text, or zero if it does not fit, and the bytes written from the start of
the buffer. A `none` stands for a null pointer. -/
def odBootBase64urlEncode (data : Option Bytes) (outSize : Option Nat) : Nat × Bytes :=
  match data, outSize with
  | some data, some outSize => if outSize = 0 then (0, []) else base64urlFrom outSize data []
  | _, _ => (0, [])

def urlPrefix : Bytes := ascii "https://opendisplay.org/l/?"

def odBootUrlBuild (legacyTagType : UInt16) (deviceId24 : UInt32) (key : Block) (showKey : Bool)
    (manufacturerId : UInt16) (outSize : Nat) : Option Bytes :=
  if outSize = 0 then none
  else
    let payload := odBootPayloadBuild legacyTagType deviceId24 key showKey manufacturerId
    let (length, encoded) := odBootBase64urlEncode (some payload) (some 33)
    if length = 0 then none
    else
      let written := urlPrefix ++ encoded.take length
      if written.length ≥ outSize then none else some written

end Link

section Encoding

theorem base64urlLetter_toNat {value : UInt32} {n : Nat} (shift : UInt32) (hshift : shift.toNat < 32)
    (hvalue : value.toNat = n) : base64urlLetter value shift = base64urlTable.getD (n / 2 ^ shift.toNat % 64) 0 := by
  rw [base64urlLetter, UInt32.toNat_and, UInt32.toNat_shiftRight, hvalue]
  show base64urlTable.getD (n >>> (shift.toNat % 32) &&& 2 ^ 6 - 1) 0 = _
  rw [Nat.and_two_pow_sub_one_eq_mod, Nat.mod_eq_of_lt hshift, Nat.shiftRight_eq_div_pow]

theorem value_toNat (a b c : UInt8) :
    ((a.toUInt32 <<< 16) ||| (b.toUInt32 <<< 8) ||| c.toUInt32).toNat = a.toNat * 65536 + b.toNat * 256 + c.toNat := by
  have ha := a.toNat_lt
  have hb := b.toNat_lt
  have hc := c.toNat_lt
  rw [UInt32.toNat_or, UInt32.toNat_or, UInt32.toNat_shiftLeft, UInt32.toNat_shiftLeft, UInt8.toNat_toUInt32,
    UInt8.toNat_toUInt32, UInt8.toNat_toUInt32]
  show a.toNat <<< 16 % 2 ^ 32 ||| b.toNat <<< 8 % 2 ^ 32 ||| c.toNat = _
  simp only [Nat.shiftLeft_eq]
  rw [Nat.mod_eq_of_lt (by omega), Nat.mod_eq_of_lt (by omega)]
  have hhigh : a.toNat * 2 ^ 16 ||| b.toNat * 2 ^ 8 = a.toNat * 2 ^ 16 + b.toNat * 2 ^ 8 := by
    rw [Nat.mul_comm a.toNat, ← Nat.two_pow_add_eq_or_of_lt (by omega)]
  have hall : (a.toNat * 2 ^ 16 + b.toNat * 2 ^ 8) ||| c.toNat = a.toNat * 2 ^ 16 + b.toNat * 2 ^ 8 + c.toNat := by
    rw [show a.toNat * 2 ^ 16 + b.toNat * 2 ^ 8 = 2 ^ 8 * (a.toNat * 2 ^ 8 + b.toNat) by omega,
      ← Nat.two_pow_add_eq_or_of_lt hc]
  rw [hhigh, hall]
  rfl

theorem value_toNat_two (a b : UInt8) :
    ((a.toUInt32 <<< 16) ||| (b.toUInt32 <<< 8)).toNat = a.toNat * 65536 + b.toNat * 256 := by
  simpa using value_toNat a b 0

theorem value_toNat_one (a : UInt8) : (a.toUInt32 <<< 16).toNat = a.toNat * 65536 := by
  simpa using value_toNat_two a 0

/-- The letters of three bytes are those of their digits. -/
theorem letters_encode {value : UInt32} {n : Nat} (hvalue : value.toNat = n) :
    [base64urlLetter value 18, base64urlLetter value 12, base64urlLetter value 6, base64urlLetter value 0] =
      [n / 262144 % 64, n / 4096 % 64, n / 64 % 64, n % 64].map fun d => base64urlTable.getD d 0 := by
  rw [base64urlLetter_toNat 18 (by decide) hvalue, base64urlLetter_toNat 12 (by decide) hvalue,
    base64urlLetter_toNat 6 (by decide) hvalue, base64urlLetter_toNat 0 (by decide) hvalue]
  simp

theorem letters_encode_two (a b : UInt8) :
    [base64urlLetter ((a.toUInt32 <<< 16) ||| (b.toUInt32 <<< 8)) 18,
      base64urlLetter ((a.toUInt32 <<< 16) ||| (b.toUInt32 <<< 8)) 12,
      base64urlLetter ((a.toUInt32 <<< 16) ||| (b.toUInt32 <<< 8)) 6] = Base64.encode base64urlTable 0 [a, b] :=
  congrArg (List.take 3) (letters_encode (value_toNat_two a b))

theorem letters_encode_one (a : UInt8) :
    [base64urlLetter (a.toUInt32 <<< 16) 18, base64urlLetter (a.toUInt32 <<< 16) 12] =
      Base64.encode base64urlTable 0 [a] :=
  congrArg (List.take 2) (letters_encode (value_toNat_one a))

/-- What fits is written in full, and closed. -/
theorem base64urlFrom_fits {outSize : Nat} {data out : Bytes}
    (h : out.length + (Base64.encode base64urlTable 0 data).length < outSize) :
    base64urlFrom outSize data out = (out.length + (Base64.encode base64urlTable 0 data).length,
      out ++ Base64.encode base64urlTable 0 data ++ [0]) := by
  induction data, out using base64urlFrom.induct outSize with
  | case1 a b c rest out hlong =>
    simp only [Base64.encode, Base64.digits, List.map_cons, List.length_cons] at h
    omega
  | case2 a b c rest out value hroom ih =>
    have henc : Base64.encode base64urlTable 0 (a :: b :: c :: rest) =
        [base64urlLetter value 18, base64urlLetter value 12, base64urlLetter value 6, base64urlLetter value 0] ++
          Base64.encode base64urlTable 0 rest := by
      rw [letters_encode (value_toNat a b c)]
      rfl
    rw [henc, List.length_append] at h ⊢
    rw [base64urlFrom, if_neg hroom, ih (by rw [List.length_append, Nat.add_assoc]; exact h), List.length_append,
      Nat.add_assoc, List.append_assoc out]
  | case3 a b out hlong =>
    simp only [Base64.encode, Base64.digits, List.map_cons, List.length_cons] at h
    omega
  | case4 a b out hroom =>
    rw [← letters_encode_two] at h ⊢
    rw [base64urlFrom, if_neg hroom, base64urlClose, if_neg (by rw [List.length_append]; omega), List.length_append]
  | case5 a out hlong =>
    simp only [Base64.encode, Base64.digits, List.map_cons, List.length_cons] at h
    omega
  | case6 a out hroom =>
    rw [← letters_encode_one] at h ⊢
    rw [base64urlFrom, if_neg hroom, base64urlClose, if_neg (by rw [List.length_append]; omega), List.length_append]
  | case7 out =>
    have hroom : ¬ out.length ≥ outSize := by
      have hempty : (Base64.encode base64urlTable 0 []).length = 0 := by simp [Base64.encode, Base64.digits]
      omega
    rw [base64urlFrom, base64urlClose, if_neg hroom]
    simp [Base64.encode, Base64.digits]

/-- What does not fit is given up, at the latest when the buffer is full. -/
theorem base64urlFrom_full {outSize : Nat} {data out : Bytes} (hout : out.length ≤ outSize)
    (h : outSize ≤ out.length + (Base64.encode base64urlTable 0 data).length) :
    (base64urlFrom outSize data out).1 = 0 ∧ (base64urlFrom outSize data out).2.length ≤ outSize := by
  induction data, out using base64urlFrom.induct outSize with
  | case1 a b c rest out hlong =>
    rw [base64urlFrom, if_pos hlong]
    exact ⟨rfl, hout⟩
  | case2 a b c rest out value hroom ih =>
    simp only [Base64.encode, Base64.digits, List.map_cons, List.length_cons] at h
    rw [base64urlFrom, if_neg hroom]
    refine ih ?_ ?_
    · simp only [List.length_append, List.length_cons, List.length_nil]
      omega
    · simp only [Base64.encode, List.length_append, List.length_cons, List.length_nil]
      omega
  | case3 a b out hlong =>
    rw [base64urlFrom, if_pos hlong]
    exact ⟨rfl, hout⟩
  | case4 a b out hroom =>
    simp only [Base64.encode, Base64.digits, List.map_cons, List.map_nil, List.length_cons, List.length_nil] at h
    omega
  | case5 a out hlong =>
    rw [base64urlFrom, if_pos hlong]
    exact ⟨rfl, hout⟩
  | case6 a out hroom =>
    simp only [Base64.encode, Base64.digits, List.map_cons, List.map_nil, List.length_cons, List.length_nil] at h
    omega
  | case7 out =>
    simp only [Base64.encode, Base64.digits, List.map_nil, List.length_nil] at h
    rw [base64urlFrom, base64urlClose, if_pos (by omega)]
    exact ⟨rfl, hout⟩

theorem base64urlTable_nodup : base64urlTable.Nodup := by decide +kernel

/-- The text is written in full with its NUL, or nothing is returned and the buffer is kept to. -/
theorem odBootBase64urlEncode_cases (data : Bytes) (outSize : Nat) :
    ((Base64.encode base64urlTable 0 data).length < outSize ∧
      odBootBase64urlEncode (some data) (some outSize) =
        ((Base64.encode base64urlTable 0 data).length, Base64.encode base64urlTable 0 data ++ [0])) ∨
      (outSize ≤ (Base64.encode base64urlTable 0 data).length ∧
        (odBootBase64urlEncode (some data) (some outSize)).1 = 0 ∧
          (odBootBase64urlEncode (some data) (some outSize)).2.length ≤ outSize) := by
  rw [odBootBase64urlEncode]
  by_cases hzero : outSize = 0
  · subst hzero
    exact .inr ⟨Nat.zero_le _, rfl, le_rfl⟩
  rw [if_neg hzero]
  rcases Nat.lt_or_ge (Base64.encode base64urlTable 0 data).length outSize with hfits | hfull
  · refine .inl ⟨hfits, ?_⟩
    rw [base64urlFrom_fits (by simpa using hfits)]
    simp
  · exact .inr ⟨hfull, base64urlFrom_full (Nat.zero_le _) (by simpa using hfull)⟩

/-- There is a text just if there are bytes and the buffer has room for it and its NUL. It is as long
as it has to be, in letters of the alphabet, and no other bytes have it; and nothing is ever written
behind the buffer. -/
theorem odBootBase64urlEncode_exact (data : Bytes) (outSize : Nat) :
    let (length, written) := odBootBase64urlEncode (some data) (some outSize)
    (length ≠ 0 ↔ data ≠ [] ∧ (4 * data.length + 2) / 3 + 1 ≤ outSize) ∧
      (length ≠ 0 →
        length = (4 * data.length + 2) / 3 ∧ length + 1 ≤ outSize ∧ written = written.take length ++ [0] ∧
          (written.take length).length = length ∧ (∀ c ∈ written.take length, c ∈ base64urlTable) ∧
          Base64.decode base64urlTable (written.take length) = some data ∧
          ∀ data' outSize', data' ≠ data → (odBootBase64urlEncode (some data') (some outSize')).1 ≠ 0 →
            (odBootBase64urlEncode (some data') (some outSize')).2 ≠ written) ∧
      written.length ≤ outSize := by
  have hlength : ∀ data, (Base64.encode base64urlTable 0 data).length = (4 * data.length + 2) / 3 := fun data => by
    rw [Base64.encode, List.length_map, Base64.digits_length]
  have hdecode : ∀ data, Base64.decode base64urlTable (Base64.encode base64urlTable 0 data) = some data :=
    Base64.decode_encode base64urlTable_nodup (by decide)
  have hempty : (4 * data.length + 2) / 3 ≠ 0 ↔ data ≠ [] := by
    rw [← List.length_pos_iff]
    omega
  rcases odBootBase64urlEncode_cases data outSize with ⟨hfits, heq⟩ | ⟨hfull, hzero, hwritten⟩
  · rw [heq]
    have htake : (Base64.encode base64urlTable 0 data ++ [0]).take (Base64.encode base64urlTable 0 data).length =
        Base64.encode base64urlTable 0 data := List.take_left' rfl
    dsimp only
    rw [htake]
    rw [hlength] at hfits ⊢
    refine ⟨?_, fun _ => ⟨rfl, hfits, rfl, rfl, fun c hc => ?_, hdecode data, ?_⟩, ?_⟩
    · rw [hempty]
      exact ⟨fun h => ⟨h, hfits⟩, And.left⟩
    · obtain ⟨d, hd, rfl⟩ := List.mem_map.mp hc
      have hlt : d < base64urlTable.length := Base64.digits_lt data d hd
      rw [List.getD_eq_getElem _ _ hlt]
      exact List.getElem_mem hlt
    · intro data' outSize' hne hlen' hsame
      rcases odBootBase64urlEncode_cases data' outSize' with ⟨-, heq'⟩ | ⟨-, hzero', -⟩
      · rw [heq'] at hsame
        have htext := List.append_cancel_right hsame
        exact hne (Option.some.inj (by rw [← hdecode data', htext, hdecode data]))
      · exact hlen' hzero'
    · rw [List.length_append, hlength]
      exact hfits
  · generalize odBootBase64urlEncode (some data) (some outSize) = out at hzero hwritten
    obtain ⟨length, written⟩ := out
    obtain rfl : length = 0 := hzero
    refine ⟨iff_of_false (fun h => h rfl) fun h => ?_, fun h => absurd rfl h, hwritten⟩
    rw [hlength] at hfull
    omega

example : odBootBase64urlEncode (some (ascii "Man")) (some 5) = (4, ascii "TWFu" ++ [0]) := by decide

end Encoding

section Link

variable {legacyTagType manufacturerId : UInt16} {deviceId24 : UInt32} {key : Block} {showKey : Bool}

theorem odBootPayloadBuild_length :
    (odBootPayloadBuild legacyTagType deviceId24 key showKey manufacturerId).length = odBootPayloadSize := by
  cases showKey <;> simp [odBootPayloadBuild, odBootPayloadSize, odBootKeySize]

/-- The link always fits, and its last part is the payload. -/
theorem odBootUrlBuild_eq :
    odBootUrlBuild legacyTagType deviceId24 key showKey manufacturerId odBootUrlSize = some (urlPrefix ++
      Base64.encode base64urlTable 0 (odBootPayloadBuild legacyTagType deviceId24 key showKey manufacturerId)) := by
  have hencoded : (Base64.encode base64urlTable 0
      (odBootPayloadBuild legacyTagType deviceId24 key showKey manufacturerId)).length = 31 := by
    rw [Base64.encode, List.length_map, Base64.digits_length, odBootPayloadBuild_length]
    rfl
  have hprefix : urlPrefix.length = 27 := by decide
  generalize hpayload : odBootPayloadBuild legacyTagType deviceId24 key showKey manufacturerId = payload at hencoded
  have hencode :
      odBootBase64urlEncode (some payload) (some 33) = (31, Base64.encode base64urlTable 0 payload ++ [0]) := by
    rw [odBootBase64urlEncode, if_neg (by decide), base64urlFrom_fits (by rw [hencoded]; decide), hencoded]
    rfl
  have htake : (Base64.encode base64urlTable 0 payload ++ [0]).take 31 = Base64.encode base64urlTable 0 payload :=
    List.take_left' hencoded
  have hroom : ¬ (urlPrefix ++ Base64.encode base64urlTable 0 payload).length ≥ odBootUrlSize := by
    rw [List.length_append, hencoded, hprefix]
    decide
  rw [odBootUrlBuild, if_neg (by decide)]
  dsimp only
  rw [hpayload, hencode]
  dsimp only
  rw [if_neg (by decide), htake, if_neg hroom]

end Link

end OpenDisplay
