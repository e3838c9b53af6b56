import OpenDisplay.Boot.Screen

/-! The boot screen tells nothing of a key that it does not show, and all of one that it does. -/

namespace OpenDisplay

section Key

variable {security security' : Option BootSecurity}

theorem bootKey_notSet (h : odBootKeyState security = .notSet) : bootKey security = .replicate 16 0 := by
  cases security with
  | none => rfl
  | some sec => exact if_pos h

/-- A hidden key is a key that is set. -/
theorem bootKey_hidden (h : odBootKeyState security = .hidden) : odBootKeyIsZero (bootKey security) = false := by
  cases security with
  | none => cases h
  | some sec =>
    have hkey : bootKey (some sec) = sec.encryptionKey := if_neg (by rw [h]; exact BootKeyState.noConfusion)
    rw [hkey]
    cases hzero : odBootKeyIsZero sec.encryptionKey with
    | false => rfl
    | true =>
      rw [odBootKeyState, if_pos (.inr hzero)] at h
      cases h

theorem bootKey_shown (h : odBootKeyState security = .shown) :
    ∃ sec, security = some sec ∧ bootKey security = sec.encryptionKey := by
  cases security with
  | none => cases h
  | some sec => exact ⟨sec, rfl, if_neg (by rw [h]; exact BootKeyState.noConfusion)⟩

/-- What is made of a key that is not shown: its lines of text say no more than its state. -/
theorem bootKeyLines_hidden (h : odBootKeyState security = odBootKeyState security')
    (hshown : odBootKeyState security ≠ .shown) (useZoneLayout : Bool) :
    bootKeyLines useZoneLayout (bootKey security) false = bootKeyLines useZoneLayout (bootKey security') false := by
  cases hstate : odBootKeyState security with
  | notSet => rw [bootKey_notSet hstate, bootKey_notSet (h.symm.trans hstate)]
  | hidden =>
    have hzero := bootKey_hidden hstate
    have hzero' := bootKey_hidden (h.symm.trans hstate)
    simp only [bootKeyLines, odBootFormatKeyLine, odBootFormatKeyDisplay, hzero, hzero', Bool.false_eq_true, if_false,
      not_false_eq_true, if_true]
  | shown => exact absurd hstate hshown

theorem bootUrl_hidden (app : BootApp) (cfg : BootConfig) (d : BootDisplay) (key key' : Block) :
    bootUrl app cfg d key false = bootUrl app cfg d key' false := by
  simp only [bootUrl, odBootUrlBuild_eq]
  rfl

end Key

section Calls

/-- Calls are only added. -/
def BootOut.Extends (o o' : BootOut) : Prop := o.calls <+: o'.calls

variable {o o' o'' : BootOut}

theorem BootOut.Extends.refl (o : BootOut) : o.Extends o := List.prefix_rfl

theorem BootOut.Extends.trans (h : o.Extends o') (h' : o'.Extends o'') : o.Extends o'' := List.IsPrefix.trans h h'

theorem BootOut.extends_call (o : BootOut) (c : BootCall) (ret : Int) : o.Extends (o.call c ret) :=
  List.prefix_append _ _

theorem extends_ite {p : Prop} [Decidable p] (h : o.Extends o') (h' : o.Extends o'') :
    o.Extends (if p then o' else o'') := by
  split
  · exact h
  · exact h'

theorem extends_foldl {β : Type*} {f : BootOut → β → BootOut} (h : ∀ (o : BootOut) b, o.Extends (f o b)) (l : List β)
    (o : BootOut) : o.Extends (l.foldl f o) := by
  induction l generalizing o with
  | nil => exact .refl o
  | cons b l ih => exact (h o b).trans (ih _)

theorem bootRows_extends (app : BootApp) (row : Nat → Bytes) (segment h : Nat) (o : BootOut) :
    o.Extends (bootRows app row segment h o) :=
  extends_foldl (fun o _ => extends_ite (o.extends_call _ _) (.refl o)) _ o

theorem bootPlane_extends (app : BootApp) (plane : Int) (row : Nat → Bytes) (segment h : Nat) (o : BootOut) :
    o.Extends (bootPlane app plane row segment h o) := by
  have hbegin := o.extends_call (.beginPlane plane) (app.beginPlane plane)
  unfold bootPlane
  exact extends_ite hbegin ((hbegin.trans (bootRows_extends app row segment h _)).trans (BootOut.extends_call _ _ _))

theorem bootBlankPlane_extends (app : BootApp) (row : Bytes) (segment h : Nat) (o : BootOut) :
    o.Extends (bootBlankPlane app row segment h o) :=
  ((o.extends_call _ _).trans (bootRows_extends app _ segment h _)).trans (BootOut.extends_call _ _ _)

theorem bootPasses_extends (app : BootApp) (f : BootFrame) (p : BootPacking) (segments segment : Nat) (o : BootOut) :
    o.Extends (bootPasses app f p segments segment o) := by
  have hpasses := fun (g : Nat → BootOut → BootOut) (hg : ∀ pass o, BootOut.Extends o (g pass o)) (n : Nat) =>
    extends_foldl (fun o pass => extends_ite (p := o.ok) (hg pass o) (.refl o)) (List.range n) o
  unfold bootPasses
  exact extends_ite ((hpasses _ (fun _ _ => bootPlane_extends _ _ _ _ _ _) _).trans (bootBlankPlane_extends _ _ _ _ _))
    (hpasses _ (fun _ _ => bootPlane_extends _ _ _ _ _ _) _)

theorem bootEmit_extends (app : BootApp) (bufs : BootBufs) (f : BootFrame) (calls : List BootCall) :
    calls <+: (bootEmit app bufs f calls).2 := by
  have hbegin : BootOut.Extends ⟨true, calls⟩ (BootOut.call ⟨true, calls⟩
      (.beginFrame f.display.pixelWidth f.display.pixelHeight app.segments) 0) := BootOut.extends_call _ _ _
  unfold bootEmit
  refine iteInduction (motive := fun (out : Bool × List BootCall) => calls <+: out.2) (fun _ => List.prefix_rfl)
    fun _ => ?_
  refine iteInduction (motive := fun (out : Bool × List BootCall) => calls <+: out.2) (fun _ => hbegin) fun _ => ?_
  have hframe := fun (segments : Nat) (o : BootOut) => extends_foldl
    (fun o segment => extends_ite (p := o.ok)
      (bootPasses_extends app f (bootPacking app f.display) segments segment o) (.refl o))
    (List.range segments) o
  exact (hbegin.trans (hframe app.segments.toNat ⟨true, _⟩)).trans (BootOut.extends_call _ .endFrame app.endFrame)

end Calls

section Payload

/-- A word of three bytes, the high one first. -/
def readBe24 (b : Bytes) : UInt32 :=
  ((byteAt b 0).toUInt32 <<< 16) ||| ((byteAt b 1).toUInt32 <<< 8) ||| (byteAt b 2).toUInt32

theorem readBe16_be (n : UInt16) (rest : Bytes) : readBe16 ((n >>> 8).toUInt8 :: n.toUInt8 :: rest) = n := by
  rw [readBe16, UInt16.or_comm]
  exact readLe16_le n rest

theorem readBe24_be {n : UInt32} (h : n.toNat < 2 ^ 24) (rest : Bytes) :
    readBe24 ((n >>> 16).toUInt8 :: (n >>> 8).toUInt8 :: n.toUInt8 :: rest) = n := by
  apply UInt32.toNat_inj.mp
  have hhigh : (n >>> 16).toUInt8.toNat = n.toNat / 2 ^ 16 := by
    rw [UInt32.toNat_toUInt8, UInt32.toNat_shiftRight]
    show n.toNat >>> 16 % 2 ^ 8 = _
    rw [Nat.shiftRight_eq_div_pow]
    omega
  have hmiddle : (n >>> 8).toUInt8.toNat = n.toNat / 2 ^ 8 % 2 ^ 8 := by
    rw [UInt32.toNat_toUInt8, UInt32.toNat_shiftRight]
    show n.toNat >>> 8 % 2 ^ 8 = _
    rw [Nat.shiftRight_eq_div_pow]
  have hlow : n.toUInt8.toNat = n.toNat % 2 ^ 8 := UInt32.toNat_toUInt8 n
  have hvalue := value_toNat (n >>> 16).toUInt8 (n >>> 8).toUInt8 n.toUInt8
  rw [hhigh, hmiddle, hlow] at hvalue
  exact hvalue.trans (by omega)

/-- The fields of a payload. -/
structure PayloadOf (payload : Bytes) (legacyTagType : UInt16) (deviceId24 : UInt32) (key : Block)
    (manufacturerId : UInt16) : Prop where
  length : payload.length = odBootPayloadSize
  tagType : readBe16 payload = legacyTagType
  deviceId : readBe24 (payload.drop 2) = deviceId24
  key : (payload.drop 5).take odBootKeySize = key.toList
  manufacturer : readBe16 (payload.drop 21) = manufacturerId

theorem odBootPayloadBuild_shown (legacyTagType : UInt16) (deviceId24 : UInt32) (key : Block)
    (manufacturerId : UInt16) :
    PayloadOf (odBootPayloadBuild legacyTagType (deviceId24 &&& 0xFFFFFF) key true manufacturerId) legacyTagType
      (deviceId24 &&& 0xFFFFFF) key manufacturerId := by
  have hdevice : (deviceId24 &&& 0xFFFFFF).toNat < 2 ^ 24 := by
    rw [UInt32.toNat_and]
    exact Nat.lt_of_le_of_lt Nat.and_le_right (by decide)
  have hkey : key.toList.length = 16 := Vector.length_toList
  refine ⟨odBootPayloadBuild_length, readBe16_be _ _, readBe24_be hdevice _, ?_, ?_⟩
  · exact List.take_left' hkey
  · have hdrop : (odBootPayloadBuild legacyTagType (deviceId24 &&& 0xFFFFFF) key true manufacturerId).drop 21 =
        [(manufacturerId >>> 8).toUInt8, manufacturerId.toUInt8] := by
      show (key.toList ++ [(manufacturerId >>> 8).toUInt8, manufacturerId.toUInt8]).drop 16 = _
      exact List.drop_left' hkey
    rw [hdrop]
    exact readBe16_be _ _

end Payload

section Screen

/-- What the renderer asks for before it makes the link: a display, packed as it can pack it, and room for the code. -/
structure Drawable (app : BootApp) (cfg : Option BootConfig) (bufs : Option BootBufs) (c : BootConfig) (d : BootDisplay)
    (b : BootBufs) : Prop where
  config : cfg = some c
  display : c.displays.head? = some d
  scheme : d.colorScheme ≠ odColorSchemeGray8
  bits : app.bitsPerPixel d.colorScheme = 1 ∨ app.bitsPerPixel d.colorScheme = 2 ∨ app.bitsPerPixel d.colorScheme = 4
  bufs : bufs = some b
  needed : app.qrBufferSize 6 ≠ 0
  room : app.qrBufferSize 6 ≤ b.qrLen

variable {build : BootBuild} {app : BootApp} {cfg : Option BootConfig} {security : Option BootSecurity}
  {bufs : Option BootBufs}

/-- Then the link is the first thing that is handed out, to the library of the code. -/
theorem Drawable.url {c : BootConfig} {d : BootDisplay} {b : BootBufs} (h : Drawable app cfg bufs c d b) {url : Bytes}
    (hurl : bootUrl app c d (bootKey security) (odBootKeyState security = .shown) = some url) :
    [.qrInitText 6 url] <+: (odBootScreenRender build app cfg security bufs).2 := by
  obtain ⟨rfl, hdisplay, hscheme, hbits, rfl, hneeded, hroom⟩ := h
  obtain ⟨rest, hdisplays⟩ : ∃ rest, c.displays = d :: rest := by
    cases hc : c.displays with
    | nil =>
      rw [hc] at hdisplay
      cases hdisplay
    | cons d' rest =>
      rw [hc] at hdisplay
      exact ⟨rest, by rw [Option.some.inj hdisplay]⟩
  have hpacked : ¬ (app.bitsPerPixel d.colorScheme ≠ 1 ∧ app.bitsPerPixel d.colorScheme ≠ 2 ∧
      app.bitsPerPixel d.colorScheme ≠ 4) := by omega
  have hsize : ¬ (app.qrBufferSize 6 = 0 ∨ app.qrBufferSize 6 > b.qrLen) := by omega
  unfold odBootScreenRender
  simp only [hdisplays, if_neg hscheme, if_neg hpacked, hurl, if_neg hsize]
  split_ifs
  · exact List.prefix_rfl
  · exact bootEmit_extends _ _ _ _

/-- If it asks in vain, it hands out nothing. -/
theorem odBootScreenRender_refuses (h : ¬ ∃ c d b, Drawable app cfg bufs c d b) :
    odBootScreenRender build app cfg security bufs = (false, []) := by
  cases cfg with
  | none => rfl
  | some c =>
    cases bufs with
    | none => rfl
    | some b =>
      unfold odBootScreenRender
      dsimp only
      cases hdisplays : c.displays with
      | nil => rfl
      | cons d rest =>
        dsimp only
        by_cases hscheme : d.colorScheme = odColorSchemeGray8
        · rw [if_pos hscheme]
        rw [if_neg hscheme]
        by_cases hbits : app.bitsPerPixel d.colorScheme ≠ 1 ∧ app.bitsPerPixel d.colorScheme ≠ 2 ∧
            app.bitsPerPixel d.colorScheme ≠ 4
        · rw [if_pos hbits]
        rw [if_neg hbits]
        by_cases hsize : app.qrBufferSize 6 = 0 ∨ app.qrBufferSize 6 > b.qrLen
        · cases hurl : bootUrl app c d (bootKey security) (odBootKeyState security = .shown) with
          | none => rfl
          | some url =>
            dsimp only
            rw [if_pos hsize]
        · exact absurd ⟨c, d, b, rfl, by rw [hdisplays]; rfl, hscheme, by omega, rfl, by omega, by omega⟩ h

/-- Of a key that is not shown the screen gives away nothing but whether it is set: the link, the
lines of text, the rows and the result are the same for any other. The link of a key that is
shown decodes to it, and is handed to the library of the code whenever a screen can be drawn. -/
theorem odBootScreenRender_secret (build : BootBuild) (app : BootApp) (cfg : Option BootConfig)
    (security : Option BootSecurity) (bufs : Option BootBufs) :
    (∀ security', odBootKeyState security = odBootKeyState security' → odBootKeyState security ≠ .shown →
      odBootScreenRender build app cfg security bufs = odBootScreenRender build app cfg security' bufs ∧
      (∀ c d, bootUrl app c d (bootKey security) false = bootUrl app c d (bootKey security') false) ∧
      ∀ useZoneLayout,
        bootKeyLines useZoneLayout (bootKey security) false = bootKeyLines useZoneLayout (bootKey security') false) ∧
    (odBootKeyState security = .shown → ∃ sec, security = some sec ∧
      (∀ c d b, Drawable app cfg bufs c d b → ∃ url payload,
        [.qrInitText 6 url] <+: (odBootScreenRender build app cfg security bufs).2 ∧ urlPrefix <+: url ∧
        Base64.decode base64urlTable (url.drop urlPrefix.length) = some payload ∧
        PayloadOf payload d.legacyTagType (app.deviceId24 &&& 0xFFFFFF) sec.encryptionKey c.manufacturerId) ∧
      ((¬ ∃ c d b, Drawable app cfg bufs c d b) → odBootScreenRender build app cfg security bufs = (false, []))) := by
  refine ⟨fun security' hstate hshown => ⟨?_, fun c d => bootUrl_hidden app c d _ _, fun useZoneLayout =>
    bootKeyLines_hidden hstate hshown useZoneLayout⟩, fun hshown => ?_⟩
  · have hshow : decide (odBootKeyState security = .shown) = false := decide_eq_false hshown
    have hshow' : decide (odBootKeyState security' = .shown) = false := decide_eq_false (hstate ▸ hshown)
    unfold odBootScreenRender
    simp only [hshow, hshow', fun c d => bootUrl_hidden app c d (bootKey security) (bootKey security'),
      bootKeyLines_hidden hstate hshown]
  · obtain ⟨sec, hsec, hkey⟩ := bootKey_shown hshown
    refine ⟨sec, hsec, fun c d b hdrawable => ?_, odBootScreenRender_refuses⟩
    obtain ⟨url, hurl⟩ : ∃ url, url = urlPrefix ++ Base64.encode base64urlTable 0 (odBootPayloadBuild d.legacyTagType
        (app.deviceId24 &&& 0xFFFFFF) sec.encryptionKey true c.manufacturerId) := ⟨_, rfl⟩
    refine ⟨url, _, hdrawable.url ?_, hurl ▸ List.prefix_append _ _, ?_, odBootPayloadBuild_shown _ _ _ _⟩
    · rw [decide_eq_true hshown, hkey, bootUrl, odBootUrlBuild_eq, hurl]
    · rw [hurl, List.drop_left]
      exact Base64.decode_encode base64urlTable_nodup (by decide) _

/-- Two keys that are both set, on a small panel; and there the link of a key that is shown. -/
theorem odBootScreenRender_secret_keys :
    let app : BootApp :=
      { beginFrame := fun _ _ _ => 0, beginPlane := fun _ => 0, writeRow := fun _ _ _ => 0, endPlane := fun _ => 0
        endFrame := 0, bitsPerPixel := fun _ => 1, defaultPlane := fun _ => 0, direct2bpp := false, segments := 1
        deviceId24 := 0x00ABCDEF, firmwareVersion := (1, 2, 3), batteryVolts := 3, chipTempC := 20
        printFixed := fun _ _ => [], qrBufferSize := fun _ => 211
        qrInitText := fun _ text => (0, ⟨41, fun x y => (byteAt text (x + y).toNat).toNat.testBit 0⟩) }
    let render := fun key flags => odBootScreenRender ⟨false, 1, fun _ => []⟩ app
      (some ⟨[⟨0, 250, 122, 7, 0, 0, 0⟩], 9, none⟩) (some ⟨⟨1, .replicate 16 key, 0⟩, flags⟩) (some ⟨64, 211⟩)
    render 7 0 = render 200 0 ∧ ∃ url payload, [.qrInitText 6 url] <+: (render 7 odSecurityFlagShowKeyOnScreen).2 ∧
      urlPrefix <+: url ∧ Base64.decode base64urlTable (url.drop urlPrefix.length) = some payload ∧
      PayloadOf payload 7 0xABCDEF (.replicate 16 7) 9 := by
  intro app render
  refine ⟨((odBootScreenRender_secret _ _ _ (some ⟨⟨1, .replicate 16 7, 0⟩, 0⟩) _).1
    (some ⟨⟨1, .replicate 16 200, 0⟩, 0⟩) (by decide) (by decide)).1, ?_⟩
  obtain ⟨sec, hsec, hshown, -⟩ := (odBootScreenRender_secret ⟨false, 1, fun _ => []⟩ app
    (some ⟨[⟨0, 250, 122, 7, 0, 0, 0⟩], 9, none⟩)
    (some ⟨⟨1, .replicate 16 7, 0⟩, odSecurityFlagShowKeyOnScreen⟩) (some ⟨64, 211⟩)).2 (by decide)
  obtain rfl := Option.some.inj hsec
  obtain ⟨url, payload, hfirst, hprefix, hdecode, hpayload⟩ := hshown ⟨[⟨0, 250, 122, 7, 0, 0, 0⟩], 9, none⟩
    ⟨0, 250, 122, 7, 0, 0, 0⟩ ⟨64, 211⟩ ⟨rfl, rfl, by decide, .inl rfl, rfl, by decide, by decide⟩
  exact ⟨url, payload, hfirst, hprefix, hdecode, hpayload.length, hpayload.tagType,
    hpayload.deviceId.trans (by decide), hpayload.key, hpayload.manufacturer⟩

end Screen

end OpenDisplay
