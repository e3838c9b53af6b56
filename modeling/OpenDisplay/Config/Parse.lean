import Mathlib.Algebra.BigOperators.Group.Finset.Basic
import Mathlib.Data.Fintype.Basic
import OpenDisplay.Lib.Buffer
import OpenDisplay.Config.Crc
import OpenDisplay.Config.Tlv
import OpenDisplay.Session.Model

/-! The configuration in memory, filled from the packets of a stored blob. -/

namespace OpenDisplay

open Buffers

section Model

def odConfigMaxDisplays : Nat := 4
def odConfigMaxLeds : Nat := 4
def odConfigMaxSensors : Nat := 4
def odConfigMaxDataBuses : Nat := 4
def odConfigMaxBinaryInputs : Nat := 4
def odConfigMaxTouch : Nat := 4
def odConfigMaxBuzzers : Nat := 4
def odConfigMaxNfc : Nat := 2
def odConfigMaxFlash : Nat := 2

/-- The subsystems whose packets the build has storage for. -/
structure OdConfigBuild where
  withTouch : Bool := true
  withBuzzer : Bool := true
  withNfc : Bool := true
  withWifi : Bool := true
  withDataExtended : Bool := true

abbrev WireStruct (size : Nat) : Type := Vector UInt8 size

def wireZero (size : Nat) : WireStruct size := Vector.replicate size 0

/-- An array of packet bodies and the counter beside it. -/
structure OdConfigArray (max elemSize : Nat) where
  base : WireStruct (max * elemSize) := wireZero (max * elemSize)
  count : UInt8 := 0

structure OdConfig where
  systemConfig : WireStruct 22 := wireZero 22
  manufacturerData : WireStruct 22 := wireZero 22
  powerOption : WireStruct 30 := wireZero 30
  displays : OdConfigArray odConfigMaxDisplays 46 := {}
  leds : OdConfigArray odConfigMaxLeds 22 := {}
  sensors : OdConfigArray odConfigMaxSensors 30 := {}
  dataBuses : OdConfigArray odConfigMaxDataBuses 30 := {}
  binaryInputs : OdConfigArray odConfigMaxBinaryInputs 30 := {}
  flashConfigs : OdConfigArray odConfigMaxFlash 32 := {}
  touchControllers : OdConfigArray odConfigMaxTouch 32 := {}
  passiveBuzzers : OdConfigArray odConfigMaxBuzzers 32 := {}
  nfcConfigs : OdConfigArray odConfigMaxNfc 32 := {}
  dataExtended : WireStruct 288 := wireZero 288
  dataExtendedLoaded : Bool := false
  wifiConfig : WireStruct 160 := wireZero 160
  wifiConfigLoaded : Bool := false
  security : WireStruct 64 := wireZero 64
  securityLoaded : Bool := false
  version : UInt8 := 0
  minorVersion : UInt8 := 0
  loaded : Bool := false

inductive OdConfigApply where
  | stored | full | notBuilt | unknownId | shortBody
deriving DecidableEq

structure OdConfigReport where
  stored : UInt16 := 0
  droppedFull : UInt16 := 0
  droppedNotBuilt : UInt16 := 0
  unknownId : UInt8 := 0
  crcChecked : Bool := false
  crcStored : UInt16 := 0
  crcComputed : UInt16 := 0

def storeRepeatable {max elemSize : Nat} (slot : OdConfigArray max elemSize) (body : Bytes) :
    OdConfigApply × OdConfigArray max elemSize :=
  if body.length < elemSize then (.shortBody, slot)
  else if slot.count.toNat ≥ max then (.full, slot)
  else
    (.stored,
      { base := copyInto slot.base (slot.count.toNat * elemSize) (body.take elemSize), count := slot.count + 1 })

def storeSingle {dstSize : Nat} (dst : WireStruct dstSize) (body : Bytes) (loaded : Bool) :
    OdConfigApply × WireStruct dstSize × Bool :=
  if body.length < dstSize then (.shortBody, dst, loaded) else (.stored, copyInto dst 0 (body.take dstSize), true)

def odConfigReset (_ : OdConfig) : OdConfig := {}

/-- The fields of a security packet that the session reads. -/
def securityConfig (sec : WireStruct 64) : SecurityConfig where
  encryptionEnabled := sec[0]
  encryptionKey := Vector.ofFn fun i : Fin 16 => sec[1 + i.val]
  sessionTimeoutSeconds := readLe16 (sec.toList.drop 17)

def keySet (sec : WireStruct 64) : Bool := odConfigSecurityKeySet (securityConfig sec)

/-- The nine strings of `DataExtended`, by the offsets of their fields. -/
def dataExtendedStrings : List Nat := [0, 32, 64, 96, 128, 160, 192, 224, 256]

def dataExtendedTerminate (de : WireStruct 288) : WireStruct 288 :=
  dataExtendedStrings.foldl (fun de field => de.setIfInBounds (field + 31) 0) de

def odConfigApplyPacket (b : OdConfigBuild) (cfg : OdConfig) (packetId : UInt8) (body : Bytes) :
    OdConfigApply × OdConfig :=
  match packetId with
  | 0x01 =>
    let (r, dst, _) := storeSingle cfg.systemConfig body false
    (r, { cfg with systemConfig := dst })
  | 0x02 =>
    let (r, dst, _) := storeSingle cfg.manufacturerData body false
    (r, { cfg with manufacturerData := dst })
  | 0x04 =>
    let (r, dst, _) := storeSingle cfg.powerOption body false
    (r, { cfg with powerOption := dst })
  | 0x20 =>
    let (r, slot) := storeRepeatable cfg.displays body
    (r, { cfg with displays := slot })
  | 0x21 =>
    let (r, slot) := storeRepeatable cfg.leds body
    (r, { cfg with leds := slot })
  | 0x23 =>
    let (r, slot) := storeRepeatable cfg.sensors body
    (r, { cfg with sensors := slot })
  | 0x24 =>
    let (r, slot) := storeRepeatable cfg.dataBuses body
    (r, { cfg with dataBuses := slot })
  | 0x25 =>
    let (r, slot) := storeRepeatable cfg.binaryInputs body
    (r, { cfg with binaryInputs := slot })
  | 0x2b =>
    let (r, slot) := storeRepeatable cfg.flashConfigs body
    (r, { cfg with flashConfigs := slot })
  | 0x28 =>
    if b.withTouch then
      let (r, slot) := storeRepeatable cfg.touchControllers body
      (r, { cfg with touchControllers := slot })
    else (.notBuilt, cfg)
  | 0x29 =>
    if b.withBuzzer then
      let (r, slot) := storeRepeatable cfg.passiveBuzzers body
      (r, { cfg with passiveBuzzers := slot })
    else (.notBuilt, cfg)
  | 0x2a =>
    if b.withNfc then
      let (r, slot) := storeRepeatable cfg.nfcConfigs body
      (r, { cfg with nfcConfigs := slot })
    else (.notBuilt, cfg)
  | 0x2c =>
    if b.withDataExtended then
      let (r, dst, loaded) := storeSingle cfg.dataExtended body cfg.dataExtendedLoaded
      (r, { cfg with
        dataExtended := if r = .stored then dataExtendedTerminate dst else dst, dataExtendedLoaded := loaded })
    else (.notBuilt, cfg)
  | 0x26 =>
    if b.withWifi then
      let (r, dst, loaded) := storeSingle cfg.wifiConfig body cfg.wifiConfigLoaded
      (r, { cfg with wifiConfig := dst, wifiConfigLoaded := loaded })
    else (.notBuilt, cfg)
  | 0x27 =>
    let (r, dst, loaded) := storeSingle cfg.security body cfg.securityLoaded
    if r ≠ .stored then (r, { cfg with security := dst, securityLoaded := loaded })
    else
      -- an all-zero key is no key, so it does not get the encryption that the packet asks for
      let security := if keySet dst then dst else dst.set 0 0
      (.stored, { cfg with security := security, securityLoaded := loaded })
  | _ => (.unknownId, cfg)

def OdConfigReport.count (report : OdConfigReport) : OdConfigApply → OdConfigReport
  | .stored => { report with stored := report.stored + 1 }
  | .full => { report with droppedFull := report.droppedFull + 1 }
  | .notBuilt => { report with droppedNotBuilt := report.droppedNotBuilt + 1 }
  | .unknownId | .shortBody => report

def onPacket (b : OdConfigBuild) (ctx : OdConfig × OdConfigReport) (packetId : UInt8) (body : Bytes) :
    Bool × OdConfig × OdConfigReport :=
  let (r, cfg) := odConfigApplyPacket b ctx.1 packetId body
  (true, cfg, ctx.2.count r)

def odConfigParse (b : OdConfigBuild) (cfg : OdConfig) (blob : Bytes) : TlvResult × OdConfig × OdConfigReport :=
  let cfg := odConfigReset cfg
  let (walk, version, w) := odConfigTlvWalk blob (onPacket b) (cfg, {})
  let cfg := { w.ctx.1 with version := version.getD 0, minorVersion := 0 }
  let report := { w.ctx.2 with unknownId := w.unknownId }
  if walk ≠ .ok then (walk, cfg, report)
  else
    let report :=
      if blob.length ≥ odCfgTlvCrcLen then
        { report with
          crcChecked := true
          crcStored := readLe16 (blob.drop (blob.length - 2))
          crcComputed := odConfigTlvCrc16 (blob.take (blob.length - odCfgTlvCrcLen)) }
      else report
    (.ok, { cfg with loaded := true }, report)

end Model

section Kinds

/-- The kinds of packets that may come more than once. -/
inductive Repeatable where
  | displays | leds | sensors | dataBuses | binaryInputs | flashConfigs | touchControllers | passiveBuzzers | nfcConfigs
deriving DecidableEq

namespace Repeatable

def packetId : Repeatable → UInt8
  | displays => 0x20
  | leds => 0x21
  | sensors => 0x23
  | dataBuses => 0x24
  | binaryInputs => 0x25
  | flashConfigs => 0x2b
  | touchControllers => 0x28
  | passiveBuzzers => 0x29
  | nfcConfigs => 0x2a

def max : Repeatable → Nat
  | displays => odConfigMaxDisplays
  | leds => odConfigMaxLeds
  | sensors => odConfigMaxSensors
  | dataBuses => odConfigMaxDataBuses
  | binaryInputs => odConfigMaxBinaryInputs
  | flashConfigs => odConfigMaxFlash
  | touchControllers => odConfigMaxTouch
  | passiveBuzzers => odConfigMaxBuzzers
  | nfcConfigs => odConfigMaxNfc

def elemSize : Repeatable → Nat
  | displays => 46
  | leds => 22
  | sensors | dataBuses | binaryInputs => 30
  | flashConfigs | touchControllers | passiveBuzzers | nfcConfigs => 32

def built (b : OdConfigBuild) : Repeatable → Bool
  | touchControllers => b.withTouch
  | passiveBuzzers => b.withBuzzer
  | nfcConfigs => b.withNfc
  | _ => true

end Repeatable

def OdConfig.array (cfg : OdConfig) : (r : Repeatable) → OdConfigArray r.max r.elemSize
  | .displays => cfg.displays
  | .leds => cfg.leds
  | .sensors => cfg.sensors
  | .dataBuses => cfg.dataBuses
  | .binaryInputs => cfg.binaryInputs
  | .flashConfigs => cfg.flashConfigs
  | .touchControllers => cfg.touchControllers
  | .passiveBuzzers => cfg.passiveBuzzers
  | .nfcConfigs => cfg.nfcConfigs

/-- The kinds of packets of which the last one counts. -/
inductive Single where
  | systemConfig | manufacturerData | powerOption | dataExtended | wifiConfig | security
deriving DecidableEq

namespace Single

def packetId : Single → UInt8
  | systemConfig => 0x01
  | manufacturerData => 0x02
  | powerOption => 0x04
  | dataExtended => 0x2c
  | wifiConfig => 0x26
  | security => 0x27

def size : Single → Nat
  | systemConfig | manufacturerData => 22
  | powerOption => 30
  | dataExtended => 288
  | wifiConfig => 160
  | security => 64

def built (b : OdConfigBuild) : Single → Bool
  | dataExtended => b.withDataExtended
  | wifiConfig => b.withWifi
  | _ => true

/-- What becomes of a body when it is stored: strings are terminated, and encryption without a
key is switched off. -/
def normalise : (s : Single) → WireStruct s.size → WireStruct s.size
  | dataExtended, de => dataExtendedTerminate de
  | security, sec => if keySet sec then sec else sec.set 0 0
  | systemConfig, dst | manufacturerData, dst | powerOption, dst | wifiConfig, dst => dst

end Single

def OdConfig.single (cfg : OdConfig) : (s : Single) → WireStruct s.size
  | .systemConfig => cfg.systemConfig
  | .manufacturerData => cfg.manufacturerData
  | .powerOption => cfg.powerOption
  | .dataExtended => cfg.dataExtended
  | .wifiConfig => cfg.wifiConfig
  | .security => cfg.security

def Single.hasFlag : Single → Bool
  | dataExtended | wifiConfig | security => true
  | systemConfig | manufacturerData | powerOption => false

/-- The flag that says that a packet of the kind has come, where there is one. -/
def OdConfig.flag (cfg : OdConfig) : Single → Bool
  | .dataExtended => cfg.dataExtendedLoaded
  | .wifiConfig => cfg.wifiConfigLoaded
  | .security => cfg.securityLoaded
  | .systemConfig | .manufacturerData | .powerOption => false

instance : Fintype Repeatable where
  elems := {.displays, .leds, .sensors, .dataBuses, .binaryInputs, .flashConfigs, .touchControllers, .passiveBuzzers,
    .nfcConfigs}
  complete := by
    intro r
    cases r <;> decide

instance : Fintype Single where
  elems := {.systemConfig, .manufacturerData, .powerOption, .dataExtended, .wifiConfig, .security}
  complete := by
    intro s
    cases s <;> decide

/-- The bytes of a body in the memory of its struct. -/
def WireStruct.ofBody (size : Nat) (body : Bytes) : WireStruct size := copyInto (wireZero size) 0 body

/-- The first bodies, one behind the other, and how many there are. -/
def OdConfigArray.ofBodies (max elemSize : Nat) (bodies : List Bytes) : OdConfigArray max elemSize :=
  { base := copyInto (wireZero (max * elemSize)) 0 (bodies.take max).flatten
    count := UInt8.ofNat (min bodies.length max) }

/-- The bodies of the packets with this id, in their order. -/
def bodiesOf (packetId : UInt8) (packets : List (UInt8 × Bytes)) : List Bytes :=
  (packets.filter fun p => p.1 = packetId).map Prod.snd

end Kinds

section Store

variable {body : Bytes}

theorem OdConfigArray.ofBodies_count {max elemSize : Nat} (hmax : max < 256) (bodies : List Bytes) :
    (OdConfigArray.ofBodies max elemSize bodies).count.toNat = min bodies.length max := by
  simp only [OdConfigArray.ofBodies, UInt8.toNat_ofNat']
  omega

theorem storeRepeatable_ofBodies {max elemSize : Nat} (hmax : max < 256) {bodies : List Bytes}
    (hsized : ∀ x ∈ bodies, x.length = elemSize) (hbody : body.length = elemSize) :
    storeRepeatable (.ofBodies max elemSize bodies) body =
      (if bodies.length < max then .stored else .full, .ofBodies max elemSize (bodies ++ [body])) := by
  rw [storeRepeatable, if_neg (by omega), OdConfigArray.ofBodies_count hmax]
  by_cases hroom : bodies.length < max
  · have hmin : min bodies.length max = bodies.length := by omega
    have htake : bodies.take max = bodies := List.take_of_length_le hroom.le
    have htake' : (bodies ++ [body]).take max = bodies ++ [body] :=
      List.take_of_length_le (by simpa using Nat.succ_le_of_lt hroom)
    have hlen : bodies.length * elemSize = bodies.flatten.length := by
      rw [List.length_flatten, List.map_eq_replicate_iff.mpr hsized]
      simp
    rw [if_neg (by omega), if_pos hroom, hmin, List.take_of_length_le hbody.le]
    have hmin' : min (bodies ++ [body]).length max = bodies.length + 1 := by
      rw [List.length_append, List.length_singleton]
      omega
    simp only [OdConfigArray.ofBodies, htake, htake', hmin, hmin', hlen, copyInto_append, List.flatten_append,
      List.flatten_singleton, UInt8.ofNat_add]
    rfl
  · have hmin : min bodies.length max = max := by omega
    have hmin' : min (bodies ++ [body]).length max = max := by
      rw [List.length_append]
      omega
    rw [if_pos (by omega), if_neg hroom]
    simp only [OdConfigArray.ofBodies, hmin, hmin', List.take_append_of_le_length (Nat.not_lt.mp hroom)]

theorem storeSingle_sized {size : Nat} (dst : WireStruct size) (loaded : Bool) (hbody : body.length = size) :
    storeSingle dst body loaded = (.stored, .ofBody size body, true) := by
  rw [storeSingle, if_neg (by omega), List.take_of_length_le hbody.le, WireStruct.ofBody,
    copyInto_full dst (wireZero size) hbody.ge]

end Store

section Kinds

theorem Repeatable.max_lt (r : Repeatable) : r.max < 256 := by
  cases r <;> decide

theorem Repeatable.bodySize (r : Repeatable) : odConfigTlvBodySize r.packetId = r.elemSize := by
  cases r <;> rfl

theorem Repeatable.packetId_inj {r r' : Repeatable} (h : r.packetId = r'.packetId) : r = r' := by
  cases r <;> cases r' <;> first | rfl | exact absurd h (by decide)

theorem Single.bodySize (s : Single) : odConfigTlvBodySize s.packetId = s.size := by
  cases s <;> rfl

theorem Single.packetId_inj {s s' : Single} (h : s.packetId = s'.packetId) : s = s' := by
  cases s <;> cases s' <;> first | rfl | exact absurd h (by decide)

theorem Single.ne_repeatable (s : Single) (r : Repeatable) : s.packetId ≠ r.packetId := by
  cases s <;> cases r <;> decide

/-- The walk hands over packets of these kinds only. -/
theorem kind_of_bodySize {packetId : UInt8} (h : odConfigTlvBodySize packetId ≠ 0) :
    (∃ r : Repeatable, packetId = r.packetId) ∨ ∃ s : Single, packetId = s.packetId := by
  unfold odConfigTlvBodySize at h
  split at h
  · exact .inr ⟨.systemConfig, rfl⟩
  · exact .inr ⟨.manufacturerData, rfl⟩
  · exact .inr ⟨.powerOption, rfl⟩
  · exact .inl ⟨.displays, rfl⟩
  · exact .inl ⟨.leds, rfl⟩
  · exact .inl ⟨.sensors, rfl⟩
  · exact .inl ⟨.dataBuses, rfl⟩
  · exact .inl ⟨.binaryInputs, rfl⟩
  · exact .inr ⟨.wifiConfig, rfl⟩
  · exact .inr ⟨.security, rfl⟩
  · exact .inl ⟨.touchControllers, rfl⟩
  · exact .inl ⟨.passiveBuzzers, rfl⟩
  · exact .inl ⟨.nfcConfigs, rfl⟩
  · exact .inl ⟨.flashConfigs, rfl⟩
  · exact .inr ⟨.dataExtended, rfl⟩
  · exact absurd rfl h

variable {cfg : OdConfig}

def OdConfig.setArray (cfg : OdConfig) : (r : Repeatable) → OdConfigArray r.max r.elemSize → OdConfig
  | .displays, a => { cfg with displays := a }
  | .leds, a => { cfg with leds := a }
  | .sensors, a => { cfg with sensors := a }
  | .dataBuses, a => { cfg with dataBuses := a }
  | .binaryInputs, a => { cfg with binaryInputs := a }
  | .flashConfigs, a => { cfg with flashConfigs := a }
  | .touchControllers, a => { cfg with touchControllers := a }
  | .passiveBuzzers, a => { cfg with passiveBuzzers := a }
  | .nfcConfigs, a => { cfg with nfcConfigs := a }

def OdConfig.setSingle (cfg : OdConfig) : (s : Single) → WireStruct s.size → OdConfig
  | .systemConfig, v => { cfg with systemConfig := v }
  | .manufacturerData, v => { cfg with manufacturerData := v }
  | .powerOption, v => { cfg with powerOption := v }
  | .dataExtended, v => { cfg with dataExtended := v, dataExtendedLoaded := true }
  | .wifiConfig, v => { cfg with wifiConfig := v, wifiConfigLoaded := true }
  | .security, v => { cfg with security := v, securityLoaded := true }

theorem array_setArray (r : Repeatable) (a : OdConfigArray r.max r.elemSize) : (cfg.setArray r a).array r = a := by
  cases r <;> rfl

theorem array_setArray_ne {r r' : Repeatable} (a : OdConfigArray r.max r.elemSize) (h : r' ≠ r) :
    (cfg.setArray r a).array r' = cfg.array r' := by
  cases r <;> cases r' <;> first | rfl | exact absurd rfl h

theorem single_setArray (r : Repeatable) (a : OdConfigArray r.max r.elemSize) (s : Single) :
    (cfg.setArray r a).single s = cfg.single s ∧ (cfg.setArray r a).flag s = cfg.flag s := by
  cases r <;> cases s <;> exact ⟨rfl, rfl⟩

theorem loaded_setArray (r : Repeatable) (a : OdConfigArray r.max r.elemSize) :
    (cfg.setArray r a).loaded = cfg.loaded := by
  cases r <;> rfl

theorem loaded_setSingle (s : Single) (v : WireStruct s.size) : (cfg.setSingle s v).loaded = cfg.loaded := by
  cases s <;> rfl

theorem single_setSingle (s : Single) (v : WireStruct s.size) :
    (cfg.setSingle s v).single s = v ∧ (cfg.setSingle s v).flag s = s.hasFlag := by
  cases s <;> exact ⟨rfl, rfl⟩

theorem single_setSingle_ne {s s' : Single} (v : WireStruct s.size) (h : s' ≠ s) :
    (cfg.setSingle s v).single s' = cfg.single s' ∧ (cfg.setSingle s v).flag s' = cfg.flag s' := by
  cases s <;> cases s' <;> first | exact ⟨rfl, rfl⟩ | exact absurd rfl h

theorem array_setSingle (s : Single) (v : WireStruct s.size) (r : Repeatable) :
    (cfg.setSingle s v).array r = cfg.array r := by
  cases s <;> cases r <;> rfl

end Kinds

section Apply

variable {b : OdConfigBuild} {cfg : OdConfig} {body : Bytes}

theorem applyPacket_repeatable {r : Repeatable} (hb : r.built b = true) :
    odConfigApplyPacket b cfg r.packetId body =
      ((storeRepeatable (cfg.array r) body).1, cfg.setArray r (storeRepeatable (cfg.array r) body).2) := by
  cases r <;> first | rfl | exact if_pos hb

theorem applyPacket_unbuilt {r : Repeatable} (hb : r.built b = false) :
    odConfigApplyPacket b cfg r.packetId body = (.notBuilt, cfg) := by
  cases r with
  | touchControllers | passiveBuzzers | nfcConfigs => exact if_neg (ne_true_of_eq_false hb)
  | displays | leds | sensors | dataBuses | binaryInputs | flashConfigs => exact Bool.noConfusion hb

theorem applyPacket_single {s : Single} (hb : s.built b = true) (hbody : body.length = s.size) :
    odConfigApplyPacket b cfg s.packetId body = (.stored, cfg.setSingle s (s.normalise (.ofBody s.size body))) := by
  cases s with
  | systemConfig =>
    simp only [odConfigApplyPacket, Single.packetId, storeSingle_sized _ _ (show body.length = 22 from hbody)]
    rfl
  | manufacturerData =>
    simp only [odConfigApplyPacket, Single.packetId, storeSingle_sized _ _ (show body.length = 22 from hbody)]
    rfl
  | powerOption =>
    simp only [odConfigApplyPacket, Single.packetId, storeSingle_sized _ _ (show body.length = 30 from hbody)]
    rfl
  | dataExtended =>
    simp only [odConfigApplyPacket, Single.packetId, if_pos (show b.withDataExtended = true from hb),
      storeSingle_sized _ _ (show body.length = 288 from hbody)]
    rfl
  | wifiConfig =>
    simp only [odConfigApplyPacket, Single.packetId, if_pos (show b.withWifi = true from hb),
      storeSingle_sized _ _ (show body.length = 160 from hbody)]
    rfl
  | security =>
    simp only [odConfigApplyPacket, Single.packetId, storeSingle_sized _ _ (show body.length = 64 from hbody)]
    rfl

theorem applyPacket_single_unbuilt {s : Single} (hb : s.built b = false) :
    odConfigApplyPacket b cfg s.packetId body = (.notBuilt, cfg) := by
  cases s with
  | dataExtended | wifiConfig => exact if_neg (ne_true_of_eq_false hb)
  | systemConfig | manufacturerData | powerOption | security => exact Bool.noConfusion hb

end Apply

section Fill

variable {b : OdConfigBuild} {cfg : OdConfig} {report : OdConfigReport} {packets : List (UInt8 × Bytes)}

/-- What the struct of a kind holds when this was the last packet of the kind. -/
def Single.value (s : Single) : Option Bytes → WireStruct s.size
  | none => wireZero s.size
  | some body => s.normalise (.ofBody s.size body)

/-- The configuration holds what the packets say, in the parts that the build has. -/
structure Filled (b : OdConfigBuild) (packets : List (UInt8 × Bytes)) (cfg : OdConfig) : Prop where
  sized : ∀ p ∈ packets, p.2.length = odConfigTlvBodySize p.1
  loaded : cfg.loaded = false
  array : ∀ r : Repeatable, cfg.array r =
    if r.built b then .ofBodies r.max r.elemSize (bodiesOf r.packetId packets) else {}
  single : ∀ s : Single, cfg.single s =
    if s.built b then s.value (bodiesOf s.packetId packets).getLast? else wireZero s.size
  flag : ∀ s : Single, cfg.flag s = (s.built b && s.hasFlag && !(bodiesOf s.packetId packets).isEmpty)

/-- The packets whose body becomes part of the configuration: of a repeated kind as many as the array
has room for, of a single kind all, if the build has storage for the kind. -/
def packetsStored (b : OdConfigBuild) (packets : List (UInt8 × Bytes)) : Nat :=
  (∑ r : Repeatable, if r.built b then min (bodiesOf r.packetId packets).length r.max else 0) +
    ∑ s : Single, if s.built b then (bodiesOf s.packetId packets).length else 0

/-- The packets of a repeated kind that come after the array is full. -/
def packetsFull (b : OdConfigBuild) (packets : List (UInt8 × Bytes)) : Nat :=
  ∑ r : Repeatable, if r.built b then (bodiesOf r.packetId packets).length - r.max else 0

/-- The packets of the kinds that the build has no storage for. -/
def packetsNotBuilt (b : OdConfigBuild) (packets : List (UInt8 × Bytes)) : Nat :=
  (∑ r : Repeatable, if r.built b then 0 else (bodiesOf r.packetId packets).length) +
    ∑ s : Single, if s.built b then 0 else (bodiesOf s.packetId packets).length

/-- Each packet falls under one of the three, and each counter is the number of its packets. -/
structure PacketsCounted (b : OdConfigBuild) (packets : List (UInt8 × Bytes)) (report : OdConfigReport) : Prop where
  total : packetsStored b packets + packetsFull b packets + packetsNotBuilt b packets = packets.length
  stored : report.stored = UInt16.ofNat (packetsStored b packets)
  full : report.droppedFull = UInt16.ofNat (packetsFull b packets)
  notBuilt : report.droppedNotBuilt = UInt16.ofNat (packetsNotBuilt b packets)

theorem bodiesOf_append_self (packetId : UInt8) (body : Bytes) :
    bodiesOf packetId (packets ++ [(packetId, body)]) = bodiesOf packetId packets ++ [body] := by
  simp [bodiesOf]

theorem bodiesOf_append_ne {packetId packetId' : UInt8} (body : Bytes) (h : packetId' ≠ packetId) :
    bodiesOf packetId (packets ++ [(packetId', body)]) = bodiesOf packetId packets := by
  simp [bodiesOf, h]

theorem Filled.bodies (h : Filled b packets cfg) (packetId : UInt8) :
    ∀ body ∈ bodiesOf packetId packets, body.length = odConfigTlvBodySize packetId := by
  intro body hbody
  obtain ⟨p, hp, rfl⟩ := List.mem_map.mp hbody
  obtain ⟨hp, hid⟩ := List.mem_filter.mp hp
  rw [h.sized p hp, of_decide_eq_true hid]

theorem Filled.append_sized (h : Filled b packets cfg) {p : TlvPacket} (hp : p.Sized) :
    ∀ q ∈ packets ++ [p.given], q.2.length = odConfigTlvBodySize q.1 := by
  intro q hq
  rcases List.mem_append.mp hq with hq | hq
  · exact h.sized q hq
  · rw [List.mem_singleton.mp hq]
    exact hp.2

theorem Filled.start : Filled b [] {} := by
  refine ⟨fun p hp => absurd hp List.not_mem_nil, rfl, fun r => ?_, fun s => ?_, fun s => ?_⟩
  · have hempty : OdConfigArray.ofBodies r.max r.elemSize [] = {} := by
      have hbase : copyInto (wireZero (r.max * r.elemSize)) 0 [] = wireZero (r.max * r.elemSize) := by
        ext i hi
        simp [copyInto_get]
      simp only [OdConfigArray.ofBodies, List.take_nil, List.flatten_nil, hbase, List.length_nil, Nat.zero_min]
      rfl
    show OdConfig.array {} r = if r.built b then OdConfigArray.ofBodies r.max r.elemSize [] else {}
    rw [hempty, ite_self]
    cases r <;> rfl
  · show OdConfig.single {} s = if s.built b then wireZero s.size else wireZero s.size
    rw [ite_self]
    cases s <;> rfl
  · show OdConfig.flag {} s = (s.built b && s.hasFlag && false)
    rw [Bool.and_false]
    cases s <;> rfl

/-- A packet that no struct of the build takes changes nothing. -/
theorem Filled.skip (h : Filled b packets cfg) {p : TlvPacket} (hp : p.Sized)
    (harray : ∀ r : Repeatable, r.packetId = p.id → r.built b = false)
    (hsingle : ∀ s : Single, s.packetId = p.id → s.built b = false) : Filled b (packets ++ [p.given]) cfg := by
  refine ⟨h.append_sized hp, h.loaded, fun r => ?_, fun s => ?_, fun s => ?_⟩
  · by_cases hid : p.id = r.packetId
    · rw [h.array r, harray r hid.symm]
      rfl
    · rw [h.array r, TlvPacket.given, bodiesOf_append_ne _ hid]
  · by_cases hid : p.id = s.packetId
    · rw [h.single s, hsingle s hid.symm]
      rfl
    · rw [h.single s, TlvPacket.given, bodiesOf_append_ne _ hid]
  · by_cases hid : p.id = s.packetId
    · rw [h.flag s, hsingle s hid.symm]
      rfl
    · rw [h.flag s, TlvPacket.given, bodiesOf_append_ne _ hid]

theorem Filled.repeatable (h : Filled b packets cfg) {p : TlvPacket} (hp : p.Sized) {r : Repeatable}
    (hid : p.id = r.packetId) (hb : r.built b = true) :
    Filled b (packets ++ [p.given])
      (cfg.setArray r (.ofBodies r.max r.elemSize (bodiesOf r.packetId packets ++ [p.body]))) := by
  refine ⟨h.append_sized hp, (loaded_setArray r _).trans h.loaded, fun r' => ?_, fun s => ?_, fun s => ?_⟩
  · by_cases hr : r' = r
    · subst hr
      rw [array_setArray, if_pos hb, TlvPacket.given, hid, bodiesOf_append_self]
    · have hne : p.id ≠ r'.packetId := by
        rw [hid]
        exact fun heq => hr (Repeatable.packetId_inj heq).symm
      rw [array_setArray_ne _ hr, h.array r', TlvPacket.given, bodiesOf_append_ne _ hne]
  · have hne : p.id ≠ s.packetId := hid ▸ (Single.ne_repeatable s r).symm
    rw [(single_setArray r _ s).1, h.single s, TlvPacket.given, bodiesOf_append_ne _ hne]
  · have hne : p.id ≠ s.packetId := hid ▸ (Single.ne_repeatable s r).symm
    rw [(single_setArray r _ s).2, h.flag s, TlvPacket.given, bodiesOf_append_ne _ hne]

theorem Filled.setSingle (h : Filled b packets cfg) {p : TlvPacket} (hp : p.Sized) {s : Single}
    (hid : p.id = s.packetId) (hb : s.built b = true) :
    Filled b (packets ++ [p.given]) (cfg.setSingle s (s.normalise (.ofBody s.size p.body))) := by
  refine ⟨h.append_sized hp, (loaded_setSingle s _).trans h.loaded, fun r => ?_, fun s' => ?_, fun s' => ?_⟩
  · have hne : p.id ≠ r.packetId := hid ▸ Single.ne_repeatable s r
    rw [array_setSingle, h.array r, TlvPacket.given, bodiesOf_append_ne _ hne]
  · by_cases hs : s' = s
    · subst hs
      rw [(single_setSingle s' _).1, if_pos hb, TlvPacket.given, hid, bodiesOf_append_self, List.getLast?_append,
        List.getLast?_singleton]
      rfl
    · have hne : p.id ≠ s'.packetId := by
        rw [hid]
        exact fun heq => hs (Single.packetId_inj heq).symm
      rw [(single_setSingle_ne _ hs).1, h.single s', TlvPacket.given, bodiesOf_append_ne _ hne]
  · by_cases hs : s' = s
    · subst hs
      rw [(single_setSingle s' _).2, hb, TlvPacket.given, hid, bodiesOf_append_self]
      simp
    · have hne : p.id ≠ s'.packetId := by
        rw [hid]
        exact fun heq => hs (Single.packetId_inj heq).symm
      rw [(single_setSingle_ne _ hs).2, h.flag s', TlvPacket.given, bodiesOf_append_ne _ hne]

section Count

variable {body : Bytes}

theorem Repeatable.sum_append (f : Repeatable → Nat → Nat) (r : Repeatable) {k : Nat}
    (hf : f r ((bodiesOf r.packetId packets).length + 1) = f r (bodiesOf r.packetId packets).length + k) :
    ∑ r', f r' (bodiesOf r'.packetId (packets ++ [(r.packetId, body)])).length =
      ∑ r', f r' (bodiesOf r'.packetId packets).length + k := by
  have hrest : ∑ r' ∈ Finset.univ.erase r, f r' (bodiesOf r'.packetId (packets ++ [(r.packetId, body)])).length =
      ∑ r' ∈ Finset.univ.erase r, f r' (bodiesOf r'.packetId packets).length := by
    refine Finset.sum_congr rfl fun r' hr' => ?_
    rw [bodiesOf_append_ne body fun heq => Finset.ne_of_mem_erase hr' (Repeatable.packetId_inj heq).symm]
  rw [← Finset.add_sum_erase _ _ (Finset.mem_univ r), hrest, bodiesOf_append_self, List.length_append,
    List.length_singleton, hf, ← Finset.add_sum_erase _ _ (Finset.mem_univ r)]
  omega

theorem Single.sum_append (f : Single → Nat → Nat) (s : Single) {k : Nat}
    (hf : f s ((bodiesOf s.packetId packets).length + 1) = f s (bodiesOf s.packetId packets).length + k) :
    ∑ s', f s' (bodiesOf s'.packetId (packets ++ [(s.packetId, body)])).length =
      ∑ s', f s' (bodiesOf s'.packetId packets).length + k := by
  have hrest : ∑ s' ∈ Finset.univ.erase s, f s' (bodiesOf s'.packetId (packets ++ [(s.packetId, body)])).length =
      ∑ s' ∈ Finset.univ.erase s, f s' (bodiesOf s'.packetId packets).length := by
    refine Finset.sum_congr rfl fun s' hs' => ?_
    rw [bodiesOf_append_ne body fun heq => Finset.ne_of_mem_erase hs' (Single.packetId_inj heq).symm]
  rw [← Finset.add_sum_erase _ _ (Finset.mem_univ s), hrest, bodiesOf_append_self, List.length_append,
    List.length_singleton, hf, ← Finset.add_sum_erase _ _ (Finset.mem_univ s)]
  omega

theorem Repeatable.sum_append_single (f : Repeatable → Nat → Nat) (s : Single) :
    ∑ r, f r (bodiesOf r.packetId (packets ++ [(s.packetId, body)])).length =
      ∑ r, f r (bodiesOf r.packetId packets).length :=
  Finset.sum_congr rfl fun r _ => by rw [bodiesOf_append_ne body (s.ne_repeatable r)]

theorem Single.sum_append_repeatable (f : Single → Nat → Nat) (r : Repeatable) :
    ∑ s, f s (bodiesOf s.packetId (packets ++ [(r.packetId, body)])).length =
      ∑ s, f s (bodiesOf s.packetId packets).length :=
  Finset.sum_congr rfl fun s _ => by rw [bodiesOf_append_ne body (s.ne_repeatable r).symm]

/-- What the next packet adds to each of the three numbers. -/
structure CountsPacket (b : OdConfigBuild) (packets : List (UInt8 × Bytes)) (p : UInt8 × Bytes)
    (stored full notBuilt : Nat) : Prop where
  stored : packetsStored b (packets ++ [p]) = packetsStored b packets + stored
  full : packetsFull b (packets ++ [p]) = packetsFull b packets + full
  notBuilt : packetsNotBuilt b (packets ++ [p]) = packetsNotBuilt b packets + notBuilt

theorem CountsPacket.repeatable {r : Repeatable} (stored full notBuilt : Nat)
    (hstored : (if r.built b then min ((bodiesOf r.packetId packets).length + 1) r.max else 0) =
      (if r.built b then min (bodiesOf r.packetId packets).length r.max else 0) + stored)
    (hfull : (if r.built b then (bodiesOf r.packetId packets).length + 1 - r.max else 0) =
      (if r.built b then (bodiesOf r.packetId packets).length - r.max else 0) + full)
    (hnot : (if r.built b then 0 else (bodiesOf r.packetId packets).length + 1) =
      (if r.built b then 0 else (bodiesOf r.packetId packets).length) + notBuilt) :
    CountsPacket b packets (r.packetId, body) stored full notBuilt := by
  refine ⟨?_, Repeatable.sum_append (fun r n => if r.built b then n - r.max else 0) r hfull, ?_⟩
  · rw [packetsStored, Repeatable.sum_append (fun r n => if r.built b then min n r.max else 0) r hstored,
      Single.sum_append_repeatable (fun s n => if s.built b then n else 0), packetsStored]
    omega
  · rw [packetsNotBuilt, Repeatable.sum_append (fun r n => if r.built b then 0 else n) r hnot,
      Single.sum_append_repeatable (fun s n => if s.built b then 0 else n), packetsNotBuilt]
    omega

theorem CountsPacket.room {r : Repeatable} (hb : r.built b = true)
    (hroom : (bodiesOf r.packetId packets).length < r.max) :
    CountsPacket b packets (r.packetId, body) 1 0 0 := by
  refine CountsPacket.repeatable 1 0 0 ?_ ?_ ?_
  all_goals simp only [hb, if_true]
  all_goals omega

theorem CountsPacket.noRoom {r : Repeatable} (hb : r.built b = true)
    (hroom : ¬(bodiesOf r.packetId packets).length < r.max) :
    CountsPacket b packets (r.packetId, body) 0 1 0 := by
  refine CountsPacket.repeatable 0 1 0 ?_ ?_ ?_
  all_goals simp only [hb, if_true]
  all_goals omega

theorem CountsPacket.unbuilt {r : Repeatable} (hb : r.built b = false) :
    CountsPacket b packets (r.packetId, body) 0 0 1 := by
  refine CountsPacket.repeatable 0 0 1 ?_ ?_ ?_
  all_goals simp [hb]

theorem CountsPacket.single {s : Single} (hb : s.built b = true) :
    CountsPacket b packets (s.packetId, body) 1 0 0 := by
  refine ⟨?_, Repeatable.sum_append_single (fun r n => if r.built b then n - r.max else 0) s, ?_⟩
  · rw [packetsStored, Repeatable.sum_append_single (fun r n => if r.built b then min n r.max else 0),
      Single.sum_append (fun s n => if s.built b then n else 0) s (k := 1) (by simp [hb]), packetsStored]
    omega
  · rw [packetsNotBuilt, Repeatable.sum_append_single (fun r n => if r.built b then 0 else n),
      Single.sum_append (fun s n => if s.built b then 0 else n) s (k := 0) (by simp [hb]), packetsNotBuilt]
    rfl

theorem CountsPacket.single_unbuilt {s : Single} (hb : s.built b = false) :
    CountsPacket b packets (s.packetId, body) 0 0 1 := by
  refine ⟨?_, Repeatable.sum_append_single (fun r n => if r.built b then n - r.max else 0) s, ?_⟩
  · rw [packetsStored, Repeatable.sum_append_single (fun r n => if r.built b then min n r.max else 0),
      Single.sum_append (fun s n => if s.built b then n else 0) s (k := 0) (by simp [hb]), packetsStored]
    rfl
  · rw [packetsNotBuilt, Repeatable.sum_append_single (fun r n => if r.built b then 0 else n),
      Single.sum_append (fun s n => if s.built b then 0 else n) s (k := 1) (by simp [hb]), packetsNotBuilt]
    omega

theorem PacketsCounted.start (b : OdConfigBuild) : PacketsCounted b [] {} := by
  have hstored : packetsStored b [] = 0 := by simp [packetsStored, bodiesOf]
  have hfull : packetsFull b [] = 0 := by simp [packetsFull, bodiesOf]
  have hnot : packetsNotBuilt b [] = 0 := by simp [packetsNotBuilt, bodiesOf]
  exact ⟨by rw [hstored, hfull, hnot]; rfl, by rw [hstored]; rfl, by rw [hfull]; rfl, by rw [hnot]; rfl⟩

variable {p : UInt8 × Bytes}

theorem PacketsCounted.countStored (h : PacketsCounted b packets report) (hp : CountsPacket b packets p 1 0 0) :
    PacketsCounted b (packets ++ [p]) (report.count .stored) := by
  have htotal := h.total
  refine ⟨?_, ?_, h.full.trans (congrArg _ hp.full.symm), h.notBuilt.trans (congrArg _ hp.notBuilt.symm)⟩
  · rw [hp.stored, hp.full, hp.notBuilt, List.length_append, List.length_singleton]
    omega
  · rw [hp.stored, UInt16.ofNat_add, ← h.stored]
    rfl

theorem PacketsCounted.countFull (h : PacketsCounted b packets report) (hp : CountsPacket b packets p 0 1 0) :
    PacketsCounted b (packets ++ [p]) (report.count .full) := by
  have htotal := h.total
  refine ⟨?_, h.stored.trans (congrArg _ hp.stored.symm), ?_, h.notBuilt.trans (congrArg _ hp.notBuilt.symm)⟩
  · rw [hp.stored, hp.full, hp.notBuilt, List.length_append, List.length_singleton]
    omega
  · rw [hp.full, UInt16.ofNat_add, ← h.full]
    rfl

theorem PacketsCounted.countNotBuilt (h : PacketsCounted b packets report) (hp : CountsPacket b packets p 0 0 1) :
    PacketsCounted b (packets ++ [p]) (report.count .notBuilt) := by
  have htotal := h.total
  refine ⟨?_, h.stored.trans (congrArg _ hp.stored.symm), h.full.trans (congrArg _ hp.full.symm), ?_⟩
  · rw [hp.stored, hp.full, hp.notBuilt, List.length_append, List.length_singleton]
    omega
  · rw [hp.notBuilt, UInt16.ofNat_add, ← h.notBuilt]
    rfl

end Count

theorem onPacket_step (hf : Filled b packets cfg) (ht : PacketsCounted b packets report) {p : TlvPacket}
    (hp : p.Sized) :
    ∃ cfg' report', onPacket b (cfg, report) p.id p.body = (true, cfg', report') ∧
      Filled b (packets ++ [p.given]) cfg' ∧ PacketsCounted b (packets ++ [p.given]) report' := by
  suffices happly : ∃ r cfg', odConfigApplyPacket b cfg p.id p.body = (r, cfg') ∧
      PacketsCounted b (packets ++ [p.given]) (report.count r) ∧ Filled b (packets ++ [p.given]) cfg' by
    obtain ⟨r, cfg', happly, ht', hf'⟩ := happly
    refine ⟨cfg', report.count r, ?_, hf', ht'⟩
    rw [onPacket, happly]
  rcases kind_of_bodySize hp.1 with ⟨r, hid⟩ | ⟨s, hid⟩
  · have hbody : p.body.length = r.elemSize := by rw [hp.2, hid, r.bodySize]
    have hgiven : p.given = (r.packetId, p.body) := by rw [TlvPacket.given, hid]
    cases hb : r.built b with
    | true =>
      have hsized : ∀ x ∈ bodiesOf r.packetId packets, x.length = r.elemSize := by
        rw [← r.bodySize]
        exact hf.bodies r.packetId
      have hstore := storeRepeatable_ofBodies r.max_lt hsized hbody
      have harray := hf.array r
      rw [hb, if_pos rfl] at harray
      refine ⟨_, _, by rw [hid, applyPacket_repeatable hb, harray, hstore], ?_, hf.repeatable hp hid hb⟩
      by_cases hroom : (bodiesOf r.packetId packets).length < r.max
      · rw [if_pos hroom, hgiven]
        exact ht.countStored (.room hb hroom)
      · rw [if_neg hroom, hgiven]
        exact ht.countFull (.noRoom hb hroom)
    | false =>
      refine ⟨_, _, by rw [hid, applyPacket_unbuilt hb], ?_, hf.skip hp (fun r' hr' => ?_) (fun s hs => ?_)⟩
      · rw [hgiven]
        exact ht.countNotBuilt (.unbuilt hb)
      · rw [Repeatable.packetId_inj (hr'.trans hid)]
        exact hb
      · exact absurd (hs.trans hid) (Single.ne_repeatable s r)
  · have hbody : p.body.length = s.size := by rw [hp.2, hid, s.bodySize]
    have hgiven : p.given = (s.packetId, p.body) := by rw [TlvPacket.given, hid]
    cases hb : s.built b with
    | true =>
      refine ⟨_, _, by rw [hid, applyPacket_single hb hbody], ?_, hf.setSingle hp hid hb⟩
      rw [hgiven]
      exact ht.countStored (.single hb)
    | false =>
      refine ⟨_, _, by rw [hid, applyPacket_single_unbuilt hb], ?_, hf.skip hp (fun r hr => ?_) (fun s' hs' => ?_)⟩
      · rw [hgiven]
        exact ht.countNotBuilt (.single_unbuilt hb)
      · exact absurd (hid.symm.trans hr.symm) (Single.ne_repeatable s r)
      · rw [Single.packetId_inj (hs'.trans hid)]
        exact hb

theorem takes_filled {ps : List TlvPacket} {ctx' : OdConfig × OdConfigReport} (hsized : ∀ p ∈ ps, p.Sized)
    (hf : Filled b packets cfg) (ht : PacketsCounted b packets report) (h : Takes (onPacket b) (cfg, report) ps ctx') :
    Filled b (packets ++ ps.map TlvPacket.given) ctx'.1 ∧
      PacketsCounted b (packets ++ ps.map TlvPacket.given) ctx'.2 := by
  induction ps generalizing packets cfg report with
  | nil =>
    cases h
    rw [List.map_nil, List.append_nil]
    exact ⟨hf, ht⟩
  | cons p ps ih =>
    cases h with
    | cons hfn htakes =>
      obtain ⟨cfg₁, report₁, hstep, hf₁, ht₁⟩ := onPacket_step hf ht (hsized p List.mem_cons_self)
      obtain rfl := (Prod.mk.inj (hstep.symm.trans hfn)).2
      have hrest := ih (fun q hq => hsized q (List.mem_cons_of_mem p hq)) hf₁ ht₁ htakes
      rwa [List.append_assoc, List.singleton_append] at hrest

end Fill

section Parse

variable {b : OdConfigBuild}

theorem dataExtendedTerminate_get (de : WireStruct 288) {i : Nat} (hi : i < 288) :
    (dataExtendedTerminate de)[i] = if i % 32 = 31 then 0 else de[i] := by
  have hfold : ∀ (fields : List Nat) (de : WireStruct 288),
      (fields.foldl (fun de field => de.setIfInBounds (field + 31) 0) de)[i] =
        if ∃ field ∈ fields, field + 31 = i then 0 else de[i] := by
    intro fields
    induction fields with
    | nil => simp
    | cons field fields ih =>
      intro de
      rw [List.foldl_cons, ih, Vector.getElem_setIfInBounds]
      by_cases hfield : field + 31 = i
      · simp [hfield]
      · simp [hfield]
  have hmem : (∃ field ∈ dataExtendedStrings, field + 31 = i) ↔ i % 32 = 31 := by
    simp only [dataExtendedStrings, List.mem_cons, List.not_mem_nil, or_false, exists_eq_or_imp, exists_eq_left]
    omega
  rw [dataExtendedTerminate, hfold]
  simp only [hmem]

theorem strings_terminated {de : WireStruct 288} {last : Option Bytes} (hde : de = Single.dataExtended.value last)
    {i : Nat} (hi : i < 288) (hmod : i % 32 = 31) : de[i] = 0 := by
  cases last with
  | none =>
    have hzero : de = wireZero 288 := hde
    rw [hzero]
    exact Vector.getElem_replicate hi
  | some body =>
    have hde : de = dataExtendedTerminate (.ofBody 288 body) := hde
    rw [hde, dataExtendedTerminate_get _ hi, if_pos hmod]

theorem security_key_set {sec : WireStruct 64} {last : Option Bytes} (hsec : sec = Single.security.value last)
    (henc : (securityConfig sec).encryptionEnabled ≠ 0) : keySet sec = true := by
  have henc : sec[0] ≠ 0 := henc
  cases last with
  | none =>
    have hzero : sec = wireZero 64 := hsec
    rw [hzero] at henc
    exact absurd (Vector.getElem_replicate (by decide)) henc
  | some body =>
    have hsec : sec = if keySet (.ofBody 64 body) then WireStruct.ofBody 64 body
        else (WireStruct.ofBody 64 body).set 0 0 := hsec
    by_cases hkey : keySet (.ofBody 64 body) = true
    · rwa [hsec, if_pos hkey]
    · rw [hsec, if_neg hkey] at henc
      exact absurd (Vector.getElem_set_self (by decide)) henc

theorem odConfigTlvWalk_filled (blob : Bytes) :
    Filled b (odConfigTlvWalk blob (onPacket b) ({}, {})).2.2.packets
      (odConfigTlvWalk blob (onPacket b) ({}, {})).2.2.ctx.1 ∧
      PacketsCounted b (odConfigTlvWalk blob (onPacket b) ({}, {})).2.2.packets
        (odConfigTlvWalk blob (onPacket b) ({}, {})).2.2.ctx.2 := by
  by_cases hlen : blob.length < odCfgTlvHeaderLen + odCfgTlvCrcLen
  · rw [odConfigTlvWalk_short hlen]
    exact ⟨Filled.start, PacketsCounted.start b⟩
  obtain ⟨result, unknownId, given, ctx', ps, tail, mid, last, hparse⟩ :=
    exists_parse (onPacket b) ({}, {}) (tlvRegion blob)
  obtain ⟨-, -, hpackets, hctx⟩ := odConfigTlvWalk_parse (Nat.not_lt.mp hlen) hparse
  obtain ⟨-, hsized, htakes, hends, rfl⟩ := hparse
  -- the callback accepts every packet
  have hlast : last = [] ∧ ctx' = mid := by
    cases hends with
    | exhausted | unknown | truncated => exact ⟨rfl, rfl⟩
    | refused _ hfn => exact absurd (Prod.mk.inj hfn).1 Bool.noConfusion
  obtain ⟨rfl, rfl⟩ := hlast
  rw [hpackets, hctx, List.append_nil]
  exact takes_filled hsized Filled.start (PacketsCounted.start b) htakes

theorem odConfigParse_walk (b : OdConfigBuild) (cfg : OdConfig) (blob : Bytes) :
    (odConfigParse b cfg blob).1 = (odConfigTlvWalk blob (onPacket b) ({}, {})).1 ∧
      (∀ r, (odConfigParse b cfg blob).2.1.array r = (odConfigTlvWalk blob (onPacket b) ({}, {})).2.2.ctx.1.array r) ∧
      (∀ s, (odConfigParse b cfg blob).2.1.single s = (odConfigTlvWalk blob (onPacket b) ({}, {})).2.2.ctx.1.single s ∧
        (odConfigParse b cfg blob).2.1.flag s = (odConfigTlvWalk blob (onPacket b) ({}, {})).2.2.ctx.1.flag s) ∧
      ((odConfigParse b cfg blob).2.1.loaded = true ↔ (odConfigTlvWalk blob (onPacket b) ({}, {})).1 = .ok) ∧
      (odConfigParse b cfg blob).2.2.stored = (odConfigTlvWalk blob (onPacket b) ({}, {})).2.2.ctx.2.stored ∧
      (odConfigParse b cfg blob).2.2.droppedFull = (odConfigTlvWalk blob (onPacket b) ({}, {})).2.2.ctx.2.droppedFull ∧
      (odConfigParse b cfg blob).2.2.droppedNotBuilt =
        (odConfigTlvWalk blob (onPacket b) ({}, {})).2.2.ctx.2.droppedNotBuilt := by
  have hloaded : (odConfigTlvWalk blob (onPacket b) ({}, {})).2.2.ctx.1.loaded = false :=
    (odConfigTlvWalk_filled blob).1.loaded
  rw [odConfigParse, odConfigReset]
  generalize odConfigTlvWalk blob (onPacket b) ({}, {}) = walk at hloaded ⊢
  obtain ⟨result, version, w⟩ := walk
  dsimp only
  split_ifs with hok hlen
  · exact ⟨rfl, fun r => by cases r <;> rfl, fun s => by cases s <;> exact ⟨rfl, rfl⟩,
      ⟨fun h => by rw [hloaded] at h; exact Bool.noConfusion h, fun h => absurd h hok⟩, rfl, rfl, rfl⟩
  · exact ⟨(not_not.mp hok).symm, fun r => by cases r <;> rfl, fun s => by cases s <;> exact ⟨rfl, rfl⟩,
      ⟨fun _ => not_not.mp hok, fun _ => rfl⟩, rfl, rfl, rfl⟩
  · exact ⟨(not_not.mp hok).symm, fun r => by cases r <;> rfl, fun s => by cases s <;> exact ⟨rfl, rfl⟩,
      ⟨fun _ => not_not.mp hok, fun _ => rfl⟩, rfl, rfl, rfl⟩

/-- The configuration after a parse is what the packets of the walk say and nothing else: of a
repeated kind the first bodies that fit and their number, of a single kind the last body, with
strings terminated and without encryption if the key is zero, and nothing of a kind that the
build has no storage for. -/
theorem odConfigParse_packets (b : OdConfigBuild) (cfg : OdConfig) (blob : Bytes) :
    let walk := odConfigTlvWalk blob (onPacket b) (odConfigReset cfg, {})
    let packets := walk.2.2.packets
    let out := (odConfigParse b cfg blob).2.1
    let report := (odConfigParse b cfg blob).2.2
    (odConfigParse b cfg blob).1 = walk.1 ∧
      (∀ r : Repeatable, out.array r =
        if r.built b then .ofBodies r.max r.elemSize (bodiesOf r.packetId packets) else {}) ∧
      (∀ r : Repeatable, r.built b = true →
        (out.array r).count.toNat = min (bodiesOf r.packetId packets).length r.max) ∧
      (∀ s : Single, out.single s =
        if s.built b then s.value (bodiesOf s.packetId packets).getLast? else wireZero s.size) ∧
      (∀ s : Single, out.flag s = (s.built b && s.hasFlag && !(bodiesOf s.packetId packets).isEmpty)) ∧
      (∀ i (hi : i < 288), i % 32 = 31 → out.dataExtended[i] = 0) ∧
      (out.loaded = true ↔ walk.1 = .ok) ∧
      (∀ cfg', odConfigParse b cfg' blob = odConfigParse b cfg blob) ∧
      ((securityConfig out.security).encryptionEnabled ≠ 0 →
        odConfigSecurityKeySet (securityConfig out.security) = true) ∧
      PacketsCounted b packets report ∧
      (packets.length < 2 ^ 16 →
        report.stored.toNat + report.droppedFull.toNat + report.droppedNotBuilt.toNat = packets.length) := by
  intro walk packets out report
  have hwalk : Filled b packets walk.2.2.ctx.1 ∧ PacketsCounted b packets walk.2.2.ctx.2 := odConfigTlvWalk_filled blob
  obtain ⟨hfilled, hcounted⟩ := hwalk
  obtain ⟨hresult, harray, hsingle, hloaded, hstored, hfull, hnot⟩ := odConfigParse_walk b cfg blob
  have harray' := fun r => (harray r).trans (hfilled.array r)
  have hsingle' := fun s => (hsingle s).1.trans (hfilled.single s)
  have hflag' := fun s => (hsingle s).2.trans (hfilled.flag s)
  have hcounted' : PacketsCounted b packets report :=
    ⟨hcounted.total, hstored.trans hcounted.stored, hfull.trans hcounted.full, hnot.trans hcounted.notBuilt⟩
  refine ⟨hresult, harray', fun r hb => ?_, hsingle', hflag', fun i hi hmod => ?_, hloaded, fun _ => rfl,
    fun henc => ?_, hcounted', fun hlen => ?_⟩
  · rw [show out.array r = _ from harray' r, if_pos hb, OdConfigArray.ofBodies_count r.max_lt]
  · by_cases hb : Single.dataExtended.built b = true
    · exact strings_terminated ((hsingle' .dataExtended).trans (if_pos hb)) hi hmod
    · have hde : out.dataExtended = wireZero 288 := (hsingle' .dataExtended).trans (if_neg hb)
      rw [hde]
      exact Vector.getElem_replicate hi
  · have hsec : out.security = Single.security.value (bodiesOf Single.security.packetId packets).getLast? :=
      hsingle' .security
    exact security_key_set hsec henc
  · have htotal := hcounted'.total
    rw [hcounted'.stored, hcounted'.full, hcounted'.notBuilt, UInt16.toNat_ofNat', UInt16.toNat_ofNat',
      UInt16.toNat_ofNat']
    omega

theorem onPacket_single {s : Single} {cfg : OdConfig} {report : OdConfigReport} {body : Bytes} (hb : s.built b = true)
    (hbody : body.length = s.size) :
    onPacket b (cfg, report) s.packetId body =
      (true, cfg.setSingle s (s.normalise (.ofBody s.size body)), report.count .stored) := by
  rw [onPacket, applyPacket_single hb hbody]

theorem onPacket_single_many {s : Single} (body : Bytes) (hb : s.built b = true)
    (hbody : body.length = s.size) (n : Nat) (cfg : OdConfig) (report : OdConfigReport) :
    ∃ cfg' report', Takes (onPacket b) (cfg, report) (List.replicate n ⟨0, s.packetId, body⟩) (cfg', report') ∧
      report'.stored = report.stored + UInt16.ofNat n ∧ report'.droppedFull = report.droppedFull ∧
      report'.droppedNotBuilt = report.droppedNotBuilt := by
  induction n generalizing cfg report with
  | zero => exact ⟨cfg, report, .nil, (UInt16.add_zero report.stored).symm, rfl, rfl⟩
  | succ n ih =>
    obtain ⟨cfg', report', htakes, hstored, hfull, hnot⟩ :=
      ih (cfg.setSingle s (s.normalise (.ofBody s.size body))) (report.count .stored)
    refine ⟨cfg', report', .cons (onPacket_single hb hbody) htakes, ?_, hfull, hnot⟩
    rw [hstored, UInt16.ofNat_add, UInt16.add_comm (UInt16.ofNat n), ← UInt16.add_assoc]
    rfl

theorem odConfigParse_system_many (cfg : OdConfig) (n : Nat) :
    let blob := [0, 0, 1] ++ tlvBytes (List.replicate n ⟨0, 0x01, List.replicate 22 0⟩) ++ [0, 0]
    (odConfigTlvWalk blob (onPacket {}) (odConfigReset cfg, {})).2.2.packets.length = n ∧
      (odConfigParse {} cfg blob).2.2.stored = UInt16.ofNat n ∧ (odConfigParse {} cfg blob).2.2.droppedFull = 0 ∧
      (odConfigParse {} cfg blob).2.2.droppedNotBuilt = 0 := by
  obtain ⟨cfg', report', htakes, hs, hf, hn⟩ :=
    onPacket_single_many (b := {}) (s := .systemConfig) (List.replicate 22 0) rfl rfl n {} {}
  have hsized : ∀ p ∈ List.replicate n (TlvPacket.mk 0 0x01 (List.replicate 22 0)), p.Sized := by
    intro p hp
    rw [(List.mem_replicate.mp hp).2]
    exact ⟨by decide, rfl⟩
  obtain ⟨-, -, hpackets, hctx⟩ := odConfigTlvWalk_encoded [0, 0, 1] [0, 0] rfl rfl hsized htakes
  intro blob
  obtain ⟨-, -, -, -, hstored, hfull, hnot⟩ := odConfigParse_walk {} cfg blob
  rw [hstored, hfull, hnot, odConfigReset, hpackets, hctx]
  exact ⟨by rw [List.length_map, List.length_replicate], hs.trans (UInt16.zero_add _), hf, hn⟩

/-- A packet of a key of zeros asks for encryption and does not get it, and the counters of the
report have sixteen bits. -/
theorem odConfigParse_not_packets :
    (let blob := [0, 0, 1] ++ tlvBytes [⟨0, 0x27, 1 :: List.replicate 63 0⟩] ++ [0, 0]
     (odConfigTlvWalk blob (onPacket {}) (odConfigReset {}, {})).2.2.packets = [(0x27, 1 :: List.replicate 63 0)] ∧
      (odConfigParse {} {} blob).2.1.security ≠ .ofBody 64 (1 :: List.replicate 63 0)) ∧
    (let blob := [0, 0, 1] ++ tlvBytes (List.replicate 65536 ⟨0, 0x01, List.replicate 22 0⟩) ++ [0, 0]
     (odConfigTlvWalk blob (onPacket {}) (odConfigReset {}, {})).2.2.packets.length = 65536 ∧
      (odConfigParse {} {} blob).2.2.stored = 0 ∧ (odConfigParse {} {} blob).2.2.droppedFull = 0 ∧
      (odConfigParse {} {} blob).2.2.droppedNotBuilt = 0) := by
  refine ⟨?_, ?_⟩
  · intro blob
    have hsized : ∀ p ∈ [TlvPacket.mk 0 0x27 (1 :: List.replicate 63 0)], p.Sized := by
      intro p hp
      rw [List.mem_singleton.mp hp]
      exact ⟨by decide, rfl⟩
    have htakes : Takes (onPacket {}) ({}, {}) [⟨0, 0x27, 1 :: List.replicate 63 0⟩] _ :=
      .cons (onPacket_single (s := .security) rfl rfl) .nil
    obtain ⟨-, -, hpackets, hctx⟩ := odConfigTlvWalk_encoded [0, 0, 1] [0, 0] rfl rfl hsized htakes
    refine ⟨hpackets, ?_⟩
    have hsec : (odConfigParse {} {} blob).2.1.security = _ := ((odConfigParse_walk {} {} blob).2.2.1 .security).1
    rw [hsec, hctx, (single_setSingle .security _).1]
    exact fun heq => absurd (congrArg (fun sec => (securityConfig sec).encryptionEnabled) heq) (by decide)
  · exact odConfigParse_system_many {} 65536

end Parse

end OpenDisplay
