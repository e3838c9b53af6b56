import Mathlib.Logic.Function.Iterate
import OpenDisplay.Wire

/-! The two checksums of a configuration: the advisory one at the end of its bytes and the
one of the record that it is stored in. -/

namespace OpenDisplay

def odCrc16Bit (crc : UInt16) : UInt16 :=
  if crc &&& 0x8000 ≠ 0 then (crc <<< 1) ^^^ 0x1021 else crc <<< 1

def odCrc16Feed (crc : UInt16) (b : UInt8) : UInt16 := odCrc16Bit^[8] (crc ^^^ (b.toUInt16 <<< 8))

/-- The first two bytes are fed as zeros, so that the declared length does not count. -/
def odConfigTlvCrc16 (data : Bytes) : UInt16 :=
  if data.length < 2 then data.foldl odCrc16Feed 0xFFFF
  else (data.drop 2).foldl odCrc16Feed (odCrc16Feed (odCrc16Feed 0xFFFF 0) 0)

def odConfigStoreCrc32Bit (crc : UInt32) : UInt32 :=
  if crc &&& 1 ≠ 0 then (crc >>> 1) ^^^ 0xEDB88320 else crc >>> 1

def odConfigStoreCrc32Feed (crc : UInt32) (b : UInt8) : UInt32 := odConfigStoreCrc32Bit^[8] (crc ^^^ b.toUInt32)

def odConfigStoreCrc32 (data : Bytes) : UInt32 := ~~~(data.foldl odConfigStoreCrc32Feed 0xFFFFFFFF)

end OpenDisplay
