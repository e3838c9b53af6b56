import OpenDisplay.Lib.Deflate

/-! The zlib format with its conditions as parameters: what the transmitted codes must
satisfy, and how far back a copy may reach. -/

namespace Deflate

open Huffman

section Grammar

variable (ok : List Nat → Prop)

/-- A header whose three codes satisfy a condition. -/
inductive HeaderOf : List Bool → List Nat → List Nat → Prop where
  | mk {sent lit dist : List Nat} {bs : List Bool} (lits : 257 ≤ lit.length) (lits_le : lit.length ≤ 286)
      (dists : 1 ≤ dist.length) (dists_le : dist.length ≤ 32) (sent_ge : 4 ≤ sent.length)
      (sent_le : sent.length ≤ 19) (sent_lt : ∀ n ∈ sent, n < 8) (valid : ok (codeLengths sent))
      (lengths : Lengths (codeLengths sent) [] bs (lit ++ dist)) (lit_valid : ok lit) (dist_valid : ok dist) :
      HeaderOf (lowBits 5 (lit.length - 257) ++ (lowBits 5 (dist.length - 1) ++ (lowBits 4 (sent.length - 4) ++
        (sent.flatMap (lowBits 3) ++ bs)))) lit dist

/-- One block, and copies from no further back than `window`. -/
inductive BlockOf (window : Nat) : Nat → Bool → List UInt8 → List Bool → List UInt8 → Prop where
  | stored {pos : Nat} {final : Bool} {out data : List UInt8} {pad : List Bool} : data.length < 2 ^ 16 →
      pad.length < 8 → 8 ∣ pos + 3 + pad.length →
      BlockOf window pos final out ([final, false, false] ++ (pad ++ bytesBits (littleEndian data.length ++
        (littleEndian (2 ^ 16 - 1 - data.length) ++ data)))) (out ++ data)
  | fixed {pos : Nat} {final : Bool} {out out' : List UInt8} {bs : List Bool} :
      Data window fixedLit fixedDist out bs out' →
      BlockOf window pos final out ([final, true, false] ++ bs) out'
  | dynamic {pos : Nat} {final : Bool} {out out' : List UInt8} {hs bs : List Bool} {lit dist : List Nat} :
      HeaderOf ok hs lit dist → Data window lit dist out bs out' →
      BlockOf window pos final out ([final, false, true] ++ (hs ++ bs)) out'

inductive BlocksOf (window : Nat) : Nat → List UInt8 → List Bool → List UInt8 → Prop where
  | last {pos : Nat} {out out' : List UInt8} {bs : List Bool} : BlockOf ok window pos true out bs out' →
      BlocksOf window pos out bs out'
  | more {pos : Nat} {out out' out'' : List UInt8} {bs rest : List Bool} : BlockOf ok window pos false out bs out' →
      BlocksOf window (pos + bs.length) out' rest out'' → BlocksOf window pos out (bs ++ rest) out''

/-- A stream whose header declares a window no larger than `window`, and whose copies reach
as far as `reach` allows to that header. -/
inductive ZlibOf (reach : UInt8 → Nat) (window : Nat) : List UInt8 → List UInt8 → Prop where
  | mk {cmf flg : UInt8} {data out : List UInt8} {bs pad : List Bool} (method : cmf.toNat % 16 = 8)
      (declared : declaredWindow cmf ≤ window) (check : (256 * cmf.toNat + flg.toNat) % 31 = 0)
      (dictionary : flg.toNat.testBit 5 = false) (body : bytesBits data = bs ++ pad) (pad_lt : pad.length < 8)
      (blocks : BlocksOf ok (reach cmf) 0 [] bs out) :
      ZlibOf reach window (cmf :: flg :: (data ++ bigEndian (adler32 out))) out

end Grammar

end Deflate
