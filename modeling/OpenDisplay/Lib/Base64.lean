import Mathlib.Data.List.GetD
import Mathlib.Data.List.Nodup

/-! Three bytes as four digits of six bits, without padding, over any alphabet of 64 letters. -/

namespace Base64

/-- The digits of three bytes, of two, or of one. -/
def digits : List UInt8 → List Nat
  | a :: b :: c :: rest =>
    let value := a.toNat * 65536 + b.toNat * 256 + c.toNat
    value / 262144 % 64 :: value / 4096 % 64 :: value / 64 % 64 :: value % 64 :: digits rest
  | [a, b] =>
    let value := a.toNat * 65536 + b.toNat * 256
    [value / 262144 % 64, value / 4096 % 64, value / 64 % 64]
  | [a] =>
    let value := a.toNat * 65536
    [value / 262144 % 64, value / 4096 % 64]
  | [] => []

def bytes : List Nat → Option (List UInt8)
  | p :: q :: r :: s :: rest =>
    let value := p * 262144 + q * 4096 + r * 64 + s
    (bytes rest).map fun rest => UInt8.ofNat (value / 65536) :: UInt8.ofNat (value / 256) :: UInt8.ofNat value :: rest
  | [p, q, r] =>
    let value := p * 262144 + q * 4096 + r * 64
    some [UInt8.ofNat (value / 65536), UInt8.ofNat (value / 256)]
  | [p, q] => some [UInt8.ofNat ((p * 262144 + q * 4096) / 65536)]
  | [_] => none
  | [] => some []

theorem digits_lt (data : List UInt8) : ∀ d ∈ digits data, d < 64 := by
  induction data using digits.induct with
  | case1 a b c rest ih =>
    intro d hd
    simp only [digits, List.mem_cons] at hd
    rcases hd with rfl | rfl | rfl | rfl | hd
    · exact Nat.mod_lt _ (by decide)
    · exact Nat.mod_lt _ (by decide)
    · exact Nat.mod_lt _ (by decide)
    · exact Nat.mod_lt _ (by decide)
    · exact ih d hd
  | case2 a b =>
    intro d hd
    simp only [digits, List.mem_cons, List.not_mem_nil, or_false] at hd
    omega
  | case3 a =>
    intro d hd
    simp only [digits, List.mem_cons, List.not_mem_nil, or_false] at hd
    omega
  | case4 =>
    intro d hd
    cases hd

theorem digits_length (data : List UInt8) : (digits data).length = (4 * data.length + 2) / 3 := by
  induction data using digits.induct with
  | case1 a b c rest ih =>
    simp only [digits, List.length_cons, ih]
    omega
  | case2 a b => simp [digits]
  | case3 a => simp [digits]
  | case4 => rfl

theorem eq_ofNat {n : Nat} {a : UInt8} (h : n % 256 = a.toNat) : UInt8.ofNat n = a := by
  apply UInt8.toNat_inj.mp
  rw [UInt8.toNat_ofNat']
  exact h

theorem bytes_digits (data : List UInt8) : bytes (digits data) = some data := by
  induction data using digits.induct with
  | case1 a b c rest ih =>
    have ha := a.toNat_lt
    have hb := b.toNat_lt
    have hc := c.toNat_lt
    simp only [digits, bytes, ih, Option.map_some]
    rw [eq_ofNat (a := a) (by omega), eq_ofNat (a := b) (by omega), eq_ofNat (a := c) (by omega)]
  | case2 a b =>
    have ha := a.toNat_lt
    have hb := b.toNat_lt
    simp only [digits, bytes]
    rw [eq_ofNat (a := a) (by omega), eq_ofNat (a := b) (by omega)]
  | case3 a =>
    have ha := a.toNat_lt
    simp only [digits, bytes]
    rw [eq_ofNat (a := a) (by omega)]
  | case4 => rfl

section Alphabet

variable {α : Type*} {alphabet : List α} {z : α}

def encode (alphabet : List α) (z : α) (data : List UInt8) : List α := (digits data).map fun d => alphabet.getD d z

def decode [DecidableEq α] (alphabet : List α) (text : List α) : Option (List UInt8) :=
  (text.mapM (alphabet.idxOf? ·)).bind bytes

theorem idxOf?_getD [DecidableEq α] (h : alphabet.Nodup) {d : Nat} (hd : d < alphabet.length) :
    alphabet.idxOf? (alphabet.getD d z) = some d := by
  rw [List.getD_eq_getElem _ _ hd, List.idxOf?_eq_some_iff]
  refine ⟨hd, by simp, fun j hj => ?_⟩
  simpa using fun he => absurd ((List.Nodup.getElem_inj_iff h).mp he) (by omega)

theorem decode_encode [DecidableEq α] (h : alphabet.Nodup) (hlength : alphabet.length = 64) (data : List UInt8) :
    decode alphabet (encode alphabet z data) = some data := by
  have hdigits : ∀ ds : List Nat, (∀ d ∈ ds, d < 64) →
      (ds.map fun d => alphabet.getD d z).mapM (alphabet.idxOf? ·) = some ds := by
    intro ds
    induction ds with
    | nil => exact fun _ => rfl
    | cons d ds ih =>
      intro hlt
      rw [List.map_cons, List.mapM_cons, ih fun d hd => hlt d (List.mem_cons_of_mem _ hd),
        idxOf?_getD h (hlength ▸ hlt d List.mem_cons_self)]
      rfl
  rw [decode, encode, hdigits _ (digits_lt data)]
  exact bytes_digits data

end Alphabet

end Base64
