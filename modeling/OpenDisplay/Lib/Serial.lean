import Mathlib.Data.Nat.Basic
import Mathlib.Tactic.Common

/-! Serial numbers of one byte. A byte stands for the first index, from some
starting point on, whose low eight bits it is. -/

namespace Serial

variable {i j k : Nat} {s : UInt8}

/-- The index that `s` stands for when indices from `k` on are meant. -/
def lift (k : Nat) (s : UInt8) : Nat := k + (s - UInt8.ofNat k).toNat

theorem sub_toNat (h : k ≤ i) : (UInt8.ofNat i - UInt8.ofNat k).toNat = (i - k) % 256 := by
  rw [UInt8.toNat_sub, UInt8.toNat_ofNat', UInt8.toNat_ofNat']
  omega

theorem sub_toNat_of_lt (h : k ≤ i) (hlt : i < k + 256) :
    (UInt8.ofNat i - UInt8.ofNat k).toNat = i - k := by
  rw [sub_toNat h, Nat.mod_eq_of_lt (by omega)]

theorem le_lift (k : Nat) (s : UInt8) : k ≤ lift k s := Nat.le_add_right _ _

theorem lift_lt (k : Nat) (s : UInt8) : lift k s < k + 256 :=
  Nat.add_lt_add_left (UInt8.toNat_lt _) k

theorem ofNat_lift (k : Nat) (s : UInt8) : UInt8.ofNat (lift k s) = s := by
  rw [lift, UInt8.ofNat_add, UInt8.ofNat_toNat, UInt8.add_comm, UInt8.sub_add_cancel]

theorem lift_ofNat (h : k ≤ i) (hlt : i < k + 256) : lift k (UInt8.ofNat i) = i := by
  rw [lift, sub_toNat_of_lt h hlt]
  omega

theorem lift_le (h : k ≤ i) : lift k (UInt8.ofNat i) ≤ i := by
  rw [lift, sub_toNat h]
  have := Nat.mod_le (i - k) 256
  omega

theorem lift_self (k : Nat) : lift k (UInt8.ofNat k) = k := lift_ofNat le_rfl (by omega)

/-- A byte in front of the starting point keeps its index when that moves on. -/
theorem lift_succ (h : s ≠ UInt8.ofNat k) : lift (k + 1) s = lift k s := by
  have hne : lift k s ≠ k := fun he => h (by rw [← ofNat_lift k s, he])
  have hle := le_lift k s
  have hlt := lift_lt k s
  conv_lhs => rw [← ofNat_lift k s]
  exact lift_ofNat (by omega) (by omega)

theorem lift_eq_iff : lift k s = k ↔ s = UInt8.ofNat k := by
  constructor
  · intro h
    rw [← ofNat_lift k s, h]
  · rintro rfl
    exact lift_self k

end Serial
