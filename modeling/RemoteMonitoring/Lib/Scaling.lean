/-
Module: RemoteMonitoring.Lib.Scaling
Purpose: Multiplying a machine word by a fixed unit and dividing it again: when a value is its
  own multiple, when division loses nothing, what a product leaves as remainder, and when
  products are exact, divided back, and ordered as the values are.
Trusted boundary: none
Main exports: scale_eq_self_iff, unscale_scale_iff, scale_mod_unit, scale_exact_iff,
  scale_unscale_iff, scale_le_iff
-/
import Mathlib.Data.Nat.ModEq

namespace Scaling

variable {word unit value : Nat}

/-- Modulo `word`, only 0 is its own multiple by a unit whose predecessor is prime
to `word`. -/
theorem scale_eq_self_iff (small : value < word) (positive : 0 < unit)
    (coprime : Nat.Coprime word (unit - 1)) : value * unit % word = value ↔ value = 0 := by
  constructor
  · intro same
    obtain ⟨less, rfl⟩ : ∃ less, unit = less + 1 := ⟨unit - 1, by omega⟩
    have congruent : value * less + value ≡ 0 + value [MOD word] := by
      rw [Nat.zero_add, ← Nat.mul_succ]
      exact same.trans (Nat.mod_eq_of_lt small).symm
    have divides : word ∣ value * less :=
      (Nat.modEq_zero_iff_dvd).mp (Nat.ModEq.add_right_cancel' value congruent)
    exact Nat.eq_zero_of_dvd_of_lt (coprime.dvd_of_dvd_mul_right divides) small
  · rintro rfl
    rw [Nat.zero_mul, Nat.zero_mod]

/-- Dividing and multiplying back keeps a value exactly when it is a multiple. -/
theorem unscale_scale_iff (small : value < word) :
    value / unit * unit % word = value ↔ value % unit = 0 := by
  have below := Nat.div_mul_le_self value unit
  rw [Nat.mod_eq_of_lt (Nat.lt_of_le_of_lt below small)]
  constructor
  · intro same
    rw [← same, Nat.mul_mod_left]
  · intro multiple
    exact Nat.div_mul_cancel (Nat.dvd_of_mod_eq_zero multiple)

/-- A product that wraps is still a multiple when the unit divides the word size. -/
theorem scale_mod_unit (divides : unit ∣ word) : value * unit % word % unit = 0 := by
  rw [Nat.mod_mod_of_dvd _ divides, Nat.mul_mod_left]

/-- What a division and a multiplication leave is whole units: the product does not wrap. -/
theorem unscale_scale_mod_unit (small : value < word) : value / unit * unit % word % unit = 0 := by
  have le : value / unit * unit ≤ value := Nat.div_mul_le_self value unit
  rw [Nat.mod_eq_of_lt (Nat.lt_of_le_of_lt le small), Nat.mul_mod_left]

theorem scale_exact_iff (wide : 0 < word) :
    value * unit % word = value * unit ↔ value * unit < word := by
  constructor
  · intro same
    rw [← same]
    exact Nat.mod_lt _ wide
  · exact Nat.mod_eq_of_lt

/-- Multiplying and dividing again keeps a value exactly when the product does not wrap. -/
theorem scale_unscale_iff (wide : 0 < word) (positive : 0 < unit) :
    value * unit % word / unit = value ↔ value * unit < word := by
  constructor
  · intro same
    by_contra wraps
    have less : value * unit % word < value * unit :=
      Nat.lt_of_lt_of_le (Nat.mod_lt _ wide) (Nat.not_lt.mp wraps)
    have below := (Nat.div_lt_iff_lt_mul positive).mpr less
    exact absurd same (Nat.ne_of_lt below)
  · intro fits
    rw [Nat.mod_eq_of_lt fits, Nat.mul_div_cancel value positive]

/-- Products are ordered as the values are exactly when the larger one wraps as often as that of
the smaller value and that of the difference do together. -/
theorem scale_le_iff {one other : Nat} (wide : 0 < word) (le : one ≤ other) :
    one * unit % word ≤ other * unit % word ↔
      other * unit / word = one * unit / word + (other - one) * unit / word := by
  obtain ⟨more, rfl⟩ := Nat.exists_eq_add_of_le le
  have remainders := Nat.add_mod_add_ite (one * unit) (more * unit) word
  have small := Nat.mod_lt (more * unit) wide
  rw [Nat.add_sub_cancel_left, Nat.add_mul, Nat.add_div wide]
  split at remainders
  · rename_i carries
    rw [if_pos carries]
    omega
  · rename_i fits
    rw [if_neg fits]
    omega

/-! ### 32 and 64 bits -/

theorem scale32_eq_self_iff {usage unit : UInt32} (positive : 0 < unit.toNat)
    (coprime : Nat.Coprime (2 ^ 32) (unit.toNat - 1)) : usage * unit = usage ↔ usage = 0 := by
  rw [← UInt32.toNat_inj, ← UInt32.toNat_inj, UInt32.toNat_mul, UInt32.toNat_zero]
  exact scale_eq_self_iff usage.toNat_lt positive coprime

theorem scale64_eq_self_iff {usage unit : UInt64} (positive : 0 < unit.toNat)
    (coprime : Nat.Coprime (2 ^ 64) (unit.toNat - 1)) : usage * unit = usage ↔ usage = 0 := by
  rw [← UInt64.toNat_inj, ← UInt64.toNat_inj, UInt64.toNat_mul, UInt64.toNat_zero]
  exact scale_eq_self_iff usage.toNat_lt positive coprime

theorem unscale32_scale_iff (usage unit : UInt32) :
    usage / unit * unit = usage ↔ usage % unit = 0 := by
  rw [← UInt32.toNat_inj, ← UInt32.toNat_inj, UInt32.toNat_mul, UInt32.toNat_div,
    UInt32.toNat_mod, UInt32.toNat_zero]
  exact unscale_scale_iff usage.toNat_lt

theorem unscale64_scale_iff (usage unit : UInt64) :
    usage / unit * unit = usage ↔ usage % unit = 0 := by
  rw [← UInt64.toNat_inj, ← UInt64.toNat_inj, UInt64.toNat_mul, UInt64.toNat_div,
    UInt64.toNat_mod, UInt64.toNat_zero]
  exact unscale_scale_iff usage.toNat_lt

theorem scale64_mod_unit (usage : UInt64) {unit : UInt64} (divides : unit.toNat ∣ 2 ^ 64) :
    usage * unit % unit = 0 := by
  rw [← UInt64.toNat_inj, UInt64.toNat_mod, UInt64.toNat_mul, UInt64.toNat_zero]
  exact scale_mod_unit divides

theorem unscale32_scale_mod_unit (usage unit : UInt32) : usage / unit * unit % unit = 0 := by
  rw [← UInt32.toNat_inj, UInt32.toNat_mod, UInt32.toNat_mul, UInt32.toNat_div, UInt32.toNat_zero]
  exact unscale_scale_mod_unit usage.toNat_lt

theorem unscale64_scale_mod_unit (usage unit : UInt64) : usage / unit * unit % unit = 0 := by
  rw [← UInt64.toNat_inj, UInt64.toNat_mod, UInt64.toNat_mul, UInt64.toNat_div, UInt64.toNat_zero]
  exact unscale_scale_mod_unit usage.toNat_lt

end Scaling
