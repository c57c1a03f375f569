/-
Module: RemoteMonitoring.Lib.WordBytes
Purpose: Numbers as fixed-width byte strings, least significant byte first, and the
  bit operations that take single bytes out of a word and put them together again.
Trusted boundary: none
Main exports: littleEndian, littleValue, littleValue_littleEndian, littleEndian_littleValue,
  eq_littleEndian_iff
-/
import RemoteMonitoring.Lib.ByteText
import Mathlib.Tactic.Ring
import Mathlib.Tactic.Positivity

namespace WordBytes

open ByteText (Bytes)

/-- The `width` lowest bytes of `n`, as a little-endian host keeps them. -/
def littleEndian : Nat → Nat → Bytes
  | 0, _ => []
  | width + 1, n => UInt8.ofNat n :: littleEndian width (n / 256)

/-- The number a byte string stands for on a little-endian host. -/
def littleValue : Bytes → Nat
  | [] => 0
  | byte :: bytes => byte.toNat + 256 * littleValue bytes

@[simp] theorem littleEndian_length (width n : Nat) :
    (littleEndian width n).length = width := by
  induction width generalizing n with
  | zero => rfl
  | succ width ih => simp [littleEndian, ih]

theorem littleValue_lt (bytes : Bytes) : littleValue bytes < 256 ^ bytes.length := by
  induction bytes with
  | nil => simp [littleValue]
  | cons byte bytes ih =>
      have small := byte.toNat_lt
      simp only [littleValue, List.length_cons, pow_succ]
      omega

theorem littleValue_littleEndian (width n : Nat) :
    littleValue (littleEndian width n) = n % 256 ^ width := by
  induction width generalizing n with
  | zero => simp [littleEndian, littleValue, Nat.mod_one]
  | succ width ih =>
      have head : (UInt8.ofNat n).toNat = n % 256 := UInt8.toNat_ofNat'
      rw [littleEndian, littleValue, ih, head, pow_succ', Nat.mod_mul]

/-- The bytes of the number that some bytes are. -/
theorem littleEndian_littleValue (bytes : Bytes) :
    littleEndian bytes.length (littleValue bytes) = bytes := by
  induction bytes with
  | nil => rfl
  | cons byte bytes ih =>
      have small := byte.toNat_lt
      have tail : (byte.toNat + 256 * littleValue bytes) / 256 = littleValue bytes := by
        omega
      have head : UInt8.ofNat (byte.toNat + 256 * littleValue bytes) = byte := by
        apply UInt8.toNat_inj.mp
        rw [UInt8.toNat_ofNat']
        omega
      simp only [List.length_cons, littleEndian, littleValue, tail, ih, head]

/-- The bytes of a number are those of its width that stand for it. -/
theorem eq_littleEndian_iff {width n : Nat} (small : n < 256 ^ width) {bytes : Bytes} :
    bytes = littleEndian width n ↔ bytes.length = width ∧ littleValue bytes = n := by
  constructor
  · rintro rfl
    exact ⟨littleEndian_length width n,
      (littleValue_littleEndian width n).trans (Nat.mod_eq_of_lt small)⟩
  · rintro ⟨rfl, rfl⟩
    exact (littleEndian_littleValue bytes).symm

theorem littleValue_eq_zero {bytes : Bytes} :
    littleValue bytes = 0 ↔ ∀ byte ∈ bytes, byte = 0 := by
  induction bytes with
  | nil => simp [littleValue]
  | cons byte bytes ih =>
      have zero : byte.toNat = 0 ↔ byte = 0 := by
        rw [← UInt8.toNat_zero, UInt8.toNat_inj]
      simp [littleValue, Nat.add_eq_zero_iff, ih, zero]

/-! ### Bytes inside a word -/

theorem and_byte (n : Nat) : n &&& 255 = n % 256 :=
  Nat.and_two_pow_sub_one_eq_mod n 8

/-- Masking the byte at bit `k`. -/
theorem and_byte_at (k n : Nat) : n &&& (2 ^ k * 255) = 2 ^ k * (n / 2 ^ k % 256) := by
  have positive : 0 < 2 ^ k := by positivity
  have high : (n &&& (2 ^ k * 255)) / 2 ^ k = n / 2 ^ k % 256 := by
    rw [Nat.and_div_two_pow, Nat.mul_div_cancel_left 255 positive, and_byte]
  have low : (n &&& (2 ^ k * 255)) % 2 ^ k = 0 := by
    rw [Nat.and_mod_two_pow, Nat.mul_mod_right, Nat.and_zero]
  have split := Nat.div_add_mod (n &&& (2 ^ k * 255)) (2 ^ k)
  rw [high, low] at split
  exact split.symm

/-- A byte put below the bits of `high` with a bitwise or. -/
theorem or_byte (k high low : Nat) :
    2 ^ (k + 8) * high ||| 2 ^ k * (low % 256) = 2 ^ k * (256 * high + low % 256) := by
  have below : 2 ^ k * (low % 256) < 2 ^ (k + 8) := by
    rw [pow_add]
    exact Nat.mul_lt_mul_of_pos_left (Nat.mod_lt _ (by decide)) (by positivity)
  rw [← Nat.two_pow_add_eq_or_of_lt below, pow_add]
  ring

end WordBytes
