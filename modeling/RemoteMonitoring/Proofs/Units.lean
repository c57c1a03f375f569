/-
Module: RemoteMonitoring.Proofs.Units
Purpose: When the conversion of a configuration entry is exact, when it can be undone, and when
  it keeps the order of two values: the products wrap around without a check.
Trusted boundary: none
Main exports: conversion_exact_iff
-/
import RemoteMonitoring.System.Units

namespace RemoteMonitoring

open ByteText
open Scaling

namespace Threshold

theorem unit_pos (threshold : Threshold) : 0 < threshold.unit := by
  cases threshold with
  | cpu => decide
  | mem => decide
  | disk => decide
  | network => decide

theorem word_pos (threshold : Threshold) : 0 < threshold.word := by
  cases threshold with
  | cpu => exact Nat.two_pow_pos 32
  | mem => exact Nat.two_pow_pos 64
  | disk => exact Nat.two_pow_pos 64
  | network => exact Nat.two_pow_pos 64

end Threshold

namespace ConfigEntry

/-- Reading multiplies by the unit, in the width of the field. -/
theorem amount_convertAfterRead (entry : ConfigEntry) (threshold : Threshold) :
    entry.convertAfterRead.amount threshold =
      entry.amount threshold * threshold.unit % threshold.word := by
  cases threshold with
  | cpu => exact UInt32.toNat_mul _ _
  | mem => exact UInt64.toNat_mul _ _
  | disk => exact UInt64.toNat_mul _ _
  | network => exact UInt64.toNat_mul _ _

/-- Writing divides by it. -/
theorem amount_convertBeforeWrite (entry : ConfigEntry) (threshold : Threshold) :
    entry.convertBeforeWrite.amount threshold = entry.amount threshold / threshold.unit := by
  cases threshold with
  | cpu => exact UInt32.toNat_div _ _
  | mem => exact UInt64.toNat_div _ _
  | disk => exact UInt64.toNat_div _ _
  | network => exact UInt64.toNat_div _ _

/-- An entry is its name and its four amounts. -/
theorem eq_iff_amounts {one other : ConfigEntry} :
    one = other ↔ one.processName = other.processName ∧
      ∀ threshold, one.amount threshold = other.amount threshold := by
  constructor
  · rintro rfl
    exact ⟨rfl, fun _ => rfl⟩
  · rintro ⟨name, amounts⟩
    cases one with
    | mk processName cpuUsage memUsage diskUsage networkUsage =>
        cases other with
        | mk otherName otherCpu otherMem otherDisk otherNetwork =>
            have cpu := UInt32.toNat_inj.mp (amounts .cpu)
            have mem := UInt64.toNat_inj.mp (amounts .mem)
            have disk := UInt64.toNat_inj.mp (amounts .disk)
            have network := UInt64.toNat_inj.mp (amounts .network)
            simp only at name cpu mem disk network
            rw [name, cpu, mem, disk, network]

/-- A threshold in force is the value times its unit exactly if that fits the field, the entry is
restored by the conversion back exactly if all four do, and of two values the larger one has no
smaller threshold exactly if its product wraps as often as that of the other and that of their
difference do together. -/
theorem conversion_exact_iff (one other : ConfigEntry) :
    (∀ threshold, one.convertAfterRead.amount threshold = one.amount threshold * threshold.unit ↔
        one.Fits threshold) ∧
      (one.convertAfterRead.convertBeforeWrite = one ↔ ∀ threshold, one.Fits threshold) ∧
      ∀ threshold, one.amount threshold ≤ other.amount threshold →
        (one.convertAfterRead.amount threshold ≤ other.convertAfterRead.amount threshold ↔
          threshold.wraps (other.amount threshold) = threshold.wraps (one.amount threshold) +
            threshold.wraps (other.amount threshold - one.amount threshold)) := by
  refine ⟨?_, ?_, ?_⟩
  · intro threshold
    rw [amount_convertAfterRead]
    exact scale_exact_iff threshold.word_pos
  · have name : one.convertAfterRead.convertBeforeWrite.processName = one.processName := rfl
    simp only [eq_iff_amounts, name, true_and, amount_convertBeforeWrite, amount_convertAfterRead,
      scale_unscale_iff (Threshold.word_pos _) (Threshold.unit_pos _)]
    rfl
  · intro threshold le
    rw [amount_convertAfterRead, amount_convertAfterRead]
    exact scale_le_iff threshold.word_pos le

/-- Thresholds of 4294968 percent and of 2^44 MB, meant to switch an alert off, are 0.7 percent
and 0 bytes in force: smaller than those of smaller values, and lost when they are written. -/
theorem large_threshold_wraps :
    let entry : ConfigEntry := ⟨ascii "chrome", 4294968, 17592186044416, 0, 0⟩
    let smaller : ConfigEntry := ⟨ascii "chrome", 4294967, 17592186044415, 0, 0⟩
    entry.convertAfterRead = ⟨ascii "chrome", 704, 0, 0, 0⟩ ∧
      entry.convertAfterRead.convertBeforeWrite = ⟨ascii "chrome", 0, 0, 0, 0⟩ ∧
      entry.convertAfterRead.amount .cpu < smaller.convertAfterRead.amount .cpu ∧
      entry.convertAfterRead.amount .mem < smaller.convertAfterRead.amount .mem := by
  decide +kernel

end ConfigEntry

end RemoteMonitoring
