/-
Module: RemoteMonitoring.Proofs.ExponentialBackoff
Purpose: How long the client waits before it tries to connect again: the delay after any history
  of attempts, by the number of failures in a row.
Trusted boundary: none
Main exports: failuresInRow, ExponentialBackoff.currentDelay_run, reconnect_waits
-/
import RemoteMonitoring.Common.ExponentialBackoff
import Mathlib.Data.List.Basic
import Mathlib.Data.List.Induction

namespace RemoteMonitoring

/-- The failures since the last attempt that succeeded. -/
def failuresInRow (attempts : List Bool) : Nat :=
  (attempts.reverse.takeWhile fun attempt => !attempt).length

@[simp] theorem failuresInRow_success (attempts : List Bool) :
    failuresInRow (attempts ++ [true]) = 0 := by
  simp [failuresInRow]

@[simp] theorem failuresInRow_failure (attempts : List Bool) :
    failuresInRow (attempts ++ [false]) = failuresInRow attempts + 1 := by
  simp [failuresInRow]

namespace ExponentialBackoff

/-- One attempt. -/
def attempt (backoff : ExponentialBackoff) (succeeds : Bool) : ExponentialBackoff :=
  if succeeds then backoff.success else backoff.fail.2

/-- A product that is cut at a bound can be cut before it as well. -/
theorem min_mul_min {value factor bound : Int} (positive : 1 ≤ factor) (nonneg : 0 ≤ bound) :
    min (min value bound * factor) bound = min (value * factor) bound := by
  have larger : bound ≤ bound * factor := le_mul_of_one_le_right nonneg positive
  rcases le_total value bound with below | above
  · rw [min_eq_left below]
  · have product : bound * factor ≤ value * factor :=
      mul_le_mul_of_nonneg_right above (Int.le_trans Int.one_nonneg positive)
    rw [min_eq_right above, min_eq_right larger, min_eq_right (Int.le_trans larger product)]

variable {start stop multiplier : Int}

/-- The delay after any history of attempts. -/
def delayAfter (start stop multiplier : Int) (attempts : List Bool) : Int :=
  let failures := failuresInRow attempts
  if failures = 0 then start else min (start * max multiplier 2 ^ failures) stop

/-- After any attempts the delay depends on the failures at their end only. -/
theorem run_eq (nonneg : 0 ≤ stop) (attempts : List Bool) :
    attempts.foldl attempt (make start stop multiplier) =
      ⟨start, stop, max multiplier 2, delayAfter start stop multiplier attempts⟩ := by
  have positive : 1 ≤ max multiplier 2 := Int.le_trans (by decide) (le_max_right _ _)
  induction attempts using List.reverseRecOn with
  | nil => rfl
  | append_singleton before succeeds ih =>
      rw [List.foldl_append, List.foldl_cons, List.foldl_nil, ih]
      cases succeeds with
      | true => simp [attempt, success, delayAfter]
      | false =>
          rw [attempt, if_neg Bool.false_ne_true, fail]
          simp only [delayAfter, failuresInRow_failure, Nat.succ_ne_zero, if_false, mk.injEq,
            true_and]
          by_cases first : failuresInRow before = 0
          · rw [if_pos first, first, Nat.zero_add, pow_one]
          · rw [if_neg first, min_mul_min positive nonneg, mul_assoc, ← pow_succ]

/-- The waits of two parts of a history, one after the other. -/
theorem waits_append (before after : List Bool) (backoff : ExponentialBackoff) :
    waits (before ++ after) backoff =
      waits before backoff ++ waits after (before.foldl attempt backoff) := by
  induction before generalizing backoff with
  | nil => rfl
  | cons succeeds later ih =>
      cases succeeds with
      | true => exact ih backoff.success
      | false => exact congrArg (List.cons backoff.fail.1) (ih backoff.fail.2)

/-- What is waited in a whole run: before each attempt that follows a failure, as long as the
failures in a row say. -/
theorem waits_eq (nonneg : 0 ≤ stop) (attempts : List Bool) :
    waits attempts (make start stop multiplier) =
      (List.range attempts.length).filterMap fun index =>
        if attempts[index]? = some false then
          some (delayAfter start stop multiplier (attempts.take index))
        else none := by
  induction attempts using List.reverseRecOn with
  | nil => rfl
  | append_singleton before succeeds ih =>
      have earlier : ∀ index ∈ List.range before.length,
          (if (before ++ [succeeds])[index]? = some false then
            some (delayAfter start stop multiplier ((before ++ [succeeds]).take index)) else none) =
          if before[index]? = some false then
            some (delayAfter start stop multiplier (before.take index)) else none := by
        intro index member
        have inside : index < before.length := List.mem_range.mp member
        rw [List.getElem?_append_left inside,
          List.take_append_of_le_length (Nat.le_of_lt inside)]
      rw [waits_append, ih, run_eq nonneg, List.length_append, List.length_singleton,
        List.range_succ, List.filterMap_append, List.filterMap_congr earlier]
      congr 1
      cases succeeds with
      | true => simp [waits]
      | false => simp [waits, fail]

end ExponentialBackoff

/-- The waits of the client over any history of its connection: 1, 2, 4 and 8 seconds and then 10
for failures in a row, and again from 1 after a success.  No product on the way is more than 20. -/
theorem reconnect_waits (attempts : List Bool) :
    reconnectWaits attempts =
        ((List.range attempts.length).filterMap fun index =>
          if attempts[index]? = some false then
            some (min (2 ^ failuresInRow (attempts.take index)) 10)
          else none) ∧
      let backoff := attempts.foldl ExponentialBackoff.attempt (.make 1 10 2)
      1 ≤ backoff.currentDelay ∧ backoff.currentDelay * backoff.multiplier ≤ 20 := by
  have delay (history : List Bool) :
      ExponentialBackoff.delayAfter 1 10 2 history = min (2 ^ failuresInRow history) 10 := by
    unfold ExponentialBackoff.delayAfter
    by_cases first : failuresInRow history = 0
    · simp [first]
    · simp [first]
  constructor
  · rw [reconnectWaits, ExponentialBackoff.waits_eq (by decide)]
    simp only [delay]
  · rw [ExponentialBackoff.run_eq (by decide)]
    simp only [delay]
    have positive : (1 : Int) ≤ 2 ^ failuresInRow attempts := one_le_pow₀ (by decide)
    constructor
    · exact le_min positive (by decide)
    · have small : min ((2 : Int) ^ failuresInRow attempts) 10 ≤ 10 := min_le_right _ _
      have two : (max 2 2 : Int) = 2 := rfl
      rw [two]
      omega

end RemoteMonitoring
