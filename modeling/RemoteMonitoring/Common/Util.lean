/-
Module: RemoteMonitoring.Common.Util
Purpose: `str_to_int` and `get_last_line_of_file` (common/util.cpp): a conversion without a
  range check, the two backwards loops over a file, and the forward reading of what they
  return.
Trusted boundary: overflow of an `int` wraps around
Main exports: strToInt, strToInt_of_digits, skipTrailing, collectLine, getLastLineOfFile,
  getLastLineOfFile_eq
-/
import Mathlib.Data.Int.Basic
import RemoteMonitoring.Lib.File

namespace RemoteMonitoring

open ByteText

/-! ### `str_to_int` -/

/-- The loop over the characters, with the value so far. -/
def strToIntLoop : Int → Bytes → Int
  | ret, [] => ret
  | ret, c :: rest =>
      if isDigit c then strToIntLoop (Int.bmod (ret * 10 + (c.toNat - 48 : Nat)) (2 ^ 32)) rest
      else -1

/-- A character that is no digit makes it -1, and no character 0. -/
def strToInt (str : Bytes) : Int := strToIntLoop 0 str

/-- Over digits the loop computes the numeral in 32 bits. -/
theorem strToIntLoop_digits {str : Bytes} (digits : ∀ byte ∈ str, isDigit byte = true)
    (value : Nat) :
    strToIntLoop (Int.bmod value (2 ^ 32)) str =
      Int.bmod (str.foldl (fun value digit => 10 * value + (digit.toNat - 48)) value : Nat)
        (2 ^ 32) := by
  induction str generalizing value with
  | nil => rfl
  | cons byte str ih =>
      have first : isDigit byte = true := digits byte List.mem_cons_self
      have others := fun other member => digits other (List.mem_cons_of_mem byte member)
      have wrapped : Int.bmod (Int.bmod value (2 ^ 32) * 10 + (byte.toNat - 48 : Nat)) (2 ^ 32) =
          Int.bmod (10 * value + (byte.toNat - 48) : Nat) (2 ^ 32) := by
        rw [Int.add_bmod, Int.bmod_mul_bmod, ← Int.add_bmod, Int.natCast_add, Int.natCast_mul,
          Int.mul_comm]
        rfl
      rw [strToIntLoop, if_pos first, wrapped, ih others, List.foldl_cons]

/-- Any other byte makes it −1. -/
theorem strToIntLoop_of_not_digits {str : Bytes} (other : ¬ ∀ byte ∈ str, isDigit byte = true)
    (value : Int) : strToIntLoop value str = -1 := by
  induction str generalizing value with
  | nil => simp at other
  | cons byte str ih =>
      by_cases first : isDigit byte = true
      · rw [strToIntLoop, if_pos first]
        apply ih
        intro digits
        exact other (List.forall_mem_cons.mpr ⟨first, digits⟩)
      · rw [strToIntLoop, if_neg first]

/-- The value of a string of digits, as far as an `int` can hold it. -/
theorem strToInt_of_digits {str : Bytes} (digits : ∀ byte ∈ str, isDigit byte = true) :
    strToInt str = Int.bmod (numeralValue str) (2 ^ 32) :=
  strToIntLoop_digits digits 0

theorem strToInt_of_not_digits {str : Bytes} (other : ¬ ∀ byte ∈ str, isDigit byte = true) :
    strToInt str = -1 :=
  strToIntLoop_of_not_digits other 0

/-! ### `get_last_line_of_file` -/

/-- The first loop: step back over trailing line breaks.  It stops on the first
other byte, or at the front of the file. -/
def skipTrailing (content : Bytes) : Nat → Nat
  | 0 => 0
  | pos + 1 => if isLineBreak (content.getD pos 0) then skipTrailing content pos else pos

/-- One round of the second loop: the line so far, and whether the loop ends on
a newline. -/
def collectByte (content : Bytes) (pos : Nat) (reversed : Bytes) : Bytes × Bool :=
  let ch := content.getD pos 0
  if ch = newline then (reversed, true)
  else (if ch = carriageReturn then reversed else reversed ++ [ch], false)

/-- The second loop: collect bytes backwards up to a newline or the front of the
file, leaving out carriage returns. -/
def collectLine (content : Bytes) : Nat → Bytes → Bytes
  | 0, reversed => (collectByte content 0 reversed).1
  | pos + 1, reversed =>
      let (reversed, ended) := collectByte content (pos + 1) reversed
      if ended then reversed else collectLine content pos reversed

def getLastLineOfFile (file : File) : Bytes :=
  match file.content with
  | none => []
  | some content =>
      if content.length = 0 then []
      else (collectLine content (skipTrailing content content.length) []).reverse

/-- Bytes of a line that the scan keeps. -/
def dropReturns (line : Bytes) : Bytes := line.filter (· != carriageReturn)

private theorem reverse_take_succ {content : Bytes} {pos : Nat} (inside : pos < content.length) :
    (content.take (pos + 1)).reverse = content.getD pos 0 :: (content.take pos).reverse := by
  rw [List.take_add_one, List.getD_eq_getElem?_getD, List.getElem?_eq_getElem inside]
  simp

/-- Going backwards, a byte is collected unless it is a carriage return, and a newline ends the
line. -/
theorem collectByte_eq (content : Bytes) (pos : Nat) (reversed : Bytes) :
    collectByte content pos reversed =
      (reversed ++ dropReturns ([content.getD pos 0].takeWhile (· != newline)),
        content.getD pos 0 == newline) := by
  unfold collectByte dropReturns
  generalize content.getD pos 0 = ch
  by_cases ends : ch = newline
  · simp [ends]
  · by_cases cr : ch = carriageReturn
    · have other : carriageReturn ≠ newline := by decide
      simp [cr, other]
    · simp [ends, cr]

/-- The second loop collects, backwards, what the line up to `pos` contains. -/
theorem collectLine_eq {content : Bytes} {pos : Nat} (inside : pos < content.length)
    (reversed : Bytes) :
    collectLine content pos reversed =
      reversed ++ dropReturns ((content.take (pos + 1)).reverse.takeWhile (· != newline)) := by
  induction pos generalizing reversed with
  | zero =>
      rw [collectLine, collectByte_eq, reverse_take_succ inside]
      simp
  | succ pos ih =>
      rw [collectLine, collectByte_eq, reverse_take_succ inside]
      generalize content.getD (pos + 1) 0 = ch
      by_cases ends : ch = newline
      · simp [ends, dropReturns]
      · simp only [beq_iff_eq, ends, if_false, ih (Nat.lt_of_succ_lt inside)]
        simp [dropReturns, ends, List.filter_cons]
        split <;> simp

/-- The first loop leaves the position of the last byte that is no line break;
when there is none it runs to the front. -/
theorem skipTrailing_spec {content : Bytes} {n : Nat} (inside : n ≤ content.length) :
    (content.take n).reverse.dropWhile isLineBreak =
        (content.take (skipTrailing content n + 1)).reverse ∧
      skipTrailing content n < content.length ∨
    (content.take n).reverse.dropWhile isLineBreak = [] ∧ skipTrailing content n = 0 := by
  induction n with
  | zero => exact Or.inr ⟨by simp, rfl⟩
  | succ pos ih =>
      rw [reverse_take_succ inside, skipTrailing]
      by_cases blank : isLineBreak (content.getD pos 0) = true
      · rw [List.dropWhile_cons_of_pos blank, if_pos blank]
        exact ih (by omega)
      · rw [List.dropWhile_cons_of_neg blank, if_neg blank]
        exact Or.inl ⟨(reverse_take_succ inside).symm, inside⟩

/-- A blank file has nothing to collect at its front. -/
private theorem collectLine_zero_of_blank {content : Bytes} (nonempty : content ≠ [])
    (blank : content.reverse.dropWhile isLineBreak = []) :
    collectLine content 0 [] = [] := by
  cases content with
  | nil => exact absurd rfl nonempty
  | cons byte rest =>
      have every := List.dropWhile_eq_nil_iff.mp blank
      have first : isLineBreak byte = true := every byte (by simp)
      simp only [isLineBreak, Bool.or_eq_true, beq_iff_eq] at first
      rw [collectLine, collectByte_eq, List.getD_cons_zero]
      rcases first with rfl | rfl <;> rfl

/-- The scan returns the last line without its carriage returns. -/
theorem getLastLineOfFile_eq (file : File) :
    getLastLineOfFile file = dropReturns (lastLine file.bytes) := by
  unfold getLastLineOfFile File.bytes
  cases file.content with
  | none => rfl
  | some content =>
      simp only [Option.getD_some]
      split
      · rename_i empty
        rw [List.eq_nil_of_length_eq_zero empty]
        rfl
      · rename_i nonempty
        have all : content.take content.length = content := List.take_length
        rcases skipTrailing_spec (Nat.le_refl content.length) with ⟨skip, inside⟩ | ⟨blank, front⟩
        · rw [all] at skip
          rw [collectLine_eq inside, lastLine, skip]
          simp [dropReturns, List.filter_reverse]
        · rw [all] at blank
          rw [front, collectLine_zero_of_blank (by simpa using nonempty) blank, lastLine, blank]
          rfl

end RemoteMonitoring
