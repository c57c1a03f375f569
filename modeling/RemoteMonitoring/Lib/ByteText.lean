/-
Module: RemoteMonitoring.Lib.ByteText
Purpose: Byte strings as text: decimal numerals, fields before a separator, and lines.
  Nothing here refers to a particular program.
Trusted boundary: none
Main exports: Bytes, ascii, decimal, leadingNumeral, fieldBefore, lines
-/
import Mathlib.Data.List.Basic
import Mathlib.Data.List.TakeWhile
import Mathlib.Tactic.IntervalCases

namespace ByteText

/-- A C `char` string: any bytes, without a terminator. -/
abbrev Bytes := List UInt8

/-- The bytes of an ASCII literal. -/
def ascii (text : String) : Bytes := text.toList.map Char.toUInt8

def newline : UInt8 := 10
def carriageReturn : UInt8 := 13
def pipe : UInt8 := 124

/-- What stands behind a part of a list that ends in `last` ends in `last` too. -/
theorem last_behind {α : Type} {front back whole : List α} {last : α}
    (same : whole ++ [last] = front ++ back) (nonempty : back ≠ []) :
    ∃ behind, back = behind ++ [last] ∧ whole = front ++ behind := by
  rcases List.eq_nil_or_concat back with empty | ⟨behind, final, split⟩
  · exact absurd empty nonempty
  · rw [List.concat_eq_append] at split
    rw [split, ← List.append_assoc] at same
    obtain ⟨text, ends⟩ := List.append_inj' same rfl
    exact ⟨behind, by rw [split, ends], text⟩

/-! ### Decimal numerals -/

def isDigit (byte : UInt8) : Bool := 48 ≤ byte.toNat && byte.toNat ≤ 57

/-- The decimal numeral of `n`, most significant digit first and without
leading zeros. -/
def decimal (n : Nat) : Bytes := (Nat.toDigits 10 n).map Char.toUInt8

/-- The value of a string of digits. -/
def numeralValue (digits : Bytes) : Nat :=
  digits.foldl (fun value digit => 10 * value + (digit.toNat - 48)) 0

/-- The value of the longest run of digits at the front of `text`, if there is
at least one digit. -/
def leadingNumeral (text : Bytes) : Option Nat :=
  match text.takeWhile isDigit with
  | [] => none
  | digits => some (numeralValue digits)

private theorem toUInt8_digitChar {digit : Nat} (small : digit < 10) :
    (Nat.digitChar digit).toUInt8.toNat = 48 + digit := by
  interval_cases digit <;> rfl

/-- The numeral of `n` is the numeral of `n / 10` followed by one more digit. -/
theorem decimal_step (n : Nat) :
    ∃ digit : UInt8, digit.toNat = 48 + n % 10 ∧
      decimal n = (if n < 10 then [] else decimal (n / 10)) ++ [digit] := by
  refine ⟨(Nat.digitChar (n % 10)).toUInt8,
    toUInt8_digitChar (Nat.mod_lt n (by decide)), ?_⟩
  unfold decimal
  rw [Nat.toDigits_eq_if (by decide)]
  split
  · rename_i small
    simp [Nat.mod_eq_of_lt small]
  · simp

theorem decimal_ne_nil (n : Nat) : decimal n ≠ [] := by
  obtain ⟨digit, _, same⟩ := decimal_step n
  simp [same]

theorem numeralValue_append_singleton (digits : Bytes) (digit : UInt8) :
    numeralValue (digits ++ [digit]) =
      10 * numeralValue digits + (digit.toNat - 48) := by
  simp [numeralValue]

/-- Reading a numeral back gives the number it was written from. -/
@[simp] theorem numeralValue_decimal (n : Nat) :
    numeralValue (decimal n) = n := by
  induction n using Nat.strongRecOn with
  | ind n ih =>
      obtain ⟨digit, value, same⟩ := decimal_step n
      rw [same, numeralValue_append_singleton, value]
      split
      · rename_i small
        simp [numeralValue, Nat.mod_eq_of_lt small]
      · rename_i large
        rw [ih (n / 10) (by omega)]
        omega

theorem isDigit_of_mem_decimal {n : Nat} {byte : UInt8}
    (member : byte ∈ decimal n) : isDigit byte = true := by
  induction n using Nat.strongRecOn with
  | ind n ih =>
      obtain ⟨digit, value, same⟩ := decimal_step n
      rw [same, List.mem_append, List.mem_singleton] at member
      rcases member with older | rfl
      · split at older
        · cases older
        · exact ih (n / 10) (by omega) older
      · have small : n % 10 < 10 := Nat.mod_lt n (by decide)
        simp only [isDigit, value, Bool.and_eq_true, decide_eq_true_eq]
        omega

/-- No separator of the text formats is a digit, so none occurs in a numeral. -/
theorem not_mem_decimal {n : Nat} {byte : UInt8} (other : isDigit byte = false) :
    byte ∉ decimal n := by
  intro member
  rw [isDigit_of_mem_decimal member] at other
  cases other

theorem decimal_injective {m n : Nat} (same : decimal m = decimal n) : m = n := by
  rw [← numeralValue_decimal m, same, numeralValue_decimal]

/-- A number below a power of ten has no more digits than that. -/
theorem decimal_length_le {n digits : Nat} (positive : 0 < digits) (small : n < 10 ^ digits) :
    (decimal n).length ≤ digits := by
  induction digits generalizing n with
  | zero => exact absurd positive (Nat.lt_irrefl 0)
  | succ digits ih =>
      obtain ⟨digit, _, same⟩ := decimal_step n
      rw [same, List.length_append, List.length_singleton]
      split
      · simp
      · rename_i large
        have quotient : n / 10 < 10 ^ digits := by
          rw [Nat.pow_succ] at small
          omega
        have more : 0 < digits := by
          rcases Nat.eq_zero_or_pos digits with rfl | more
          · simp at quotient
            omega
          · exact more
        have shorter := ih more quotient
        omega

/-- A numeral is read whole when what follows it does not start with a digit. -/
theorem leadingNumeral_append {digits rest : Bytes} (nonempty : digits ≠ [])
    (all : ∀ byte ∈ digits, isDigit byte = true)
    (stops : ∀ byte ∈ rest.head?, isDigit byte = false) :
    leadingNumeral (digits ++ rest) = some (numeralValue digits) := by
  have taken : (digits ++ rest).takeWhile isDigit = digits := by
    rw [List.takeWhile_append_of_pos all]
    cases rest with
    | nil => simp
    | cons byte rest => simp [stops byte (by simp)]
  unfold leadingNumeral
  rw [taken]
  cases digits with
  | nil => exact absurd rfl nonempty
  | cons digit digits => rfl

theorem leadingNumeral_decimal_append (n : Nat) {rest : Bytes}
    (stops : ∀ byte ∈ rest.head?, isDigit byte = false) :
    leadingNumeral (decimal n ++ rest) = some n := by
  rw [leadingNumeral_append (decimal_ne_nil n) (fun byte member => isDigit_of_mem_decimal member)
    stops, numeralValue_decimal]

@[simp] theorem leadingNumeral_decimal (n : Nat) :
    leadingNumeral (decimal n) = some n := by
  simpa using @leadingNumeral_decimal_append n [] (by simp)

/-- What follows a separator does not matter to the numeral in front of it. -/
theorem leadingNumeral_takeWhile {separator : UInt8} (other : isDigit separator = false)
    (text : Bytes) : leadingNumeral (text.takeWhile (· != separator)) = leadingNumeral text := by
  have digits : (text.takeWhile (· != separator)).takeWhile isDigit = text.takeWhile isDigit := by
    induction text with
    | nil => rfl
    | cons byte text ih =>
        by_cases digit : isDigit byte = true
        · have inside : (byte != separator) = true := by
            simp only [bne_iff_ne, ne_eq]
            rintro rfl
            rw [digit] at other
            cases other
          rw [List.takeWhile_cons, if_pos inside, List.takeWhile_cons_of_pos digit,
            List.takeWhile_cons_of_pos digit, ih]
        · rw [List.takeWhile_cons_of_neg digit, List.takeWhile_cons]
          split
          · rw [List.takeWhile_cons_of_neg digit]
          · rfl
  unfold leadingNumeral
  rw [digits]

/-! ### Lines

A line ends at a newline.  Bytes after the last newline form a line of their
own, so a file with an unterminated end still has that end as a line. -/

/-- The lines of a text whose first line starts with `current`. -/
def linesFrom : Bytes → Bytes → List Bytes
  | current, [] => if current = [] then [] else [current]
  | current, byte :: rest =>
      if byte = newline then current :: linesFrom [] rest
      else linesFrom (current ++ [byte]) rest

def lines (text : Bytes) : List Bytes := linesFrom [] text

/-- A text that is empty or ends in a newline. -/
def Terminated (text : Bytes) : Prop := text = [] ∨ ∃ front, text = front ++ [newline]

@[simp] theorem lines_nil : lines [] = [] := rfl

@[simp] theorem terminated_nil : Terminated [] := Or.inl rfl

theorem terminated_append_newline (front : Bytes) :
    Terminated (front ++ [newline]) := Or.inr ⟨front, rfl⟩

theorem Terminated.append {first second : Bytes} (one : Terminated first)
    (two : Terminated second) : Terminated (first ++ second) := by
  rcases two with rfl | ⟨front, rfl⟩
  · simpa using one
  · exact Or.inr ⟨first ++ front, by simp⟩

theorem Terminated.flatMap {α : Type} {texts : List α} {text : α → Bytes}
    (each : ∀ item ∈ texts, Terminated (text item)) :
    Terminated (texts.flatMap text) := by
  induction texts with
  | nil => exact terminated_nil
  | cons item items ih =>
      rw [List.flatMap_cons]
      exact (each item (by simp)).append (ih fun other member => each other (by simp [member]))

theorem linesFrom_append_newline (line : Bytes) (current rest : Bytes)
    (single : newline ∉ line) :
    linesFrom current (line ++ newline :: rest) = (current ++ line) :: lines rest := by
  induction line generalizing current with
  | nil => simp [linesFrom, lines]
  | cons byte line ih =>
      have different : byte ≠ newline := (List.ne_of_not_mem_cons single).symm
      simp [linesFrom, different, ih _ (List.not_mem_of_not_mem_cons single)]

theorem lines_append_newline {line : Bytes} (single : newline ∉ line) (rest : Bytes) :
    lines (line ++ newline :: rest) = line :: lines rest := by
  simpa [lines] using linesFrom_append_newline line [] rest single

theorem linesFrom_unterminated (line current : Bytes) (single : newline ∉ line) :
    linesFrom current line = if current ++ line = [] then [] else [current ++ line] := by
  induction line generalizing current with
  | nil => simp [linesFrom]
  | cons byte line ih =>
      have different : byte ≠ newline := (List.ne_of_not_mem_cons single).symm
      simp [linesFrom, different, ih _ (List.not_mem_of_not_mem_cons single)]

theorem lines_unterminated {line : Bytes} (single : newline ∉ line) (ne : line ≠ []) :
    lines line = [line] := by
  simp [lines, linesFrom_unterminated line [] single, ne]

/-- Splitting a text at its first newline, if it has one. -/
theorem split_first_newline (text : Bytes) :
    newline ∉ text ∨
      ∃ line rest, newline ∉ line ∧ text = line ++ newline :: rest := by
  by_cases member : newline ∈ text
  · obtain ⟨line, rest, same, single⟩ := List.eq_append_cons_of_mem member
    exact Or.inr ⟨line, rest, single, same⟩
  · exact Or.inl member

/-- After a terminated text a new line begins. -/
theorem lines_append {first : Bytes} (ends : Terminated first) (second : Bytes) :
    lines (first ++ second) = lines first ++ lines second := by
  rcases ends with rfl | ⟨front, rfl⟩
  · simp
  · induction h : front.length using Nat.strongRecOn generalizing front with
    | ind n ih =>
        rcases split_first_newline front with single | ⟨line, rest, single, rfl⟩
        · have one : lines (front ++ [newline]) = [front] := lines_append_newline single []
          rw [one, List.append_assoc]
          exact lines_append_newline single second
        · have shorter : rest.length < n := by simp at h; omega
          have tail := ih rest.length shorter rest rfl
          simp only [List.append_assoc, List.cons_append] at tail ⊢
          rw [lines_append_newline single, lines_append_newline single, tail, List.cons_append]

theorem lines_flatMap {α : Type} {texts : List α} {text : α → Bytes}
    (each : ∀ item ∈ texts, Terminated (text item)) :
    lines (texts.flatMap text) = texts.flatMap fun item => lines (text item) := by
  induction texts with
  | nil => rfl
  | cons item items ih =>
      rw [List.flatMap_cons, List.flatMap_cons, lines_append (each item (by simp)),
        ih fun other member => each other (by simp [member])]

/-- Lines contain no newline. -/
theorem newline_not_mem_of_mem_lines {text line : Bytes} (member : line ∈ lines text) :
    newline ∉ line := by
  induction size : text.length using Nat.strongRecOn generalizing text with
  | ind n ih =>
      rcases split_first_newline text with single | ⟨first, rest, single, rfl⟩
      · by_cases empty : text = []
        · subst empty
          cases member
        · rw [lines_unterminated single empty, List.mem_singleton] at member
          rw [member]
          exact single
      · rw [lines_append_newline single, List.mem_cons] at member
        rcases member with rfl | later
        · exact single
        · exact ih rest.length (by simp at size; omega) later rfl

/-- What precedes every newline is the front of the first line. -/
theorem lines_of_front {front : Bytes} (single : newline ∉ front) (visible : front ≠ [])
    (rest : Bytes) : ∃ end', front ++ end' ∈ lines (front ++ rest) := by
  rcases split_first_newline rest with whole | ⟨line, later, whole, rfl⟩
  · refine ⟨rest, ?_⟩
    rw [lines_unterminated (by simp [single, whole]) (by simp [visible])]
    exact List.mem_singleton.mpr rfl
  · refine ⟨line, ?_⟩
    rw [← List.append_assoc, lines_append_newline (by simp [single, whole])]
    exact List.mem_cons_self

/-! ### The last line -/

def isLineBreak (byte : UInt8) : Bool := byte == newline || byte == carriageReturn

/-- What follows the last newline once trailing line breaks are dropped. -/
def lastLine (text : Bytes) : Bytes :=
  ((text.reverse.dropWhile isLineBreak).takeWhile (· != newline)).reverse

@[simp] theorem lastLine_nil : lastLine [] = [] := rfl

/-- What precedes a terminated text does not matter, as long as a new line begins
behind it. -/
theorem lastLine_append {front line : Bytes} {last : UInt8} (ends : Terminated front)
    (visible : isLineBreak last = false) :
    lastLine (front ++ (line ++ [last] ++ [newline])) =
      lastLine (line ++ [last] ++ [newline]) := by
  have skipped : isLineBreak newline = true := rfl
  have stops : (front.reverse).takeWhile (· != newline) = [] := by
    rcases ends with rfl | ⟨older, rfl⟩ <;> simp
  have reversed : (front ++ (line ++ [last] ++ [newline])).reverse =
      newline :: last :: (line.reverse ++ front.reverse) := by simp
  have alone : (line ++ [last] ++ [newline]).reverse = newline :: last :: line.reverse := by simp
  unfold lastLine
  rw [reversed, alone, List.dropWhile_cons_of_pos skipped, List.dropWhile_cons_of_pos skipped,
    List.dropWhile_cons_of_neg (by simp [visible]), List.dropWhile_cons_of_neg (by simp [visible]),
    ← List.cons_append, List.takeWhile_append]
  split
  · rename_i whole
    rw [stops, List.append_nil, List.takeWhile_eq_self_iff.mpr]
    rw [← List.takeWhile_eq_self_iff]
    exact (List.takeWhile_prefix _).eq_of_length whole
  · rfl

/-- A single line is its own last line. -/
theorem lastLine_single {line : Bytes} {last : UInt8} (single : newline ∉ line ++ [last])
    (visible : isLineBreak last = false) :
    lastLine (line ++ [last] ++ [newline]) = line ++ [last] := by
  have skipped : isLineBreak newline = true := rfl
  have alone : (line ++ [last] ++ [newline]).reverse = newline :: last :: line.reverse := by simp
  have inside : ∀ byte ∈ last :: line.reverse, (byte != newline) = true := by
    intro byte member
    simp only [bne_iff_ne, ne_eq]
    rintro rfl
    exact single (by simpa [or_comm] using member)
  unfold lastLine
  rw [alone, List.dropWhile_cons_of_pos skipped, List.dropWhile_cons_of_neg (by simp [visible]),
    List.takeWhile_eq_self_iff.mpr inside]
  simp

/-- A visible last byte belongs to the last line. -/
theorem mem_lastLine {line : Bytes} {last : UInt8} (visible : isLineBreak last = false) :
    last ∈ lastLine (line ++ [last] ++ [newline]) := by
  have skipped : isLineBreak newline = true := rfl
  have alone : (line ++ [last] ++ [newline]).reverse = newline :: last :: line.reverse := by simp
  have kept : (last == newline) = false := by
    simp only [isLineBreak, Bool.or_eq_false_iff] at visible
    exact visible.1
  unfold lastLine
  rw [alone, List.dropWhile_cons_of_pos skipped, List.dropWhile_cons_of_neg (by simp [visible]),
    List.takeWhile_cons]
  simp [bne, kept]

end ByteText
