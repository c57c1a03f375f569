/-
Module: RemoteMonitoring.Lib.IStream
Purpose: The input side of the C++ standard library on byte strings: `std::istream` with its
  eof and fail bits, `read`, `std::getline`, `operator>>` for unsigned integers, and
  `std::from_chars`.
Trusted boundary: the documented behaviour of the standard library, in the C locale
Main exports: IStream, IStream.read, IStream.getline, IStream.extractUInt64, fromChars
-/
import RemoteMonitoring.Lib.ByteText

open ByteText

/-- An input stream: the bytes not yet extracted and the two state bits that
the extraction functions set. -/
structure IStream where
  rest : Bytes
  eof : Bool
  fail : Bool
deriving DecidableEq, Repr, Inhabited

namespace IStream

def ofBytes (content : Bytes) : IStream := ⟨content, false, false⟩

def good (is : IStream) : Bool := !is.eof && !is.fail

@[simp] theorem rest_ofBytes (content : Bytes) : (ofBytes content).rest = content := rfl
@[simp] theorem eof_ofBytes (content : Bytes) : (ofBytes content).eof = false := rfl
@[simp] theorem fail_ofBytes (content : Bytes) : (ofBytes content).fail = false := rfl
@[simp] theorem good_ofBytes (content : Bytes) : (ofBytes content).good = true := rfl

/-- `is.read(buffer, count)`: the bytes stored into the buffer.  A read that
comes up short keeps what it got and sets both state bits. -/
def read (count : Nat) (is : IStream) : Bytes × IStream :=
  if is.good then
    if count ≤ is.rest.length then
      (is.rest.take count, { is with rest := is.rest.drop count })
    else (is.rest, ⟨[], true, true⟩)
  else ([], { is with fail := true })

/-- `std::getline(is, target, separator)`.  A stream that is not good leaves
the target string as it was; otherwise the target is cleared first, the
separator is extracted but not stored, and extracting nothing at all fails. -/
def getline (separator : UInt8) (target : Bytes) (is : IStream) : Bytes × IStream :=
  if is.good then
    match is.rest.dropWhile (· != separator) with
    | _ :: rest => (is.rest.takeWhile (· != separator), { is with rest := rest })
    | [] => (is.rest, ⟨[], true, is.rest.isEmpty⟩)
  else (target, { is with fail := true })

theorem read_of_append {count : Nat} {front : Bytes} (rest : Bytes)
    (exact : front.length = count) :
    (ofBytes (front ++ rest)).read count = (front, ofBytes rest) := by
  subst exact
  simp [read, ofBytes, good]

/-- A read either takes its bytes or empties the stream and sets both state bits. -/
theorem read_ofBytes (count : Nat) (content : Bytes) :
    (ofBytes content).read count =
      if count ≤ content.length then (content.take count, ofBytes (content.drop count))
      else (content, ⟨[], true, true⟩) := rfl

theorem read_of_not_good {is : IStream} (count : Nat) (bad : is.good = false) :
    is.read count = ([], { is with fail := true }) := by
  simp [read, bad]

/-- A field that is followed by its separator. -/
theorem getline_append {separator : UInt8} {front : Bytes} (target rest : Bytes)
    (single : separator ∉ front) :
    (ofBytes (front ++ separator :: rest)).getline separator target =
      (front, ofBytes rest) := by
  have inside : ∀ byte ∈ front, (byte != separator) = true := by
    intro byte member
    simp only [bne_iff_ne, ne_eq]
    rintro rfl
    exact single member
  simp [getline, ofBytes, good, List.dropWhile_append_of_pos inside,
    List.takeWhile_append_of_pos inside]

/-- A field that the end of the stream closes. -/
theorem getline_end {separator : UInt8} {content : Bytes} (target : Bytes)
    (single : separator ∉ content) :
    (ofBytes content).getline separator target =
      (content, ⟨[], true, content.isEmpty⟩) := by
  have inside : ∀ byte ∈ content, (byte != separator) = true := by
    intro byte member
    simp only [bne_iff_ne, ne_eq]
    rintro rfl
    exact single member
  have none : content.dropWhile (· != separator) = [] :=
    List.dropWhile_eq_nil_iff.mpr inside
  simp [getline, good, none]

theorem getline_of_not_good {is : IStream} (separator : UInt8) (target : Bytes)
    (bad : is.good = false) :
    is.getline separator target = (target, { is with fail := true }) := by
  simp [getline, bad]

/-- A field of a fresh stream is what stands in front of the separator. -/
theorem getline_ofBytes (separator : UInt8) (target content : Bytes) :
    ((ofBytes content).getline separator target).1 = content.takeWhile (· != separator) := by
  simp only [getline, good_ofBytes, if_true, rest_ofBytes]
  split
  · rfl
  · rename_i none
    exact (List.takeWhile_eq_self_iff.mpr (List.dropWhile_eq_nil_iff.mp none)).symm

/-- A field never contains its separator, and its bytes are those of the stream. -/
theorem mem_getline {separator byte : UInt8} {is : IStream}
    (member : byte ∈ (is.getline separator []).1) : byte ≠ separator ∧ byte ∈ is.rest := by
  cases good : is.good with
  | false =>
      rw [getline_of_not_good separator [] good] at member
      cases member
  | true =>
      simp only [getline, good, if_true] at member
      split at member
      · have inside := List.mem_takeWhile_imp member
        exact ⟨by simpa using inside, (List.takeWhile_sublist _).mem member⟩
      · rename_i none
        have inside := List.dropWhile_eq_nil_iff.mp none byte member
        exact ⟨by simpa using inside, member⟩

/-- What is left of a stream was in it. -/
theorem mem_rest_getline {separator byte : UInt8} {target : Bytes} {is : IStream}
    (member : byte ∈ (is.getline separator target).2.rest) : byte ∈ is.rest := by
  cases good : is.good with
  | false =>
      rw [getline_of_not_good separator target good] at member
      exact member
  | true =>
      simp only [getline, good, if_true] at member
      split at member
      · rename_i later same
        apply (List.dropWhile_sublist (· != separator)).mem
        rw [same]
        exact List.mem_cons_of_mem _ member
      · cases member

/-! ### Formatted extraction -/

/-- `std::isspace` in the C locale. -/
def isSpace (byte : UInt8) : Bool := byte == 32 || (9 ≤ byte.toNat && byte.toNat ≤ 13)

/-- An optional sign in front of a numeral. -/
def takeSign : Bytes → Bool × Bytes
  | byte :: rest =>
      if byte = 45 then (true, rest)
      else if byte = 43 then (false, rest)
      else (false, byte :: rest)
  | [] => (false, [])

/-- `is >> target` for a 64-bit unsigned integer.  When only white space is left
the target keeps its old value; without a digit it becomes 0, and a numeral that
does not fit becomes the largest value. -/
def extractUInt64 (target : UInt64) (is : IStream) : UInt64 × IStream :=
  if is.good then
    match is.rest.dropWhile isSpace with
    | [] => (target, ⟨[], true, true⟩)
    | text =>
        let (negative, numeral) := takeSign text
        let digits := numeral.takeWhile isDigit
        let rest := numeral.dropWhile isDigit
        if digits = [] then (0, ⟨rest, rest.isEmpty, true⟩)
        else if numeralValue digits < 2 ^ 64 then
          let value := UInt64.ofNat (numeralValue digits)
          (if negative then -value else value, ⟨rest, rest.isEmpty, false⟩)
        else (UInt64.ofNat (2 ^ 64 - 1), ⟨rest, rest.isEmpty, true⟩)
  else (target, { is with fail := true })

theorem extractUInt64_nil (target : UInt64) :
    ((ofBytes []).extractUInt64 target).1 = target := rfl

end IStream

/-! ### `std::from_chars` -/

/-- The value `std::from_chars` stores for an unsigned type with `bound` values:
none when no digit is found or the numeral is out of range, in which case the
target keeps its old value. -/
def fromChars (bound : Nat) (text : Bytes) : Option Nat :=
  (leadingNumeral text).filter (· < bound)

def fromCharsUInt64 (target : UInt64) (text : Bytes) : UInt64 :=
  ((fromChars (2 ^ 64) text).map UInt64.ofNat).getD target

def fromCharsUInt32 (target : UInt32) (text : Bytes) : UInt32 :=
  ((fromChars (2 ^ 32) text).map UInt32.ofNat).getD target

theorem fromChars_of_leadingNumeral {bound n : Nat} {text : Bytes}
    (reads : leadingNumeral text = some n) (fits : n < bound) :
    fromChars bound text = some n := by
  simp [fromChars, reads, fits]

theorem lt_of_fromChars {bound n : Nat} {text : Bytes} (reads : fromChars bound text = some n) :
    n < bound := by
  simp only [fromChars, Option.filter_eq_some_iff, decide_eq_true_eq] at reads
  exact reads.2

/-- A number that was printed in the range of its type is read back. -/
theorem fromCharsUInt64_of_leadingNumeral {target value : UInt64} {text : Bytes}
    (reads : leadingNumeral text = some value.toNat) :
    fromCharsUInt64 target text = value := by
  simp [fromCharsUInt64, fromChars_of_leadingNumeral reads value.toNat_lt]

theorem fromCharsUInt32_of_leadingNumeral {target value : UInt32} {text : Bytes}
    (reads : leadingNumeral text = some value.toNat) :
    fromCharsUInt32 target text = value := by
  simp [fromCharsUInt32, fromChars_of_leadingNumeral reads value.toNat_lt]

/-- Only a numeral in range determines the value, whatever the target held. -/
theorem forall_fromCharsUInt64_iff {value : UInt64} {text : Bytes} :
    (∀ target, fromCharsUInt64 target text = value) ↔
      leadingNumeral text = some value.toNat := by
  constructor
  · intro determined
    cases reads : fromChars (2 ^ 64) text with
    | none =>
        have kept : ∀ target, fromCharsUInt64 target text = target := by
          intro target
          rw [fromCharsUInt64, reads]
          rfl
        have zero := (kept 0).symm.trans (determined 0)
        have one := (kept 1).symm.trans (determined 1)
        exact absurd (zero.trans one.symm) (by decide)
    | some n =>
        have bound := lt_of_fromChars reads
        have same := determined 0
        simp only [fromCharsUInt64, reads, Option.map_some, Option.getD_some] at same
        simp only [fromChars, Option.filter_eq_some_iff] at reads
        rw [← same, UInt64.toNat_ofNat', Nat.mod_eq_of_lt bound]
        exact reads.1
  · intro reads target
    exact fromCharsUInt64_of_leadingNumeral reads

theorem fromCharsUInt64_congr {target : UInt64} {one two : Bytes}
    (same : leadingNumeral one = leadingNumeral two) :
    fromCharsUInt64 target one = fromCharsUInt64 target two := by
  unfold fromCharsUInt64 fromChars
  rw [same]

@[simp] theorem fromCharsUInt64_decimal (target value : UInt64) :
    fromCharsUInt64 target (decimal value.toNat) = value :=
  fromCharsUInt64_of_leadingNumeral (leadingNumeral_decimal _)

@[simp] theorem fromCharsUInt32_decimal (target value : UInt32) :
    fromCharsUInt32 target (decimal value.toNat) = value :=
  fromCharsUInt32_of_leadingNumeral (leadingNumeral_decimal _)

/-- An integer written with `operator<<` is read back with `operator>>`. -/
theorem IStream.extractUInt64_decimal (target value : UInt64) :
    ((IStream.ofBytes (decimal value.toNat)).extractUInt64 target).1 = value := by
  have digits : ∀ byte ∈ decimal value.toNat, isDigit byte = true :=
    fun byte member => isDigit_of_mem_decimal member
  obtain ⟨byte, rest, same⟩ := List.exists_cons_of_ne_nil (decimal_ne_nil value.toNat)
  have first : isDigit byte = true := digits byte (by simp [same])
  have bounds : 48 ≤ byte.toNat ∧ byte.toNat ≤ 57 := by simpa [isDigit] using first
  have skip : (decimal value.toNat).dropWhile isSpace = byte :: rest := by
    rw [same, List.dropWhile_cons_of_neg]
    simp only [isSpace, Bool.or_eq_true, beq_iff_eq, Bool.and_eq_true, decide_eq_true_eq,
      ← UInt8.toNat_inj, UInt8.reduceToNat]
    omega
  have sign : takeSign (byte :: rest) = (false, byte :: rest) := by
    have minus : byte ≠ 45 := by rintro rfl; simp at bounds
    have plus : byte ≠ 43 := by rintro rfl; simp at bounds
    simp [takeSign, minus, plus]
  have all : (byte :: rest).takeWhile isDigit = decimal value.toNat := by
    rw [← same, List.takeWhile_eq_self_iff]
    exact digits
  have nonempty : decimal value.toNat ≠ [] := decimal_ne_nil _
  simp only [extractUInt64, good_ofBytes, rest_ofBytes, skip, sign, all, if_true]
  simp [nonempty, value.toNat_lt]
