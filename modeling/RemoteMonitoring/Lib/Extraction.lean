/-
Module: RemoteMonitoring.Lib.Extraction
Purpose: `operator>>` on input streams for words, for single characters, and for unsigned
  integers in base 10 and 16, with what it takes from a text and what it leaves.
Trusted boundary: the documented behaviour of the standard library, in the C locale
Main exports: Base, Base.Numeral, IStream.extractWord, IStream.extractChar,
  IStream.extractNat, IStream.extractNat_numeral
-/
import RemoteMonitoring.Lib.IStream

open ByteText

/-- `std::dec` and `std::hex`. -/
inductive Base where
  | dec
  | hex
deriving DecidableEq, Repr

namespace Base

def radix : Base → Nat
  | dec => 10
  | hex => 16

def isDigit : Base → UInt8 → Bool
  | dec, byte => ByteText.isDigit byte
  | hex, byte =>
      ByteText.isDigit byte || (65 ≤ byte.toNat && byte.toNat ≤ 70) ||
        (97 ≤ byte.toNat && byte.toNat ≤ 102)

/-- The value of a digit, of an upper case letter and of a lower case letter. -/
def digitValue (byte : UInt8) : Nat :=
  if byte.toNat ≤ 57 then byte.toNat - 48
  else if byte.toNat ≤ 70 then byte.toNat - 55
  else byte.toNat - 87

def value (base : Base) (digits : Bytes) : Nat :=
  digits.foldl (fun value digit => base.radix * value + digitValue digit) 0

/-- In base 16 a numeral may start with `0x`. -/
def dropMark : Base → Bytes → Bytes
  | hex, 48 :: mark :: rest => if mark = 120 ∨ mark = 88 then rest else 48 :: mark :: rest
  | _, text => text

/-- A numeral in the range of a type. -/
structure Numeral (base : Base) (bound : Nat) where
  digits : Bytes
  nonempty : digits ≠ []
  all : ∀ byte ∈ digits, base.isDigit byte = true
  small : base.value digits < bound

def Numeral.toNat {base : Base} {bound : Nat} (numeral : base.Numeral bound) : Nat :=
  base.value numeral.digits

/-- What may follow a numeral: no digit, and no mark that would turn a 0 into one. -/
def Stops (base : Base) (rest : Bytes) : Prop :=
  ∀ byte ∈ rest.head?, base.isDigit byte = false ∧ byte ≠ 120 ∧ byte ≠ 88

theorem bounds_of_isDigit {base : Base} {byte : UInt8} (digit : base.isDigit byte = true) :
    48 ≤ byte.toNat ∧ byte.toNat ≤ 102 := by
  cases base with
  | dec =>
      simp only [isDigit, ByteText.isDigit, Bool.and_eq_true, decide_eq_true_eq] at digit
      omega
  | hex =>
      simp only [isDigit, ByteText.isDigit, Bool.or_eq_true, Bool.and_eq_true,
        decide_eq_true_eq] at digit
      omega

theorem ne_of_isDigit {base : Base} {byte : UInt8} (digit : base.isDigit byte = true)
    (other : UInt8) (outside : ∀ base : Base, base.isDigit other = false) : byte ≠ other := by
  rintro rfl
  rw [outside base] at digit
  cases digit

/-- The bytes that mean something in front of the digits. -/
theorem not_isDigit_marks (base : Base) :
    base.isDigit 43 = false ∧ base.isDigit 45 = false ∧ base.isDigit 88 = false ∧
      base.isDigit 120 = false := by
  cases base with
  | dec => decide
  | hex => decide

theorem isSpace_of_isDigit {base : Base} {byte : UInt8} (digit : base.isDigit byte = true) :
    IStream.isSpace byte = false := by
  have bounds := bounds_of_isDigit digit
  have blank : byte ≠ 32 := by
    rintro rfl
    exact absurd bounds.1 (by decide)
  simp only [IStream.isSpace, Bool.or_eq_false_iff, beq_eq_false_iff_ne, Bool.and_eq_false_iff,
    decide_eq_false_iff_not]
  exact ⟨blank, Or.inr (by omega)⟩

/-- Digits do not start with the mark of their base. -/
theorem dropMark_append {base : Base} {digits rest : Bytes}
    (all : ∀ byte ∈ digits, base.isDigit byte = true) (nonempty : digits ≠ [])
    (stops : base.Stops rest) : base.dropMark (digits ++ rest) = digits ++ rest := by
  obtain ⟨first, digits, rfl⟩ := List.exists_cons_of_ne_nil nonempty
  cases base with
  | dec => rfl
  | hex =>
      have second : ∀ byte ∈ (digits ++ rest).head?, byte ≠ 120 ∧ byte ≠ 88 := by
        intro byte head
        cases digits with
        | nil => exact (stops byte head).2
        | cons second digits =>
            have digit := all second (by simp)
            rw [List.cons_append, List.head?_cons, Option.mem_some_iff] at head
            subst head
            exact ⟨ne_of_isDigit digit 120 fun base => (not_isDigit_marks base).2.2.2,
              ne_of_isDigit digit 88 fun base => (not_isDigit_marks base).2.2.1⟩
      rw [List.cons_append]
      cases behind : digits ++ rest with
      | nil =>
          unfold dropMark
          split
          · rename_i same
            cases same
          · rfl
      | cons mark text =>
          have other := second mark (by simp [behind])
          unfold dropMark
          split
          · rename_i same
            cases same
            simp [other]
          · rfl

theorem stops_space (base : Base) (rest : Bytes) : base.Stops (32 :: rest) := by
  intro byte head
  obtain rfl := Option.some.inj head
  cases base with
  | dec => decide
  | hex => decide

theorem stops_colon (rest : Bytes) : hex.Stops (58 :: rest) := by
  intro byte head
  obtain rfl := Option.some.inj head
  decide

/-- Digits are taken up to where they stop. -/
theorem takeWhile_append {base : Base} {digits rest : Bytes}
    (all : ∀ byte ∈ digits, base.isDigit byte = true) (stops : base.Stops rest) :
    (digits ++ rest).takeWhile base.isDigit = digits ∧
      (digits ++ rest).dropWhile base.isDigit = rest := by
  rw [List.takeWhile_append_of_pos all, List.dropWhile_append_of_pos all]
  cases rest with
  | nil => simp
  | cons byte rest =>
      have stop := (stops byte rfl).1
      simp [stop]

end Base

namespace IStream

/-- `is >> target` for a string: the bytes up to the next white space. -/
def extractWord (target : Bytes) (is : IStream) : Bytes × IStream :=
  if is.good then
    match is.rest.dropWhile isSpace with
    | [] => (target, ⟨[], true, true⟩)
    | text =>
        let rest := text.dropWhile (!isSpace ·)
        (text.takeWhile (!isSpace ·), ⟨rest, rest.isEmpty, false⟩)
  else (target, { is with fail := true })

/-- `is >> target` for a `char`. -/
def extractChar (target : UInt8) (is : IStream) : UInt8 × IStream :=
  if is.good then
    match is.rest.dropWhile isSpace with
    | [] => (target, ⟨[], true, true⟩)
    | byte :: rest => (byte, ⟨rest, false, false⟩)
  else (target, { is with fail := true })

/-- `is >> base >> target` for an unsigned type with `bound` values; nothing if the target keeps
its value. -/
def extractNat (base : Base) (bound : Nat) (is : IStream) : Option Nat × IStream :=
  if is.good then
    match is.rest.dropWhile isSpace with
    | [] => (none, ⟨[], true, true⟩)
    | text =>
        let (negative, numeral) := takeSign text
        let numeral := base.dropMark numeral
        let digits := numeral.takeWhile base.isDigit
        let rest := numeral.dropWhile base.isDigit
        if digits = [] then (some 0, ⟨rest, rest.isEmpty, true⟩)
        else if base.value digits < bound then
          let value := base.value digits
          (some (if negative then (bound - value) % bound else value), ⟨rest, rest.isEmpty, false⟩)
        else (some (bound - 1), ⟨rest, rest.isEmpty, true⟩)
  else (none, { is with fail := true })

def extractUInt32 (base : Base) (target : UInt32) (is : IStream) : UInt32 × IStream :=
  let (value, is) := is.extractNat base (2 ^ 32)
  ((value.map UInt32.ofNat).getD target, is)

def extractUInt16 (base : Base) (target : UInt16) (is : IStream) : UInt16 × IStream :=
  let (value, is) := is.extractNat base (2 ^ 16)
  ((value.map UInt16.ofNat).getD target, is)

theorem dropWhile_spaces (gap : Nat) {byte : UInt8} (visible : isSpace byte = false)
    (text : Bytes) :
    (List.replicate gap 32 ++ byte :: text).dropWhile isSpace = byte :: text := by
  have blank : ∀ other ∈ List.replicate gap (32 : UInt8), isSpace other = true := by
    intro other member
    rw [(List.mem_replicate.mp member).2]
    rfl
  rw [List.dropWhile_append_of_pos blank, List.dropWhile_cons_of_neg (by simp [visible])]

/-- Behind some blanks the word is extracted, and the blank that ends it stays. -/
theorem extractWord_append (gap : Nat) {word : Bytes} (nonempty : word ≠ [])
    (visible : ∀ byte ∈ word, isSpace byte = false) (target : Bytes) {stop : UInt8}
    (blank : isSpace stop = true) (rest : Bytes) :
    (ofBytes (List.replicate gap 32 ++ word ++ stop :: rest)).extractWord target =
      (word, ofBytes (stop :: rest)) := by
  obtain ⟨first, more, rfl⟩ := List.exists_cons_of_ne_nil nonempty
  have inside : ∀ byte ∈ first :: more, (!isSpace byte) = true := by
    intro byte member
    simp [visible byte member]
  have skipped := dropWhile_spaces gap (visible first (by simp)) (more ++ stop :: rest)
  have taken : ((first :: more) ++ stop :: rest).takeWhile (!isSpace ·) = first :: more := by
    rw [List.takeWhile_append_of_pos inside]
    simp [blank]
  have left : ((first :: more) ++ stop :: rest).dropWhile (!isSpace ·) = stop :: rest := by
    rw [List.dropWhile_append_of_pos inside]
    simp [blank]
  rw [List.cons_append] at taken left
  simp only [extractWord, good_ofBytes, rest_ofBytes, List.append_assoc, List.cons_append, skipped,
    if_true, taken, left]
  rfl

theorem extractChar_cons {byte : UInt8} (visible : isSpace byte = false) (target : UInt8)
    (rest : Bytes) : (ofBytes (byte :: rest)).extractChar target = (byte, ofBytes rest) := by
  have skipped := dropWhile_spaces 0 visible rest
  rw [List.replicate_zero, List.nil_append] at skipped
  simp only [extractChar, good_ofBytes, rest_ofBytes, skipped, if_true]
  rfl

/-- A numeral is taken whole, and what follows it is left. -/
theorem extractNat_numeral (gap : Nat) {base : Base} {bound : Nat} (numeral : base.Numeral bound)
    {rest : Bytes} (stops : base.Stops rest) :
    (ofBytes (List.replicate gap 32 ++ numeral.digits ++ rest)).extractNat base bound =
      (some numeral.toNat, ⟨rest, rest.isEmpty, false⟩) := by
  obtain ⟨digits, nonempty, all, small⟩ := numeral
  have whole := Base.dropMark_append all nonempty stops
  obtain ⟨taken, left⟩ := Base.takeWhile_append all stops
  obtain ⟨first, more, rfl⟩ := List.exists_cons_of_ne_nil nonempty
  have digit := all first (by simp)
  have skipped := dropWhile_spaces gap (Base.isSpace_of_isDigit digit) (more ++ rest)
  have plus := Base.ne_of_isDigit digit 43 fun base => (Base.not_isDigit_marks base).1
  have minus := Base.ne_of_isDigit digit 45 fun base => (Base.not_isDigit_marks base).2.1
  have sign : takeSign (first :: (more ++ rest)) = (false, first :: (more ++ rest)) := by
    simp [takeSign, plus, minus]
  rw [List.cons_append] at whole taken left
  simp only [extractNat, good_ofBytes, rest_ofBytes, List.append_assoc, List.cons_append, skipped,
    if_true, sign, whole, taken, left, Base.Numeral.toNat, small, if_false, reduceCtorEq]

theorem extractUInt32_numeral (gap : Nat) {base : Base} (numeral : base.Numeral (2 ^ 32))
    (target : UInt32) {rest : Bytes} (stops : base.Stops rest) :
    (ofBytes (List.replicate gap 32 ++ numeral.digits ++ rest)).extractUInt32 base target =
      (UInt32.ofNat numeral.toNat, ⟨rest, rest.isEmpty, false⟩) := by
  rw [extractUInt32, extractNat_numeral gap numeral stops]
  rfl

theorem extractUInt16_numeral (gap : Nat) {base : Base} (numeral : base.Numeral (2 ^ 16))
    (target : UInt16) {rest : Bytes} (stops : base.Stops rest) :
    (ofBytes (List.replicate gap 32 ++ numeral.digits ++ rest)).extractUInt16 base target =
      (UInt16.ofNat numeral.toNat, ⟨rest, rest.isEmpty, false⟩) := by
  rw [extractUInt16, extractNat_numeral gap numeral stops]
  rfl

end IStream
