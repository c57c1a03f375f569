/-
Module: RemoteMonitoring.Lib.Interleave
Purpose: Interleavings of any number of words, each of which keeps its own order: how they are
  composed, and when two words can only be interleaved to one behind the other.
Trusted boundary: none
Main exports: Interleaves, Interleaves.perm, Interleaves.sublist, Interleaves.flatten_append,
  constant_of_orders
-/
import Mathlib.Data.List.Perm.Basic

variable {α : Type}

/-- `out` takes the words apart letter by letter, each word from its front. -/
inductive Interleaves : List (List α) → List α → Prop where
  | nil {words : List (List α)} (done : ∀ word ∈ words, word = []) : Interleaves words []
  | cons {words rest : List (List α)} {letter : α} {word out : List α}
      (split : words.Perm ((letter :: word) :: rest)) (later : Interleaves (word :: rest) out) :
      Interleaves words (letter :: out)

namespace Interleaves

/-- The order of the words does not matter. -/
theorem of_perm {words others : List (List α)} {out : List α} (same : words.Perm others)
    (interleaves : Interleaves others out) : Interleaves words out := by
  cases interleaves with
  | nil done => exact .nil fun word member => done word (same.mem_iff.mp member)
  | cons split later => exact .cons (same.trans split) later

/-- An empty word adds nothing. -/
theorem nil_cons {words : List (List α)} {out : List α} (interleaves : Interleaves words out) :
    Interleaves ([] :: words) out := by
  induction interleaves with
  | nil done =>
      apply Interleaves.nil
      intro word member
      rcases List.mem_cons.mp member with empty | older
      · exact empty
      · exact done word older
  | @cons words rest letter word out split later ih =>
      have moved : ([] :: words).Perm ((letter :: word) :: [] :: rest) :=
        (split.cons []).trans (List.Perm.swap _ _ _)
      exact .cons moved (of_perm (List.Perm.swap _ _ _) ih)

/-- The front of a word may be taken first. -/
theorem prepend (front : List α) {word out : List α} {rest : List (List α)}
    (interleaves : Interleaves (word :: rest) out) :
    Interleaves ((front ++ word) :: rest) (front ++ out) := by
  induction front with
  | nil => exact interleaves
  | cons letter front ih => exact .cons (List.Perm.refl _) ih

/-- A word may be taken as a whole first. -/
theorem append_cons (word : List α) {rest : List (List α)} {out : List α}
    (interleaves : Interleaves rest out) : Interleaves (word :: rest) (word ++ out) := by
  have taken := prepend word (nil_cons interleaves)
  rwa [List.append_nil] at taken

/-- Some words may be taken one after another before the rest. -/
theorem flatten_append (first : List (List α)) {words : List (List α)} {out : List α}
    (interleaves : Interleaves words out) :
    Interleaves (first ++ words) (first.flatten ++ out) := by
  induction first with
  | nil => exact interleaves
  | cons word first ih =>
      rw [List.flatten_cons, List.append_assoc]
      exact append_cons word ih

/-- All words one after another. -/
theorem flatten (words : List (List α)) : Interleaves words words.flatten := by
  have none : Interleaves ([] : List (List α)) [] := .nil (by simp)
  have whole := flatten_append words none
  rwa [List.append_nil, List.append_nil] at whole

/-- No letter is lost or duplicated. -/
theorem perm {words : List (List α)} {out : List α} (interleaves : Interleaves words out) :
    out.Perm words.flatten := by
  induction interleaves with
  | nil done =>
      rw [List.flatten_eq_nil_iff.mpr done]
  | cons split later ih =>
      apply List.Perm.trans _ split.flatten.symm
      exact ih.cons _

/-- Every word keeps its own order. -/
theorem sublist {words : List (List α)} {word out : List α}
    (interleaves : Interleaves words out) (member : word ∈ words) : word.Sublist out := by
  induction interleaves generalizing word with
  | nil done =>
      rw [done word member]
  | @cons words rest letter tail out split later ih =>
      rcases List.mem_cons.mp (split.mem_iff.mp member) with rfl | other
      · exact (ih List.mem_cons_self).cons_cons letter
      · exact (ih (List.mem_cons_of_mem _ other)).cons letter

/-- One word comes out as it is when the others are empty. -/
theorem eq_of_flatten {words : List (List α)} {word out : List α}
    (interleaves : Interleaves words out) (member : word ∈ words)
    (others : words.flatten = word) : out = word := by
  have lengths := interleaves.perm.length_eq
  rw [others] at lengths
  exact ((interleaves.sublist member).eq_of_length lengths.symm).symm

theorem eq_of_singleton {word out : List α} (interleaves : Interleaves [word] out) :
    out = word :=
  interleaves.eq_of_flatten List.mem_cons_self (by simp)

end Interleaves

/-! ### Two words -/

/-- A word by its leading copies of a letter and what follows. -/
theorem exists_leading [DecidableEq α] (letter : α) (word : List α) :
    ∃ count rest, word = List.replicate count letter ++ rest ∧
      (rest = [] ∨ ∃ other tail, rest = other :: tail ∧ other ≠ letter) := by
  induction word with
  | nil => exact ⟨0, [], rfl, Or.inl rfl⟩
  | cons first word ih =>
      by_cases same : first = letter
      · obtain ⟨count, rest, split, ends⟩ := ih
        refine ⟨count + 1, rest, ?_, ends⟩
        rw [same, split, List.replicate_succ, List.cons_append]
      · exact ⟨0, first :: word, rfl, Or.inr ⟨first, word, rfl, same⟩⟩

/-- The number of leading copies is determined. -/
theorem leading_unique {letter one two : α} {count other : Nat} {tail rest : List α}
    (first : one ≠ letter) (second : two ≠ letter)
    (same : List.replicate count letter ++ one :: tail =
      List.replicate other letter ++ two :: rest) : count = other := by
  induction count generalizing other with
  | zero =>
      cases other with
      | zero => rfl
      | succ other =>
          rw [List.replicate_succ, List.cons_append] at same
          exact absurd (List.cons.inj same).1 first
  | succ count ih =>
      cases other with
      | zero =>
          rw [List.replicate_succ, List.cons_append] at same
          exact absurd (List.cons.inj same).1.symm second
      | succ other =>
          rw [List.replicate_succ, List.replicate_succ, List.cons_append, List.cons_append]
            at same
          rw [ih (List.cons.inj same).2]

/-- The same with some of the leading letters taken apart. -/
theorem leading_append_unique {letter next next' : α} {one two count : Nat}
    {tail rest tail' rest' : List α} (differs : next ≠ letter) (differs' : next' ≠ letter)
    (same : List.replicate one letter ++ (List.replicate two letter ++ next :: tail ++ rest) =
      List.replicate count letter ++ next' :: tail' ++ rest') : one + two = count := by
  rw [← List.append_assoc, ← List.append_assoc, List.replicate_append_replicate,
    List.append_assoc, List.append_assoc, List.cons_append, List.cons_append] at same
  exact leading_unique differs differs' same

/-- Two words can only be sent one behind the other. -/
def OnlyOrders (first second : List α) : Prop :=
  ∀ out, Interleaves [first, second] out → out = first ++ second ∨ out = second ++ first

theorem OnlyOrders.symm {first second : List α} (only : OnlyOrders first second) :
    OnlyOrders second first := by
  intro out interleaves
  exact (only out (.of_perm (List.Perm.swap _ _ _) interleaves)).symm

/-- The front of the second word may be taken before all of the first. -/
theorem OnlyOrders.front {first front rest : List α} (only : OnlyOrders first (front ++ rest)) :
    front ++ (first ++ rest) = first ++ (front ++ rest) ∨
      front ++ (first ++ rest) = (front ++ rest) ++ first := by
  apply only
  apply Interleaves.of_perm (List.Perm.swap _ _ _)
  apply Interleaves.prepend
  apply Interleaves.of_perm (List.Perm.swap _ _ _)
  have both := Interleaves.flatten [first, rest]
  simpa using both

/-- Behind a common first letter, a different letter in the first word shows up at
a place that neither order has. -/
theorem OnlyOrders.first_constant {letter : α} {count other : Nat} {first second : List α}
    (only : OnlyOrders (List.replicate count letter ++ first)
      (List.replicate other letter ++ second))
    (firstStarts : 0 < count) (secondStarts : 0 < other) (long : 2 ≤ other + second.length)
    (firstEnds : first = [] ∨ ∃ next tail, first = next :: tail ∧ next ≠ letter)
    (secondEnds : second = [] ∨ ∃ next tail, second = next :: tail ∧ next ≠ letter) :
    first = [] := by
  rcases firstEnds with none | ⟨next, tail, rfl, differs⟩
  · exact none
  · exfalso
    rcases secondEnds with rfl | ⟨next', tail', rfl, differs'⟩
    · -- the second word is constant: take one letter of it, then all of the first
      obtain ⟨more, rfl⟩ : ∃ more, other = more + 1 := ⟨other - 1, by omega⟩
      have positive : 0 < more := by
        simp only [List.length_nil] at long
        omega
      have split : List.replicate (more + 1) letter ++ [] =
          List.replicate 1 letter ++ List.replicate more letter := by
        rw [List.append_nil, List.replicate_append_replicate, Nat.add_comm]
      rw [split] at only
      rcases only.front with same | same
      · have equal := leading_append_unique differs differs same
        omega
      · rw [← List.append_assoc, ← List.append_assoc, List.replicate_append_replicate,
          List.replicate_append_replicate, ← List.append_assoc,
          List.replicate_append_replicate, List.append_assoc, List.cons_append] at same
        have equal := leading_unique differs differs same
        omega
    · -- the second word has a different letter, too: take its leading letters first
      rcases only.front with same | same
      · have equal := leading_append_unique differs differs same
        omega
      · have equal := leading_append_unique differs differs' same
        omega

/-- Words that start with different letters can be interleaved otherwise. -/
theorem OnlyOrders.same_first {letter other one one' two two' : α} {first second : List α}
    (only : OnlyOrders (letter :: one :: one' :: first) (other :: two :: two' :: second)) :
    letter = other := by
  have take : ∀ {front back front' back' : List α},
      letter :: one :: one' :: first = front ++ front' →
      other :: two :: two' :: second = back ++ back' →
      front ++ (back ++ (front' ++ back')) =
          (letter :: one :: one' :: first) ++ (other :: two :: two' :: second) ∨
        front ++ (back ++ (front' ++ back')) =
          (other :: two :: two' :: second) ++ (letter :: one :: one' :: first) := by
    intro front back front' back' splitFirst splitSecond
    apply only
    rw [splitFirst, splitSecond]
    apply Interleaves.prepend
    apply Interleaves.of_perm (List.Perm.swap _ _ _)
    apply Interleaves.prepend
    apply Interleaves.of_perm (List.Perm.swap _ _ _)
    have both := Interleaves.flatten [front', back']
    simpa using both
  by_contra differs
  -- the second place after the first letter of either word
  have second_one : other = one := by
    rcases @take [letter] [other] (one :: one' :: first) (two :: two' :: second) rfl rfl with
      same | same
    · exact (List.cons.inj (List.cons.inj same).2).1
    · exact absurd (List.cons.inj same).1 differs
  have second_two : letter = two := by
    rcases @take [] [other] (letter :: one :: one' :: first) (two :: two' :: second) rfl rfl with
      same | same
    · exact absurd (List.cons.inj same).1.symm differs
    · exact (List.cons.inj (List.cons.inj same).2).1
  -- the third place, reached in two ways
  have third_one : other = one' := by
    rcases @take [letter, one] [other] (one' :: first) (two :: two' :: second) rfl rfl with
      same | same
    · exact (List.cons.inj (List.cons.inj (List.cons.inj same).2).2).1
    · exact absurd (List.cons.inj same).1 differs
  have third_two : two = one' := by
    rcases @take [letter] [other, two] (one :: one' :: first) (two' :: second) rfl rfl with
      same | same
    · exact (List.cons.inj (List.cons.inj (List.cons.inj same).2).2).1
    · exact absurd (List.cons.inj same).1 differs
  exact differs (second_two.trans (third_two.trans third_one.symm))

/-- Two words of three letters or more that can only be sent one behind the other
consist of one and the same letter. -/
theorem constant_of_orders [DecidableEq α] {first second : List α} (only : OnlyOrders first second)
    (longFirst : 3 ≤ first.length) (longSecond : 3 ≤ second.length) :
    ∃ letter, (∀ item ∈ first, item = letter) ∧ ∀ item ∈ second, item = letter := by
  match first, second, longFirst, longSecond with
  | letter :: one :: one' :: rest, other :: two :: two' :: rest', _, _ =>
      cases only.same_first
      obtain ⟨count, tail, split, ends⟩ := exists_leading letter (one :: one' :: rest)
      obtain ⟨count', tail', split', ends'⟩ := exists_leading letter (two :: two' :: rest')
      have long : 2 ≤ count + 1 + tail.length := by
        have lengths := congrArg List.length split
        simp only [List.length_cons, List.length_append, List.length_replicate] at lengths
        omega
      have long' : 2 ≤ count' + 1 + tail'.length := by
        have lengths := congrArg List.length split'
        simp only [List.length_cons, List.length_append, List.length_replicate] at lengths
        omega
      rw [split, split', ← List.cons_append, ← List.cons_append, ← List.replicate_succ,
        ← List.replicate_succ] at only ⊢
      have constant : tail = [] :=
        only.first_constant (Nat.succ_pos _) (Nat.succ_pos _) long' ends ends'
      have constant' : tail' = [] :=
        only.symm.first_constant (Nat.succ_pos _) (Nat.succ_pos _) long ends' ends
      rw [constant, constant', List.append_nil, List.append_nil]
      exact ⟨letter, fun item => List.eq_of_mem_replicate, fun item => List.eq_of_mem_replicate⟩
