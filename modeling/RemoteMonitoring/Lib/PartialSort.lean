/-
Module: RemoteMonitoring.Lib.PartialSort
Purpose: What `std::partial_sort` promises for a strict weak order, over any type: which
  elements its front holds, and when the front does not depend on the order of the input.
Trusted boundary: none
Main exports: IsPartialSort, SortsPartially, PartialSort.rank, PartialSort.take_unique,
  PartialSort.stableSort, PartialSort.getElem?_mergeSort
-/
import Mathlib.Data.List.Sort
import Mathlib.Order.RelClasses

/-- The front up to `middle` is sorted, and nothing behind it goes before any of it. -/
structure IsPartialSort {α : Type} (before : α → α → Bool) (middle : Nat)
    (items result : List α) : Prop where
  perm : result.Perm items
  sorted : (result.take middle).Pairwise fun left right => before right left = false
  least : ∀ front ∈ result.take middle, ∀ back ∈ result.drop middle, before back front = false

/-- An algorithm that does so for every strict weak order. -/
def SortsPartially {α : Type} (partialSort : (α → α → Bool) → Nat → List α → List α) : Prop :=
  ∀ before, IsStrictWeakOrder α (fun left right => before left right = true) →
    ∀ middle items, middle ≤ items.length →
      IsPartialSort before middle items (partialSort before middle items)

namespace PartialSort

variable {α : Type} {before : α → α → Bool}

/-- How many items go before one. -/
def rank (before : α → α → Bool) (items : List α) (item : α) : Nat :=
  items.countP fun other => before other item

theorem rank_perm {one two : List α} (perm : one.Perm two) (item : α) :
    rank before one item = rank before two item := perm.countP_eq _

/-- Neither goes before the other. -/
def Ties (before : α → α → Bool) (one two : α) : Prop :=
  before one two = false ∧ before two one = false

section StrictWeakOrder

variable [order : IsStrictWeakOrder α (fun left right => before left right = true)]

theorem before_irrefl (item : α) : before item item = false := by
  cases same : before item item with
  | false => rfl
  | true => exact absurd same (order.irrefl item)

theorem before_trans {one two three : α} (first : before one two = true)
    (second : before two three = true) : before one three = true :=
  order.trans one two three first second

theorem before_asymm {one two : α} (first : before one two = true) : before two one = false := by
  cases second : before two one with
  | false => rfl
  | true =>
      have loop : before one one = true := before_trans first second
      exact absurd loop (by simp [before_irrefl])

theorem Ties.trans {one two three : α} (first : Ties before one two)
    (second : Ties before two three) : Ties before one three := by
  have both := order.incomp_trans one two three
  simp only [Bool.not_eq_true] at both
  exact both first second

omit order in
theorem Ties.symm {one two : α} (ties : Ties before one two) : Ties before two one :=
  ⟨ties.2, ties.1⟩

/-- What is not after an item, and the item not after a third, is not after the third. -/
theorem not_before_trans {one two three : α} (first : before two one = false)
    (second : before three two = false) : before three one = false := by
  cases third : before three one with
  | false => rfl
  | true =>
      cases forth : before one two with
      | true => exact absurd (before_trans third forth) (by simp [second])
      | false =>
          cases back : before two three with
          | true => exact absurd (before_trans back third) (by simp [first])
          | false =>
              have ties : Ties before one three := Ties.trans ⟨forth, first⟩ ⟨back, second⟩
              exact absurd third (by simp [ties.2])

/-- Items that tie come after the same items. -/
theorem before_congr {one two : α} (ties : Ties before one two) (item : α) :
    before item one = before item two := by
  have half {left right : α} (ties : Ties before left right) (earlier : before item left = true) :
      before item right = true := by
    cases other : before item right with
    | true => rfl
    | false => exact absurd earlier (by simp [not_before_trans ties.2 other])
  cases first : before item one with
  | true => exact (half ties first).symm
  | false =>
      cases second : before item two with
      | false => rfl
      | true => exact absurd (half ties.symm second) (by simp [first])

theorem rank_congr {one two : α} (ties : Ties before one two) (items : List α) :
    rank before items one = rank before items two := by
  unfold rank
  congr 1
  funext item
  exact before_congr ties item

/-- What goes before has the lower rank. -/
theorem rank_lt {items : List α} {one two : α} (member : one ∈ items)
    (first : before one two = true) : rank before items one < rank before items two := by
  obtain ⟨front, back, rfl⟩ := List.append_of_mem member
  have le (part : List α) : rank before part one ≤ rank before part two := by
    apply List.countP_mono_left
    intro item _ earlier
    exact before_trans earlier first
  simp only [rank, List.countP_append, List.countP_cons, before_irrefl, first, if_true] at le ⊢
  have one := le front
  have two := le back
  simp only [Bool.false_eq_true, if_false]
  omega

/-! ### The sorted front -/

variable {middle : Nat} {items result other : List α}

omit order in
/-- Nothing behind a position of the front goes before what is there. -/
theorem least_of_front (sorts : IsPartialSort before middle items result) {index : Nat}
    (inFront : index < middle) (inside : index < result.length) :
    ∀ later ∈ result.drop (index + 1), before later result[index] = false := by
  intro later member
  obtain ⟨offset, bound, rfl⟩ := List.mem_iff_getElem.mp member
  have inRange : index + 1 + offset < result.length := by
    simp only [List.length_drop] at bound
    omega
  have atIndex : index < (result.take middle).length := by simp [inFront, inside]
  rw [List.getElem_drop]
  by_cases sameFront : index + 1 + offset < middle
  · have atLater : index + 1 + offset < (result.take middle).length := by
      simp [sameFront, inRange]
    have pair := List.pairwise_iff_getElem.mp sorts.sorted index (index + 1 + offset) atIndex
      atLater (by omega)
    simpa using pair
  · apply sorts.least
    · exact List.mem_take_iff_getElem.mpr ⟨index, by simp [inFront, inside], by simp⟩
    · exact List.mem_drop_iff_getElem.mpr ⟨index + 1 + offset - middle, by omega, by
        congr 1
        omega⟩

/-- What goes before an item of the front stands in front of it. -/
theorem rank_eq_countP_take (sorts : IsPartialSort before middle items result) {index : Nat}
    (inFront : index < middle) (inside : index < result.length) :
    rank before items result[index] =
      (result.take index).countP fun other => before other result[index] := by
  have behind : (result.drop (index + 1)).countP
      (fun other => before other result[index]) = 0 := by
    apply List.countP_eq_zero.mpr
    intro later member
    simp [least_of_front sorts inFront inside later member]
  have split : result.take index ++ result[index] :: result.drop (index + 1) = result := by
    rw [← List.drop_eq_getElem_cons inside, List.take_append_drop]
  calc rank before items result[index]
    _ = rank before result result[index] := rank_perm sorts.perm.symm _
    _ = rank before (result.take index ++ result[index] :: result.drop (index + 1))
          result[index] := by rw [split]
    _ = (result.take index).countP fun other => before other result[index] := by
        simp only [rank, List.countP_append, List.countP_cons, before_irrefl, behind,
          Bool.false_eq_true, if_false, Nat.add_zero]

theorem rank_le_index (sorts : IsPartialSort before middle items result) {index : Nat}
    (inFront : index < middle) (inside : index < result.length) :
    rank before items result[index] ≤ index := by
  rw [rank_eq_countP_take sorts inFront inside]
  exact List.countP_le_length.trans (by simp)

/-- Where nothing ties, everything in front of a position goes before what is there. -/
theorem rank_eq_index (sorts : IsPartialSort before middle items result)
    (untied : ∀ one ∈ items, rank before items one < middle → ∀ two ∈ items,
      Ties before one two → one = two)
    (distinct : items.Nodup) {index : Nat} (inFront : index < middle)
    (inside : index < result.length) : rank before items result[index] = index := by
  have le := rank_le_index sorts inFront inside
  have once : result.Nodup := sorts.perm.nodup_iff.mpr distinct
  have member {item : α} (here : item ∈ result) : item ∈ items := sorts.perm.mem_iff.mp here
  rw [rank_eq_countP_take sorts inFront inside] at le ⊢
  have all : (result.take index).countP (fun other => before other result[index]) =
      (result.take index).length := by
    apply List.countP_eq_length.mpr
    intro earlier here
    obtain ⟨position, bound, rfl⟩ := List.mem_take_iff_getElem.mp here
    have lower : position < index := by omega
    cases first : before result[position] result[index] with
    | true => rfl
    | false =>
        have back : before result[index] result[position] = false := by
          apply least_of_front sorts (lower.trans inFront)
          exact List.mem_drop_iff_getElem.mpr ⟨index - (position + 1), by omega, by
            congr 1
            omega⟩
        have same := untied result[index] (member (List.getElem_mem inside))
          (Nat.lt_of_le_of_lt (rank_le_index sorts inFront inside) inFront) result[position]
          (member (List.getElem_mem _)) ⟨back, first⟩
        have equal := (once.getElem_inj_iff).mp same
        omega
  rw [all, List.length_take, Nat.min_eq_left inside.le]

/-- Where nothing ties, the front is the same for every input order and every algorithm. -/
theorem take_unique (one : IsPartialSort before middle items result)
    (two : IsPartialSort before middle items other)
    (untied : ∀ one ∈ items, rank before items one < middle → ∀ two ∈ items,
      Ties before one two → one = two)
    (distinct : items.Nodup) : result.take middle = other.take middle := by
  have lengths : result.length = other.length := one.perm.length_eq.trans two.perm.length_eq.symm
  apply List.ext_getElem
  · simp [lengths]
  · intro index inOne inTwo
    simp only [List.length_take, Nat.lt_min] at inOne inTwo
    have first := rank_eq_index one untied distinct inOne.1 inOne.2
    have second := rank_eq_index two untied distinct inTwo.1 inTwo.2
    have memberOne : result[index] ∈ items := one.perm.mem_iff.mp (List.getElem_mem _)
    have memberTwo : other[index] ∈ items := two.perm.mem_iff.mp (List.getElem_mem _)
    rw [List.getElem_take, List.getElem_take]
    apply untied _ memberOne (Nat.lt_of_le_of_lt first.le inOne.1) _ memberTwo
    constructor
    · cases before_one : before result[index] other[index] with
      | false => rfl
      | true => exact absurd (rank_lt memberOne before_one) (by omega)
    · cases before_two : before other[index] result[index] with
      | false => rfl
      | true => exact absurd (rank_lt memberTwo before_two) (by omega)

/-! ### A stable algorithm -/

/-- The order by which the stable sort keeps what does not have to move. -/
def notAfter (before : α → α → Bool) (left right : α) : Bool := !before right left

theorem notAfter_trans (one two three : α) (first : notAfter before one two = true)
    (second : notAfter before two three = true) : notAfter before one three = true := by
  simp only [notAfter, Bool.not_eq_true'] at first second ⊢
  exact not_before_trans first second

theorem notAfter_total (one two : α) :
    (notAfter before one two || notAfter before two one) = true := by
  cases first : before two one with
  | false => simp [notAfter, first]
  | true => simp [notAfter, before_asymm first]

/-- The first item of the input comes as soon as all that goes before it is out. -/
theorem getElem?_mergeSort (item : α) (others : List α) :
    ((item :: others).mergeSort (notAfter before))[rank before (item :: others) item]? =
      some item := by
  obtain ⟨front, back, sorted, rest, earlier⟩ :=
    List.mergeSort_cons (@notAfter_trans α before _) notAfter_total item others
  have perm := List.mergeSort_perm (item :: others) (notAfter before)
  have ordered := List.pairwise_mergeSort (@notAfter_trans α before _) notAfter_total
    (item :: others)
  rw [sorted] at perm ordered ⊢
  have outFirst : rank before front item = front.length := by
    apply List.countP_eq_length.mpr
    intro other member
    simpa [notAfter] using earlier other member
  have outLater : rank before back item = 0 := by
    apply List.countP_eq_zero.mpr
    intro other member
    have later := (List.pairwise_cons.mp (List.pairwise_append.mp ordered).2.1).1 other member
    simpa [notAfter] using later
  have position : rank before (item :: others) item = front.length := by
    rw [← rank_perm perm, ← outFirst]
    unfold rank at outLater ⊢
    simp only [List.countP_append, List.countP_cons, before_irrefl, outLater,
      Bool.false_eq_true, if_false, Nat.add_zero]
  simp [position]

end StrictWeakOrder

/-- Merge sort takes no notice of `middle`. -/
def stableSort {α : Type} (before : α → α → Bool) (_middle : Nat) (items : List α) : List α :=
  items.mergeSort (notAfter before)

/-- So the specification can be met. -/
theorem sortsPartially_stableSort : SortsPartially (@stableSort α) := by
  intro before order middle items _
  have sorted := List.pairwise_mergeSort (@notAfter_trans α before _) notAfter_total items
  have pairs : (items.mergeSort (notAfter before)).Pairwise
      fun left right => before right left = false :=
    sorted.imp (by simp [notAfter])
  have parts := pairs
  rw [← List.take_append_drop middle (items.mergeSort (notAfter before)),
    List.pairwise_append] at parts
  exact ⟨List.mergeSort_perm _ _, parts.1, parts.2.2⟩

end PartialSort
