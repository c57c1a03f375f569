/-
Module: RemoteMonitoring.Lib.KeyTree
Purpose: A tree of keys, each with named values, that is addressed by paths: a key is created with
  the keys above it and deleted with the keys below it.
Trusted boundary: none
Main exports: KeyTree, KeyTree.create, KeyTree.deleteTree, KeyTree.set, KeyTree.query
-/
import Mathlib.Data.List.Infix
import Mathlib.Logic.Function.Basic

/-- The values of a key by name; no values for a key that does not exist. -/
structure KeyTree (γ ν : Type) where
  keys : List γ → Option (List γ → Option ν)

namespace KeyTree

variable {γ ν : Type}

def empty : KeyTree γ ν := ⟨fun _ => none⟩

/-- The key itself or one below it. -/
def Within (separator : γ) (key path : List γ) : Prop :=
  path = key ∨ key ++ [separator] <+: path

def query (path name : List γ) (tree : KeyTree γ ν) : Option ν :=
  (tree.keys path).bind fun values => values name

section Within

variable {separator : γ} {path : List γ}

theorem Within.refl (separator : γ) (path : List γ) : Within separator path path := Or.inl rfl

theorem within_append (path rest : List γ) : Within separator path (path ++ separator :: rest) := by
  refine Or.inr ⟨rest, ?_⟩
  rw [List.append_assoc, List.singleton_append]

/-- Two keys below each other are the same. -/
theorem Within.antisymm {key : List γ} (one : Within separator key path)
    (two : Within separator path key) : path = key := by
  rcases one with same | ⟨rest, same⟩
  · exact same
  · rcases two with same' | ⟨rest', same'⟩
    · exact same'.symm
    · have lengths := congrArg List.length same
      have lengths' := congrArg List.length same'
      simp only [List.length_append, List.length_singleton] at lengths lengths'
      omega

/-- There is no key between a key and one right below it. -/
theorem Within.between {key name : List γ} (free : separator ∉ name)
    (one : Within separator key path) (two : Within separator path (key ++ separator :: name)) :
    path = key ∨ path = key ++ separator :: name := by
  rcases two with same | ⟨rest', same'⟩
  · exact Or.inr same.symm
  · rcases one with same | ⟨rest, same⟩
    · exact Or.inl same
    · rw [← same, List.append_assoc, List.append_assoc, List.append_assoc] at same'
      have tails := List.append_cancel_left same'
      rw [List.singleton_append, List.cons.injEq] at tails
      have member : separator ∈ name := by
        rw [← tails.2]
        simp
      exact absurd member free

end Within

variable [DecidableEq γ]

instance (separator : γ) (key path : List γ) : Decidable (Within separator key path) :=
  inferInstanceAs (Decidable (_ ∨ _))

def create (separator : γ) (path : List γ) (tree : KeyTree γ ν) : KeyTree γ ν where
  keys key :=
    match tree.keys key with
    | some values => some values
    | none => if Within separator key path then some fun _ => none else none

def deleteTree (separator : γ) (path : List γ) (tree : KeyTree γ ν) : KeyTree γ ν where
  keys key := if Within separator path key then none else tree.keys key

/-- Setting a value of a key that does not exist does nothing. -/
def set (path name : List γ) (value : ν) (tree : KeyTree γ ν) : KeyTree γ ν where
  keys key :=
    if key = path then
      (tree.keys key).map fun values => Function.update values name (some value)
    else tree.keys key

variable {separator : γ} {path key name : List γ} {value : ν} {tree : KeyTree γ ν}

/-! ### Which keys there are -/

@[simp] theorem isSome_create :
    ((tree.create separator path).keys key).isSome ↔
      (tree.keys key).isSome ∨ Within separator key path := by
  cases there : tree.keys key with
  | some values => simp [create, there]
  | none =>
      by_cases within : Within separator key path
      · simp [create, there, within]
      · simp [create, there, within]

@[simp] theorem isSome_set :
    ((tree.set path name value).keys key).isSome ↔ (tree.keys key).isSome := by
  by_cases same : key = path
  · simp [set, same]
  · simp [set, same]

@[simp] theorem isSome_deleteTree :
    ((tree.deleteTree separator path).keys key).isSome ↔
      (tree.keys key).isSome ∧ ¬ Within separator path key := by
  by_cases within : Within separator path key
  · simp [deleteTree, within]
  · simp [deleteTree, within]

/-! ### Which values they have -/

/-- A key that is created has no values. -/
@[simp] theorem query_create :
    (tree.create separator path).query key name = tree.query key name := by
  cases there : tree.keys key with
  | some values => simp [query, create, there]
  | none =>
      by_cases within : Within separator key path
      · simp [query, create, there, within]
      · simp [query, create, there, within]

theorem query_deleteTree :
    (tree.deleteTree separator path).query key name =
      if Within separator path key then none else tree.query key name := by
  by_cases within : Within separator path key
  · simp [query, deleteTree, within]
  · simp [query, deleteTree, within]

theorem query_set_same (present : (tree.keys path).isSome) :
    (tree.set path name value).query path name = some value := by
  obtain ⟨values, there⟩ := Option.isSome_iff_exists.mp present
  simp [query, set, there]

theorem query_set_of_ne {other : List γ} (differs : key ≠ path ∨ other ≠ name) :
    (tree.set path name value).query key other = tree.query key other := by
  by_cases same : key = path
  · subst same
    have names : other ≠ name := differs.resolve_left (not_not_intro rfl)
    cases there : tree.keys key with
    | none => simp [query, set, there]
    | some values => simp [query, set, there, Function.update_of_ne names]
  · simp [query, set, same]

end KeyTree
