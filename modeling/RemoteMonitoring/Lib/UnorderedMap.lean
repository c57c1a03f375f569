/-
Module: RemoteMonitoring.Lib.UnorderedMap
Purpose: Hash maps whose elements can be visited in any order, over any keys and values: the
  insertions of `std::unordered_map` on association lists, and searches in any order.
Trusted boundary: none
Main exports: UnorderedMap, UnorderedMap.emplace, UnorderedMap.touch, UnorderedMap.assign,
  UnorderedMap.GrowsBy, IterationOrder
-/
import Mathlib.Data.List.AList

/-- A map with at most one value for each key.  The order of its entries means nothing. -/
abbrev UnorderedMap (κ ν : Type) := AList fun _ : κ => ν

namespace UnorderedMap

variable {κ ν : Type} [DecidableEq κ]

/-- `emplace`: an element that is there stays. -/
def emplace (map : UnorderedMap κ ν) (key : κ) (value : ν) : UnorderedMap κ ν :=
  if key ∈ map then map else AList.insert key value map

/-- What `operator[]` does to the map: a key that is not there gets the default value. -/
def touch [Inhabited ν] (map : UnorderedMap κ ν) (key : κ) : UnorderedMap κ ν :=
  map.emplace key default

/-- The value that `operator[]` refers to. -/
def valueAt [Inhabited ν] (map : UnorderedMap κ ν) (key : κ) : ν :=
  (AList.lookup key map).getD default

/-- `map[key] = value`. -/
def assign (map : UnorderedMap κ ν) (key : κ) (value : ν) : UnorderedMap κ ν :=
  AList.insert key value map

/-- A key is there after an insertion if it was, or is the new one. -/
@[simp] theorem mem_emplace {map : UnorderedMap κ ν} {key other : κ} {value : ν} :
    other ∈ map.emplace key value ↔ other = key ∨ other ∈ map := by
  unfold emplace
  split
  · rename_i there
    constructor
    · exact Or.inr
    · intro either
      cases either with
      | inl same => exact same ▸ there
      | inr before => exact before
  · exact AList.mem_insert map

@[simp] theorem mem_touch [Inhabited ν] {map : UnorderedMap κ ν} {key other : κ} :
    other ∈ map.touch key ↔ other = key ∨ other ∈ map := mem_emplace

/-- A new key has the value that was inserted. -/
theorem lookup_emplace_of_not_mem {map : UnorderedMap κ ν} {key : κ} (new : key ∉ map)
    (value : ν) (other : κ) :
    AList.lookup other (map.emplace key value) =
      if other = key then some value else AList.lookup other map := by
  rw [emplace, if_neg new]
  split
  · rename_i same
    rw [same, AList.lookup_insert]
  · rename_i different
    exact AList.lookup_insert_ne different

@[simp] theorem mem_assign {map : UnorderedMap κ ν} {key other : κ} {value : ν} :
    other ∈ map.assign key value ↔ other = key ∨ other ∈ map := AList.mem_insert map

@[simp] theorem valueAt_empty [Inhabited ν] (key : κ) :
    valueAt (∅ : UnorderedMap κ ν) key = default := rfl

theorem lookup_assign (map : UnorderedMap κ ν) (key other : κ) (value : ν) :
    AList.lookup other (map.assign key value) =
      if other = key then some value else AList.lookup other map := by
  unfold assign
  split
  · rename_i same
    rw [same, AList.lookup_insert]
  · rename_i different
    exact AList.lookup_insert_ne different

theorem valueAt_assign [Inhabited ν] (map : UnorderedMap κ ν) (key other : κ) (value : ν) :
    (map.assign key value).valueAt other = if other = key then value else map.valueAt other := by
  unfold valueAt
  rw [lookup_assign]
  split
  · rfl
  · rfl

theorem lookup_eq_valueAt [Inhabited ν] {map : UnorderedMap κ ν} {key : κ} (there : key ∈ map) :
    map.lookup key = some (map.valueAt key) := by
  obtain ⟨value, found⟩ := Option.isSome_iff_exists.mp (AList.lookup_isSome.mpr there)
  simp [valueAt, found]

theorem valueAt_of_not_mem [Inhabited ν] {map : UnorderedMap κ ν} {key : κ}
    (missing : key ∉ map) : map.valueAt key = default := by
  simp [valueAt, AList.lookup_eq_none.mpr missing]

/-- Adding the default value changes no value. -/
@[simp] theorem valueAt_touch [Inhabited ν] (map : UnorderedMap κ ν) (key other : κ) :
    (map.touch key).valueAt other = map.valueAt other := by
  unfold touch emplace
  split
  · rfl
  · rename_i new
    unfold valueAt
    by_cases same : other = key
    · rw [same, AList.lookup_insert, AList.lookup_eq_none.mpr new]
      rfl
    · rw [AList.lookup_insert_ne same]

section Entries

variable {ε : Type} {key : ε → κ} {value : ε → ν} {entries : List ε}

/-- A run of assignments leaves the other keys alone. -/
theorem lookup_unassigned {other : κ} (absent : ∀ entry ∈ entries, key entry ≠ other)
    (map : UnorderedMap κ ν) :
    AList.lookup other (entries.foldl
      (fun (map : UnorderedMap κ ν) entry => map.assign (key entry) (value entry)) map) =
        AList.lookup other map := by
  induction entries generalizing map with
  | nil => rfl
  | cons entry entries ih =>
      rw [List.foldl_cons, ih fun later member => absent later (List.mem_cons_of_mem _ member),
        lookup_assign, if_neg (absent entry List.mem_cons_self).symm]

/-- An entry whose key is no other entry's is found in the end. -/
theorem lookup_assigned {entry : ε} (member : entry ∈ entries)
    (unique : ∀ other ∈ entries, key other = key entry → other = entry)
    (map : UnorderedMap κ ν) :
    AList.lookup (key entry) (entries.foldl
      (fun (map : UnorderedMap κ ν) entry => map.assign (key entry) (value entry)) map) =
        some (value entry) := by
  induction entries generalizing map with
  | nil => cases member
  | cons first entries ih =>
      have later : ∀ other ∈ entries, key other = key entry → other = entry :=
        fun other inside => unique other (List.mem_cons_of_mem _ inside)
      rw [List.foldl_cons]
      by_cases again : entry ∈ entries
      · exact ih again later _
      · have same : entry = first := by
          cases List.mem_cons.mp member with
          | inl same => exact same
          | inr inside => exact absurd inside again
        have absent : ∀ other ∈ entries, key other ≠ key entry := fun other inside equal =>
          again (later other inside equal ▸ inside)
        rw [lookup_unassigned absent, lookup_assign, same, if_pos rfl]

end Entries

/-- A map with one value for some keys. -/
def constant (keys : List κ) (distinct : keys.Nodup) (value : ν) : UnorderedMap κ ν where
  entries := keys.map fun key => ⟨key, value⟩
  nodupKeys := by simpa [List.NodupKeys, List.keys, Function.comp_def] using distinct

omit [DecidableEq κ] in
theorem mem_constant {keys : List κ} (distinct : keys.Nodup) {value : ν} {key : κ} :
    key ∈ constant keys distinct value ↔ key ∈ keys := by
  simp [AList.mem_keys, AList.keys, constant, List.keys, Function.comp_def]

/-- No key is lost, and none but `key` is new. -/
def GrowsBy (key : κ) (before after : UnorderedMap κ ν) : Prop :=
  ∀ other, (other ∈ before → other ∈ after) ∧ (other ∈ after → other = key ∨ other ∈ before)

namespace GrowsBy

variable {key : κ} {before between after : UnorderedMap κ ν}

omit [DecidableEq κ] in
theorem refl (map : UnorderedMap κ ν) : GrowsBy key map map :=
  fun _ => ⟨id, Or.inr⟩

omit [DecidableEq κ] in
/-- Growing twice is growing. -/
theorem trans (one : GrowsBy key before between) (two : GrowsBy key between after) :
    GrowsBy key before after := by
  intro other
  constructor
  · intro there
    exact (two other).1 ((one other).1 there)
  · intro there
    cases (two other).2 there with
    | inl same => exact Or.inl same
    | inr earlier => exact (one other).2 earlier

theorem assign (map : UnorderedMap κ ν) (value : ν) :
    GrowsBy key map (map.assign key value) :=
  fun _ => ⟨fun there => mem_assign.mpr (Or.inr there), mem_assign.mp⟩

theorem touch [Inhabited ν] (map : UnorderedMap κ ν) : GrowsBy key map (map.touch key) :=
  fun _ => ⟨fun there => mem_touch.mpr (Or.inr there), mem_touch.mp⟩

end GrowsBy

end UnorderedMap

/-- An order in which the elements of a hash map are visited, each of them once. -/
structure IterationOrder (α : Type) where
  visit : List α → List α
  perm : ∀ items, (visit items).Perm items

namespace IterationOrder

variable {α : Type}

@[simp] theorem mem_visit (order : IterationOrder α) {items : List α} {item : α} :
    item ∈ order.visit items ↔ item ∈ items := (order.perm items).mem_iff

/-- The order in which the elements happen to be stored. -/
def stored : IterationOrder α := ⟨id, fun _ => List.Perm.refl _⟩

/-- The order that visits `item` first. -/
def beginning [DecidableEq α] (item : α) : IterationOrder α where
  visit items := if item ∈ items then item :: items.erase item else items
  perm items := by
    split
    · rename_i member
      exact (List.perm_cons_erase member).symm
    · exact List.Perm.refl items

theorem visit_beginning [DecidableEq α] {item : α} {items : List α} (member : item ∈ items) :
    (beginning item).visit items = item :: items.erase item := if_pos member

end IterationOrder
