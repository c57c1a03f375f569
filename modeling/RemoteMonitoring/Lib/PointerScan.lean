/-
Module: RemoteMonitoring.Lib.PointerScan
Purpose: Scans with a pointer through a block of memory: up to a byte, over spaces, and from
  field to field.  The pointer is what is left of the block; looking behind its end is a
  failure of its own.
Trusted boundary: none
Main exports: Failure, scanTo, takeField, takeFields, Settles, closedFields, openField,
  takeFields_eq
-/
import RemoteMonitoring.Lib.ByteText

open ByteText

namespace PointerScan

/-- How a scan ends without a result: with an exception, or by reading behind the block. -/
inductive Failure where
  | threw
  | outOfBounds
deriving DecidableEq, Repr

section Bind

variable {α β : Type}

@[simp] theorem ok_bind (value : α) (next : α → Except Failure β) :
    (Except.ok value >>= next) = next value := rfl

@[simp] theorem error_bind (failure : Failure) (next : α → Except Failure β) :
    (Except.error failure >>= next) = Except.error failure := rfl

@[simp] theorem pure_eq (value : α) : (pure value : Except Failure α) = .ok value := rfl

end Bind

def space : UInt8 := 32
def terminator : UInt8 := 0

theorem space_ne_terminator : space ≠ terminator := by decide
theorem space_ne_newline : space ≠ newline := by decide

/-- `while (*p != stop) ++p`, with the bytes that it passes. -/
def scanTo (stop : UInt8) : Bytes → Except Failure (Bytes × Bytes)
  | [] => .error .outOfBounds
  | byte :: rest =>
      if byte = stop then .ok ([], byte :: rest)
      else do
        let (token, p) ← scanTo stop rest
        return (byte :: token, p)

/-- To the next byte that is no space, where a terminator throws. -/
def nextField : Bytes → Except Failure Bytes
  | [] => .error .outOfBounds
  | byte :: rest =>
      if byte = terminator then .error .threw
      else if byte = space then nextField rest
      else .ok (byte :: rest)

/-- A field, up to the space behind it. -/
def takeField (p : Bytes) : Except Failure (Bytes × Bytes) := do
  let now ← nextField p
  scanTo space now

/-- `++p`, which leads nowhere at the end of the block. -/
def advance : Bytes → Except Failure (Unit × Bytes)
  | [] => .error .outOfBounds
  | _ :: rest => .ok ((), rest)

def takeFields : Nat → Bytes → Except Failure (List Bytes)
  | 0, _ => .ok []
  | count + 1, p => do
      let (field, p) ← takeField p
      let fields ← takeFields count p
      return field :: fields

section Fold

variable {σ : Type} (set : Nat → Bytes → σ → σ)

/-- Some rounds of a loop over the fields from the one with this number on, where each field
changes what the loop has so far. -/
def foldFields : Nat → Nat → σ → Bytes → Except Failure σ
  | 0, _, value, _ => .ok value
  | rounds + 1, field, value, p => do
      let (token, p) ← takeField p
      foldFields rounds (field + 1) (set field token value) p

/-- What the fields make of it. -/
def foldTokens : Nat → σ → List Bytes → σ
  | _, value, [] => value
  | field, value, token :: tokens => foldTokens (field + 1) (set field token value) tokens

/-- Folding over the fields of a scan is folding over the list of them. -/
theorem foldFields_eq (rounds field : Nat) (value : σ) (p : Bytes) :
    foldFields set rounds field value p = (takeFields rounds p).map (foldTokens set field value) := by
  induction rounds generalizing field value p with
  | zero => rfl
  | succ rounds ih =>
      simp only [foldFields, takeFields]
      cases takeField p with
      | error failure => rfl
      | ok found =>
          simp only [ok_bind, ih]
          cases takeFields rounds found.2 <;> rfl

theorem map_ne_outOfBounds {α β : Type} (result : Except Failure α) (f : α → β) :
    result.map f ≠ .error .outOfBounds ↔ result ≠ .error .outOfBounds := by
  cases result with
  | error failure => simp [Except.map]
  | ok value => simp [Except.map]

end Fold

/-! ### Where a scan stops -/

theorem scanTo_append {stop : UInt8} {token : Bytes} (absent : stop ∉ token) (rest : Bytes) :
    scanTo stop (token ++ stop :: rest) = .ok (token, stop :: rest) := by
  induction token with
  | nil => simp [scanTo]
  | cons byte token ih =>
      rw [List.mem_cons, not_or] at absent
      simp [scanTo, Ne.symm absent.1, ih absent.2]

theorem scanTo_of_not_mem {stop : UInt8} {p : Bytes} (absent : stop ∉ p) :
    scanTo stop p = .error .outOfBounds := by
  induction p with
  | nil => rfl
  | cons byte rest ih =>
      rw [List.mem_cons, not_or] at absent
      simp [scanTo, Ne.symm absent.1, ih absent.2]

/-- A scan either misses its byte, or passes what stands in front of it. -/
theorem scanTo_cases (stop : UInt8) (p : Bytes) :
    (stop ∉ p ∧ scanTo stop p = .error .outOfBounds) ∨
      ∃ token rest, stop ∉ token ∧ p = token ++ stop :: rest ∧
        scanTo stop p = .ok (token, stop :: rest) := by
  by_cases member : stop ∈ p
  · obtain ⟨token, rest, same, absent⟩ := List.eq_append_cons_of_mem member
    exact Or.inr ⟨token, rest, absent, same, same ▸ scanTo_append absent rest⟩
  · exact Or.inl ⟨member, scanTo_of_not_mem member⟩

@[simp] theorem takeFields_space (count : Nat) (p : Bytes) :
    takeFields count (space :: p) = takeFields count p := by
  cases count with
  | zero => rfl
  | succ count => simp [takeFields, takeField, nextField, space, terminator]

theorem foldFields_space {σ : Type} (set : Nat → Bytes → σ → σ) (rounds field : Nat) (value : σ)
    (p : Bytes) :
    foldFields set rounds field value (space :: p) = foldFields set rounds field value p := by
  rw [foldFields_eq, foldFields_eq, takeFields_space]

theorem takeFields_terminator (count : Nat) (p : Bytes) :
    takeFields (count + 1) (terminator :: p) = .error .threw := by
  simp [takeFields, takeField, nextField]

/-- A field may hold anything but a space, and starts with no terminator. -/
def IsField (field : Bytes) : Prop :=
  space ∉ field ∧ field ≠ [] ∧ field.head? ≠ some terminator

theorem nextField_field {field : Bytes} (isField : IsField field) (rest : Bytes) :
    nextField (field ++ rest) = .ok (field ++ rest) := by
  obtain ⟨noSpace, nonempty, noTerminator⟩ := isField
  cases field with
  | nil => exact absurd rfl nonempty
  | cons byte field =>
      rw [List.mem_cons, not_or] at noSpace
      have first : byte ≠ terminator := fun same => noTerminator (by simp [same])
      simp [nextField, first, Ne.symm noSpace.1]

theorem takeField_append {field : Bytes} (isField : IsField field) (p : Bytes) :
    takeField (field ++ space :: p) = .ok (field, space :: p) := by
  simp [takeField, nextField_field isField, scanTo_append isField.1]

theorem takeFields_append {field : Bytes} (isField : IsField field) (count : Nat) (p : Bytes) :
    takeFields (count + 1) (field ++ space :: p) = (takeFields count p).map (field :: ·) := by
  simp only [takeFields, takeField_append isField, ok_bind, takeFields_space]
  cases takeFields count p <;> rfl

theorem takeFields_open {field : Bytes} (isField : IsField field) (count : Nat) :
    takeFields (count + 1) field = .error .outOfBounds := by
  have start := nextField_field isField []
  rw [List.append_nil] at start
  simp [takeFields, takeField, start, scanTo_of_not_mem isField.1]

/-! ### The fields of a text -/

/-- The fields that a space follows. -/
def closedFields (text : Bytes) : List Bytes := (text.splitOn space).dropLast.filter (· ≠ [])

/-- What stands behind the last space. -/
def openField (text : Bytes) : Bytes := (text.splitOn space).getLastD []

theorem closedFields_of_not_mem {text : Bytes} (absent : space ∉ text) : closedFields text = [] := by
  simp [closedFields, List.splitOn_eq_singleton absent]

theorem openField_of_not_mem {text : Bytes} (absent : space ∉ text) : openField text = text := by
  simp [openField, List.splitOn_eq_singleton absent]

theorem closedFields_append (front back : Bytes) :
    closedFields (front ++ space :: back) =
      (front.splitOn space).filter (· ≠ []) ++ closedFields back := by
  unfold closedFields
  rw [List.splitOn_append_cons_self, List.dropLast_append_of_ne_nil (List.splitOn_ne_nil _ _),
    List.filter_append]

theorem openField_append (front back : Bytes) :
    openField (front ++ space :: back) = openField back := by
  unfold openField
  rw [List.splitOn_append_cons_self, List.getLastD_eq_getLast?,
    List.getLast?_append_of_ne_nil _ (List.splitOn_ne_nil _ _), List.getLastD_eq_getLast?]

/-- Whether a field starts with a terminator. -/
def startsNul (field : Bytes) : Bool := field.head? == some terminator

theorem startsNul_iff {field : Bytes} : startsNul field = true ↔ field.head? = some terminator := by
  simp [startsNul]

theorem startsNul_append {field : Bytes} (nonempty : field ≠ []) (rest : Bytes) :
    startsNul (field ++ rest) = startsNul field := by
  obtain ⟨byte, field, rfl⟩ := List.exists_cons_of_ne_nil nonempty
  rfl

theorem takeFields_startsNul {field : Bytes} (nul : startsNul field = true) (count : Nat)
    (rest : Bytes) : takeFields (count + 1) (field ++ rest) = .error .threw := by
  cases field with
  | nil => cases nul
  | cons byte field =>
      have same : byte = terminator := by simpa [startsNul] using nul
      rw [same, List.cons_append, takeFields_terminator]

/-- Induction over the fields of a text. -/
theorem fields_induction {motive : Bytes → Prop}
    (last : ∀ text, space ∉ text → motive text)
    (step : ∀ front back, space ∉ front → motive back → motive (front ++ space :: back))
    (text : Bytes) : motive text := by
  by_cases member : space ∈ text
  · obtain ⟨front, back, same, absent⟩ := List.eq_append_cons_of_mem member
    have shorter : back.length < text.length := by
      simp only [same, List.length_append, List.length_cons]
      omega
    rw [same]
    exact step front back absent (fields_induction last step back)
  · exact last text member
termination_by text.length

/-- Fields with a space behind each of them. -/
theorem closedFields_flatMap {fields : List Bytes}
    (field : ∀ field ∈ fields, field ≠ [] ∧ space ∉ field) (text : Bytes) :
    closedFields (fields.flatMap (· ++ [space]) ++ text) = fields ++ closedFields text := by
  induction fields with
  | nil => rfl
  | cons first fields ih =>
      obtain ⟨nonempty, noSpace⟩ := field first (by simp)
      have later := ih fun other member => field other (by simp [member])
      rw [List.flatMap_cons, List.append_assoc, List.append_assoc, List.singleton_append,
        closedFields_append, List.splitOn_eq_singleton noSpace, later]
      simp [nonempty]

theorem openField_flatMap (fields : List Bytes) (text : Bytes) :
    openField (fields.flatMap (· ++ [space]) ++ text) = openField text := by
  induction fields with
  | nil => rfl
  | cons first fields ih =>
      rw [List.flatMap_cons, List.append_assoc, List.append_assoc, List.singleton_append,
        openField_append, ih]

theorem filter_splitOn_ne_nil {text : Bytes} {byte : UInt8} (member : byte ∈ text)
    (other : byte ≠ space) : (text.splitOn space).filter (· ≠ []) ≠ [] := by
  induction text using fields_induction with
  | last text absent =>
      simpa [List.splitOn_eq_singleton absent] using List.ne_nil_of_mem member
  | step front back absent ih =>
      rw [List.splitOn_append_cons_self, List.splitOn_eq_singleton absent, List.filter_append]
      rw [List.mem_append, List.mem_cons] at member
      rcases member with member | same | member
      · simp [List.ne_nil_of_mem member]
      · exact absurd same other
      · exact List.append_ne_nil_of_right_ne_nil _ (ih member)

/-- What a scan over some fields finds is the fields that a space follows; what stands behind
the last of them is no field that it could end. -/
theorem takeFields_eq (count : Nat) (text : Bytes) :
    takeFields count text =
      let fields := (closedFields text).take count
      if fields.any startsNul then .error .threw
      else if count ≤ (closedFields text).length then .ok fields
      else if startsNul (openField text) then .error .threw
      else .error .outOfBounds := by
  induction text using fields_induction generalizing count with
  | last text absent =>
      rw [closedFields_of_not_mem absent, openField_of_not_mem absent]
      cases count with
      | zero => simp [takeFields]
      | succ count =>
          by_cases empty : text = []
          · subst empty
            rfl
          · cases nul : startsNul text with
            | true => simpa using takeFields_startsNul nul count []
            | false =>
                have isField : IsField text :=
                  ⟨absent, empty, fun head => by simp [startsNul_iff.mpr head] at nul⟩
                simp [takeFields_open isField]
  | step front back absent ih =>
      rw [closedFields_append, openField_append, List.splitOn_eq_singleton absent]
      cases count with
      | zero => simp [takeFields]
      | succ count =>
          by_cases empty : front = []
          · subst empty
            simpa using ih (count + 1)
          · cases nul : startsNul front with
            | true => simp [empty, nul, takeFields_startsNul nul]
            | false =>
                have isField : IsField front :=
                  ⟨absent, empty, fun head => by simp [startsNul_iff.mpr head] at nul⟩
                rw [takeFields_append isField, ih count]
                simp only [ne_eq, empty, not_false_eq_true, decide_true, List.filter_cons_of_pos,
                  List.filter_nil, List.cons_append, List.nil_append, List.take_succ_cons,
                  List.any_cons, nul, Bool.false_or, List.length_cons, Nat.add_le_add_iff_right]
                split
                · rfl
                · split
                  · rfl
                  · split
                    · rfl
                    · rfl

/-- With too few fields there is no result. -/
theorem takeFields_short {count : Nat} {text : Bytes} (short : (closedFields text).length < count) :
    ∃ failure, takeFields count text = .error failure := by
  rw [takeFields_eq]
  dsimp only
  split
  · exact ⟨_, rfl⟩
  · rw [if_neg (not_le.mpr short)]
    split
    · exact ⟨_, rfl⟩
    · exact ⟨_, rfl⟩

/-- What follows a text only adds fields. -/
theorem closedFields_length_le (front back : Bytes) :
    (closedFields front).length ≤ (closedFields (front ++ back)).length := by
  induction front using fields_induction with
  | last front absent => simp [closedFields_of_not_mem absent]
  | step field front absent ih =>
      rw [List.append_assoc, List.cons_append, closedFields_append, closedFields_append,
        List.length_append, List.length_append]
      exact Nat.add_le_add_left ih _

theorem closedFields_replicate (count : Nat) (text : Bytes) :
    closedFields (List.replicate count space ++ text) = closedFields text := by
  induction count with
  | zero => rfl
  | succ count ih =>
      have blank := closedFields_append [] (List.replicate count space ++ text)
      rw [List.nil_append, ih] at blank
      rw [List.replicate_succ, List.cons_append, blank]
      simp

/-! ### Texts that end in a terminator -/

/-- The terminator belongs to the last field, which nothing closes. -/
theorem fields_terminated (text : Bytes) :
    closedFields (text ++ [terminator]) = closedFields text ∧
      openField (text ++ [terminator]) = openField text ++ [terminator] := by
  induction text using fields_induction with
  | last text absent =>
      have still : space ∉ text ++ [terminator] := by simp [absent, space_ne_terminator]
      rw [closedFields_of_not_mem absent, closedFields_of_not_mem still,
        openField_of_not_mem absent, openField_of_not_mem still]
      exact ⟨rfl, rfl⟩
  | step front back absent ih =>
      rw [List.append_assoc, List.cons_append, closedFields_append, closedFields_append,
        openField_append, openField_append, ih.1, ih.2]
      exact ⟨rfl, rfl⟩

/-- A scan over some fields ends in the text: a space follows each of the fields, or it comes to
a terminator where a field should start. -/
def Contained (count : Nat) (text : Bytes) : Prop :=
  count ≤ (closedFields text).length ∨ (∃ field ∈ closedFields text, startsNul field = true) ∨
    openField text = [] ∨ startsNul (openField text) = true

/-- A scan for some fields ends in front of the terminator exactly if the text contains them. -/
theorem takeFields_terminated (count : Nat) (text : Bytes) :
    takeFields count (text ++ [terminator]) ≠ .error .outOfBounds ↔ Contained count text := by
  have behind : startsNul (openField text ++ [terminator]) = true ↔
      openField text = [] ∨ startsNul (openField text) = true := by
    cases openField text with
    | nil => simp [startsNul]
    | cons byte rest => simp [startsNul]
  rw [takeFields_eq, (fields_terminated text).1, (fields_terminated text).2]
  unfold Contained
  by_cases enough : count ≤ (closedFields text).length
  · simp only [enough, if_true, true_or, iff_true]
    split
    · simp
    · simp
  · have all : (closedFields text).take count = closedFields text :=
      List.take_of_length_le (Nat.le_of_not_le enough)
    simp only [enough, all, if_false, false_or, ← behind]
    cases nul : (closedFields text).any startsNul with
    | true => simp [List.any_eq_true.mp nul]
    | false =>
        have none : ¬ ∃ field ∈ closedFields text, startsNul field = true := by
          intro some
          rw [List.any_eq_true.mpr some] at nul
          cases nul
        cases startsNul (openField text ++ [terminator]) with
        | true => simp
        | false => simp [none]

/-! ### Scans in a longer block -/

section Longer

variable {α β : Type}

/-- A scan that ends in its block has the same result in a longer one. -/
def Settles (scan : Bytes → Except Failure α) : Prop :=
  ∀ p more, scan p ≠ .error .outOfBounds → scan (p ++ more) = scan p

/-- And where it goes on, there is more behind the pointer. -/
def Proceeds (scan : Bytes → Except Failure (α × Bytes)) : Prop :=
  ∀ p more, scan p ≠ .error .outOfBounds →
    scan (p ++ more) = (scan p).map fun result => (result.1, result.2 ++ more)

/-- A scan behind one that proceeds. -/
theorem Proceeds.settles {scan : Bytes → Except Failure (α × Bytes)} (proceeds : Proceeds scan)
    {next : α × Bytes → Except Failure β} (settles : ∀ value, Settles fun p => next (value, p)) :
    Settles fun p => scan p >>= next := by
  intro p more ends
  have longer := proceeds p more
  cases first : scan p with
  | error failure =>
      cases failure with
      | threw => simp [longer, first, Except.map]
      | outOfBounds => simp [first] at ends
  | ok result =>
      simp only [first, ok_bind] at ends
      simpa [longer, first, Except.map] using settles result.1 result.2 more ends

/-- Scans that proceed, one after another. -/
theorem Proceeds.bind {scan : Bytes → Except Failure (α × Bytes)} (proceeds : Proceeds scan)
    {next : α × Bytes → Except Failure (β × Bytes)}
    (after : ∀ value, Proceeds fun p => next (value, p)) : Proceeds fun p => scan p >>= next := by
  intro p more ends
  have longer := proceeds p more
  cases first : scan p with
  | error failure =>
      cases failure with
      | threw => simp [longer, first, Except.map]
      | outOfBounds => simp [first] at ends
  | ok result =>
      simp only [first, ok_bind] at ends
      simpa [longer, first, Except.map] using after result.1 result.2 more ends

theorem scanTo_proceeds (stop : UInt8) : Proceeds (scanTo stop) := by
  intro p more ends
  rcases scanTo_cases stop p with ⟨_, failed⟩ | ⟨token, rest, absent, same, found⟩
  · exact absurd failed ends
  · rw [found, same, List.append_assoc, List.cons_append, scanTo_append absent]
    rfl

theorem advance_proceeds : Proceeds advance := by
  intro p more ends
  cases p with
  | nil => exact absurd rfl ends
  | cons byte rest => rfl

/-- A field is taken up to the space behind it, whatever follows. -/
theorem takeField_proceeds : Proceeds takeField := by
  intro p more ends
  induction p with
  | nil => exact absurd rfl ends
  | cons byte rest ih =>
      by_cases nul : byte = terminator
      · simp [takeField, nextField, nul, Except.map]
      · by_cases blank : byte = space
        · simpa [takeField, nextField, blank, space_ne_terminator] using
            ih (by simpa [takeField, nextField, blank, space_ne_terminator] using ends)
        · have field := scanTo_proceeds space (byte :: rest) more
          simpa [takeField, nextField, nul, blank] using
            field (by simpa [takeField, nextField, nul, blank] using ends)

/-- A scan to a byte and behind it goes on to further bytes: they stand in the block in this
order. -/
theorem scanTo_advance_iff {stop : UInt8} {stops : Bytes}
    {next : Bytes × Bytes → Unit × Bytes → Except Failure α}
    (after : ∀ passed p, next passed ((), p) ≠ .error .outOfBounds ↔ stops.Sublist p) (p : Bytes) :
    (scanTo stop p >>= fun passed => advance passed.2 >>= next passed) ≠ .error .outOfBounds ↔
      (stop :: stops).Sublist p := by
  rcases scanTo_cases stop p with ⟨missing, failed⟩ | ⟨token, rest, absent, rfl, found⟩
  · simp only [failed, error_bind, ne_eq, not_true, false_iff]
    intro inside
    exact missing (inside.subset (by simp))
  · simp only [found, ok_bind, advance, after]
    constructor
    · intro inside
      exact (inside.cons_cons stop).trans (List.sublist_append_right token _)
    · intro inside
      induction token with
      | nil => exact List.cons_sublist_cons.mp inside
      | cons byte token ih =>
          rw [List.mem_cons, not_or] at absent
          apply ih absent.2 (scanTo_append absent.2 rest)
          cases inside with
          | cons _ inside => exact inside
          | cons_cons => exact absurd rfl absent.1

theorem settles_ok (value : α) : Settles fun _ => .ok value := fun _ _ _ => rfl

theorem foldFields_settles (set : Nat → Bytes → α → α) (rounds field : Nat) (value : α) :
    Settles (foldFields set rounds field value) := by
  induction rounds generalizing field value with
  | zero => exact settles_ok value
  | succ rounds ih => exact takeField_proceeds.settles fun token => ih _ _

end Longer

end PointerScan
