/-
Module: RemoteMonitoring.Lib.Tally
Purpose: Runs over a list that check each item, pass over some of them, or set or add something
  for them, over any state: what a checked run returns, which items matter for a part of the
  state, which was the last to set a value, and what a counter of a fixed width shows in the end.
Trusted boundary: none
Main exports: foldlM_checked, foldl_filter, foldl_last, foldl_tally, foldl_split,
  wrapped_exact_iff, outflow, foldl_drained
-/
import RemoteMonitoring.Lib.ByteText
import Mathlib.Algebra.BigOperators.Group.List.Basic
import Mathlib.Data.List.Induction
import Mathlib.Data.Nat.ModEq

namespace Tally

variable {σ α ε : Type}

/-- A run whose steps fail for certain items fails if there is one of them, and else is a run of
steps that do not fail. -/
theorem foldlM_checked {step : σ → α → Except ε σ} {next : σ → α → σ} {Valid : α → Prop}
    [DecidablePred Valid] {failure : ε}
    (checks : ∀ state item, step state item =
      if Valid item then .ok (next state item) else .error failure) (items : List α) (state : σ) :
    items.foldlM step state =
      if ∀ item ∈ items, Valid item then .ok (items.foldl next state) else .error failure := by
  induction items generalizing state with
  | nil => simp [pure, Except.pure]
  | cons item items ih =>
      rw [List.foldlM_cons, checks]
      by_cases valid : Valid item
      · rw [if_pos valid]
        simp only [bind, Except.bind, ih, List.forall_mem_cons, valid, true_and, List.foldl_cons]
      · rw [if_neg valid, if_neg fun all => valid (all item List.mem_cons_self)]
        rfl

/-- A run that only looks at some items, as far as a part of its state is concerned. -/
theorem foldl_filter {τ : Type} {step : σ → α → σ} {next : τ → α → τ} {view : σ → τ}
    {looks : α → Bool}
    (takes : ∀ state item, looks item = true → view (step state item) = next (view state) item)
    (passes : ∀ state item, looks item = false → view (step state item) = view state)
    (items : List α) (state : σ) :
    view (items.foldl step state) = (items.filter looks).foldl next (view state) := by
  induction items generalizing state with
  | nil => rfl
  | cons item items ih =>
      rw [List.foldl_cons, ih]
      cases option : looks item with
      | true => rw [takes state item option, List.filter_cons_of_pos option, List.foldl_cons]
      | false => rw [passes state item option, List.filter_cons_of_neg (by simp [option])]

section Last

variable {ν : Type} {observe : σ → Option ν} {next : σ → α → σ} {Sets : α → Prop} {value : α → ν}

/-- If certain items set what is observed and the others leave it alone, a run shows what the last
of them has set. -/
theorem foldl_last (sets : ∀ state item, Sets item → observe (next state item) = some (value item))
    (keeps : ∀ state item, ¬ Sets item → observe (next state item) = observe state) {state : σ}
    (unset : observe state = none) (items : List α) (shown : ν) :
    observe (items.foldl next state) = some shown ↔
      ∃ front item back, items = front ++ item :: back ∧ Sets item ∧
        (∀ later ∈ back, ¬ Sets later) ∧ value item = shown := by
  induction items using List.reverseRecOn with
  | nil => simp [unset]
  | append_singleton items last ih =>
      rw [List.foldl_append, List.foldl_cons, List.foldl_nil]
      by_cases writes : Sets last
      · rw [sets _ _ writes]
        constructor
        · intro same
          exact ⟨items, last, [], rfl, writes, by simp, Option.some.inj same⟩
        · rintro ⟨front, item, back, whole, _, silent, same⟩
          obtain ⟨behind, split, _⟩ := ByteText.last_behind whole (by simp)
          cases behind with
          | nil =>
              obtain ⟨rfl, _⟩ := List.cons.inj split
              exact congrArg some same
          | cons first between =>
              obtain ⟨rfl, rfl⟩ := List.cons.inj split
              exact absurd writes (silent last (by simp))
      · rw [keeps _ _ writes, ih]
        constructor
        · rintro ⟨front, item, back, rfl, there, silent, same⟩
          refine ⟨front, item, back ++ [last], by simp, there, ?_, same⟩
          intro later member
          rcases List.mem_append.mp member with earlier | ends
          · exact silent later earlier
          · exact List.mem_singleton.mp ends ▸ writes
        · rintro ⟨front, item, back, whole, there, silent, same⟩
          obtain ⟨behind, split, shorter⟩ := ByteText.last_behind whole (by simp)
          cases behind with
          | nil =>
              obtain ⟨rfl, _⟩ := List.cons.inj split
              exact absurd there writes
          | cons first between =>
              obtain ⟨rfl, rfl⟩ := List.cons.inj split
              refine ⟨front, item, between, shorter, there, ?_, same⟩
              intro later member
              exact silent later (by simp [member])

end Last

variable {word : Nat} (observe : σ → Nat) {next : σ → α → σ} {amount : α → Nat}

/-- If each step adds an amount to what is observed, modulo `word`, a run adds the sum. -/
theorem foldl_tally
    (adds : ∀ state item, observe (next state item) ≡ observe state + amount item [MOD word])
    (items : List α) (state : σ) :
    observe (items.foldl next state) ≡ observe state + (items.map amount).sum [MOD word] := by
  induction items generalizing state with
  | nil => exact Nat.ModEq.refl _
  | cons item items ih =>
      rw [List.foldl_cons, List.map_cons, List.sum_cons, ← Nat.add_assoc]
      exact (ih (next state item)).trans ((adds state item).add_right _)

/-- The same with the items for which something is added in two classes. -/
theorem foldl_split (Counted Proper : α → Prop) [DecidablePred Counted] [DecidablePred Proper]
    (size : α → Nat)
    (adds : ∀ state item, observe (next state item) ≡
      observe state + (if Counted item then size item else 0) [MOD word])
    (items : List α) (state : σ) :
    observe (items.foldl next state) ≡ observe state +
      (((items.filter fun item => Counted item ∧ Proper item).map size).sum +
        ((items.filter fun item => Counted item ∧ ¬ Proper item).map size).sum) [MOD word] := by
  have split : ((items.filter fun item => Counted item ∧ Proper item).map size).sum +
      ((items.filter fun item => Counted item ∧ ¬ Proper item).map size).sum =
        (items.map fun item => if Counted item then size item else 0).sum := by
    induction items with
    | nil => rfl
    | cons item items ih =>
        by_cases counted : Counted item
        · by_cases proper : Proper item
          · simp [counted, proper, ← ih, Nat.add_assoc]
          · simp [counted, proper, ← ih, Nat.add_left_comm]
        · simp [counted, ← ih]
  rw [split]
  exact foldl_tally observe adds items state

/-- A counter that wraps shows what belongs to it exactly if that fits and the rest goes round
an entire number of times. -/
theorem wrapped_exact_iff {proper stray : Nat} (wide : 0 < word) :
    (proper + stray) % word = proper ↔ proper < word ∧ word ∣ stray := by
  constructor
  · intro same
    have fits : proper < word := same ▸ Nat.mod_lt _ wide
    have congruent : proper + stray ≡ proper + 0 [MOD word] := by
      rw [Nat.ModEq, same, Nat.add_zero, Nat.mod_eq_of_lt fits]
    exact ⟨fits, (Nat.modEq_zero_iff_dvd).mp (Nat.ModEq.add_left_cancel' proper congruent)⟩
  · rintro ⟨fits, whole⟩
    rw [Nat.add_mod, Nat.mod_eq_zero_of_dvd whole, Nat.add_zero, Nat.mod_mod,
      Nat.mod_eq_of_lt fits]

/-! ### A counter that is emptied -/

/-- What leaves in a run: what leaves in each step, by the state that it meets. -/
def outflow (next : σ → α → σ) (leaves : σ → α → Nat) : List α → σ → Nat
  | [], _ => 0
  | item :: items, state => leaves state item + outflow next leaves items (next state item)

theorem outflow_add (one two : σ → α → Nat) (items : List α) (state : σ) :
    outflow next (fun state item => one state item + two state item) items state =
      outflow next one items state + outflow next two items state := by
  induction items generalizing state with
  | nil => rfl
  | cons item items ih =>
      simp only [outflow, ih]
      omega

/-- If a step only ever moves what is counted out of the counter, all that was added in a run has
left or is still there, modulo `word`; and not only modulo `word` as long as it fits. -/
theorem foldl_drained {leaves : σ → α → Nat}
    (moves : ∀ state item,
      observe (next state item) + leaves state item = (observe state + amount item) % word)
    (items : List α) (state : σ) :
    observe (items.foldl next state) + outflow next leaves items state ≡
        observe state + (items.map amount).sum [MOD word] ∧
      (observe state + (items.map amount).sum < word →
        observe (items.foldl next state) + outflow next leaves items state =
          observe state + (items.map amount).sum) := by
  induction items generalizing state with
  | nil => exact ⟨Nat.ModEq.refl _, fun _ => rfl⟩
  | cons item items ih =>
      have step := moves state item
      obtain ⟨congruent, exact⟩ := ih (next state item)
      have through : observe (next state item) + leaves state item ≡
          observe state + amount item [MOD word] := step ▸ Nat.mod_modEq _ _
      rw [List.foldl_cons, List.map_cons, List.sum_cons, outflow]
      constructor
      · have moved := congruent.add_right (leaves state item)
        have added := through.add_right (items.map amount).sum
        have sum : observe (next state item) + (items.map amount).sum + leaves state item =
            observe (next state item) + leaves state item + (items.map amount).sum := by omega
        rw [sum] at moved
        have all := moved.trans added
        rwa [Nat.add_assoc, Nat.add_comm (outflow _ _ _ _), Nat.add_assoc] at all
      · intro fits
        rw [Nat.mod_eq_of_lt (by omega)] at step
        have rest := exact (by omega)
        omega

end Tally
