/-
Module: RemoteMonitoring.Lib.NestedPublish
Purpose: A bus on which subscribers are called in place, one after another, and may publish on
  the same bus while they are called.  An exception leaves the loop over the subscribers and
  is seen by whoever published.
Trusted boundary: none
Main exports: Callback, Callback.run, deliver, publish, publish_mono, publish_of_depth,
  deliver_single, Callback.run_publishAll, Callback.run_caught
-/
import Mathlib.Data.Option.Basic

namespace NestedPublish

variable {σ ε ξ : Type}

/-- What a callback does with the state: it ends, or it publishes and goes on with the state
and the exception, if any, that come back. -/
inductive Callback (σ ε ξ : Type) where
  | done (outcome : Except ξ Unit) (state : σ)
  | publish (event : ε) (state : σ) (next : Except ξ Unit → σ → Callback σ ε ξ)

abbrev Subscriber (σ ε ξ : Type) := ε → σ → Callback σ ε ξ

/-- How a call ends; nothing if the nested calls do not. -/
abbrev Ending (σ ξ : Type) := Option (Except ξ Unit × σ)

namespace Callback

def run (publish : ε → σ → Ending σ ξ) : Callback σ ε ξ → Ending σ ξ
  | .done outcome state => some (outcome, state)
  | .publish event state next =>
      match publish event state with
      | none => none
      | some (outcome, state) => (next outcome state).run publish

/-- Publish some events, with no handler around it. -/
def publishAll : List ε → σ → Callback σ ε ξ
  | [], state => .done (.ok ()) state
  | event :: later, state =>
      .publish event state fun outcome state =>
        match outcome with
        | .ok _ => publishAll later state
        | .error e => .done (.error e) state

/-- The callback inside a handler for everything. -/
def caught : Callback σ ε ξ → Callback σ ε ξ
  | .done _ state => .done (.ok ()) state
  | .publish event state next =>
      .publish event state fun outcome state => (next outcome state).caught

end Callback

/-- The loop over the subscribers. -/
def deliver (publish : ε → σ → Ending σ ξ) (event : ε) : List (Subscriber σ ε ξ) → σ → Ending σ ξ
  | [], state => some (.ok (), state)
  | subscriber :: later, state =>
      match (subscriber event state).run publish with
      | none => none
      | some (.error e, state) => some (.error e, state)
      | some (.ok _, state) => deliver publish event later state

/-- `depth` bounds how deep the calls are nested. -/
def publish (subscribers : List (Subscriber σ ε ξ)) : Nat → ε → σ → Ending σ ξ
  | 0, _, _ => none
  | depth + 1, event, state => deliver (publish subscribers depth) event subscribers state

/-! ### Depth -/

/-- A callback ends in the same way if more publications end. -/
theorem Callback.run_mono {one two : ε → σ → Ending σ ξ}
    (more : ∀ event state ending, one event state = some ending → two event state = some ending)
    {callback : Callback σ ε ξ} {ending : Except ξ Unit × σ}
    (ends : callback.run one = some ending) : callback.run two = some ending := by
  induction callback generalizing ending with
  | done outcome state => exact ends
  | publish event state next ih =>
      cases first : one event state with
      | none => simp [run, first] at ends
      | some between =>
          rw [run, first] at ends
          rw [run, more event state between first]
          exact ih _ _ ends

/-- And so does the round over the subscribers. -/
theorem deliver_mono {one two : ε → σ → Ending σ ξ}
    (more : ∀ event state ending, one event state = some ending → two event state = some ending)
    {event : ε} {subscribers : List (Subscriber σ ε ξ)} {state : σ} {ending : Except ξ Unit × σ}
    (ends : deliver one event subscribers state = some ending) :
    deliver two event subscribers state = some ending := by
  induction subscribers generalizing state with
  | nil => exact ends
  | cons subscriber later ih =>
      cases first : (subscriber event state).run one with
      | none => simp [deliver, first] at ends
      | some between =>
          have again := Callback.run_mono more first
          obtain ⟨outcome, after⟩ := between
          cases outcome with
          | error e =>
              rw [deliver, first] at ends
              rw [deliver, again]
              exact ends
          | ok done =>
              rw [deliver, first] at ends
              rw [deliver, again]
              exact ih ends

/-- Where the calls end, more depth changes nothing. -/
theorem publish_mono {subscribers : List (Subscriber σ ε ξ)} {depth : Nat} {event : ε} {state : σ}
    {ending : Except ξ Unit × σ} (ends : publish subscribers depth event state = some ending)
    (more : Nat) : publish subscribers (depth + more) event state = some ending := by
  induction depth generalizing event state ending with
  | zero => cases ends
  | succ depth ih =>
      rw [Nat.succ_add]
      exact deliver_mono (fun event state ending nested => ih nested) ends

theorem publish_of_depth {subscribers : List (Subscriber σ ε ξ)} {depth enough : Nat} {event : ε}
    {state : σ} {ending : Except ξ Unit × σ}
    (ends : publish subscribers enough event state = some ending) (deep : enough ≤ depth) :
    publish subscribers depth event state = some ending := by
  obtain ⟨more, rfl⟩ := Nat.exists_eq_add_of_le deep
  exact publish_mono ends more

/-! ### Who does something -/

/-- A subscriber that leaves an event alone is as good as absent. -/
theorem deliver_ignored {publish : ε → σ → Ending σ ξ} {event : ε} {subscriber : Subscriber σ ε ξ}
    (ignores : ∀ state, subscriber event state = .done (.ok ()) state)
    (later : List (Subscriber σ ε ξ)) (state : σ) :
    deliver publish event (subscriber :: later) state = deliver publish event later state := by
  rw [deliver, ignores, Callback.run]

theorem deliver_all_ignored {publish : ε → σ → Ending σ ξ} {event : ε}
    {subscribers : List (Subscriber σ ε ξ)}
    (ignores : ∀ subscriber ∈ subscribers, ∀ state, subscriber event state = .done (.ok ()) state)
    (state : σ) : deliver publish event subscribers state = some (.ok (), state) := by
  induction subscribers with
  | nil => rfl
  | cons subscriber later ih =>
      rw [deliver_ignored (ignores subscriber List.mem_cons_self)]
      exact ih fun other member => ignores other (List.mem_cons_of_mem subscriber member)

/-- With one subscriber that acts on an event, wherever it is in the list, publishing the event
does what it does. -/
theorem deliver_single {publish : ε → σ → Ending σ ξ} {event : ε}
    {front back : List (Subscriber σ ε ξ)} {subscriber : Subscriber σ ε ξ}
    (ignores : ∀ other ∈ front ++ back, ∀ state, other event state = .done (.ok ()) state)
    {state after : σ} (acts : (subscriber event state).run publish = some (.ok (), after)) :
    deliver publish event (front ++ subscriber :: back) state = some (.ok (), after) := by
  induction front with
  | nil =>
      rw [List.nil_append, deliver, acts]
      exact deliver_all_ignored ignores after
  | cons other front ih =>
      rw [List.cons_append, deliver_ignored (ignores other List.mem_cons_self)]
      exact ih fun another member => ignores another (List.mem_cons_of_mem other member)

/-! ### Callbacks that publish -/

/-- Events whose publication only changes the state: together they have the effect of all. -/
theorem Callback.run_publishAll {κ : Type} {wrap : κ → ε} {publish : ε → σ → Ending σ ξ}
    {effect : List κ → σ → σ} (nothing : ∀ state, effect [] state = state)
    (further : ∀ item later state,
      effect later (effect [item] state) = effect (item :: later) state)
    (acts : ∀ item state, publish (wrap item) state = some (.ok (), effect [item] state))
    (items : List κ) (state : σ) :
    (publishAll (items.map wrap) state).run publish = some (.ok (), effect items state) := by
  induction items generalizing state with
  | nil =>
      rw [nothing]
      rfl
  | cons item later ih =>
      rw [List.map_cons, publishAll, run, acts item state]
      simp only [ih, further]

/-- A callback that catches what is thrown ends as well, without an error. -/
theorem Callback.run_caught {publish : ε → σ → Ending σ ξ} {callback : Callback σ ε ξ}
    {outcome : Except ξ Unit} {after : σ} (ends : callback.run publish = some (outcome, after)) :
    callback.caught.run publish = some (.ok (), after) := by
  induction callback with
  | done outcome state =>
      cases ends
      rfl
  | publish event state next ih =>
      cases first : publish event state with
      | none => simp [run, first] at ends
      | some between =>
          rw [run, first] at ends
          rw [caught, run, first]
          exact ih _ _ ends

end NestedPublish
