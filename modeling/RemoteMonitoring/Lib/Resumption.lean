/-
Module: RemoteMonitoring.Lib.Resumption
Purpose: Delivery with cumulative acknowledgements when the sender may be stopped and started
  again.  Its disk has the last acknowledgement and the items behind a position, and from these
  it resumes: what was released after that acknowledgement is offered again.
Trusted boundary: none
Main exports: CumulativeAck.State.resume, Resumption, reachable_resumable, State.trip,
  trip_released
-/
import RemoteMonitoring.Lib.CumulativeAck

namespace CumulativeAck

variable {α : Type}

open State

/-- The sender starts again.  The first `kept` items are no longer on its disk. -/
def State.resume (kept : Nat) (s : State α) : State α :=
  { s with released := max kept s.ackId }

/-- A step of the protocol, or a new start.  At a start the sender may drop from its disk what
it does not offer any more. -/
inductive Resumption (size : Nat) : State α × Nat → State α × Nat → Prop where
  | protocol {s s' : State α} (kept : Nat) (step : Step size s s') :
      Resumption size (s, kept) (s', kept)
  | resume (s : State α) (kept : Nat) : Resumption size (s, kept) (s.resume kept, kept)
  | compact (s : State α) (kept : Nat) :
      Resumption size (s, kept) (s.resume kept, max kept s.ackId)

/-- What is no longer on the disk was released, and so is with the receiver. -/
structure Resumable (s : State α) (kept : Nat) : Prop where
  inv : Inv s
  kept_le : kept ≤ s.released

theorem released_le_of_step {size : Nat} {s s' : State α} (step : Step size s s')
    (inv : Inv s) : s.released ≤ s'.released := by
  cases step with
  | issue => exact Nat.le_refl _
  | send => exact Nat.le_refl _
  | receive => exact Nat.le_refl _
  | acknowledge ack =>
      rw [acknowledge_released inv]
      exact Nat.le_max_left _ _

/-- A new start rewinds at most to what the receiver holds. -/
theorem Resumable.inv_resume {s : State α} {kept : Nat} (resumable : Resumable s kept) :
    Inv (s.resume kept) :=
  have behind : max kept s.ackId ≤ s.released :=
    Nat.max_le.mpr ⟨resumable.kept_le, resumable.inv.ack_le⟩
  { resumable.inv with
    ack_le := Nat.le_max_right _ _
    released_le := Nat.le_trans behind resumable.inv.released_le }

theorem resumable_initial : Resumable (State.initial : State α) 0 :=
  ⟨inv_initial, Nat.le_refl 0⟩

theorem resumable_step {size : Nat} {one two : State α × Nat} (step : Resumption size one two)
    (resumable : Resumable one.1 one.2) : Resumable two.1 two.2 := by
  cases step with
  | protocol kept step =>
      have further := released_le_of_step step resumable.inv
      exact ⟨inv_step step resumable.inv, Nat.le_trans resumable.kept_le further⟩
  | resume s kept => exact ⟨resumable.inv_resume, Nat.le_max_left _ _⟩
  | compact s kept => exact ⟨resumable.inv_resume, Nat.le_refl _⟩

/-- The invariant holds after every run with any number of new starts. -/
theorem reachable_resumable {size : Nat} {s : State α × Nat}
    (run : Relation.ReflTransGen (Resumption size) (State.initial, 0) s) :
    Resumable s.1 s.2 := by
  induction run with
  | refl => exact resumable_initial
  | tail _ step ih => exact resumable_step step ih

/-! ### Undisturbed round trips -/

namespace State

/-- The sender's window goes out. -/
def offer (size : Nat) (s : State α) : State α :=
  { s with windows := s.window size :: s.windows }

/-- It is received, and the answer comes back. -/
def trip (size : Nat) (s : State α) : State α :=
  let answered := (s.offer size).receive (s.window size)
  answered.acknowledge answered.stored

end State

theorem Inv.offer {s : State α} (inv : Inv s) (size : Nat) : Inv (s.offer size) :=
  inv_step (.send s) inv

theorem Inv.trip {s : State α} (inv : Inv s) (size : Nat) : Inv (s.trip size) :=
  inv_acknowledge (inv_receive (inv.offer size) (inv.window_le size).2.2) (Nat.le_refl _)

@[simp] theorem trip_issued (size : Nat) (s : State α) : (s.trip size).issued = s.issued :=
  acknowledge_issued _ _

/-- A round trip moves on by a whole window, or to the end. -/
theorem trip_released {s : State α} (inv : Inv s) (size : Nat) :
    min (s.released + size) s.issued.length ≤ (s.trip size).released := by
  have answered := inv_receive (inv.offer size) (inv.window_le size).2.2
  have stored : ((s.offer size).receive (s.window size)).stored =
      max s.stored (s.window size).2 := received_of_le (inv.window_le size).1
  rw [State.trip, acknowledge_released answered, stored, window]
  exact Nat.le_trans (Nat.le_max_right _ _) (Nat.le_max_right _ _)

end CumulativeAck
