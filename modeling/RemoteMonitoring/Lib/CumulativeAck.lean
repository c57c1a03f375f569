/-
Module: RemoteMonitoring.Lib.CumulativeAck
Purpose: Delivery with cumulative acknowledgements over a network that may lose, duplicate and
  reorder messages, over any type of items.  The sender numbers its items from 1 and offers a
  window at the front of what it has not released; the receiver keeps a prefix of the items
  and answers every window with the length of that prefix.
Trusted boundary: none
Main exports: CumulativeAck.State, Step, Inv, reachable_inv, roundTrip_releases
-/
import Mathlib.Logic.Relation
import Mathlib.Order.MinMax

namespace CumulativeAck

variable {α : Type}

/-- A window is the pair of its first position and the position after its last
item.  `windows` and `acks` collect everything ever sent: a message that is lost
is one that is not delivered again. -/
structure State (α : Type) where
  issued : List α
  stored : Nat
  released : Nat
  ackId : Nat
  windows : List (Nat × Nat)
  acks : List Nat

namespace State

def initial : State α := ⟨[], 0, 0, 0, [], []⟩

def window (size : Nat) (s : State α) : Nat × Nat :=
  (s.released, min (s.released + size) s.issued.length)

/-- The receiver takes what continues its prefix. -/
def received (stored : Nat) (window : Nat × Nat) : Nat :=
  if window.1 ≤ stored then max stored window.2 else stored

def receive (s : State α) (window : Nat × Nat) : State α :=
  { s with
    stored := received s.stored window
    acks := received s.stored window :: s.acks }

/-- The sender ignores an acknowledgement equal to its current one and follows
any other, also a lower one. -/
def acknowledge (s : State α) (ack : Nat) : State α :=
  if ack = s.ackId then s
  else { s with ackId := ack, released := max s.released ack }

end State

open State

inductive Step (size : Nat) : State α → State α → Prop where
  | issue (s : State α) (item : α) : Step size s { s with issued := s.issued ++ [item] }
  | send (s : State α) : Step size s { s with windows := s.window size :: s.windows }
  | receive (s : State α) (window : Nat × Nat) (sent : window ∈ s.windows) :
      Step size s (s.receive window)
  | acknowledge (s : State α) (ack : Nat) (sent : ack ∈ s.acks) :
      Step size s (s.acknowledge ack)

/-- The current acknowledgement is at most what was released, which is at most
what the receiver holds; no message in flight is ahead of that. -/
structure Inv (s : State α) : Prop where
  ack_le : s.ackId ≤ s.released
  released_le : s.released ≤ s.stored
  stored_le : s.stored ≤ s.issued.length
  acks_le : ∀ ack ∈ s.acks, ack ≤ s.stored
  windows_le : ∀ window ∈ s.windows,
    window.1 ≤ s.stored ∧ window.1 ≤ window.2 ∧ window.2 ≤ s.issued.length

theorem received_of_le {stored : Nat} {window : Nat × Nat} (reaches : window.1 ≤ stored) :
    received stored window = max stored window.2 := if_pos reaches

theorem acknowledge_of_ne {s : State α} {ack : Nat} (news : ack ≠ s.ackId) :
    s.acknowledge ack = { s with ackId := ack, released := max s.released ack } :=
  if_neg news

@[simp] theorem acknowledge_issued (s : State α) (ack : Nat) :
    (s.acknowledge ack).issued = s.issued := by
  unfold acknowledge
  split <;> rfl

theorem le_received (stored : Nat) (window : Nat × Nat) : stored ≤ received stored window := by
  unfold received
  split
  · exact Nat.le_max_left _ _
  · exact Nat.le_refl _

theorem received_le {stored bound : Nat} {window : Nat × Nat} (one : stored ≤ bound)
    (two : window.2 ≤ bound) : received stored window ≤ bound := by
  unfold received
  split
  · exact Nat.max_le.mpr ⟨one, two⟩
  · exact one

theorem inv_initial : Inv (State.initial : State α) where
  ack_le := Nat.le_refl 0
  released_le := Nat.le_refl 0
  stored_le := Nat.le_refl 0
  acks_le := by simp [State.initial]
  windows_le := by simp [State.initial]

/-- The window offered now starts inside the receiver's prefix. -/
theorem Inv.window_le {s : State α} (inv : Inv s) (size : Nat) :
    (s.window size).1 ≤ s.stored ∧ (s.window size).1 ≤ (s.window size).2 ∧
      (s.window size).2 ≤ s.issued.length := by
  have released := inv.released_le
  have stored := inv.stored_le
  simp only [window]
  omega

/-- An acknowledgement that is ignored would not have released anything. -/
theorem acknowledge_released {s : State α} (inv : Inv s) (ack : Nat) :
    (s.acknowledge ack).released = max s.released ack := by
  unfold acknowledge
  split
  · rename_i same
    exact (Nat.max_eq_left (same ▸ inv.ack_le)).symm
  · rfl

/-- What is stored grows, and the answer is what is stored. -/
theorem inv_receive {s : State α} (inv : Inv s) {window : Nat × Nat}
    (upTo : window.2 ≤ s.issued.length) : Inv (s.receive window) where
  ack_le := inv.ack_le
  released_le := Nat.le_trans inv.released_le (le_received s.stored window)
  stored_le := received_le inv.stored_le upTo
  acks_le := by
    intro ack sent
    rcases List.mem_cons.mp sent with rfl | older
    · exact Nat.le_refl _
    · exact Nat.le_trans (inv.acks_le ack older) (le_received s.stored window)
  windows_le := by
    intro other sent
    obtain ⟨first, ordered, last⟩ := inv.windows_le other sent
    exact ⟨Nat.le_trans first (le_received s.stored window), ordered, last⟩

/-- What is released was acked, and so it is stored. -/
theorem inv_acknowledge {s : State α} (inv : Inv s) {ack : Nat} (held : ack ≤ s.stored) :
    Inv (s.acknowledge ack) := by
  unfold acknowledge
  split
  · exact inv
  · exact
      { ack_le := Nat.le_max_right _ _
        released_le := Nat.max_le.mpr ⟨inv.released_le, held⟩
        stored_le := inv.stored_le
        acks_le := inv.acks_le
        windows_le := inv.windows_le }

/-- One case for each rule. -/
theorem inv_step {size : Nat} {s s' : State α} (step : Step size s s') (inv : Inv s) :
    Inv s' := by
  cases step with
  | issue item =>
      have longer : s.issued.length ≤ (s.issued ++ [item]).length := by simp
      exact
        { ack_le := inv.ack_le
          released_le := inv.released_le
          stored_le := Nat.le_trans inv.stored_le longer
          acks_le := inv.acks_le
          windows_le := fun window sent =>
            have old := inv.windows_le window sent
            ⟨old.1, old.2.1, Nat.le_trans old.2.2 longer⟩ }
  | send =>
      refine ⟨inv.ack_le, inv.released_le, inv.stored_le, inv.acks_le, ?_⟩
      intro window sent
      rcases List.mem_cons.mp sent with rfl | older
      · exact inv.window_le size
      · exact inv.windows_le window older
  | receive window sent => exact inv_receive inv (inv.windows_le window sent).2.2
  | acknowledge ack sent => exact inv_acknowledge inv (inv.acks_le ack sent)

/-- The invariant holds after every run. -/
theorem reachable_inv {size : Nat} {s : State α}
    (run : Relation.ReflTransGen (Step size) State.initial s) : Inv s := by
  induction run with
  | refl => exact inv_initial
  | tail _ step ih => exact inv_step step ih

/-- An undisturbed round trip from a state with something pending releases at
least one item: the acknowledgement that comes back is above the current one,
so it is not ignored. -/
theorem roundTrip_releases {size : Nat} (positive : 0 < size) {s : State α} (inv : Inv s)
    (pending : s.released < s.issued.length) :
    let answered := s.receive (s.window size)
    s.released < (answered.acknowledge answered.stored).released := by
  intro answered
  have ack := inv.ack_le
  have released := inv.released_le
  have above : s.released < answered.stored := by
    change s.released < received s.stored (s.window size)
    rw [received_of_le (inv.window_le size).1, window]
    exact Nat.lt_of_lt_of_le (by simp only [Nat.lt_min]; omega) (Nat.le_max_right _ _)
  have news : answered.stored ≠ answered.ackId := by
    change answered.stored ≠ s.ackId
    omega
  rw [acknowledge_of_ne news]
  exact Nat.lt_of_lt_of_le above (Nat.le_max_right _ _)

end CumulativeAck
