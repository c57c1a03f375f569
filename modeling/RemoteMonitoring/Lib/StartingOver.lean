/-
Module: RemoteMonitoring.Lib.StartingOver
Purpose: Delivery with cumulative acknowledgements when the sender numbers its items from 1
  again, while the receiver holds the items of before and waits for the one behind them.
Trusted boundary: none
Main exports: CumulativeAck.State.startOver, Behind, reachable_behind
-/
import RemoteMonitoring.Lib.CumulativeAck

namespace CumulativeAck

variable {α : Type}

open State

/-- The receiver has `ahead` items, and the sender knows only that.  A window or an
acknowledgement of before says nothing else. -/
def State.startOver (ahead : Nat) : State α := ⟨[], ahead, 0, ahead, [(0, 0)], [ahead]⟩

/-- Nothing but what is behind the first `ahead` items is taken, and a window that does not
reach so far is never released. -/
structure Behind (size ahead : Nat) (s : State α) : Prop where
  ahead_le : ahead ≤ s.stored
  stored_le : s.stored = ahead ∨ s.stored ≤ s.issued.length
  released_le : s.released ≤ s.stored ∧ s.released ≤ s.issued.length
  ackId_le : ahead ≤ s.ackId ∧ s.ackId ≤ s.stored
  acks_le : ∀ ack ∈ s.acks, ahead ≤ ack ∧ ack ≤ s.stored
  windows_le : ∀ window ∈ s.windows,
    window.1 ≤ s.stored ∧ window.1 ≤ window.2 ∧ window.2 ≤ s.issued.length
  stuck : size ≤ ahead →
    s.stored = ahead ∧ s.released = 0 ∧ ∀ window ∈ s.windows, window.2 ≤ size

variable {size ahead : Nat}

theorem behind_startOver : Behind size ahead (State.startOver ahead : State α) where
  ahead_le := Nat.le_refl _
  stored_le := Or.inl rfl
  released_le := ⟨Nat.zero_le _, Nat.zero_le _⟩
  ackId_le := ⟨Nat.le_refl _, Nat.le_refl _⟩
  acks_le := by simp [State.startOver]
  windows_le := by simp [State.startOver]
  stuck := by simp [State.startOver]

/-- Each rule leaves the sender behind: an item that is issued is one more to wait. -/
theorem behind_issue {s : State α} (behind : Behind size ahead s) (item : α) :
    Behind size ahead { s with issued := s.issued ++ [item] } := by
  have longer : s.issued.length ≤ (s.issued ++ [item]).length := by simp
  exact
    { behind with
      stored_le := behind.stored_le.imp_right fun inside => Nat.le_trans inside longer
      released_le := ⟨behind.released_le.1, Nat.le_trans behind.released_le.2 longer⟩
      windows_le := fun window sent =>
        have old := behind.windows_le window sent
        ⟨old.1, old.2.1, Nat.le_trans old.2.2 longer⟩ }

/-- The window offered now starts inside what the receiver holds. -/
theorem Behind.window_le {s : State α} (behind : Behind size ahead s) :
    (s.window size).1 ≤ s.stored ∧ (s.window size).1 ≤ (s.window size).2 ∧
      (s.window size).2 ≤ s.issued.length := by
  have released := behind.released_le
  simp only [window]
  omega

/-- A window that is sent reaches no further than the size of a batch. -/
theorem behind_send {s : State α} (behind : Behind size ahead s) :
    Behind size ahead { s with windows := s.window size :: s.windows } := by
  refine { behind with windows_le := ?_, stuck := ?_ }
  · intro window sent
    rcases List.mem_cons.mp sent with rfl | older
    · exact behind.window_le
    · exact behind.windows_le window older
  · intro short
    obtain ⟨stored, released, windows⟩ := behind.stuck short
    refine ⟨stored, released, ?_⟩
    intro window sent
    rcases List.mem_cons.mp sent with rfl | older
    · simp only [State.window, released]
      omega
    · exact windows window older

/-- A window that was sent begins inside what is stored, so what is taken of it goes on from there.
-/
theorem behind_receive {s : State α} (behind : Behind size ahead s) {window : Nat × Nat}
    (sent : window ∈ s.windows) : Behind size ahead (s.receive window) := by
  have grows := le_received s.stored window
  obtain ⟨reaches, ordered, inside⟩ := behind.windows_le window sent
  have taken := received_of_le reaches
  refine
    { ahead_le := Nat.le_trans behind.ahead_le grows
      stored_le := ?_
      released_le := ⟨Nat.le_trans behind.released_le.1 grows, behind.released_le.2⟩
      ackId_le := ⟨behind.ackId_le.1, Nat.le_trans behind.ackId_le.2 grows⟩
      acks_le := ?_
      windows_le := ?_
      stuck := ?_ }
  · change received s.stored window = ahead ∨ received s.stored window ≤ s.issued.length
    have stored := behind.stored_le
    have least := behind.ahead_le
    omega
  · intro ack answered
    rcases List.mem_cons.mp answered with rfl | older
    · exact ⟨Nat.le_trans behind.ahead_le grows, Nat.le_refl _⟩
    · exact ⟨(behind.acks_le ack older).1, Nat.le_trans (behind.acks_le ack older).2 grows⟩
  · intro other member
    obtain ⟨first, rest⟩ := behind.windows_le other member
    exact ⟨Nat.le_trans first grows, rest⟩
  · intro short
    obtain ⟨stored, released, windows⟩ := behind.stuck short
    refine ⟨?_, released, windows⟩
    have last := windows window sent
    change received s.stored window = ahead
    omega

/-- An ack that was sent releases nothing that is not stored. -/
theorem behind_acknowledge {s : State α} (behind : Behind size ahead s) {ack : Nat}
    (sent : ack ∈ s.acks) : Behind size ahead (s.acknowledge ack) := by
  have bounds := behind.acks_le ack sent
  by_cases same : ack = s.ackId
  · rw [acknowledge, if_pos same]
    exact behind
  · rw [acknowledge_of_ne same]
    have least := behind.ackId_le
    have stored := behind.stored_le
    have released := behind.released_le
    exact
      { behind with
        released_le := by
          dsimp only
          omega
        ackId_le := bounds
        stuck := by
          intro short
          -- only one acknowledgement is possible, and it is the current one
          have only := (behind.stuck short).1
          omega }

theorem behind_step {s s' : State α} (step : Step size s s') (behind : Behind size ahead s) :
    Behind size ahead s' := by
  cases step with
  | issue item => exact behind_issue behind item
  | send => exact behind_send behind
  | receive window sent => exact behind_receive behind sent
  | acknowledge ack sent => exact behind_acknowledge behind sent

theorem reachable_behind {s : State α}
    (run : Relation.ReflTransGen (Step size) (State.startOver ahead) s) :
    Behind size ahead s := by
  induction run with
  | refl => exact behind_startOver
  | tail _ step ih => exact behind_step step ih

end CumulativeAck
