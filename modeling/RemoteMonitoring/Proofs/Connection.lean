/-
Module: RemoteMonitoring.Proofs.Connection
Purpose: When the threads of a `ServerConnector` agree on the connection: the order of events
  that decides it, by an invariant between that order and the shared members.
Trusted boundary: every read and every write of a shared member is one step
Main exports: Follows, follows_step, agrees_iff
-/
import RemoteMonitoring.Client.ServerConnector

namespace RemoteMonitoring

open ConnectorThreads
open ConnectorTimeline

/-! ### Runs -/

section Runs

variable {s : ConnectorThreads} {past : ConnectorTimeline} {event : ConnectorEvent}
  {later : List ConnectorEvent}

/-- Nothing is left but to hear. -/
theorem agrees_nil : s.Agrees [] ↔ ¬ s.Deaf := by
  constructor
  · intro agrees
    exact (agrees 0 s rfl).1
  · intro hears count s' reached
    rw [List.take_nil] at reached
    cases reached
    exact ⟨hears, by simp⟩

/-- Agreement along a run: in the first state and step, and along the rest. -/
theorem agrees_cons : s.Agrees (event :: later) ↔
    ¬ s.Deaf ∧ ¬ s.MarksNewer event ∧ ∀ s', s.step event = some s' → s'.Agrees later := by
  constructor
  · intro agrees
    have here := agrees 0 s rfl
    refine ⟨here.1, here.2 event rfl, ?_⟩
    intro s' steps count after reached
    apply agrees (count + 1)
    rw [List.take_succ_cons, run, steps]
    exact reached
  · intro parts count after reached
    cases count with
    | zero =>
        cases reached
        refine ⟨parts.1, ?_⟩
        intro other first
        cases first
        exact parts.2.1
    | succ count =>
        rw [List.take_succ_cons, run] at reached
        obtain ⟨s', steps, reached⟩ := Option.bind_eq_some_iff.mp reached
        exact parts.2.2 s' steps count after reached

theorem orderlyRun_nil : past.OrderlyRun s [] := by
  intro count s' event after _ found
  simp at found

/-- The same for what the run is to look like. -/
theorem orderlyRun_cons : past.OrderlyRun s (event :: later) ↔
    ∀ s', s.step event = some s' →
      past.Orderly s event ∧ (past.next event).OrderlyRun s' later := by
  constructor
  · intro orderly s' steps
    refine ⟨orderly 0 s event s' rfl rfl steps, ?_⟩
    intro count other found after reached here enabled
    apply orderly (count + 1) other found after _ here enabled
    rw [List.take_succ_cons, run, steps]
    exact reached
  · intro orderly count other found after reached here enabled
    cases count with
    | zero =>
        cases reached
        cases here
        exact (orderly after enabled).1
    | succ count =>
        rw [List.take_succ_cons, run] at reached
        obtain ⟨s', steps, reached⟩ := Option.bind_eq_some_iff.mp reached
        exact (orderly s' steps).2 count other found after reached here enabled

end Runs

/-! ### The steps of an operation that has its socket -/

section Operations

variable {s s' : ConnectorThreads} {thread : ConnectorThread}

theorem operationStep_returns : s.operationStep (.returns thread) = some s' ↔
    ∃ socket, s.threads thread = .waiting socket ∧ s.operate thread .idle = s' := by
  simp only [operationStep]
  cases s.threads thread <;> simp

theorem operationStep_throws : s.operationStep (.throws thread) = some s' ↔
    ∃ socket, s.threads thread = .waiting socket ∧ s.operate thread (.failed socket) = s' := by
  simp only [operationStep]
  cases s.threads thread <;> simp

/-- A thread whose socket has failed marks the connector disconnected, whichever socket that has
by then. -/
theorem operationStep_markDisconnected :
    s.operationStep (.markDisconnected thread) = some s' ↔
      ∃ socket, s.threads thread = .failed socket ∧
        { s.operate thread .idle with
          connector := { s.connector with isConnected := false } } = s' := by
  simp only [operationStep]
  cases s.threads thread <;> simp

end Operations

/-! ### The shared members against the order of events -/

/-- The socket that a thread has picked up and not let go. -/
def SocketOperation.held : SocketOperation → Option Int
  | .idle => none
  | .checked => none
  | .waiting socket => some socket
  | .failed socket => some socket

/-- No socket has been made yet, and so none has been picked up. -/
def ConnectorThreads.Untouched (s : ConnectorThreads) : Prop :=
  s.connector.isConnected = false ∧ (∀ thread, s.threads thread = .idle) ∧
    (s.reconnect = .whileCheck ∨ s.reconnect = .tryCheck ∨ s.reconnect = .createSocket)

/-- The order of events determines the flag and which threads hold a replaced socket.
Only the reconnect thread raises the flag, so it is down while a socket is made. -/
structure Follows (past : ConnectorTimeline) (s : ConnectorThreads) : Prop where
  flag : s.connector.isConnected = past.reconnected
  down : s.reconnect ≠ .whileCheck → s.connector.isConnected = false
  valid : s.connector.isConnected = true ∨ s.reconnect = .connect ∨ s.reconnect = .closeSocket ∨
    s.reconnect = .markConnected → 0 ≤ s.connector.clientSocket
  made : s.connector.clientSocket < s.created ∨ s.Untouched
  older : ∀ thread socket, (s.threads thread).held = some socket → socket < s.created
  current : ∀ thread socket, (s.threads thread).held = some socket →
    past.outdated thread = false → socket = s.connector.clientSocket
  replaced : ∀ thread socket, (s.threads thread).held = some socket →
    past.outdated thread = true → 0 ≤ s.connector.clientSocket →
      socket ≠ s.connector.clientSocket

/-- No connection was made yet. -/
theorem follows_start (junkSocket : Int) : Follows .start (.start junkSocket) where
  flag := rfl
  down := fun _ => rfl
  valid := by simp [ConnectorThreads.start]
  made := Or.inr ⟨rfl, fun _ => rfl, Or.inl rfl⟩
  older := by simp [ConnectorThreads.start, SocketOperation.held]
  current := by simp [ConnectorThreads.start, SocketOperation.held]
  replaced := by simp [ConnectorThreads.start, SocketOperation.held]

/-- A thread goes on: the shared members stay, and its socket, if it holds one now, is the
one it held or the current one. -/
theorem Follows.operate {past past' : ConnectorTimeline} {s : ConnectorThreads}
    (follows : Follows past s) {thread : ConnectorThread} {operation : SocketOperation}
    (started : s.connector.clientSocket < s.created)
    (reconnected : past'.reconnected = past.reconnected)
    (others : ∀ other, other ≠ thread → past'.outdated other = past.outdated other)
    (keeps : ∀ socket, operation.held = some socket →
      ((s.threads thread).held = some socket ∧ past'.outdated thread = past.outdated thread) ∨
        socket = s.connector.clientSocket ∧ past'.outdated thread = false) :
    Follows past' (s.operate thread operation) where
  flag := follows.flag.trans reconnected.symm
  down := follows.down
  valid := follows.valid
  made := Or.inl started
  older := by
    intro other socket held
    by_cases same : other = thread
    · subst same
      simp only [ConnectorThreads.operate, Function.update_self] at held
      cases keeps socket held with
      | inl before => exact follows.older other socket before.1
      | inr picked => exact picked.1 ▸ started
    · simp only [ConnectorThreads.operate, Function.update_of_ne same] at held
      exact follows.older other socket held
  current := by
    intro other socket held recent
    by_cases same : other = thread
    · subst same
      simp only [ConnectorThreads.operate, Function.update_self] at held
      cases keeps socket held with
      | inl before => exact follows.current other socket before.1 (before.2 ▸ recent)
      | inr picked => exact picked.1
    · simp only [ConnectorThreads.operate, Function.update_of_ne same] at held
      exact follows.current other socket held (others other same ▸ recent)
  replaced := by
    intro other socket held old
    by_cases same : other = thread
    · subst same
      simp only [ConnectorThreads.operate, Function.update_self] at held
      cases keeps socket held with
      | inl before => exact follows.replaced other socket before.1 (before.2 ▸ old)
      | inr picked =>
          rw [picked.2] at old
          cases old
    · simp only [ConnectorThreads.operate, Function.update_of_ne same] at held
      exact follows.replaced other socket held (others other same ▸ old)

/-- A thread that is busy has a socket, so one was made. -/
theorem Follows.made_of_thread {past : ConnectorTimeline} {s : ConnectorThreads}
    (follows : Follows past s) (thread : ConnectorThread) (busy : s.threads thread ≠ .idle) :
    s.connector.clientSocket < s.created := by
  cases follows.made with
  | inl made => exact made
  | inr untouched => exact absurd (untouched.2.1 thread) busy

/-- The reconnect thread goes on, and only reads the shared members. -/
theorem Follows.reconnectTo {past : ConnectorTimeline} {s : ConnectorThreads}
    (follows : Follows past s) {phase : ReconnectPhase} {opened : List Int}
    (down : phase ≠ .whileCheck → s.connector.isConnected = false)
    (valid : phase = .connect ∨ phase = .closeSocket ∨ phase = .markConnected →
      0 ≤ s.connector.clientSocket)
    (made : s.connector.clientSocket < s.created ∨
      phase = .whileCheck ∨ phase = .tryCheck ∨ phase = .createSocket) :
    Follows past { s with reconnect := phase, opened := opened } where
  flag := follows.flag
  down := down
  valid := by
    intro reaches
    cases reaches with
    | inl connected => exact follows.valid (Or.inl connected)
    | inr phases => exact valid phases
  made := by
    cases follows.made with
    | inl before => exact Or.inl before
    | inr untouched =>
        cases made with
        | inl before => exact Or.inl before
        | inr phases => exact Or.inr ⟨untouched.1, untouched.2.1, phases⟩
  older := follows.older
  current := follows.current
  replaced := follows.replaced

/-- Once `socket()` has returned, the variable holds what it returned. -/
theorem Follows.made_of_phase {past : ConnectorTimeline} {s : ConnectorThreads}
    (follows : Follows past s) (behind : s.reconnect ≠ .whileCheck ∧ s.reconnect ≠ .tryCheck ∧
      s.reconnect ≠ .createSocket) : s.connector.clientSocket < s.created := by
  cases follows.made with
  | inl made => exact made
  | inr untouched =>
      have phases := untouched.2.2
      simp [behind] at phases

/-- The variable takes what `socket()` returned, which no thread has picked up before. -/
theorem Follows.takeSocket {past : ConnectorTimeline} {s : ConnectorThreads}
    (follows : Follows past s) (flag : s.connector.isConnected = false) {socket : Int}
    {opened : List Int} {created : Nat} (grown : s.created ≤ created)
    (made : socket < created) (unseen : 0 ≤ socket → (s.created : Int) ≤ socket) :
    Follows { past with outdated := fun _ => true }
      { s with
        connector := { s.connector with clientSocket := socket }
        reconnect := .createdCheck
        opened := opened
        created := created } where
  flag := follows.flag
  down := fun _ => flag
  valid := by simp [flag]
  made := Or.inl made
  older := by
    intro thread before held
    have earlier := follows.older thread before held
    have grown : (s.created : Int) ≤ created := Int.ofNat_le.mpr grown
    exact Int.lt_of_lt_of_le earlier grown
  current := by simp
  replaced := by
    intro thread before held _ real
    have earlier := follows.older thread before held
    exact Int.ne_of_lt (Int.lt_of_lt_of_le earlier (unseen real))

/-- Every step keeps the members in line with the order of events. -/
theorem follows_reconnectStep {past : ConnectorTimeline} {s s' : ConnectorThreads}
    (follows : Follows past s) {event : ConnectorEvent}
    (steps : s.reconnectStep event = some s') : Follows (past.next event) s' := by
  cases event with
  | whileCheck =>
      simp only [reconnectStep, Option.ite_none_right_eq_some, Option.some.injEq] at steps
      obtain ⟨phase, rfl⟩ := steps
      apply follows.reconnectTo
      · simp
      · intro phases
        split at phases
        · simp at phases
        · simp at phases
      · right
        split
        · exact Or.inl rfl
        · exact Or.inr (Or.inl rfl)
  | tryCheck =>
      simp only [reconnectStep, Option.ite_none_right_eq_some, Option.some.injEq] at steps
      obtain ⟨phase, rfl⟩ := steps
      have flag := follows.down (by simp [phase])
      apply follows.reconnectTo
      · simp [flag]
      · simp [flag]
      · simp [flag]
  | createSocket succeeds =>
      simp only [reconnectStep, Option.ite_none_right_eq_some] at steps
      obtain ⟨phase, steps⟩ := steps
      have flag := follows.down (by simp [phase])
      cases succeeds with
      | true =>
          cases steps
          apply follows.takeSocket flag
          · exact Nat.le_succ s.created
          · exact Int.lt_succ s.created
          · exact fun _ => Int.le_refl s.created
      | false =>
          cases steps
          apply follows.takeSocket flag
          · exact Nat.le_refl s.created
          · exact Int.lt_of_lt_of_le (by simp) (Int.natCast_nonneg _)
          · simp
  | createdCheck =>
      simp only [reconnectStep, Option.ite_none_right_eq_some, Option.some.injEq] at steps
      obtain ⟨phase, rfl⟩ := steps
      have flag := follows.down (by simp [phase])
      apply follows.reconnectTo
      · exact fun _ => flag
      · intro phases
        split at phases
        · simp at phases
        · rename_i created
          exact Int.not_lt.mp created
      · exact Or.inl (follows.made_of_phase (by simp [phase]))
  | connect succeeds =>
      simp only [reconnectStep, Option.ite_none_right_eq_some, Option.some.injEq] at steps
      obtain ⟨phase, rfl⟩ := steps
      apply follows.reconnectTo
      · exact fun _ => follows.down (by simp [phase])
      · exact fun _ => follows.valid (by simp [phase])
      · exact Or.inl (follows.made_of_phase (by simp [phase]))
  | closeSocket =>
      simp only [reconnectStep, Option.ite_none_right_eq_some, Option.some.injEq] at steps
      obtain ⟨phase, rfl⟩ := steps
      exact follows.reconnectTo (by simp) (by simp) (by simp)
  | markConnected =>
      simp only [reconnectStep, Option.ite_none_right_eq_some, Option.some.injEq] at steps
      obtain ⟨phase, rfl⟩ := steps
      exact {
        flag := rfl
        down := by simp
        valid := fun _ => follows.valid (by simp [phase])
        made := Or.inl (follows.made_of_phase (by simp [phase]))
        older := follows.older
        current := follows.current
        replaced := follows.replaced }
  | _ => simp [reconnectStep] at steps

/-- What a thread does to its socket changes the timeline by the event that it is. -/
theorem follows_operationStep {past : ConnectorTimeline} {s s' : ConnectorThreads}
    (follows : Follows past s) {event : ConnectorEvent}
    (steps : s.operationStep event = some s') : Follows (past.next event) s' := by
  cases event with
  | check thread =>
      simp only [operationStep, Option.ite_none_right_eq_some, Option.some.injEq] at steps
      obtain ⟨idle, rfl⟩ := steps
      split
      · rename_i connected
        have started : s.connector.clientSocket < s.created := by
          cases follows.made with
          | inl made => exact made
          | inr untouched =>
              rw [untouched.1] at connected
              cases connected
        exact follows.operate started rfl (fun _ _ => rfl) (by simp [SocketOperation.held])
      · exact follows
  | pick thread =>
      simp only [operationStep, Option.ite_none_right_eq_some, Option.some.injEq] at steps
      obtain ⟨checked, rfl⟩ := steps
      have started := follows.made_of_thread thread (by simp [checked])
      refine follows.operate started rfl ?_ ?_
      · intro other different
        simp [next, different]
      · intro socket held
        cases held
        exact Or.inr ⟨rfl, by simp [next]⟩
  | returns thread =>
      obtain ⟨socket, operation, rfl⟩ := operationStep_returns.mp steps
      have started := follows.made_of_thread thread (by simp [operation])
      exact follows.operate started rfl (fun _ _ => rfl) (by simp [SocketOperation.held])
  | throws thread =>
      obtain ⟨socket, operation, rfl⟩ := operationStep_throws.mp steps
      have started := follows.made_of_thread thread (by simp [operation])
      refine follows.operate started rfl (fun _ _ => rfl) ?_
      intro other held
      exact Or.inl ⟨by rw [operation]; exact held, rfl⟩
  | markDisconnected thread =>
      obtain ⟨socket, operation, rfl⟩ := operationStep_markDisconnected.mp steps
      have started := follows.made_of_thread thread (by simp [operation])
      have released : Follows past (s.operate thread .idle) :=
        follows.operate started rfl (fun _ _ => rfl) (by simp [SocketOperation.held])
      exact {
        flag := rfl
        down := fun _ => rfl
        valid := by
          intro reaches
          cases reaches with
          | inl connected => cases connected
          | inr phases => exact released.valid (Or.inr phases)
        made := Or.inl started
        older := released.older
        current := released.current
        replaced := released.replaced }
  | _ => simp [operationStep] at steps

/-- Every step keeps the members in line with the order of events. -/
theorem follows_step {past : ConnectorTimeline} {s s' : ConnectorThreads}
    (follows : Follows past s) {event : ConnectorEvent} (steps : s.step event = some s') :
    Follows (past.next event) s' := by
  cases event with
  | ends socket =>
      cases steps
      exact ⟨follows.flag, follows.down, follows.valid, follows.made, follows.older,
        follows.current, follows.replaced⟩
  | check | pick | returns | throws | markDisconnected => exact follows_operationStep follows steps
  | _ => exact follows_reconnectStep follows steps

/-! ### When the threads agree -/

/-- A report on a replaced socket takes down the newer connection exactly when one was
completed since the last report. -/
theorem marksNewer_iff {past : ConnectorTimeline} {s s' : ConnectorThreads}
    (follows : Follows past s) {thread : ConnectorThread}
    (steps : s.step (.markDisconnected thread) = some s') :
    ¬ s.MarksNewer (.markDisconnected thread) ↔ past.Orderly s (.markDisconnected thread) := by
  obtain ⟨socket, operation, _⟩ := operationStep_markDisconnected.mp steps
  have held : (s.threads thread).held = some socket := by rw [operation]; rfl
  have marks : s.MarksNewer (.markDisconnected thread) ↔
      past.reconnected = true ∧ socket ≠ s.connector.clientSocket := by
    simp [MarksNewer, operation, follows.flag]
  rw [marks, not_and_not_right, Orderly]
  constructor
  · intro same reconnected
    have flag := follows.flag.trans reconnected
    by_contra old
    rw [Bool.not_eq_false] at old
    exact follows.replaced thread socket held old (follows.valid (Or.inl flag))
      (same reconnected)
  · intro recent reconnected
    exact follows.current thread socket held (recent reconnected)

/-- The receive thread is left on an older connection exactly when a reconnection is
completed over its head. -/
theorem deaf_iff {past : ConnectorTimeline} {s s' : ConnectorThreads} (follows : Follows past s)
    (steps : s.step .markConnected = some s') : ¬ s'.Deaf ↔ past.Orderly s .markConnected := by
  simp only [step, reconnectStep, Option.ite_none_right_eq_some, Option.some.injEq] at steps
  obtain ⟨phase, rfl⟩ := steps
  have real := follows.valid (by simp [phase])
  simp only [Deaf, ServerConnector.getClientSocket, if_true, Option.some.injEq, Orderly]
  constructor
  · intro hears socket waiting still
    have held : (s.threads .receiver).held = some socket := by rw [waiting]; rfl
    by_contra old
    rw [Bool.not_eq_false] at old
    exact hears ⟨socket, _, waiting, still, rfl,
      (follows.replaced .receiver socket held old real).symm⟩
  · rintro recent ⟨socket, current, waiting, still, rfl, different⟩
    have held : (s.threads .receiver).held = some socket := by rw [waiting]; rfl
    exact different (follows.current .receiver socket held (recent socket waiting still)).symm

/-- With the same shared members, a thread that comes to wait is what it takes. -/
theorem deaf_of_deaf {s s' : ConnectorThreads} (deaf : s'.Deaf)
    (same : s'.connector = s.connector) (fewer : s'.opened ⊆ s.opened)
    (waited : ∀ socket, s'.threads .receiver = .waiting socket →
      s.threads .receiver = .waiting socket) : s.Deaf := by
  obtain ⟨socket, current, waiting, still, connected, different⟩ := deaf
  exact ⟨socket, current, waited socket waiting, fewer still, same ▸ connected, different⟩

/-- Where the flag is down, no sends are made at all. -/
theorem not_deaf_of_down {s : ConnectorThreads} (down : s.connector.isConnected = false) :
    ¬ s.Deaf := by
  rintro ⟨socket, current, _, _, connected, _⟩
  simp [ServerConnector.getClientSocket, down] at connected

/-- A thread that picks the socket of the connector up does not make it deaf. -/
theorem hears_operate {s : ConnectorThreads} (hears : ¬ s.Deaf) {thread : ConnectorThread}
    {operation : SocketOperation}
    (picks : ∀ socket, operation = .waiting socket → socket = s.connector.clientSocket) :
    ¬ (s.operate thread operation).Deaf := by
  intro deaf
  by_cases receiver : thread = .receiver
  · subst receiver
    obtain ⟨socket, current, waiting, _, connected, different⟩ := deaf
    simp only [ConnectorThreads.operate, Function.update_self] at waiting
    have sends : s.connector.getClientSocket = some current := connected
    simp only [ServerConnector.getClientSocket, Option.ite_none_right_eq_some,
      Option.some.injEq] at sends
    exact different (sends.2.symm.trans (picks socket waiting).symm)
  · apply hears
    apply deaf_of_deaf (s := s) deaf rfl (fun _ => id)
    intro socket waiting
    simpa [ConnectorThreads.operate, Function.update_of_ne (Ne.symm receiver)] using waiting

/-- Only the completion of a reconnection leaves the receive thread on an older
connection. -/
theorem hears_step {past : ConnectorTimeline} {s s' : ConnectorThreads} (follows : Follows past s)
    (hears : ¬ s.Deaf) {event : ConnectorEvent} (other : event ≠ .markConnected)
    (steps : s.step event = some s') : ¬ s'.Deaf := by
  have filtered (keep : Int → Bool) : s.opened.filter keep ⊆ s.opened := List.filter_sublist.subset
  cases event with
  | markConnected => exact absurd rfl other
  | ends socket =>
      cases steps
      exact fun deaf => hears (deaf_of_deaf deaf rfl (filtered _) fun _ => id)
  | closeSocket =>
      simp only [step, reconnectStep, Option.ite_none_right_eq_some, Option.some.injEq] at steps
      obtain ⟨_, rfl⟩ := steps
      exact fun deaf => hears (deaf_of_deaf deaf rfl (filtered _) fun _ => id)
  | createSocket succeeds =>
      simp only [step, reconnectStep, Option.ite_none_right_eq_some] at steps
      obtain ⟨phase, steps⟩ := steps
      have flag := follows.down (by simp [phase])
      apply not_deaf_of_down
      cases succeeds with
      | true =>
          cases steps
          exact flag
      | false =>
          cases steps
          exact flag
  | whileCheck | tryCheck | createdCheck | connect =>
      simp only [step, reconnectStep, Option.ite_none_right_eq_some, Option.some.injEq] at steps
      obtain ⟨_, rfl⟩ := steps
      exact fun deaf => hears (deaf_of_deaf deaf rfl (fun _ => id) fun _ => id)
  | check thread =>
      simp only [step, operationStep, Option.ite_none_right_eq_some, Option.some.injEq] at steps
      obtain ⟨_, rfl⟩ := steps
      split
      · exact hears_operate hears (by simp)
      · exact hears
  | pick thread =>
      simp only [step, operationStep, Option.ite_none_right_eq_some, Option.some.injEq] at steps
      obtain ⟨_, rfl⟩ := steps
      exact hears_operate hears (by simp)
  | returns thread =>
      obtain ⟨_, _, rfl⟩ := operationStep_returns.mp steps
      exact hears_operate hears (by simp)
  | throws thread =>
      obtain ⟨_, _, rfl⟩ := operationStep_throws.mp steps
      exact hears_operate hears (by simp)
  | markDisconnected thread =>
      obtain ⟨_, _, rfl⟩ := operationStep_markDisconnected.mp steps
      exact not_deaf_of_down rfl

/-- One step breaks the agreement exactly when it is not orderly. -/
theorem agrees_step {past : ConnectorTimeline} {s s' : ConnectorThreads} (follows : Follows past s)
    (hears : ¬ s.Deaf) {event : ConnectorEvent} (steps : s.step event = some s') :
    ¬ s.MarksNewer event ∧ ¬ s'.Deaf ↔ past.Orderly s event := by
  cases event with
  | markConnected =>
      have unmarked : ¬ s.MarksNewer .markConnected := by simp [MarksNewer]
      simp only [unmarked, not_false_eq_true, true_and, deaf_iff follows steps]
  | markDisconnected thread =>
      have heard := hears_step follows hears (by simp) steps
      simp only [heard, not_false_eq_true, and_true, marksNewer_iff follows steps]
  | _ =>
      have heard := hears_step follows hears (by simp) steps
      simp [heard, MarksNewer, Orderly]

/-- The invariant is carried along the run. -/
theorem agrees_iff_orderlyRun {past : ConnectorTimeline} {s : ConnectorThreads}
    (follows : Follows past s) (hears : ¬ s.Deaf) (events : List ConnectorEvent) :
    s.Agrees events ↔ past.OrderlyRun s events := by
  induction events generalizing past s with
  | nil => simp [agrees_nil, hears, orderlyRun_nil]
  | cons event later ih =>
      rw [agrees_cons, orderlyRun_cons]
      constructor
      · rintro ⟨_, unmarked, others⟩ s' steps
        have agrees := others s' steps
        have heard : ¬ s'.Deaf := (agrees 0 s' rfl).1
        exact ⟨(agrees_step follows hears steps).mp ⟨unmarked, heard⟩,
          (ih (follows_step follows steps) heard).mp agrees⟩
      · intro orderly
        refine ⟨hears, ?_, ?_⟩
        · intro marks
          have kind := marks
          obtain ⟨thread, socket, rfl, failed, _⟩ := kind
          have steps : s.step (.markDisconnected thread) =
              some { s.operate thread .idle with
                connector := { s.connector with isConnected := false } } :=
            operationStep_markDisconnected.mpr ⟨socket, failed, rfl⟩
          exact ((agrees_step follows hears steps).mpr (orderly _ steps).1).1 marks
        · intro s' steps
          have heard := ((agrees_step follows hears steps).mpr (orderly s' steps).1).2
          exact (ih (follows_step follows steps) heard).mpr (orderly s' steps).2

/-- Connection agreement.  In a run of the threads no failure on a replaced socket takes
down a newer connection, and the receive thread never waits on an older open one:
exactly when the first failure reported after each reconnection is that of an operation
on the new socket, and no reconnection is completed while the receive thread waits on an
open socket that it picked up before. -/
theorem agrees_iff (junkSocket : Int) (events : List ConnectorEvent) :
    (ConnectorThreads.start junkSocket).Agrees events ↔
      ConnectorTimeline.start.OrderlyRun (.start junkSocket) events :=
  agrees_iff_orderlyRun (follows_start junkSocket) (not_deaf_of_down rfl) events

/-- A reconnection: the loop sees the flag down, makes a socket and connects it. -/
def reconnects : List ConnectorEvent :=
  [.whileCheck, .tryCheck, .createSocket true, .createdCheck, .connect true, .markConnected]

/-- The first connection ends under a send.  The receive thread fails on it first and goes
on with the second connection; then the send fails. -/
def lateFailure : List ConnectorEvent :=
  reconnects ++
    [.check .receiver, .pick .receiver, .check (.sender 0), .pick (.sender 0), .ends 0,
      .throws .receiver, .markDisconnected .receiver] ++
    reconnects ++ [.check .receiver, .pick .receiver, .throws (.sender 0)]

/-- The late failure takes down the second connection, and after another reconnection the
receive thread still waits on it while sends go to the third. -/
theorem late_failure_splits :
    ¬ (ConnectorThreads.start 0).Agrees (lateFailure ++ [.markDisconnected (.sender 0)]) ∧
      ∃ s, (ConnectorThreads.start 0).run
          (lateFailure ++ [.markDisconnected (.sender 0)] ++ reconnects) = some s ∧
        s.threads .receiver = .waiting 1 ∧ s.opened = [2, 1] ∧
        s.connector.getClientSocket = some 2 ∧ s.Deaf := by
  constructor
  · intro agrees
    have before : ((ConnectorThreads.start 0).run lateFailure).map
        (fun s => (s.threads (.sender 0), s.connector)) = some (.failed 0, ⟨1, true⟩) := by
      decide +kernel
    obtain ⟨s, reached, members⟩ := Option.map_eq_some_iff.mp before
    rw [Prod.mk.injEq] at members
    have marks : s.MarksNewer (.markDisconnected (.sender 0)) := by
      refine ⟨.sender 0, 0, rfl, members.1, ?_⟩
      rw [members.2]
      exact ⟨rfl, by decide⟩
    exact (agrees 22 s reached).2 _ rfl marks
  · have after : ((ConnectorThreads.start 0).run
        (lateFailure ++ [.markDisconnected (.sender 0)] ++ reconnects)).map
        (fun s => (s.threads .receiver, s.opened, s.connector.getClientSocket)) =
          some (.waiting 1, [2, 1], some 2) := by
      decide +kernel
    obtain ⟨s, reached, members⟩ := Option.map_eq_some_iff.mp after
    rw [Prod.mk.injEq, Prod.mk.injEq] at members
    obtain ⟨waiting, opened, sends⟩ := members
    refine ⟨s, reached, waiting, opened, sends, 1, 2, waiting, ?_, sends, by decide⟩
    simp [opened]

end RemoteMonitoring
