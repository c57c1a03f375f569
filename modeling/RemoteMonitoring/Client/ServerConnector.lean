/-
Module: RemoteMonitoring.Client.ServerConnector
Purpose: `ServerConnector` (client/server_connector.hpp and .cpp): the thread of
  `reconnect_indefinitely`, the receive thread in `recv_input` and any number of threads in
  `send_output`, which share one socket variable and one flag.
Trusted boundary: every read and every write of a shared member is one step.  A socket is named
  by the `socket()` call that made it, so a descriptor that the system hands out again is a
  different socket
Main exports: ServerConnector, ConnectorThreads, ConnectorEvent, ConnectorThreads.step
-/
import Mathlib.Logic.Function.Basic

namespace RemoteMonitoring

/-- The members that the threads share. -/
structure ServerConnector where
  clientSocket : Int
  isConnected : Bool
deriving DecidableEq, Repr

def ServerConnector.getClientSocket (connector : ServerConnector) : Option Int :=
  if connector.isConnected then some connector.clientSocket else none

/-- What the reconnect thread does next.  `whileCheck` is the condition of the loop in
`reconnect_indefinitely`; the others are the statements of `try_connect`. -/
inductive ReconnectPhase where
  | whileCheck
  | tryCheck
  | createSocket
  | createdCheck
  | connect
  | closeSocket
  | markConnected
deriving DecidableEq, Repr

/-- The threads that use the socket: one in `recv_input`, the others in `send_output`. -/
inductive ConnectorThread where
  | receiver
  | sender (index : Nat)
deriving DecidableEq, Repr

/-- Where a thread is in `recv_input` or `send_output`, which are alike: the flag has been
read, the socket has been picked up, the call on it has thrown. -/
inductive SocketOperation where
  | idle
  | checked
  | waiting (socket : Int)
  | failed (socket : Int)
deriving DecidableEq, Repr

/-- `opened` are the sockets whose connection can still carry something: the program has
not closed them, and the peer has not either.  `created` counts them. -/
structure ConnectorThreads where
  connector : ServerConnector
  reconnect : ReconnectPhase
  threads : ConnectorThread → SocketOperation
  opened : List Int
  created : Nat

/-- One step of one thread, with its outcome; or a connection ends. -/
inductive ConnectorEvent where
  | whileCheck
  | tryCheck
  | createSocket (succeeds : Bool)
  | createdCheck
  | connect (succeeds : Bool)
  | closeSocket
  | markConnected
  | check (thread : ConnectorThread)
  | pick (thread : ConnectorThread)
  | returns (thread : ConnectorThread)
  | throws (thread : ConnectorThread)
  | markDisconnected (thread : ConnectorThread)
  | ends (socket : Int)
deriving DecidableEq, Repr

namespace ConnectorThreads

/-- Nobody has written `client_socket` yet. -/
def start (junkSocket : Int) : ConnectorThreads where
  connector := ⟨junkSocket, false⟩
  reconnect := .whileCheck
  threads := fun _ => .idle
  opened := []
  created := 0

def operate (s : ConnectorThreads) (thread : ConnectorThread) (operation : SocketOperation) :
    ConnectorThreads :=
  { s with threads := Function.update s.threads thread operation }

/-- The steps of `reconnect_indefinitely` and `try_connect`; `none` where the thread is
elsewhere. -/
def reconnectStep (s : ConnectorThreads) : ConnectorEvent → Option ConnectorThreads
  | .whileCheck =>
      if s.reconnect = .whileCheck then
        some { s with reconnect := if s.connector.isConnected then .whileCheck else .tryCheck }
      else none
  | .tryCheck =>
      if s.reconnect = .tryCheck then
        some { s with
          reconnect := if s.connector.isConnected then .whileCheck else .createSocket }
      else none
  | .createSocket succeeds =>
      if s.reconnect = .createSocket then
        if succeeds then
          some { s with
            connector := { s.connector with clientSocket := s.created }
            reconnect := .createdCheck
            opened := (s.created : Int) :: s.opened
            created := s.created + 1 }
        else
          some { s with
            connector := { s.connector with clientSocket := -1 }
            reconnect := .createdCheck }
      else none
  | .createdCheck =>
      if s.reconnect = .createdCheck then
        some { s with
          reconnect := if s.connector.clientSocket < 0 then .whileCheck else .connect }
      else none
  | .connect succeeds =>
      if s.reconnect = .connect then
        some { s with reconnect := if succeeds then .markConnected else .closeSocket }
      else none
  | .closeSocket =>
      if s.reconnect = .closeSocket then
        some { s with
          reconnect := .whileCheck
          opened := s.opened.filter (· ≠ s.connector.clientSocket) }
      else none
  | .markConnected =>
      if s.reconnect = .markConnected then
        some { s with
          connector := { s.connector with isConnected := true }
          reconnect := .whileCheck }
      else none
  | _ => none

/-- The steps of `recv_input` on the receive thread and of `send_output` on the others.  A
call on the socket returns or throws, at whatever time. -/
def operationStep (s : ConnectorThreads) : ConnectorEvent → Option ConnectorThreads
  | .check thread =>
      if s.threads thread = .idle then
        some (if s.connector.isConnected then s.operate thread .checked else s)
      else none
  | .pick thread =>
      if s.threads thread = .checked then
        some (s.operate thread (.waiting s.connector.clientSocket))
      else none
  | .returns thread =>
      match s.threads thread with
      | .waiting _ => some (s.operate thread .idle)
      | _ => none
  | .throws thread =>
      match s.threads thread with
      | .waiting socket => some (s.operate thread (.failed socket))
      | _ => none
  | .markDisconnected thread =>
      match s.threads thread with
      | .failed _ =>
          some { s.operate thread .idle with
            connector := { s.connector with isConnected := false } }
      | _ => none
  | _ => none

/-- `none` for a step that no thread can take. -/
def step (s : ConnectorThreads) (event : ConnectorEvent) : Option ConnectorThreads :=
  match event with
  | .ends socket => some { s with opened := s.opened.filter (· ≠ socket) }
  | .check _ | .pick _ | .returns _ | .throws _ | .markDisconnected _ => s.operationStep event
  | _ => s.reconnectStep event

def run (s : ConnectorThreads) : List ConnectorEvent → Option ConnectorThreads
  | [] => some s
  | event :: later => (s.step event).bind fun s' => s'.run later

/-! ### Agreement -/

/-- The thread reports the failure of a socket that has been replaced, and the newer
connection counts as disconnected. -/
def MarksNewer (s : ConnectorThreads) (event : ConnectorEvent) : Prop :=
  ∃ thread socket, event = .markDisconnected thread ∧ s.threads thread = .failed socket ∧
    s.connector.isConnected = true ∧ socket ≠ s.connector.clientSocket

/-- The receive thread waits on a socket that is still open, and new sends use another. -/
def Deaf (s : ConnectorThreads) : Prop :=
  ∃ socket current, s.threads .receiver = .waiting socket ∧ socket ∈ s.opened ∧
    s.connector.getClientSocket = some current ∧ current ≠ socket

/-- The threads agree on the connection in every state that the events lead to from `s`,
and at every step from there. -/
def Agrees (s : ConnectorThreads) (events : List ConnectorEvent) : Prop :=
  ∀ count s', s.run (events.take count) = some s' →
    ¬ s'.Deaf ∧ ∀ event, events[count]? = some event → ¬ s'.MarksNewer event

end ConnectorThreads

/-! ### The order of events -/

/-- What the order of the events so far says: whether a reconnection was completed after
the last report of a failure, and which threads picked up their socket before the last
call of `socket()`. -/
structure ConnectorTimeline where
  reconnected : Bool
  outdated : ConnectorThread → Bool

namespace ConnectorTimeline

def start : ConnectorTimeline := ⟨false, fun _ => false⟩

def next (past : ConnectorTimeline) : ConnectorEvent → ConnectorTimeline
  | .createSocket _ => { past with outdated := fun _ => true }
  | .pick thread => { past with outdated := Function.update past.outdated thread false }
  | .markConnected => { past with reconnected := true }
  | .markDisconnected _ => { past with reconnected := false }
  | _ => past

/-- The first failure reported after a reconnection is that of an operation which picked
up the new socket, and a reconnection is not completed while the receive thread waits on
an open socket that it picked up before. -/
def Orderly (past : ConnectorTimeline) (s : ConnectorThreads) : ConnectorEvent → Prop
  | .markDisconnected thread => past.reconnected = true → past.outdated thread = false
  | .markConnected => ∀ socket, s.threads .receiver = .waiting socket → socket ∈ s.opened →
      past.outdated .receiver = false
  | _ => True

/-- Every step of the run is orderly. -/
def OrderlyRun (past : ConnectorTimeline) (s : ConnectorThreads) (events : List ConnectorEvent) :
    Prop :=
  ∀ count s' event after, s.run (events.take count) = some s' → events[count]? = some event →
    s'.step event = some after → ((events.take count).foldl next past).Orderly s' event

end ConnectorTimeline

end RemoteMonitoring
