/-
Module: RemoteMonitoring.System.Delivery
Purpose: One client and the server, joined by a network that may lose, duplicate and reorder
  messages: the state of both sides, the messages in flight, and one step of any of them.
Trusted boundary: a message arrives whole or not at all
Main exports: System, Event, System.step, System.Run
-/
import RemoteMonitoring.Client.Client
import RemoteMonitoring.Server.ClientHandler

namespace RemoteMonitoring

open ByteText

/-- `issued` and `removed` record, in order, every entry that was added to the
queue and every entry that an ack took out of it. -/
structure System where
  queue : LogQueue
  issued : List LogEntry
  removed : List LogEntry
  disk : Disk
  toServer : List Bytes
  toClient : List Bytes

/-- What can happen next.  A message in flight is named by its index.  Handling a
message leaves it in flight: it may arrive again later, in any order, or be lost. -/
inductive Event where
  | addLog (processName : Bytes) (timestampMs : UInt64) (logType : LogType) (value : UInt64)
  | sendBatch
  | recvBatch (index : Nat) (info : ClientInfo) (junk : Indeterminate) (netCount : UInt32)
  | recvAck (index : Nat) (junkId : UInt64)
  | loseBatch (index : Nat)
  | loseAck (index : Nat)

namespace System

/-- A queue made from absent files, and a server that may know other clients. -/
def initial (junkAckId : UInt64) (junk : Nat → Indeterminate) (disk : Disk) : System :=
  { queue := LogQueue.ofFiles junkAckId junk File.absent File.absent
    issued := []
    removed := []
    disk := disk
    toServer := []
    toClient := [] }

def addLog (s : System) (processName : Bytes) (timestampMs : UInt64) (logType : LogType)
    (value : UInt64) : System :=
  let (logEntry, queue) := s.queue.addNewLog processName timestampMs logType value
  { s with queue := queue, issued := s.issued ++ [logEntry] }

/-- One round of the client's sending loop. -/
def sendBatch (s : System) : System :=
  match sendLogs s.queue with
  | .ok (some payload) => { s with toServer := payload :: s.toServer }
  | .ok none => s
  | .error _ => s

/-- The server handles a payload on the connection `info`; a handler that throws
has neither written nor published anything. -/
def recvBatch (s : System) (payload : Bytes) (info : ClientInfo) (junk : Indeterminate)
    (netCount : UInt32) : System :=
  let event : NetworkRecvEvent := ⟨info.clientIp, info.clientPort, payload⟩
  match ClientHandler.onNetworkRecv info junk netCount event s.disk with
  | .ok (disk, sends) =>
      { s with disk := disk, toClient := sends.map NetworkSendEvent.payload ++ s.toClient }
  | .error _ => s

def recvAck (s : System) (payload : Bytes) (junkId : UInt64) : System :=
  match ackSubscriber junkId payload s.queue with
  | .ok queue =>
      let popped := s.queue.logEntries.length - queue.logEntries.length
      { s with
        queue := queue
        removed := s.removed ++ s.queue.logEntries.take popped }
  | .error _ => s

def step (s : System) : Event → System
  | .addLog processName timestampMs logType value =>
      s.addLog processName timestampMs logType value
  | .sendBatch => s.sendBatch
  | .recvBatch index info junk netCount =>
      match s.toServer[index]? with
      | some payload => s.recvBatch payload info junk netCount
      | none => s
  | .recvAck index junkId =>
      match s.toClient[index]? with
      | some payload => s.recvAck payload junkId
      | none => s
  | .loseBatch index => { s with toServer := s.toServer.eraseIdx index }
  | .loseAck index => { s with toClient := s.toClient.eraseIdx index }

/-- The steps considered: names without a newline, fewer than 2^32 entries, and
connections of the one client at `ip`, on any port. -/
def Allowed (ip : Bytes) (s : System) : Event → Prop
  | .addLog processName _ _ _ => newline ∉ processName ∧ s.issued.length + 1 < 2 ^ 32
  | .recvBatch _ info _ _ => info.clientIp = ip
  | _ => True

/-- The states that runs lead to. -/
inductive Run (ip : Bytes) (start : System) : System → Prop where
  | refl : Run ip start start
  | step {s : System} (run : Run ip start s) (event : Event) (allowed : Allowed ip s event) :
      Run ip start (s.step event)

/-- One undisturbed round trip: the current batch is sent, handled by the server
on the connection `info`, and the ack that results is handled by the client. -/
def roundTrip (s : System) (info : ClientInfo) (junk : Indeterminate) (netCount : UInt32)
    (junkId : UInt64) : System :=
  let sent := s.step .sendBatch
  let handled := sent.step (.recvBatch 0 info junk netCount)
  handled.step (.recvAck 0 junkId)

end System

end RemoteMonitoring
