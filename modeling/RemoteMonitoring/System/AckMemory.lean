/-
Module: RemoteMonitoring.System.AckMemory
Purpose: Batches from one address, one after another: what the server acknowledges to each, and
  what it finds about it in the log file at the next.
Trusted boundary: calls are atomic, and writes succeed
Main exports: LogBatch, AckRun, AckRun.handle, AckRun.Remembers
-/
import RemoteMonitoring.Client.Client
import RemoteMonitoring.Server.ClientHandler

namespace RemoteMonitoring

open ByteText

/-- A batch that a message can carry, the connection it arrives on, and the values of the
uninitialised variables while it is handled. -/
structure LogBatch where
  info : ClientInfo
  entries : List LogEntry
  junk : Indeterminate
  netCount : UInt32
  fits : entries.length < 2 ^ 32
  sendable : ∀ entry ∈ entries, entry.processName.length < 2 ^ 32

/-- `accepted` counts the entries that were taken since the start. -/
structure AckRun where
  disk : Disk
  published : List NetworkSendEvent
  accepted : Nat

namespace AckRun

def start (disk : Disk) : AckRun := ⟨disk, [], 0⟩

def handle (s : AckRun) (batch : LogBatch) : AckRun :=
  match logPayload batch.entries with
  | .error _ => s
  | .ok payload =>
      let event : NetworkRecvEvent := ⟨batch.info.clientIp, batch.info.clientPort, payload⟩
      match ClientHandler.onNetworkRecv batch.info batch.junk batch.netCount event s.disk with
      | .error _ => s
      | .ok (disk, sends) =>
          let last := lastAckedId batch.junk (s.disk (clientLogFile batch.info.clientIp))
          ⟨disk, s.published ++ sends,
            s.accepted + (acceptLoop last batch.entries).2.length⟩

def run (s : AckRun) (batches : List LogBatch) : AckRun := batches.foldl handle s

/-- The last ack, if there is one, carries `id`; before the first the id is 0. -/
def LastAck (s : AckRun) (id : UInt64) : Prop :=
  match s.published.getLast? with
  | none => id = 0
  | some event => event.payload = ackPayload id

/-- Whatever the uninitialised entry holds, the id recovered from the last line is that of
the last ack, and the number of entries accepted. -/
def Remembers (ip : Bytes) (s : AckRun) : Prop :=
  ∀ junk,
    let id := lastAckedId junk (s.disk (clientLogFile ip))
    s.LastAck id ∧ id.toNat = s.accepted

end AckRun

/-- The last line of the entry's text starts with its id: it is recovered from there. -/
def LogEntry.Recovered (entry : LogEntry) : Prop :=
  leadingNumeral (dropReturns (lastLine entry.serializeStr)) = some entry.id.toNat

/-- For a receiver that has accepted the entries up to `last`: the last entry that each
batch adds is recovered, and the ids do not run over. -/
def ReadsBack : UInt64 → List LogBatch → Prop
  | _, [] => True
  | last, batch :: later =>
      let outcome := acceptLoop last batch.entries
      ((∀ entry ∈ outcome.2.getLast?, entry.Recovered) ∧
          last.toNat + outcome.2.length < 2 ^ 64) ∧
        ReadsBack outcome.1 later

end RemoteMonitoring
