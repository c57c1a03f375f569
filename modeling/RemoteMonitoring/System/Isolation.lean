/-
Module: RemoteMonitoring.System.Isolation
Purpose: Many clients and one server: every client has its own connection and numbers its own
  entries, and their batches are handled one at a time in any order.
Trusted boundary: a message arrives whole or not at all
Main exports: Client, Server, Server.handle, Server.Reach, Server.Undisturbed, Server.Honest
-/
import RemoteMonitoring.Client.Client
import RemoteMonitoring.Server.EventBus

namespace RemoteMonitoring

open ByteText
open LogEntry (Numbered slice)

/-- A client by its connection and all entries it ever issues.  The ids start at 1,
and what goes into a message fits the 32-bit length fields. -/
structure Client where
  info : ClientInfo
  entries : List LogEntry
  numbered : Numbered 0 entries
  fits : entries.length < 2 ^ 32
  sendable : ∀ entry ∈ entries, entry.processName.length < 2 ^ 32

/-- `stored` records, in order, which entries of which client were accepted. -/
structure Server where
  disk : Disk
  stored : List (ClientInfo × LogEntry)

namespace Server

/-- The server handles a batch: consecutive entries of `client`, in one message. -/
def handle (clients : List Client) (s : Server) (client : Client) (window : Nat × Nat)
    (junk : Indeterminate) (netCount : UInt32) : Server × List NetworkSendEvent :=
  match logPayload (slice client.entries window) with
  | .error _ => (s, [])
  | .ok payload =>
      let event : NetworkRecvEvent := ⟨client.info.clientIp, client.info.clientPort, payload⟩
      let last := lastAckedId junk (s.disk (clientLogFile client.info.clientIp))
      let (_, accepted) := acceptLoop last (slice client.entries window)
      let (disk, sends) := publishRecv junk netCount event (clients.map Client.info) s.disk
      ({ disk := disk, stored := s.stored ++ accepted.map (Prod.mk client.info) }, sends)

/-- The states that batches of the clients, in any order, lead to. -/
inductive Reach (clients : List Client) (start : Server) : Server → Prop where
  | refl : Reach clients start start
  | handle {s : Server} (run : Reach clients start s) (client : Client)
      (member : client ∈ clients) (window : Nat × Nat) (junk : Indeterminate)
      (netCount : UInt32) :
      Reach clients start (s.handle clients client window junk netCount).1

/-- Handling a batch of `client` changes nothing for `other`: not the text stored
for it, not the last acked id, and not what it is answered. -/
def Undisturbed (clients : List Client) (s : Server) (client other : Client) : Prop :=
  ∀ window junk netCount,
    let after := (s.handle clients client window junk netCount).1
    let file := clientLogFile other.info.clientIp
    (after.disk file).bytes = (s.disk file).bytes ∧
      (∀ junk, lastAckedId junk (after.disk file) = lastAckedId junk (s.disk file)) ∧
      ∀ window junk netCount,
        (after.handle clients other window junk netCount).2 =
          (s.handle clients other window junk netCount).2

/-- Whatever batch is handled next, an ack that goes to `told` only covers entries
of its own that are stored. -/
def Honest (clients : List Client) (s : Server) (told : Client) : Prop :=
  ∀ client ∈ clients, ∀ window junk netCount,
    let outcome := s.handle clients client window junk netCount
    ∀ id, ⟨told.info.clientIp, told.info.clientPort, ackPayload id⟩ ∈ outcome.2 →
      ∀ entry ∈ told.entries, entry.id ≤ id → (told.info, entry) ∈ outcome.1.stored

/-- Different clients do not disturb each other, and nobody is lied to. -/
def Isolated (clients : List Client) (s : Server) : Prop :=
  (∀ client ∈ clients, ∀ other ∈ clients,
      client.info.connection ≠ other.info.connection → Undisturbed clients s client other) ∧
    ∀ told ∈ clients, Honest clients s told

end Server

/-- Clients at one address have nothing to log, unless there is only one. -/
def SeparateAddresses (clients : List Client) : Prop :=
  ∀ one ∈ clients, ∀ two ∈ clients, one.info.connection ≠ two.info.connection →
    one.info.clientIp = two.info.clientIp → one.entries = []

/-- No line of the client can be mistaken for that of a later entry, by whatever
uninitialised value.  The last line may be anything: nothing comes after it. -/
def Client.Recoverable (client : Client) : Prop :=
  ∀ entry ∈ client.entries, entry.id.toNat < client.entries.length →
    ∀ junk, (entry.readBack junk).toNat ≤ entry.id.toNat

/-- Names without a newline are always recovered. -/
theorem Client.recoverable_of_single {client : Client}
    (single : ∀ entry ∈ client.entries, newline ∉ entry.processName) : client.Recoverable := by
  intro entry member _ junk
  rw [readBack_of_single (single entry member)]

end RemoteMonitoring
