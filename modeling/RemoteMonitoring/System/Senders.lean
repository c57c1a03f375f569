/-
Module: RemoteMonitoring.System.Senders
Purpose: One connection with a thread for every published `NetworkSendEvent`, each of which runs
  `send_message` on the same socket without a lock (`register_send_outout_to_server` in
  client/client.cpp, `register_send_output_to_client` in server/client_manager.cpp).
Trusted boundary: `send()` calls are atomic and do not fail
Main exports: Connection, Connection.step, Connection.Run, Delivered
-/
import RemoteMonitoring.Common.Message

namespace RemoteMonitoring

open ByteText

/-- What has been put on the wire, and for every thread the buffers that it still
has to send. -/
structure Connection where
  wire : Bytes
  threads : List (List Bytes)

namespace Connection

/-- One thread for each payload. -/
def start (payloads : List Bytes) : Connection := ⟨[], payloads.map sendBuffers⟩

/-- The thread at `index` makes its next `send()` call, which takes `count` bytes. -/
def step (s : Connection) (index count : Nat) : Option Connection :=
  match s.threads[index]? with
  | none => none
  | some buffers =>
      match sendSome count buffers with
      | none => none
      | some (bytes, buffers) => some ⟨s.wire ++ bytes, s.threads.set index buffers⟩

inductive Run : Connection → Connection → Prop where
  | refl (s : Connection) : Run s s
  | step {s s' s'' : Connection} (index count : Nat) (sends : s.step index count = some s')
      (later : Run s' s'') : Run s s''

def Finished (s : Connection) : Prop := ∀ buffers ∈ s.threads, buffers.flatten = []

end Connection

/-- `wire` is what the peer can get to see once all payloads are sent. -/
def Delivered (payloads : List Bytes) (wire : Bytes) : Prop :=
  ∃ s, Connection.Run (.start payloads) s ∧ s.Finished ∧ s.wire = wire

end RemoteMonitoring
