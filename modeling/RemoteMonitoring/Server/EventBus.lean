/-
Module: RemoteMonitoring.Server.EventBus
Purpose: `EventBus::publish` (common/event_bus.cpp) of a received message to the subscribers of
  all `ClientHandler`s of the server.
Trusted boundary: none
Main exports: publishRecv, publish, publishRecv_of_mem, publish_of_split
-/
import RemoteMonitoring.Server.ClientHandler

namespace RemoteMonitoring

open ByteText

/-- The callbacks run in place, in the order in which they subscribed.  An
exception leaves the loop; a subscriber that throws has done nothing before. -/
def publishRecv (junk : Indeterminate) (netCount : UInt32) (event : NetworkRecvEvent) :
    List ClientInfo → Disk → Disk × List NetworkSendEvent
  | [], disk => (disk, [])
  | info :: rest, disk =>
      match ClientHandler.onNetworkRecv info junk netCount event disk with
      | .error _ => (disk, [])
      | .ok (disk, sends) =>
          let (disk, later) := publishRecv junk netCount event rest disk
          (disk, sends ++ later)

/-- The same with what `publish` itself ends in: an exception that no subscriber
catches is the caller's. -/
def publish (junk : Indeterminate) (netCount : UInt32) (event : NetworkRecvEvent) :
    List ClientInfo → Disk → Except RuntimeError Unit × Disk × List NetworkSendEvent
  | [], disk => (.ok (), disk, [])
  | info :: rest, disk =>
      match ClientHandler.onNetworkRecv info junk netCount event disk with
      | .error e => (.error e, disk, [])
      | .ok (disk, sends) =>
          let (outcome, disk, later) := publish junk netCount event rest disk
          (outcome, disk, sends ++ later)

theorem publish_snd (junk : Indeterminate) (netCount : UInt32) (event : NetworkRecvEvent)
    (handlers : List ClientInfo) (disk : Disk) :
    (publish junk netCount event handlers disk).2 =
      publishRecv junk netCount event handlers disk := by
  induction handlers generalizing disk with
  | nil => rfl
  | cons info rest ih =>
      rw [publish, publishRecv]
      cases ClientHandler.onNetworkRecv info junk netCount event disk with
      | error e => rfl
      | ok outcome =>
          simp only
          rw [← ih]

/-- What identifies a connection. -/
def ClientInfo.connection (info : ClientInfo) : Bytes × UInt16 := (info.clientIp, info.clientPort)

/-- A handler ignores what comes from another address or port. -/
theorem onNetworkRecv_other {info : ClientInfo} {event : NetworkRecvEvent}
    (other : (event.ip, event.port) ≠ info.connection) (junk : Indeterminate)
    (netCount : UInt32) (disk : Disk) :
    ClientHandler.onNetworkRecv info junk netCount event disk = .ok (disk, []) := by
  unfold ClientHandler.onNetworkRecv
  by_cases ip : event.ip = info.clientIp
  · have port : event.port ≠ info.clientPort := by
      intro port
      apply other
      rw [ip, port, ClientInfo.connection]
    simp [ip, port]
  · simp [ip]

/-- A message from a connection that has no handler changes nothing. -/
theorem publishRecv_of_not_mem {handlers : List ClientInfo} {event : NetworkRecvEvent}
    (unknown : (event.ip, event.port) ∉ handlers.map ClientInfo.connection)
    (junk : Indeterminate) (netCount : UInt32) (disk : Disk) :
    publishRecv junk netCount event handlers disk = (disk, []) := by
  induction handlers with
  | nil => rfl
  | cons info rest ih =>
      rw [List.map_cons, List.mem_cons, not_or] at unknown
      rw [publishRecv, onNetworkRecv_other unknown.1]
      simp only [ih unknown.2, List.append_nil]

/-- With distinct connections, a message reaches the handler of its connection
and no other. -/
theorem publishRecv_of_mem {handlers : List ClientInfo} {info : ClientInfo}
    (distinct : (handlers.map ClientInfo.connection).Nodup) (member : info ∈ handlers)
    {event : NetworkRecvEvent} (meant : (event.ip, event.port) = info.connection)
    {junk : Indeterminate} {netCount : UInt32} {disk after : Disk}
    {sends : List NetworkSendEvent}
    (handles : ClientHandler.onNetworkRecv info junk netCount event disk = .ok (after, sends)) :
    publishRecv junk netCount event handlers disk = (after, sends) := by
  induction handlers with
  | nil => cases member
  | cons other rest ih =>
      rw [List.map_cons, List.nodup_cons] at distinct
      rcases List.mem_cons.mp member with rfl | later
      · have silent := publishRecv_of_not_mem (meant ▸ distinct.1) junk netCount after
        simp only [publishRecv, handles, silent, List.append_nil]
      · have skips : (event.ip, event.port) ≠ other.connection := by
          intro same
          apply distinct.1
          rw [← same, meant]
          exact List.mem_map_of_mem later
        simp only [publishRecv, onNetworkRecv_other skips, ih distinct.2 later, List.nil_append]

theorem publish_of_not_mem {handlers : List ClientInfo} {event : NetworkRecvEvent}
    (unknown : (event.ip, event.port) ∉ handlers.map ClientInfo.connection)
    (junk : Indeterminate) (netCount : UInt32) (disk : Disk) :
    publish junk netCount event handlers disk = (.ok (), disk, []) := by
  induction handlers with
  | nil => rfl
  | cons info rest ih =>
      rw [List.map_cons, List.mem_cons, not_or] at unknown
      simp only [publish, onNetworkRecv_other unknown.1, ih unknown.2, List.append_nil]

/-- With one handler for the connection, `publish` does what this handler does. -/
theorem publish_of_split {before after : List ClientInfo} {info : ClientInfo}
    (event : NetworkRecvEvent) (meant : (event.ip, event.port) = info.connection)
    (alone : info.connection ∉ (before ++ after).map ClientInfo.connection)
    (junk : Indeterminate) (netCount : UInt32) (disk : Disk) :
    publish junk netCount event (before ++ info :: after) disk =
      match ClientHandler.onNetworkRecv info junk netCount event disk with
      | .error e => (.error e, disk, [])
      | .ok (disk, sends) => (.ok (), disk, sends) := by
  rw [← meant] at alone
  induction before with
  | nil =>
      rw [List.nil_append] at alone ⊢
      rw [publish]
      cases ClientHandler.onNetworkRecv info junk netCount event disk with
      | error e => rfl
      | ok outcome =>
          simp only [publish_of_not_mem alone junk netCount, List.append_nil]
  | cons other before ih =>
      rw [List.cons_append, List.map_cons, List.mem_cons, not_or] at alone
      rw [List.cons_append, publish, onNetworkRecv_other alone.1]
      simp only [ih alone.2]
      cases ClientHandler.onNetworkRecv info junk netCount event disk with
      | error e => rfl
      | ok outcome => rfl

end RemoteMonitoring
