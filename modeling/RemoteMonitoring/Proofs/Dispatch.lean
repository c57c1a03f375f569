/-
Module: RemoteMonitoring.Proofs.Dispatch
Purpose: What any message whatever can do on the server: it touches the log file of its own
  address only, and nothing is published in return but acks for its own connection.
Trusted boundary: none
Main exports: onNetworkRecv_frame, publishRecv_frame, publishRecv_configOk
-/
import RemoteMonitoring.Proofs.Messages
import RemoteMonitoring.Server.EventBus

namespace RemoteMonitoring

open ByteText

/-- The files but one are as they were, and everything sent is an ack for the connection. -/
structure Framed (ip : Bytes) (port : UInt16) (disk after : Disk)
    (sends : List NetworkSendEvent) : Prop where
  others : ∀ name, name ≠ clientLogFile ip → after name = disk name
  acks : ∀ event ∈ sends, ∃ id, event = ⟨ip, port, ackPayload id⟩

theorem framed_nothing (ip : Bytes) (port : UInt16) (disk : Disk) :
    Framed ip port disk disk [] where
  others _ _ := rfl
  acks := by simp

/-- One after the other, both keep inside the frame. -/
theorem Framed.trans {ip : Bytes} {port : UInt16} {disk between after : Disk}
    {sends later : List NetworkSendEvent} (first : Framed ip port disk between sends)
    (second : Framed ip port between after later) :
    Framed ip port disk after (sends ++ later) where
  others name other := (second.others name other).trans (first.others name other)
  acks event member := (List.mem_append.mp member).elim (first.acks event) (second.acks event)

/-- The handler of a log message writes to the file of its own client only, and answers to the
address that the message came from. -/
theorem handleRecvLog_frame {info : ClientInfo} {junk : Indeterminate} {netCount : UInt32}
    {is : IStream} {disk after : Disk} {sends : List NetworkSendEvent}
    (handled : handleRecvLog info junk netCount is disk = .ok (after, sends)) :
    Framed info.clientIp info.clientPort disk after sends := by
  unfold handleRecvLog at handled
  cases decoded : readVectorSerializeable LogEntry.deserialize netCount is with
  | error e => simp [decoded, bind, Except.bind] at handled
  | ok batch =>
      cases opens : (disk (clientLogFile info.clientIp)).writable with
      | false =>
          simp only [decoded, opens, bind, Except.bind, pure, Except.pure, Bool.not_false, if_true,
            Except.ok.injEq, Prod.mk.injEq] at handled
          obtain ⟨rfl, rfl⟩ := handled
          exact framed_nothing _ _ _
      | true =>
          simp only [decoded, opens, bind, Except.bind, pure, Except.pure, Bool.not_true,
            Bool.false_eq_true, if_false, writeString_ackMessage, Except.ok.injEq,
            Prod.mk.injEq] at handled
          obtain ⟨rfl, rfl⟩ := handled
          constructor
          · intro name other
            rw [Function.update_of_ne other]
          · intro event member
            exact ⟨_, List.mem_singleton.mp member⟩

/-- Whatever the message is. -/
theorem onNetworkRecv_frame {info : ClientInfo} {junk : Indeterminate} {netCount : UInt32}
    {event : NetworkRecvEvent} {disk after : Disk} {sends : List NetworkSendEvent}
    (handled : ClientHandler.onNetworkRecv info junk netCount event disk = .ok (after, sends)) :
    Framed event.ip event.port disk after sends := by
  by_cases other : (event.ip, event.port) ≠ info.connection
  · rw [onNetworkRecv_other other] at handled
    cases handled
    exact framed_nothing _ _ _
  · rw [ne_eq, not_not, ClientInfo.connection, Prod.mk.injEq] at other
    obtain ⟨ip, port⟩ := other
    rw [ip, port]
    unfold ClientHandler.onNetworkRecv at handled
    rw [ip, port] at handled
    cases decoded : readString (.ofBytes event.payload) with
    | error e => simp [decoded, bind, Except.bind] at handled
    | ok message =>
        simp only [decoded, bind, Except.bind, ne_eq, not_true, if_false] at handled
        split at handled
        · exact handleRecvLog_frame handled
        · split at handled
          · cases handled
            exact framed_nothing _ _ _
          · cases handled
            exact framed_nothing _ _ _

/-- A message on a connection, whoever handles it: only the file of its address can change, and
only acks are answered, to its address and port. -/
theorem publishRecv_frame (junk : Indeterminate) (netCount : UInt32) (event : NetworkRecvEvent)
    (handlers : List ClientInfo) (disk : Disk) :
    let outcome := publishRecv junk netCount event handlers disk
    Framed event.ip event.port disk outcome.1 outcome.2 := by
  induction handlers generalizing disk with
  | nil => exact framed_nothing _ _ _
  | cons info rest ih =>
      rw [publishRecv]
      cases handled : ClientHandler.onNetworkRecv info junk netCount event disk with
      | error e => exact framed_nothing _ _ _
      | ok outcome => exact (onNetworkRecv_frame handled).trans (ih outcome.1)

/-- The reply to a pushed configuration. -/
def configOk : Bytes :=
  writeUint32 (UInt32.ofNat (ascii "config ok").length) ++ ascii "config ok"

theorem writeString_configOk : writeString (ascii "config ok") = .ok configOk :=
  writeString_eq_ok.mpr ⟨by decide, rfl⟩

/-- The answer to a configuration has no effect. -/
theorem onNetworkRecv_configOk (info : ClientInfo) (junk : Indeterminate) (netCount : UInt32)
    (ip : Bytes) (port : UInt16) (disk : Disk) :
    ClientHandler.onNetworkRecv info junk netCount ⟨ip, port, configOk⟩ disk = .ok (disk, []) := by
  have reads := readString_writeString writeString_configOk []
  have other : ascii "config ok" ≠ ascii "log" := by decide
  rw [List.append_nil] at reads
  unfold ClientHandler.onNetworkRecv
  simp only [reads, other, bind, Except.bind, pure, Except.pure, if_false, if_true]
  split_ifs
  · rfl
  · rfl
  · rfl

/-- The reply has no effect on the server. -/
theorem publishRecv_configOk (junk : Indeterminate) (netCount : UInt32) (ip : Bytes)
    (port : UInt16) (handlers : List ClientInfo) (disk : Disk) :
    publishRecv junk netCount ⟨ip, port, configOk⟩ handlers disk = (disk, []) := by
  induction handlers with
  | nil => rfl
  | cons info rest ih => simp [publishRecv, onNetworkRecv_configOk, ih]

end RemoteMonitoring
