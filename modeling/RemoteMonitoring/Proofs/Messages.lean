/-
Module: RemoteMonitoring.Proofs.Messages
Purpose: The payloads that client and server exchange arrive as what was sent: batches at the
  server's dispatcher and acks at the client's subscriber.
Trusted boundary: none
Main exports: logPayload_cases, onNetworkRecv_logPayload, ackSubscriber_ackPayload
-/
import RemoteMonitoring.Client.Client
import RemoteMonitoring.Server.ClientHandler

namespace RemoteMonitoring

open ByteText

/-- An entry is encoded, or its name is too long for `write_string`. -/
theorem serialize_cases (entry : LogEntry) :
    (∃ out, entry.serialize = .ok out) ∨
      entry.serialize = .error .stringTooLarge ∧ 2 ^ 32 ≤ entry.processName.length := by
  rcases Nat.lt_or_ge entry.processName.length (2 ^ 32) with short | long
  · exact Or.inl (LogEntry.serialize_isOk short)
  · refine Or.inr ⟨?_, long⟩
    have above : entry.processName.length > uint32Max := by
      unfold uint32Max
      omega
    simp [LogEntry.serialize, writeString, above, bind, Except.bind]

/-- Entries are serialized, unless a name is too long for its length field. -/
theorem mapM_serialize_cases (logEntries : List LogEntry) :
    (∃ outs, logEntries.mapM LogEntry.serialize = .ok outs) ∨
      logEntries.mapM LogEntry.serialize = .error .stringTooLarge ∧
        ∃ entry ∈ logEntries, 2 ^ 32 ≤ entry.processName.length := by
  induction logEntries with
  | nil => exact Or.inl ⟨[], rfl⟩
  | cons entry rest ih =>
      rcases serialize_cases entry with ⟨out, first⟩ | ⟨throws, long⟩
      · rcases ih with ⟨outs, others⟩ | ⟨throws, later, member, long⟩
        · exact Or.inl ⟨out :: outs, by
            simp [first, others, bind, Except.bind, pure, Except.pure]⟩
        · refine Or.inr ⟨?_, later, List.mem_cons_of_mem _ member, long⟩
          simp [first, throws, bind, Except.bind]
      · exact Or.inr ⟨by simp [throws, bind, Except.bind], entry, List.mem_cons_self, long⟩

/-- A batch is encoded unless one of its names is too long for `write_string`,
which then throws. -/
theorem logPayload_cases (logEntries : List LogEntry) :
    (∃ payload, logPayload logEntries = .ok payload) ∨
      logPayload logEntries = .error .stringTooLarge ∧
        ∃ entry ∈ logEntries, 2 ^ 32 ≤ entry.processName.length := by
  have tag := writeString_eq_ok.mpr ⟨(by decide : (ascii "log").length < 2 ^ 32), rfl⟩
  rcases mapM_serialize_cases logEntries with ⟨outs, items⟩ | ⟨throws, long⟩
  · have batch := writeVectorSerializeable_eq_ok.mpr ⟨outs, items, rfl⟩
    refine Or.inl ⟨(writeUint32 (UInt32.ofNat (ascii "log").length) ++ ascii "log") ++
      (writeUint32 (UInt32.ofNat logEntries.length) ++ outs.flatten), ?_⟩
    simp only [logPayload, tag, batch, bind, Except.bind, pure, Except.pure]
  · have batch : writeVectorSerializeable LogEntry.serialize logEntries =
        .error .stringTooLarge := by
      simp [writeVectorSerializeable, throws, bind, Except.bind]
    refine Or.inr ⟨?_, long⟩
    simp only [logPayload, tag, batch, bind, Except.bind]

/-- A payload can be built of entries whose names fit their length fields. -/
theorem logPayload_isOk {logEntries : List LogEntry}
    (short : ∀ entry ∈ logEntries, entry.processName.length < 2 ^ 32) :
    ∃ payload, logPayload logEntries = .ok payload := by
  rcases logPayload_cases logEntries with sent | ⟨_, entry, member, long⟩
  · exact sent
  · exact absurd (short entry member) (Nat.not_lt.mpr long)

/-- A payload is the word "log", and then the batch. -/
theorem logPayload_eq_ok {logEntries : List LogEntry} {payload : Bytes}
    (built : logPayload logEntries = .ok payload) :
    ∃ tag batch, writeString (ascii "log") = .ok tag ∧
      writeVectorSerializeable LogEntry.serialize logEntries = .ok batch ∧
      payload = tag ++ batch := by
  unfold logPayload at built
  cases tagged : writeString (ascii "log") with
  | error e => simp [tagged, bind, Except.bind] at built
  | ok tag =>
      cases items : writeVectorSerializeable LogEntry.serialize logEntries with
      | error e => simp [tagged, items, bind, Except.bind] at built
      | ok batch =>
          simp only [tagged, items, bind, Except.bind, pure, Except.pure,
            Except.ok.injEq] at built
          exact ⟨tag, batch, rfl, rfl, built.symm⟩

/-- The server's dispatcher decodes the payload of a batch to that batch. -/
theorem onNetworkRecv_logPayload {info : ClientInfo} {disk : Disk} {batch : List LogEntry}
    {payload : Bytes} (built : logPayload batch = .ok payload) (fits : batch.length < 2 ^ 32)
    (opens : (disk (clientLogFile info.clientIp)).writable = true) (junk : Indeterminate)
    (netCount : UInt32) :
    ClientHandler.onNetworkRecv info junk netCount
        ⟨info.clientIp, info.clientPort, payload⟩ disk =
      let file := disk (clientLogFile info.clientIp)
      let outcome := acceptLoop (lastAckedId junk file) batch
      .ok (Function.update disk (clientLogFile info.clientIp)
          (file.append (outcome.2.flatMap LogEntry.serializeStr)),
        [⟨info.clientIp, info.clientPort, ackPayload outcome.1⟩]) := by
  obtain ⟨tag, items, tagged, written, rfl⟩ := logPayload_eq_ok built
  have decodes := readVectorSerializeable_write LogEntry.serialize_roundTrips fits written
    netCount []
  rw [List.append_nil] at decodes
  simp only [ClientHandler.onNetworkRecv, ne_eq, not_true, if_false,
    readString_writeString tagged items, bind, Except.bind, if_true]
  exact handleRecvLog_ok decodes opens

/-- The client reads the id of an ack whatever the variable held before. -/
theorem ackSubscriber_ackPayload (junkId id : UInt64) (queue : LogQueue) :
    ackSubscriber junkId (ackPayload id) queue = .ok (queue.ackLog id) := by
  have reads := readString_writeString (writeString_ackMessage id) []
  rw [List.append_nil] at reads
  have front : ascii "ack " <+: ackMessage id := List.prefix_append _ _
  have digits : (ackMessage id).drop (ascii "ack ").length = decimal id.toNat :=
    List.drop_left
  simp [ackSubscriber, reads, front, digits, bind, Except.bind, pure, Except.pure]

end RemoteMonitoring
