/-
Module: RemoteMonitoring.Proofs.Reception
Purpose: Which messages of the server leave the client intact, when they are not what a server
  sends: no exception leaves the receive thread, and queue, acks and configuration stay.
Trusted boundary: the JSON library is a parameter
Main exports: publishRecv_eq, intact_iff
-/
import RemoteMonitoring.System.Reception
import RemoteMonitoring.Common.Canonical
import RemoteMonitoring.Proofs.Configuration

namespace RemoteMonitoring

open ByteText
open ConfiguredClient

/-! ### The two subscribers -/

/-- The payload starts with a length and as many bytes. -/
def Decodes (payload : Bytes) : Prop := 4 + lengthField payload ≤ payload.length

/-- The string that both subscribers look at. -/
def messageOf (payload : Bytes) : Bytes := (payload.drop 4).take (lengthField payload)

theorem readString_of_decodes {payload : Bytes} (decodes : Decodes payload) :
    ∃ after, readString (.ofBytes payload) = .ok (messageOf payload, after) := by
  unfold Decodes at decodes
  simp only [readString_ofBytes, decodes, if_true]
  exact ⟨_, rfl⟩

theorem readString_of_not_decodes {payload : Bytes} (short : ¬ Decodes payload) :
    readString (.ofBytes payload) = .error .readFailed := by
  unfold Decodes at short
  simp only [readString_ofBytes, short, if_false]

/-- What `write_string` makes of a string decodes to it. -/
theorem decodes_of_writeString {message payload : Bytes}
    (written : writeString message = .ok payload) :
    Decodes payload ∧ messageOf payload = message := by
  have reads := readString_writeString written []
  rw [List.append_nil] at reads
  by_cases decodes : Decodes payload
  · obtain ⟨after, again⟩ := readString_of_decodes decodes
    rw [again, Except.ok.injEq, Prod.mk.injEq] at reads
    exact ⟨decodes, reads.1⟩
  · rw [readString_of_not_decodes decodes] at reads
    cases reads

/-- What an ack does to the queue, for any text in place of the id. -/
def ackQueue (junkId : UInt64) (queue : LogQueue) : Option Bytes → LogQueue
  | some idStr => queue.ackLog (fromCharsUInt64 junkId idStr)
  | none => queue

/-- What a pushed configuration does to the configuration in force and to the file. -/
def pushConfig (json : JsonLibrary) (config : Config) (file : File) :
    Option (List ConfigEntry) → Config × File
  | some entries => (⟨entries⟩, Config.destroy json ⟨entries⟩ (Config.destroy json ⟨entries⟩ file))
  | none => (config, file)

/-- A message that decodes acks what it asks for. -/
theorem onNetworkRecv_eq {event : NetworkRecvEvent} (decodes : Decodes event.payload)
    (junkId : UInt64) (logger : ClientLogger) :
    logger.onNetworkRecv junkId event =
      .ok { logger with logQueue := ackQueue junkId logger.logQueue (ackText event) } := by
  obtain ⟨after, reads⟩ := readString_of_decodes decodes
  unfold ClientLogger.onNetworkRecv ackSubscriber ackText
  simp only [reads, bind, Except.bind]
  cases (ascii "ack ").isPrefixOf (messageOf event.payload) with
  | false => rfl
  | true => rfl

section Subscribers

variable (json : JsonLibrary) (serverIp : Bytes) (serverPort : UInt16)

/-- Behind the decoding nothing leaves the subscriber: the rest is inside the `try`. -/
theorem recvConfig_ok {event : NetworkRecvEvent} (decodes : Decodes event.payload)
    (logger : ClientLogger) (file : File) :
    ∃ outcome, recvConfig json serverIp serverPort event logger file = .ok outcome := by
  obtain ⟨after, reads⟩ := readString_of_decodes decodes
  simp only [recvConfig, reads, bind, Except.bind]
  split
  · split
    · exact ⟨_, rfl⟩
    · split
      · exact ⟨_, rfl⟩
      · exact ⟨_, rfl⟩
  · exact ⟨_, rfl⟩

/-- A message that decodes pushes what it asks for. -/
theorem recvConfig_eq {event : NetworkRecvEvent} (decodes : Decodes event.payload)
    (logger : ClientLogger) (file : File) :
    ∃ sends, recvConfig json serverIp serverPort event logger file =
      .ok ({ logger with config := (pushConfig json logger.config file
          (pushedEntries json event)).1 },
        (pushConfig json logger.config file (pushedEntries json event)).2, sends) := by
  have received := recvConfig_cases json serverIp serverPort event logger file
  cases pushed : pushedEntries json event with
  | some entries =>
      rw [pushed] at received
      exact received
  | none =>
      rw [pushed] at received
      cases received with
      | inr silent => exact ⟨[], silent⟩
      | inl throws =>
          obtain ⟨outcome, returns⟩ := recvConfig_ok json serverIp serverPort decodes logger file
          obtain ⟨e, throws⟩ := throws
          rw [returns] at throws
          cases throws

/-- A payload that decodes reaches both subscribers, and no exception escapes. -/
theorem publishRecv_eq (event : NetworkRecvEvent) (decodes : Decodes event.payload)
    (junkId : UInt64) (s : ConfiguredClient) :
    ∃ sends, ConfiguredClient.publishRecv json serverIp serverPort junkId event s =
      (.ok sends,
        ⟨⟨(pushConfig json s.logger.config s.file (pushedEntries json event)).1,
            ackQueue junkId s.logger.logQueue (ackText event)⟩,
          (pushConfig json s.logger.config s.file (pushedEntries json event)).2⟩) := by
  obtain ⟨sends, pushed⟩ := recvConfig_eq json serverIp serverPort decodes
    { s.logger with logQueue := ackQueue junkId s.logger.logQueue (ackText event) } s.file
  exact ⟨sends, by simp only [ConfiguredClient.publishRecv, onNetworkRecv_eq decodes, pushed]⟩

/-- Any other payload throws in the first subscriber. -/
theorem publishRecv_throws (event : NetworkRecvEvent) (short : ¬ Decodes event.payload)
    (junkId : UInt64) (s : ConfiguredClient) :
    ConfiguredClient.publishRecv json serverIp serverPort junkId event s =
      (.error .readFailed, s) := by
  simp [ConfiguredClient.publishRecv, ClientLogger.onNetworkRecv, ackSubscriber,
    readString_of_not_decodes short, bind, Except.bind]

end Subscribers

/-! ### What changes nothing -/

/-- An ack changes nothing exactly if it repeats the last one. -/
theorem ackQueue_eq_self_iff {queue : LogQueue} {text : Option Bytes} :
    (∀ junkId, ackQueue junkId queue text = queue) ↔
      ∀ idStr, text = some idStr → leadingNumeral idStr = some queue.ackId.toNat := by
  cases text with
  | none => simp [ackQueue]
  | some idStr =>
      have same (id : UInt64) : queue.ackLog id = queue ↔ id = queue.ackId := by
        constructor
        · intro kept
          by_contra different
          rw [LogQueue.ackLog_of_ne different] at kept
          exact different (congrArg LogQueue.ackId kept)
        · rintro rfl
          exact queue.ackLog_self
      simp only [ackQueue, same, forall_fromCharsUInt64_iff, Option.some.injEq, forall_eq']

/-- A configuration that is already in force, with its text in the file. -/
def InForce (json : JsonLibrary) (s : ConfiguredClient) (entries : List ConfigEntry) : Prop :=
  s.logger.config = ⟨entries⟩ ∧
    (s.file.writable = true →
      s.file.content = some (json.dump (entries.map ConfigEntry.convertBeforeWrite)))

/-- A push changes nothing exactly if what it asks for is in force, and in the file. -/
theorem pushConfig_eq_self_iff {json : JsonLibrary} {s : ConfiguredClient}
    {pushed : Option (List ConfigEntry)} :
    pushConfig json s.logger.config s.file pushed = (s.logger.config, s.file) ↔
      ∀ entries, pushed = some entries → InForce json s entries := by
  cases pushed with
  | none => simp [pushConfig]
  | some entries =>
      have written : Config.destroy json ⟨entries⟩ (Config.destroy json ⟨entries⟩ s.file) = s.file ↔
          (s.file.writable = true →
            s.file.content = some (json.dump (entries.map ConfigEntry.convertBeforeWrite))) := by
        cases s.file with
        | mk content writable =>
            cases writable with
            | false => simp [Config.destroy, Config.writeConfig]
            | true => simp [Config.destroy, Config.writeConfig, File.overwrite, eq_comm]
      simp only [pushConfig, Prod.mk.injEq, written, InForce, Option.some.injEq, forall_eq']
      exact and_congr_left' eq_comm

/-! ### The receive thread -/

section ReceiveThread

variable (json : JsonLibrary) (serverIp : Bytes) (serverPort : UInt16)

/-- Whatever the uninitialised id holds, no exception leaves the round, and a payload
that is not well formed leaves the client as it was. -/
def Intact (s : ConfiguredClient) (payload : Bytes) : Prop :=
  ∀ junkId,
    (∃ sends, (receiveServerInput json serverIp serverPort junkId payload s).1 = .ok sends) ∧
      (¬ WellFormed json payload →
        (receiveServerInput json serverIp serverPort junkId payload s).2 = s)

/-- The subscribers find nothing new in the message. -/
def NothingNew (s : ConfiguredClient) (event : NetworkRecvEvent) : Prop :=
  (∀ idStr, ackText event = some idStr →
      leadingNumeral idStr = some s.logger.logQueue.ackId.toNat) ∧
    ∀ entries, pushedEntries json event = some entries → InForce json s entries

/-- A message that decodes leaves the client as it was exactly when there is nothing
new in it. -/
theorem publishRecv_eq_self_iff (event : NetworkRecvEvent) (decodes : Decodes event.payload)
    (s : ConfiguredClient) :
    (∀ junkId, (ConfiguredClient.publishRecv json serverIp serverPort junkId event s).2 = s) ↔
      NothingNew json s event := by
  have after (junkId : UInt64) :
      (ConfiguredClient.publishRecv json serverIp serverPort junkId event s).2 = s ↔
      pushConfig json s.logger.config s.file (pushedEntries json event) =
          (s.logger.config, s.file) ∧
        ackQueue junkId s.logger.logQueue (ackText event) = s.logger.logQueue := by
    obtain ⟨sends, published⟩ := publishRecv_eq json serverIp serverPort event decodes junkId s
    rw [published]
    cases s with
    | mk logger file =>
        cases logger with
        | mk config logQueue =>
            simp only [ConfiguredClient.mk.injEq, ClientLogger.mk.injEq, Prod.ext_iff]
            exact and_right_comm
  simp only [after, forall_and, forall_const, ackQueue_eq_self_iff, pushConfig_eq_self_iff,
    NothingNew]
  exact and_comm

/-- Malformed messages leave the client intact.  This holds of a payload exactly when it
is empty, and so not published, or well formed, or decodes and has nothing new for either
subscriber. -/
theorem intact_iff (s : ConfiguredClient) (payload : Bytes) :
    Intact json serverIp serverPort s payload ↔
      payload = [] ∨ WellFormed json payload ∨
        Decodes payload ∧ NothingNew json s ⟨serverIp, serverPort, payload⟩ := by
  by_cases empty : payload = []
  · simp [Intact, receiveServerInput, empty]
  · simp only [Intact, receiveServerInput, empty, if_false, false_or]
    by_cases decodes : Decodes payload
    · have returns (junkId : UInt64) : ∃ sends, (ConfiguredClient.publishRecv json serverIp
          serverPort junkId ⟨serverIp, serverPort, payload⟩ s).1 = .ok sends := by
        obtain ⟨sends, published⟩ := publishRecv_eq json serverIp serverPort
          ⟨serverIp, serverPort, payload⟩ decodes junkId s
        exact ⟨sends, congrArg Prod.fst published⟩
      have unchanged := publishRecv_eq_self_iff json serverIp serverPort
        ⟨serverIp, serverPort, payload⟩ decodes s
      by_cases formed : WellFormed json payload
      · simp [returns, formed, decodes]
      · simp [returns, formed, decodes, unchanged]
    · have malformed : ¬ WellFormed json payload := by
        intro formed
        obtain ⟨message, _, written⟩ := formed
        exact decodes (decodes_of_writeString written).1
      simp [publishRecv_throws json serverIp serverPort
        ⟨serverIp, serverPort, payload⟩ decodes, decodes, malformed]

end ReceiveThread

/-- A client that has sent its first entry and has no ack yet. -/
def pendingSample : ConfiguredClient :=
  { startedSample with
    logger := ⟨Config.defaultConfig, (sampleQueue.addNewLog (ascii "a") 5 .cpu 9).2⟩ }

/-- Three bytes end the receive thread, and `ack x` drops an entry that was never
acknowledged when the uninitialised id happens to be 7. -/
theorem malformed_not_intact :
    let receive := receiveServerInput sampleJson (ascii "10.0.0.1") 12345 7
    (receive [0, 0, 0] pendingSample).1 = .error .readFailed ∧
      (receive (writeUint32 5 ++ ascii "ack x") pendingSample).2.logger.logQueue.logEntries = [] ∧
      pendingSample.logger.logQueue.logEntries = [⟨1, ascii "a", 5, .cpu, 9⟩] ∧
      ¬ Intact sampleJson (ascii "10.0.0.1") 12345 pendingSample [0, 0, 0] ∧
      ¬ Intact sampleJson (ascii "10.0.0.1") 12345 pendingSample
          (writeUint32 5 ++ ascii "ack x") := by
  intro receive
  have throws : (receive [0, 0, 0] pendingSample).1 = .error .readFailed := by decide +kernel
  have dropped : (receive (writeUint32 5 ++ ascii "ack x")
      pendingSample).2.logger.logQueue.logEntries = [] := by decide +kernel
  have pending : pendingSample.logger.logQueue.logEntries = [⟨1, ascii "a", 5, .cpu, 9⟩] := by
    decide +kernel
  refine ⟨throws, dropped, pending, ?_, ?_⟩
  · intro intact
    obtain ⟨sends, returns⟩ := (intact 7).1
    rw [show _ = _ from throws] at returns
    cases returns
  · intro intact
    have malformed : ¬ WellFormed sampleJson (writeUint32 5 ++ ascii "ack x") := by
      intro formed
      obtain ⟨message, formed, written⟩ := formed
      have text : messageOf (writeUint32 5 ++ ascii "ack x") = ascii "ack x" := by decide
      rw [(decodes_of_writeString written).2] at text
      cases formed with
      | ack nonempty digits fits =>
          have letter := @List.append_cancel_left _ (ascii "ack ") _ (ascii "x") text
          rw [letter] at digits
          exact absurd (digits 120 (by decide)) (by decide)
      | config parses => simp [ascii] at text
    have kept := (intact 7).2 malformed
    have none := congrArg (fun s => s.logger.logQueue.logEntries) kept
    rw [show _ = _ from dropped, pending] at none
    cases none

end RemoteMonitoring
