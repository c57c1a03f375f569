/-
Module: RemoteMonitoring.Proofs.Configuration
Purpose: Which thresholds are in force: a pushed configuration against the same text read at the
  start, and a configuration before and after a restart.
Trusted boundary: the JSON library is a parameter
Main exports: recvConfig_of_pushedEntries, pushed_eq_started_iff, Saved, saved_run,
  survives_restart_iff
-/
import RemoteMonitoring.System.Configuration
import RemoteMonitoring.Server.ClientManager
import Mathlib.Logic.Encodable.Basic
import Mathlib.Logic.Equiv.List

namespace RemoteMonitoring

open ByteText

theorem map_eq_self_iff {α : Type} {f : α → α} {items : List α} :
    items.map f = items ↔ ∀ item ∈ items, f item = item := by
  constructor
  · intro same item member
    have both : items.map f = items.map id := by rw [same, List.map_id]
    exact List.map_inj_left.mp both item member
  · intro fixed
    rw [List.map_congr_left fixed, List.map_id']

/-! ### The start -/

/-- A file that parses is in force as it was converted, and is written back. -/
theorem startConfig_content {json : JsonLibrary} {file : File} {content : Bytes}
    {entries : List ConfigEntry} (present : file.content = some content)
    (parses : json.parse content = some entries) :
    startConfig json file =
      let config : Config := ⟨entries.map ConfigEntry.convertAfterRead⟩
      .ok (config, config.destroy json file) := by
  simp [startConfig, Config.readConfig, present, parses, bind, Except.bind, pure, Except.pure]

theorem startConfig_absent {json : JsonLibrary} {file : File} (absent : file.content = none) :
    startConfig json file =
      .ok (Config.defaultConfig,
        Config.defaultConfig.destroy json (Config.defaultConfig.destroy json file)) := by
  simp [startConfig, Config.readConfig, absent, bind, Except.bind, pure, Except.pure]

theorem destroy_eq (json : JsonLibrary) (config : Config) {file : File}
    (opens : file.writable = true) :
    config.destroy json file =
      file.overwrite (json.dump (config.configEntries.map ConfigEntry.convertBeforeWrite)) := by
  simp [Config.destroy, Config.writeConfig, opens]

/-! ### A push -/

/-- An accepted configuration is in force as it was parsed, and any other message
changes nothing. -/
theorem recvConfig_cases (json : JsonLibrary) (serverIp : Bytes) (serverPort : UInt16)
    (event : NetworkRecvEvent) (logger : ClientLogger) (file : File) :
    match pushedEntries json event with
    | some entries => ∃ sends, recvConfig json serverIp serverPort event logger file =
        .ok ({ logger with config := ⟨entries⟩ },
          Config.destroy json ⟨entries⟩ (Config.destroy json ⟨entries⟩ file), sends)
    | none => (∃ error, recvConfig json serverIp serverPort event logger file = .error error) ∨
        recvConfig json serverIp serverPort event logger file = .ok (logger, file, []) := by
  unfold pushedEntries recvConfig
  cases decoded : readString (.ofBytes event.payload) with
  | error error => exact Or.inl ⟨error, rfl⟩
  | ok outcome =>
      obtain ⟨message, rest⟩ := outcome
      simp only [bind, Except.bind]
      cases front : (ascii "config ").isPrefixOf message with
      | false => exact Or.inr rfl
      | true =>
          simp only [if_true]
          cases parses : json.parse (message.drop (ascii "config ").length) with
          | none => exact Or.inr rfl
          | some entries =>
              have reply := writeString_eq_ok.mpr
                ⟨(by decide : (ascii "config ok").length < 2 ^ 32), rfl⟩
              simp only [reply, ClientLogger.setConfig, Config.destroy, pure, Except.pure]
              exact ⟨_, rfl⟩

/-- The two ways of loading one text.  The server pushes the text of a file to a
client; elsewhere a client starts with the same text.  The thresholds in force are
the same exactly when all of them are 0. -/
theorem pushed_eq_started_iff {json : JsonLibrary} {disk : Disk} {info : ClientInfo}
    {configFileName content : Bytes} {entries : List ConfigEntry}
    (opens : (disk configFileName).content = some content)
    (parses : json.parse content = some entries) {event : NetworkSendEvent}
    (pushed : event ∈ userMessage json disk info (ascii "config " ++ configFileName))
    (serverIp : Bytes) (serverPort : UInt16) (logger : ClientLogger) (clientFile : File)
    {startFile : File} (same : startFile.content = some content) :
    ∃ (after : ClientLogger) (config : Config) (files : File × File)
        (sends : List NetworkSendEvent),
      recvConfig json serverIp serverPort ⟨serverIp, serverPort, event.payload⟩ logger
          clientFile = .ok (after, files.1, sends) ∧
        startConfig json startFile = .ok (config, files.2) ∧
        (after.config.configEntries = config.configEntries ↔
          ∀ entry ∈ entries, entry.cpuUsage = 0 ∧ entry.memUsage = 0 ∧ entry.diskUsage = 0 ∧
            entry.networkUsage = 0) := by
  obtain ⟨content', entries', opens', parses', written⟩ := mem_userMessage pushed
  rw [opens] at opens'
  cases opens'
  rw [parses] at parses'
  cases parses'
  have arrives : pushedEntries json ⟨serverIp, serverPort, event.payload⟩ = some entries := by
    have reads := readString_writeString written []
    have text : (ascii "config " ++ content).drop (ascii "config ").length = content :=
      List.drop_left
    rw [List.append_nil] at reads
    simp only [pushedEntries, reads, List.isPrefixOf_iff_prefix, List.prefix_append, if_true, text,
      parses]
  have received := recvConfig_cases json serverIp serverPort
    ⟨serverIp, serverPort, event.payload⟩ logger clientFile
  rw [arrives] at received
  obtain ⟨sends, received⟩ := received
  refine ⟨_, _, (_, _), sends, received, startConfig_content same parses, ?_⟩
  change entries = entries.map ConfigEntry.convertAfterRead ↔ _
  simp only [← ConfigEntry.convertAfterRead_eq_self_iff]
  rw [eq_comm, map_eq_self_iff]

/-! ### Restarts -/

open ConfiguredClient

/-- rmt-config.json holds what the last write made of the configuration in force. -/
structure Saved (json : JsonLibrary) (s : ConfiguredClient) : Prop where
  content : s.file.content =
    some (json.dump (s.logger.config.configEntries.map ConfigEntry.convertBeforeWrite))
  opens : s.file.writable = true
  names : ∀ entry ∈ s.logger.config.configEntries, json.Names entry.processName

/-- The destructor of a configuration writes it, in whole units. -/
theorem saved_destroy {json : JsonLibrary} {config : Config}
    (names : ∀ entry ∈ config.configEntries, json.Names entry.processName) (logQueue : LogQueue)
    {file : File} (opens : file.writable = true) :
    Saved json ⟨⟨config, logQueue⟩, config.destroy json file⟩ := by
  rw [destroy_eq json config opens]
  refine ⟨File.content_overwrite opens _, ?_, names⟩
  rw [File.writable_overwrite]
  exact opens

/-! ### Names -/

/-- What is parsed has names that can be parsed, also in other units. -/
theorem names_of_parse {json : JsonLibrary} {content : Bytes} {entries : List ConfigEntry}
    (parses : json.parse content = some entries) :
    ∀ entry ∈ entries, json.Names entry.processName :=
  fun entry member => ⟨content, entries, entry, parses, member, rfl⟩

/-- The conversions keep the names. -/
theorem names_map {json : JsonLibrary} (convert : ConfigEntry → ConfigEntry)
    (keeps : ∀ entry, (convert entry).processName = entry.processName)
    {entries : List ConfigEntry} (names : ∀ entry ∈ entries, json.Names entry.processName) :
    ∀ entry ∈ entries.map convert, json.Names entry.processName := by
  intro entry member
  obtain ⟨other, inside, rfl⟩ := List.mem_map.mp member
  rw [keeps]
  exact names other inside

/-- What a message carries was parsed. -/
theorem names_of_pushedEntries {json : JsonLibrary} {event : NetworkRecvEvent}
    {entries : List ConfigEntry} (pushed : pushedEntries json event = some entries) :
    ∀ entry ∈ entries, json.Names entry.processName := by
  unfold pushedEntries at pushed
  split at pushed
  · cases pushed
  · split at pushed
    · exact names_of_parse pushed
    · cases pushed

/-- The names of the default configuration are printable. -/
theorem names_defaultConfig {json : JsonLibrary} (roundTrips : json.RoundTrips) :
    ∀ entry ∈ Config.defaultConfig.configEntries, json.Names entry.processName := by
  intro entry member
  have plain : ∀ entry ∈ Config.defaultConfig.configEntries,
      ∀ byte ∈ entry.processName, 32 ≤ byte ∧ byte < 127 := by
    decide +kernel
  exact roundTrips.plain entry.processName (plain entry member)

theorem writable_destroy (json : JsonLibrary) (config : Config) {file : File}
    (opens : file.writable = true) : (config.destroy json file).writable = true := by
  rw [destroy_eq json config opens, File.writable_overwrite]
  exact opens

section Restarts

variable {json : JsonLibrary}

/-- A client that comes up found no file, or one whose text the library accepts. -/
theorem start_cases {logQueue : LogQueue} {file : File} {s : ConfiguredClient}
    (starts : start json logQueue file = .ok s) :
    (file.content = none ∧
        s = ⟨⟨Config.defaultConfig, logQueue⟩,
          Config.defaultConfig.destroy json (Config.defaultConfig.destroy json file)⟩) ∨
      ∃ content entries, file.content = some content ∧ json.parse content = some entries ∧
        let config : Config := ⟨entries.map ConfigEntry.convertAfterRead⟩
        s = ⟨⟨config, logQueue⟩, config.destroy json file⟩ := by
  cases present : file.content with
  | none =>
      simp only [start, startConfig_absent present, bind, Except.bind, pure, Except.pure,
        Except.ok.injEq] at starts
      exact Or.inl ⟨rfl, starts.symm⟩
  | some content =>
      cases parses : json.parse content with
      | none =>
          simp [start, startConfig, Config.readConfig, present, parses, bind, Except.bind]
            at starts
      | some entries =>
          simp only [start, startConfig_content present parses, bind, Except.bind, pure,
            Except.pure, Except.ok.injEq] at starts
          exact Or.inr ⟨content, entries, rfl, parses, starts.symm⟩

/-- Every client that comes up has written its configuration. -/
theorem saved_start (roundTrips : json.RoundTrips) {logQueue : LogQueue} {file : File}
    (opens : file.writable = true) {s : ConfiguredClient}
    (starts : start json logQueue file = .ok s) : Saved json s := by
  obtain ⟨_, rfl⟩ | ⟨_, entries, _, parses, rfl⟩ := start_cases starts
  · exact saved_destroy (names_defaultConfig roundTrips) logQueue (writable_destroy json _ opens)
  · exact saved_destroy (names_map ConfigEntry.convertAfterRead (fun _ => rfl)
      (names_of_parse parses)) logQueue opens

/-- A restart puts into force what the division and the multiplication leave. -/
theorem restart_eq (roundTrips : json.RoundTrips) {s : ConfiguredClient} (saved : Saved json s)
    (junkAckId : UInt64) (junk : Nat → Indeterminate) :
    ∃ after, s.restart json junkAckId junk = .ok after ∧ Saved json after ∧
      after.logger.config.configEntries = s.logger.config.configEntries.map
        fun entry => entry.convertBeforeWrite.convertAfterRead := by
  have written := names_map ConfigEntry.convertBeforeWrite (fun _ => rfl) saved.names
  have starts := startConfig_content saved.content (roundTrips.again _ written)
  let config : Config := ⟨(s.logger.config.configEntries.map ConfigEntry.convertBeforeWrite).map
    ConfigEntry.convertAfterRead⟩
  let logQueue := LogQueue.ofFiles junkAckId junk s.logger.logQueue.logFile
    s.logger.logQueue.ackFile
  have restarts : s.restart json junkAckId junk =
      .ok ⟨⟨config, logQueue⟩, config.destroy json s.file⟩ := by
    simp only [restart, start, starts, bind, Except.bind, pure, Except.pure, config, logQueue]
  have names := names_map ConfigEntry.convertAfterRead (fun _ => rfl) written
  exact ⟨_, restarts, saved_destroy names logQueue saved.opens, by simp [config]⟩

/-- A restart preserves whole units and nothing else. -/
theorem survivesRestart_iff (roundTrips : json.RoundTrips) {s : ConfiguredClient}
    (saved : Saved json s) :
    SurvivesRestart json s ↔ ∀ entry ∈ s.logger.config.configEntries, entry.Aligned := by
  have converted : (s.logger.config.configEntries.map
      fun entry => entry.convertBeforeWrite.convertAfterRead) = s.logger.config.configEntries ↔
        ∀ entry ∈ s.logger.config.configEntries, entry.Aligned := by
    rw [map_eq_self_iff]
    simp only [ConfigEntry.convertBeforeWrite_convertAfterRead_iff]
  rw [← converted]
  constructor
  · intro survives
    obtain ⟨after, restarts, same⟩ := survives 0 fun _ => default
    obtain ⟨after', restarts', _, entries⟩ := restart_eq roundTrips saved 0 fun _ => default
    rw [restarts] at restarts'
    cases restarts'
    rw [← entries, same]
  · intro kept junkAckId junk
    obtain ⟨after, restarts, _, entries⟩ := restart_eq roundTrips saved junkAckId junk
    refine ⟨after, restarts, ?_⟩
    rw [kept] at entries
    cases after with
    | mk logger file =>
        cases logger with
        | mk config logQueue => exact congrArg Config.mk entries

/-! ### Runs -/

variable (serverIp : Bytes) (serverPort : UInt16)

/-- The queue follows the message as the ack subscriber does. -/
def followedQueue (junkId : UInt64) (payload : Bytes) (queue : LogQueue) : LogQueue :=
  match ackSubscriber junkId payload queue with
  | .ok queue => queue
  | .error _ => queue

/-- A message that cannot be decoded is no configuration. -/
theorem pushedEntries_of_error {json : JsonLibrary} {junkId : UInt64} {event : NetworkRecvEvent}
    {queue : LogQueue} {e : RuntimeError}
    (throws : ackSubscriber junkId event.payload queue = .error e) :
    pushedEntries json event = none := by
  unfold pushedEntries
  cases decoded : readString (.ofBytes event.payload) with
  | error _ => rfl
  | ok outcome =>
      simp only [ackSubscriber, decoded, bind, Except.bind] at throws
      split at throws
      · cases throws
      · cases throws

/-- An accepted message is in force as it was parsed, any other leaves configuration and file as
they are; either way the queue may have taken an ack. -/
theorem step_recv_cases (json : JsonLibrary) (s : ConfiguredClient) (event : NetworkRecvEvent)
    (junkId : UInt64) :
    s.step json serverIp serverPort (.recv event junkId) =
      match pushedEntries json event with
      | some entries => ⟨⟨⟨entries⟩, followedQueue junkId event.payload s.logger.logQueue⟩,
          Config.destroy json ⟨entries⟩ (Config.destroy json ⟨entries⟩ s.file)⟩
      | none => ⟨⟨s.logger.config, followedQueue junkId event.payload s.logger.logQueue⟩,
          s.file⟩ := by
  unfold step ConfiguredClient.publishRecv ClientLogger.onNetworkRecv followedQueue
  cases acks : ackSubscriber junkId event.payload s.logger.logQueue with
  | error e => simp only [pushedEntries_of_error acks, acks, bind, Except.bind]
  | ok logQueue =>
      have received := recvConfig_cases json serverIp serverPort event { s.logger with logQueue }
        s.file
      simp only [acks, bind, Except.bind, pure, Except.pure]
      cases pushed : pushedEntries json event with
      | some entries =>
          rw [pushed] at received
          obtain ⟨sends, received⟩ := received
          simp only [received]
      | none =>
          rw [pushed] at received
          rcases received with ⟨error, received⟩ | received
          · simp only [received]
          · simp only [received]

/-- Every message and every restart leaves in the file what is in force. -/
theorem saved_step (roundTrips : json.RoundTrips) {s : ConfiguredClient} (saved : Saved json s)
    (event : ConfigEvent) : Saved json (s.step json serverIp serverPort event) := by
  cases event with
  | recv event junkId =>
      have received := step_recv_cases serverIp serverPort json s event junkId
      cases pushed : pushedEntries json event with
      | some entries =>
          rw [pushed] at received
          rw [received]
          exact saved_destroy (names_of_pushedEntries pushed) _
            (writable_destroy json _ saved.opens)
      | none =>
          rw [pushed] at received
          rw [received]
          exact ⟨saved.content, saved.opens, saved.names⟩
  | restart junkAckId junk =>
      obtain ⟨after, restarts, savedAfter, _⟩ := restart_eq roundTrips saved junkAckId junk
      simp only [step, restarts]
      exact savedAfter

theorem saved_run (roundTrips : json.RoundTrips) {s : ConfiguredClient} (saved : Saved json s)
    (events : List ConfigEvent) : Saved json (s.run json serverIp serverPort events) := by
  induction events generalizing s with
  | nil => exact saved
  | cons event events ih => exact ih (saved_step serverIp serverPort roundTrips saved event)

/-- Whole units stay in force as long as only whole units are pushed. -/
theorem aligned_step (roundTrips : json.RoundTrips) {s : ConfiguredClient} (saved : Saved json s)
    (aligned : ∀ entry ∈ s.logger.config.configEntries, entry.Aligned) {event : ConfigEvent}
    (whole : PushAligned json event) :
    ∀ entry ∈ (s.step json serverIp serverPort event).logger.config.configEntries,
      entry.Aligned := by
  cases event with
  | recv event junkId =>
      have received := step_recv_cases serverIp serverPort json s event junkId
      cases pushed : pushedEntries json event with
      | some entries =>
          rw [pushed] at received
          rw [received]
          exact whole entries pushed
      | none =>
          rw [pushed] at received
          rw [received]
          exact aligned
  | restart junkAckId junk =>
      obtain ⟨after, restarts, same⟩ := (survivesRestart_iff roundTrips saved).mpr aligned
        junkAckId junk
      simp only [step, restarts]
      rw [same]
      exact aligned

/-- Whole units stay whole units, as long as only such are pushed. -/
theorem aligned_run (roundTrips : json.RoundTrips) {s : ConfiguredClient} (saved : Saved json s)
    (aligned : ∀ entry ∈ s.logger.config.configEntries, entry.Aligned)
    {events : List ConfigEvent} (whole : ∀ event ∈ events, PushAligned json event) :
    ∀ entry ∈ (s.run json serverIp serverPort events).logger.config.configEntries,
      entry.Aligned := by
  induction events generalizing s with
  | nil => exact aligned
  | cons event events ih =>
      apply ih (saved_step serverIp serverPort roundTrips saved event)
      · exact aligned_step serverIp serverPort roundTrips saved aligned (whole event (by simp))
      · exact fun later member => whole later (List.mem_cons_of_mem _ member)

/-- What the start puts into force is whole units exactly when no CPU product wrapped
off them. -/
theorem aligned_start_iff {logQueue : LogQueue} {file : File} {s : ConfiguredClient}
    (starts : start json logQueue file = .ok s) :
    (∀ entry ∈ s.logger.config.configEntries, entry.Aligned) ↔ StartAligned json file := by
  obtain ⟨absent, rfl⟩ | ⟨content, entries, present, parses, rfl⟩ := start_cases starts
  · constructor
    · intro _ content entries present
      rw [absent] at present
      cases present
    · intro _
      change ∀ entry ∈ Config.defaultConfig.configEntries, entry.Aligned
      decide +kernel
  · simp only [List.mem_map, forall_exists_index, and_imp, forall_apply_eq_imp_iff₂,
      ConfigEntry.aligned_convertAfterRead_iff]
    constructor
    · intro whole content' entries' present' parses'
      rw [present] at present'
      cases present'
      rw [parses] at parses'
      cases parses'
      exact whole
    · intro whole
      exact whole content entries present parses

/-- Surviving restarts.  In a run that starts from any readable file or none, every
restart at any point preserves the thresholds in force exactly when no CPU
threshold of the file wraps off its unit and the server pushes whole units only. -/
theorem run_survivesRestart_iff (roundTrips : json.RoundTrips) {file : File}
    (opens : file.writable = true) {logQueue : LogQueue} {s : ConfiguredClient}
    (starts : start json logQueue file = .ok s) (events : List ConfigEvent) :
    (∀ count, SurvivesRestart json (s.run json serverIp serverPort (events.take count))) ↔
      StartAligned json file ∧ ∀ event ∈ events, PushAligned json event := by
  have saved := saved_start roundTrips opens starts
  have savedRun := fun count => saved_run serverIp serverPort roundTrips saved (events.take count)
  rw [← aligned_start_iff starts]
  constructor
  · intro survives
    constructor
    · exact (survivesRestart_iff roundTrips saved).mp (survives 0)
    · intro event member
      obtain ⟨index, inside, here⟩ := List.getElem_of_mem member
      have after := (survivesRestart_iff roundTrips (savedRun (index + 1))).mp
        (survives (index + 1))
      have last : s.run json serverIp serverPort (events.take (index + 1)) =
          (s.run json serverIp serverPort (events.take index)).step json serverIp serverPort
            event := by
        rw [List.take_add_one, List.getElem?_eq_getElem inside, here]
        simp [run]
      cases event with
      | recv event junkId =>
          intro entries pushed
          have received := step_recv_cases serverIp serverPort json
            (s.run json serverIp serverPort (events.take index)) event junkId
          rw [pushed] at received
          rw [last, received] at after
          exact after
      | restart junkAckId junk => trivial
  · rintro ⟨aligned, whole⟩ count
    apply (survivesRestart_iff roundTrips (savedRun count)).mpr
    apply aligned_run serverIp serverPort roundTrips saved aligned
    exact fun event member => whole event (List.mem_of_mem_take member)

end Restarts

/-! ### A sample -/

/-- `[{"cpu_usage":…,"disk_usage":…,"mem_usage":…,"network_usage":…,"process_name":…}]`. -/
def sampleText (cpu disk mem network name : String) : Bytes :=
  ascii ("[\x7b\"cpu_usage\":" ++ cpu ++ ",\"disk_usage\":" ++ disk ++ ",\"mem_usage\":" ++
    mem ++ ",\"network_usage\":" ++ network ++ ",\"process_name\":\"" ++ name ++ "\"\x7d]")

/-- What the library makes of three short texts. -/
def sampleTable : List (Bytes × List ConfigEntry) :=
  [(sampleText "10" "1" "200" "500" "chrome.exe", [⟨ascii "chrome.exe", 10, 200, 1, 500⟩]),
    (sampleText "0" "0" "0" "0" "chrome.exe", [⟨ascii "chrome.exe", 0, 0, 0, 0⟩]),
    (ascii "[]", [])]

instance encodableUInt8 : Encodable UInt8 :=
  Encodable.ofLeftInverse UInt8.toNat UInt8.ofNat (by simp)

instance encodableUInt32 : Encodable UInt32 :=
  Encodable.ofLeftInverse UInt32.toNat UInt32.ofNat (by simp)

instance encodableUInt64 : Encodable UInt64 :=
  Encodable.ofLeftInverse UInt64.toNat UInt64.ofNat (by simp)

instance encodableConfigEntry : Encodable ConfigEntry :=
  Encodable.ofLeftInverse
    (fun entry => (entry.processName, entry.cpuUsage, entry.memUsage, entry.diskUsage,
      entry.networkUsage))
    (fun fields => ⟨fields.1, fields.2.1, fields.2.2.1, fields.2.2.2.1, fields.2.2.2.2⟩)
    (fun _ => rfl)

/-- A library that agrees with the real one on the texts of the table and prints
every other list in a code of its own. -/
def sampleJson : JsonLibrary where
  parse text :=
    match sampleTable.find? fun row => row.1 = text with
    | some row => some row.2
    | none => Encodable.decode (text.length - 1)
  dump entries :=
    match sampleTable.find? fun row => row.2 = entries with
    | some row => row.1
    | none => List.replicate (Encodable.encode entries + 1) 0

/-- Each text of the table has an entry list of its own, and the codes of all others consist of
zeros, which no text starts with. -/
theorem sampleJson_again (entries : List ConfigEntry) :
    sampleJson.parse (sampleJson.dump entries) = some entries := by
  have unique : ∀ row ∈ sampleTable,
      sampleTable.find? (fun other => other.1 = row.1) = some row := by
    decide +kernel
  have visible : ∀ row ∈ sampleTable, row.1.head? ≠ some 0 := by
    decide +kernel
  cases known : sampleTable.find? fun row => row.2 = entries with
  | some row =>
      have found := List.find?_some known
      simp only [sampleJson, known, unique row (List.mem_of_find?_eq_some known)]
      simpa using found
  | none =>
      have code : sampleTable.find? (fun row => row.1 =
          List.replicate (Encodable.encode entries + 1) 0) = none := by
        rw [List.find?_eq_none]
        intro row member
        simp only [decide_eq_true_eq]
        intro same
        apply visible row member
        rw [same]
        rfl
      simp only [sampleJson, known, code, List.length_replicate, Nat.add_sub_cancel,
        Encodable.encodek]

theorem sampleJson_roundTrips : sampleJson.RoundTrips where
  plain name _ :=
    ⟨_, _, ⟨name, 0, 0, 0, 0⟩, sampleJson_again [⟨name, 0, 0, 0, 0⟩],
      List.mem_singleton_self _, rfl⟩
  again entries _ := sampleJson_again entries

/-- The server has the sample text in a file of its own. -/
def sampleDisk : Disk := fun name =>
  if name = ascii "chrome.json" then
    ⟨some (sampleText "10" "1" "200" "500" "chrome.exe"), true⟩
  else File.absent

def sampleClient : ClientInfo := ⟨1, 4, ascii "10.0.0.7", 50000⟩

def sampleMessage : Bytes :=
  ascii "config " ++ sampleText "10" "1" "200" "500" "chrome.exe"

def samplePush : NetworkSendEvent :=
  ⟨ascii "10.0.0.7", 50000, writeUint32 (UInt32.ofNat sampleMessage.length) ++ sampleMessage⟩

def sampleQueue : LogQueue :=
  LogQueue.ofFiles 0 (fun _ => default) File.absent File.absent

theorem samplePush_sent : samplePush ∈ userMessage sampleJson sampleDisk sampleClient
    (ascii "config " ++ ascii "chrome.json") := by
  decide +kernel

theorem pushed_eq_started_iff_sample :
    ∃ (after : ClientLogger) (config : Config) (files : File × File)
        (sends : List NetworkSendEvent),
      recvConfig sampleJson (ascii "10.0.0.1") 12345
          ⟨ascii "10.0.0.1", 12345, samplePush.payload⟩ ⟨⟨[]⟩, sampleQueue⟩ File.absent =
          .ok (after, files.1, sends) ∧
        startConfig sampleJson (sampleDisk (ascii "chrome.json")) = .ok (config, files.2) ∧
        (after.config.configEntries = config.configEntries ↔
          ∀ entry ∈ [(⟨ascii "chrome.exe", 10, 200, 1, 500⟩ : ConfigEntry)],
            entry.cpuUsage = 0 ∧ entry.memUsage = 0 ∧ entry.diskUsage = 0 ∧
              entry.networkUsage = 0) := by
  have opens : (sampleDisk (ascii "chrome.json")).content =
      some (sampleText "10" "1" "200" "500" "chrome.exe") := rfl
  have parses : sampleJson.parse (sampleText "10" "1" "200" "500" "chrome.exe") =
      some [⟨ascii "chrome.exe", 10, 200, 1, 500⟩] := by decide +kernel
  exact pushed_eq_started_iff opens parses samplePush_sent (ascii "10.0.0.1") 12345
    ⟨⟨[]⟩, sampleQueue⟩ File.absent opens

/-- The pushed CPU threshold is 10 thousandths of a percent, the started one 10
percent; a pushed memory threshold counts bytes, a started one mebibytes. -/
theorem pushed_ne_started :
    samplePush ∈ userMessage sampleJson sampleDisk sampleClient
        (ascii "config " ++ ascii "chrome.json") ∧
      (recvConfig sampleJson (ascii "10.0.0.1") 12345
          ⟨ascii "10.0.0.1", 12345, samplePush.payload⟩ ⟨⟨[]⟩, sampleQueue⟩ File.absent).map
            (fun outcome => outcome.1.config.configEntries) =
          .ok [⟨ascii "chrome.exe", 10, 200, 1, 500⟩] ∧
      (startConfig sampleJson (sampleDisk (ascii "chrome.json"))).map
            (fun outcome => outcome.1.configEntries) =
          .ok [⟨ascii "chrome.exe", 10000, 209715200, 1024, 512000⟩] :=
  ⟨samplePush_sent, by decide +kernel, by decide +kernel⟩

/-- A first start without a file, a push of the sample text, and a restart. -/
def sampleEvents : List ConfigEvent :=
  [.recv ⟨ascii "10.0.0.1", 12345, samplePush.payload⟩ 0, .restart 0 fun _ => default]

/-- The client of the sample right after its start. -/
def startedSample : ConfiguredClient :=
  ⟨⟨Config.defaultConfig, sampleQueue⟩,
    Config.defaultConfig.destroy sampleJson (Config.defaultConfig.destroy sampleJson File.absent)⟩

theorem start_sample : start sampleJson sampleQueue File.absent = .ok startedSample := rfl

theorem run_survivesRestart_iff_sample :
    (∀ count, SurvivesRestart sampleJson (startedSample.run sampleJson (ascii "10.0.0.1") 12345
        (sampleEvents.take count))) ↔
      StartAligned sampleJson File.absent ∧
        ∀ event ∈ sampleEvents, PushAligned sampleJson event :=
  run_survivesRestart_iff (ascii "10.0.0.1") 12345 sampleJson_roundTrips rfl start_sample
    sampleEvents

/-- Pushed thresholds below their units are gone after a restart. -/
theorem pushed_lost_on_restart :
    let s := startedSample.run sampleJson (ascii "10.0.0.1") 12345 (sampleEvents.take 1)
    s.logger.config.configEntries = [⟨ascii "chrome.exe", 10, 200, 1, 500⟩] ∧
      (s.restart sampleJson 0 fun _ => default).map
          (fun after => after.logger.config.configEntries) =
        .ok [⟨ascii "chrome.exe", 0, 0, 0, 0⟩] ∧
      ¬ SurvivesRestart sampleJson s := by
  intro s
  have before : s.logger.config.configEntries = [⟨ascii "chrome.exe", 10, 200, 1, 500⟩] := by
    decide +kernel
  have restarted : (s.restart sampleJson 0 fun _ => default).map
      (fun after => after.logger.config.configEntries) =
        .ok [⟨ascii "chrome.exe", 0, 0, 0, 0⟩] := by
    decide +kernel
  refine ⟨before, restarted, ?_⟩
  intro survives
  obtain ⟨after, restarts, same⟩ := survives 0 fun _ => default
  rw [restarts] at restarted
  simp only [Except.map, same, before] at restarted
  revert restarted
  decide +kernel

end RemoteMonitoring
