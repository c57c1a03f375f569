/-
Module: RemoteMonitoring.System.Configuration
Purpose: The life of a client's configuration: the start, the messages of the server, and
  restarts at any point in between.
Trusted boundary: the JSON library is a parameter; file writes succeed
Main exports: ConfiguredClient, ConfigEvent, ConfiguredClient.publishRecv, ConfiguredClient.run,
  pushedEntries, StartsUp
-/
import RemoteMonitoring.Client.Client

namespace RemoteMonitoring

open ByteText

/-- The logger with the configuration in force, and rmt-config.json. -/
structure ConfiguredClient where
  logger : ClientLogger
  file : File
deriving Repr

inductive ConfigEvent where
  | recv (event : NetworkRecvEvent) (junkId : UInt64)
  | restart (junkAckId : UInt64) (junk : Nat → Indeterminate)

namespace ConfiguredClient

/-- `client_main` up to the loop; an exception of the JSON library ends it. -/
def start (json : JsonLibrary) (logQueue : LogQueue) (file : File) :
    Except JsonError ConfiguredClient := do
  let (config, file) ← startConfig json file
  return ⟨⟨config, logQueue⟩, file⟩

/-- The process is killed and started again on the files it left. -/
def restart (json : JsonLibrary) (junkAckId : UInt64) (junk : Nat → Indeterminate)
    (s : ConfiguredClient) : Except JsonError ConfiguredClient :=
  start json (LogQueue.ofFiles junkAckId junk s.logger.logQueue.logFile s.logger.logQueue.ackFile)
    s.file

/-- The callbacks run in place: that of the `ClientLogger`, then that of
`register_recv_config`.  An exception leaves the loop and `publish`, with what the
callbacks before have done. -/
def publishRecv (json : JsonLibrary) (serverIp : Bytes) (serverPort : UInt16) (junkId : UInt64)
    (event : NetworkRecvEvent) (s : ConfiguredClient) :
    Except RuntimeError (List NetworkSendEvent) × ConfiguredClient :=
  match s.logger.onNetworkRecv junkId event with
  | .error e => (.error e, s)
  | .ok logger =>
      match recvConfig json serverIp serverPort event logger s.file with
      | .error e => (.error e, { s with logger })
      | .ok (logger, file, sends) => (.ok sends, ⟨logger, file⟩)

/-- A message that cannot be decoded changes nothing, and a client that does not
come up again stays as it is. -/
def step (json : JsonLibrary) (serverIp : Bytes) (serverPort : UInt16) (s : ConfiguredClient) :
    ConfigEvent → ConfiguredClient
  | .recv event junkId => (s.publishRecv json serverIp serverPort junkId event).2
  | .restart junkAckId junk =>
      match s.restart json junkAckId junk with
      | .ok s => s
      | .error _ => s

def run (json : JsonLibrary) (serverIp : Bytes) (serverPort : UInt16) (s : ConfiguredClient)
    (events : List ConfigEvent) : ConfiguredClient :=
  events.foldl (step json serverIp serverPort) s

/-- Right after a restart the thresholds are those right before it. -/
def SurvivesRestart (json : JsonLibrary) (s : ConfiguredClient) : Prop :=
  ∀ junkAckId junk, ∃ after, s.restart json junkAckId junk = .ok after ∧
    after.logger.config = s.logger.config

end ConfiguredClient

/-- The entries that a message of the server puts into force, if it is an accepted
configuration. -/
def pushedEntries (json : JsonLibrary) (event : NetworkRecvEvent) : Option (List ConfigEntry) :=
  match readString (.ofBytes event.payload) with
  | .error _ => none
  | .ok (message, _) =>
      if (ascii "config ").isPrefixOf message then
        json.parse (message.drop (ascii "config ").length)
      else none

/-- The CPU thresholds of a configuration file, whose product may wrap, are whole
units again after the read. -/
def StartAligned (json : JsonLibrary) (file : File) : Prop :=
  ∀ content entries, file.content = some content → json.parse content = some entries →
    ∀ entry ∈ entries, entry.cpuUsage * cpuUnit % cpuUnit = 0

/-- What a start is to put into force: the entries of the file in their units, and the default
where there is no valid list of entries. -/
def intendedConfig (json : JsonLibrary) (file : File) : Config :=
  match file.content.bind json.parse with
  | some entries => ⟨entries.map ConfigEntry.convertAfterRead⟩
  | none => Config.defaultConfig

/-- The start ends with that, and `read_config` says by its return code that there is no valid
list, with the configuration left as it was. -/
structure StartsUp (json : JsonLibrary) (file : File) : Prop where
  ends : ∃ after, startConfig json file = .ok (intendedConfig json file, after)
  reports : ∀ config : Config, ∃ ret after, Config.readConfig json config file = .ok (ret, after) ∧
    (ret ≠ 0 ↔ file.content.bind json.parse = none) ∧ (ret ≠ 0 → after = config)

/-- The server only pushes whole units. -/
def PushAligned (json : JsonLibrary) : ConfigEvent → Prop
  | .recv event _ => ∀ entries, pushedEntries json event = some entries →
      ∀ entry ∈ entries, entry.Aligned
  | .restart _ _ => True

end RemoteMonitoring
