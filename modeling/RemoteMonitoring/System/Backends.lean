/-
Module: RemoteMonitoring.System.Backends
Purpose: The life of a client's configuration on the platform with a registry: the start, the
  messages of the server, and restarts at any point in between.
Trusted boundary: the JSON library is a parameter
Main exports: RegistryClient, RegistryEvent, RegistryClient.publishRecv, RegistryClient.run,
  RegistryEvent.toConfigEvent
-/
import RemoteMonitoring.Common.Registry
import RemoteMonitoring.System.Configuration

namespace RemoteMonitoring

open ByteText

/-- The logger with the configuration in force, and the registry. -/
structure RegistryClient where
  logger : ClientLogger
  registry : Registry

/-- A restart finds other values in the memory. -/
inductive RegistryEvent where
  | recv (event : NetworkRecvEvent) (junkId : UInt64)
  | restart (junkAckId : UInt64) (junk : Nat → Indeterminate) (unset : Nat → Config.Unset)

/-- The same event on the platform with a file. -/
def RegistryEvent.toConfigEvent : RegistryEvent → ConfigEvent
  | .recv event junkId => .recv event junkId
  | .restart junkAckId junk _ => .restart junkAckId junk

namespace RegistryClient

/-- The configuration `client_main` starts with, and the registry once the `ClientLogger` is
constructed: every `Config` object destroyed on the way has written it. -/
def startConfig (unset : Nat → Config.Unset) (registry : Registry) :
    Except Config.VectorError (Config × Registry) := do
  let (ret, config, registry) ← Config.readRegistry unset ⟨[]⟩ registry
  let (config, registry) :=
    if ret ≠ 0 then (Config.defaultConfig, Config.defaultConfig.writeRegistry registry)
    else (config, registry)
  return (config, config.writeRegistry registry)

def start (unset : Nat → Config.Unset) (logQueue : LogQueue) (registry : Registry) :
    Except Config.VectorError RegistryClient := do
  let (config, registry) ← startConfig unset registry
  return ⟨⟨config, logQueue⟩, registry⟩

/-- The process is killed and started again on the files it left. -/
def restart (junkAckId : UInt64) (junk : Nat → Indeterminate) (unset : Nat → Config.Unset)
    (s : RegistryClient) : Except Config.VectorError RegistryClient :=
  start unset
    (LogQueue.ofFiles junkAckId junk s.logger.logQueue.logFile s.logger.logQueue.ackFile) s.registry

/-- `set_config`, with the destructor of its parameter. -/
def setConfig (config : Config) (s : RegistryClient) : RegistryClient :=
  ⟨{ s.logger with config }, config.writeRegistry (config.writeRegistry s.registry)⟩

/-- The subscriber of `register_recv_config`: the client afterwards, and the reply. -/
def recvConfig (json : JsonLibrary) (serverIp : Bytes) (serverPort : UInt16)
    (event : NetworkRecvEvent) (s : RegistryClient) :
    Except RuntimeError (RegistryClient × List NetworkSendEvent) := do
  let (message, _) ← readString (.ofBytes event.payload)
  if (ascii "config ").isPrefixOf message then
    let content := message.drop (ascii "config ").length
    match json.parse content with
    | none => return (s, [])
    | some configEntries =>
        let s := s.setConfig ⟨configEntries⟩
        match writeString (ascii "config ok") with
        | .error _ => return (s, [])
        | .ok reply => return (s, [⟨serverIp, serverPort, reply⟩])
  else return (s, [])

/-- The callbacks for a received message: that of the `ClientLogger`, then that of
`register_recv_config`. -/
def publishRecv (json : JsonLibrary) (serverIp : Bytes) (serverPort : UInt16) (junkId : UInt64)
    (event : NetworkRecvEvent) (s : RegistryClient) :
    Except RuntimeError (List NetworkSendEvent) × RegistryClient :=
  match s.logger.onNetworkRecv junkId event with
  | .error e => (.error e, s)
  | .ok logger =>
      match recvConfig json serverIp serverPort event { s with logger } with
      | .error e => (.error e, { s with logger })
      | .ok (s, sends) => (.ok sends, s)

/-- A message that cannot be decoded changes nothing, and a client that does not
come up again stays as it is. -/
def step (json : JsonLibrary) (serverIp : Bytes) (serverPort : UInt16) (s : RegistryClient) :
    RegistryEvent → RegistryClient
  | .recv event junkId => (s.publishRecv json serverIp serverPort junkId event).2
  | .restart junkAckId junk unset =>
      match s.restart junkAckId junk unset with
      | .ok s => s
      | .error _ => s

def run (json : JsonLibrary) (serverIp : Bytes) (serverPort : UInt16) (s : RegistryClient)
    (events : List RegistryEvent) : RegistryClient :=
  events.foldl (step json serverIp serverPort) s

end RegistryClient

/-- The server pushes only what the registry can store. -/
def PushStorable (json : JsonLibrary) : RegistryEvent → Prop
  | .recv event _ => ∀ entries, pushedEntries json event = some entries →
      (⟨entries⟩ : Config).Storable
  | .restart _ _ _ => True

end RemoteMonitoring
