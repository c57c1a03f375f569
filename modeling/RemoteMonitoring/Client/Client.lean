/-
Module: RemoteMonitoring.Client.Client
Purpose: `client_main` (client/client.cpp) as far as it decides what is sent, to which server,
  and which configuration is in force: the arguments, the start-up, one round of the sending
  loop, and the subscriber for configurations pushed by the server.
Trusted boundary: none
Main exports: ClientMain.chosenServer, startConfig, logPayload, sendLogs, recvConfig
-/
import RemoteMonitoring.Client.ClientLogger
import RemoteMonitoring.Common.Util

namespace RemoteMonitoring

open ByteText

/-! ### Arguments -/

namespace ClientMain

def serverIp : Bytes := ascii "127.0.0.1"
def serverPort : Int := 12345

/-- One argument: `chosen_ip` and `chosen_port` behind it. -/
def takeArg (chosen : Bytes × Int) (arg : Bytes) : Bytes × Int :=
  if (ascii "--server-ip=").isPrefixOf arg then
    (arg.drop (ascii "--server-ip=").length, chosen.2)
  else if (ascii "--server-port=").isPrefixOf arg then
    let port := strToInt (arg.drop (ascii "--server-port=").length)
    if port < 0 then chosen
    else if port = 0 ∨ port > 65536 then chosen
    else (chosen.1, port)
  else chosen

/-- What `ServerConnector` is made with: the `int` is narrowed to its 16-bit parameter. -/
def chosenServer (args : List Bytes) : Bytes × UInt16 :=
  let (chosenIp, chosenPort) := args.foldl takeArg (serverIp, serverPort)
  (chosenIp, UInt16.ofInt chosenPort)

end ClientMain

/-! ### The start -/

/-- The configuration `client_main` starts with, and rmt-config.json once the
`ClientLogger` is constructed: every `Config` object destroyed on the way has
written it. -/
def startConfig (json : JsonLibrary) (file : File) : Except JsonError (Config × File) := do
  let (ret, config) ← Config.readConfig json ⟨[]⟩ file
  let (config, file) :=
    if ret ≠ 0 then (Config.defaultConfig, Config.defaultConfig.destroy json file)
    else (config, file)
  return (config, config.destroy json file)

/-! ### The sending loop -/

/-- The payload of a batch: the word "log" and the entries. -/
def logPayload (logEntries : List LogEntry) : Except RuntimeError Bytes := do
  let tag ← writeString (ascii "log")
  let batch ← writeVectorSerializeable LogEntry.serialize logEntries
  return tag ++ batch

def batchSize : UInt32 := 100

/-- What one round of the loop publishes; an exception ends the program. -/
def sendLogs (queue : LogQueue) : Except RuntimeError (Option Bytes) := do
  let logEntries := queue.getBatchLog batchSize
  if logEntries.isEmpty then return none
  else
    let payload ← logPayload logEntries
    return some payload

/-! ### Pushed configurations -/

/-- The subscriber of `register_recv_config`: the logger and rmt-config.json
afterwards, and the reply.  The `try` block begins at the parsing, so a message
that cannot be decoded at all throws out of the subscriber. -/
def recvConfig (json : JsonLibrary) (serverIp : Bytes) (serverPort : UInt16)
    (event : NetworkRecvEvent) (logger : ClientLogger) (file : File) :
    Except RuntimeError (ClientLogger × File × List NetworkSendEvent) := do
  let (message, _) ← readString (.ofBytes event.payload)
  if (ascii "config ").isPrefixOf message then
    let content := message.drop (ascii "config ").length
    match json.parse content with
    | none => return (logger, file, [])
    | some configEntries =>
        let (logger, file) := logger.setConfig json ⟨configEntries⟩ file
        match writeString (ascii "config ok") with
        | .error _ => return (logger, file, [])
        | .ok reply => return (logger, file, [⟨serverIp, serverPort, reply⟩])
  else return (logger, file, [])

end RemoteMonitoring
