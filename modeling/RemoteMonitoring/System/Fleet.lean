/-
Module: RemoteMonitoring.System.Fleet
Purpose: The whole deployment: any number of machines that run the client, each at its own
  address, the server they connect to any number of times, its operator, and the messages in
  flight between them.
Trusted boundary: the JSON library is a parameter; a message arrives whole or not at all; each
  handler, publication and write is one step, in which no other thread runs and no process is
  killed; an address is one machine; the operating system hands out no socket twice while the
  server runs
Main exports: Machine, Fleet, FleetEvent, Fleet.step, Fleet.Fresh, Fleet.Allowed, Fleet.Run,
  Fleet.roundTrips
-/
import RemoteMonitoring.Server.EventBus
import RemoteMonitoring.System.Alerts
import RemoteMonitoring.System.Incarnations
import RemoteMonitoring.System.Reception
import RemoteMonitoring.System.Routing
import RemoteMonitoring.System.Sampling

namespace RemoteMonitoring

open ByteText

/-! ### One machine -/

/-- `started` records the configuration of the last start, and `reported` the alerts of every
round, each with its time. -/
structure Machine where
  table : ProcessTable
  client : ConfiguredClient
  started : Config
  reported : List (UInt64 × Alert)

namespace Machine

def queue (machine : Machine) : LogQueue := machine.client.logger.logQueue

def config (machine : Machine) : Config := machine.client.logger.config

def sample (cpuShare : UInt64 → CpuStat → UInt32) (call : UpdateCall) (machine : Machine) :
    Machine :=
  { machine with table := (machine.table.updateTable cpuShare call).2 }

def generateLog (order : ListingOrder) (nowMs : UInt64) (machine : Machine) : Machine :=
  match machine.client.logger.generateLog order nowMs machine.table with
  | none => machine
  | some logger =>
      let due := alerts machine.table machine.config.configEntries
      { machine with
        client := { machine.client with logger }
        reported := machine.reported ++ due.map (Prod.mk nowMs) }

/-- A new `client_main` on the files of the old one.  Where the configuration file makes it
throw, the machine stays without a client. -/
def restart (json : JsonLibrary) (junkAckId : UInt64) (junk : Nat → Indeterminate) (temp : File)
    (renames : Bool) (machine : Machine) : Machine :=
  match startConfig json machine.client.file with
  | .error _ => machine
  | .ok (config, file) =>
      { machine with
        table := ProcessTable.empty
        client := ⟨⟨config, machine.queue.restart junkAckId junk temp renames⟩, file⟩
        started := config }

/-- A client that has just started for the first time. -/
structure Fresh (machine : Machine) : Prop where
  table : machine.table = ProcessTable.empty
  queue : ∃ junkAckId junk,
    machine.queue = LogQueue.ofFiles junkAckId junk File.absent File.absent
  started : machine.started = machine.config
  reported : machine.reported = []

end Machine

/-- The entries that stand for some alerts, with ids that count up from 1. -/
def numberReports (reported : List (UInt64 × Alert)) : List LogEntry :=
  reported.mapIdx fun index report =>
    ⟨UInt64.ofNat (index + 1), report.2.name, report.1, report.2.logType,
      UInt64.ofNat report.2.value⟩

/-! ### The deployment -/

/-- What does not change: the library, the arithmetic of the CPU share, and the address under
which the clients know the server. -/
structure Deployment where
  json : JsonLibrary
  cpuShare : UInt64 → CpuStat → UInt32
  serverIp : Bytes
  serverPort : UInt16

/-- Machines are named by their address.  A message is in flight on a connection, in one of its
two directions.  `pushed` records what the operator has asked for: which address is to get which
configuration. -/
structure Fleet where
  machines : Bytes → Machine
  disk : Disk
  history : History
  toServer : List (ClientInfo × Bytes)
  toClients : List (ClientInfo × Bytes)
  pushed : List (Bytes × List ConfigEntry)

inductive FleetEvent where
  | accept (connection : Accepted)
  | sample (ip : Bytes) (call : UpdateCall)
  | generateLog (ip : Bytes) (order : ListingOrder) (nowMs : UInt64)
  | sendBatch (info : ClientInfo)
  | recvInput (index : Nat) (junk : Indeterminate) (netCount : UInt32)
      (order : IterationOrder ((_ : Int) × ClientInfo))
  | recvServerInput (index : Nat) (junkId : UInt64)
  | operator (line : Bytes) (order : IterationOrder ((_ : Int) × ClientInfo))
  | edit (name : Bytes) (file : File)
  | restart (ip : Bytes) (junkAckId : UInt64) (junk : Nat → Indeterminate) (temp : File)
      (renames : Bool)
  | serverRestart
  | loseToServer (index : Nat)
  | loseToClient (index : Nat)

/-- The configuration that a line asks for, and the address of the client whose id the server
reads from it. -/
def askedFor (json : JsonLibrary) (disk : Disk) (handlers : ClientHandlers) (line : Bytes) :
    Option (Bytes × List ConfigEntry) :=
  let (client, message) := findClientFromInput handlers line
  if client.clientId = 0 then none
  else if (ascii "config ").isPrefixOf message then
    ((disk (message.drop (ascii "config ").length)).content.bind json.parse).map
      fun entries => (client.clientIp, entries)
  else none

namespace History

def empty : History where
  connections := []
  fits := by decide
  distinct := List.nodup_nil

/-- The ids are ints, and the socket is a new one. -/
def Accepts (history : History) (connection : Accepted) : Prop :=
  history.connections.length + 1 < 2 ^ 31 ∧
    connection.clientSocket ∉ history.connections.map Accepted.clientSocket

instance (history : History) (connection : Accepted) : Decidable (history.Accepts connection) :=
  inferInstanceAs (Decidable (_ ∧ _))

def accept (history : History) (connection : Accepted) : History :=
  if accepts : history.Accepts connection then
    { connections := history.connections ++ [connection]
      fits := by
        rw [List.length_append, List.length_singleton]
        exact accepts.1
      distinct := by
        rw [List.map_append, List.nodup_append]
        refine ⟨history.distinct, List.nodup_singleton _, ?_⟩
        intro socket old other new same
        rw [List.map_singleton, List.mem_singleton] at new
        exact accepts.2 (new ▸ same ▸ old) }
  else history

/-- What is written to a socket is in flight on the connection of the socket. -/
def inFlight (history : History) (item : Nat × Bytes) : Option (ClientInfo × Bytes) :=
  (history.clients.find? fun info => info.clientSocket = item.1).map fun info => (info, item.2)

/-- The connection is there, and no other one is from its address and port. -/
structure Sole (history : History) (info : ClientInfo) : Prop where
  member : info ∈ history.clients
  alone : ∀ other ∈ history.clients, other.connection = info.connection → other = info

end History

namespace Fleet

variable (deployment : Deployment)

def update (ip : Bytes) (change : Machine → Machine) (fleet : Fleet) : Fleet :=
  { fleet with machines := Function.update fleet.machines ip (change (fleet.machines ip)) }

/-- One round of the sending loop of the client at the other end of the connection. -/
def sendBatch (info : ClientInfo) (fleet : Fleet) : Fleet :=
  match sendLogs (fleet.machines info.clientIp).queue with
  | .ok (some payload) => { fleet with toServer := (info, payload) :: fleet.toServer }
  | _ => fleet

/-- The server publishes a message to all its handlers, and hands what they answer to the
sockets it finds. -/
def recvInput (info : ClientInfo) (payload : Bytes) (junk : Indeterminate) (netCount : UInt32)
    (order : IterationOrder ((_ : Int) × ClientInfo)) (fleet : Fleet) : Fleet :=
  let event : NetworkRecvEvent := ⟨info.clientIp, info.clientPort, payload⟩
  let (disk, sends) := publishRecv junk netCount event fleet.history.clients fleet.disk
  { fleet with
    disk := disk
    toClients :=
      (sends.filterMap (sendOutputToClient order fleet.history.handlers)).filterMap
        fleet.history.inFlight ++ fleet.toClients }

/-- The client at the other end of the connection reads a message.  What it publishes goes back
on that connection, as long as the server still has it. -/
def recvServerInput (info : ClientInfo) (payload : Bytes) (junkId : UInt64) (fleet : Fleet) :
    Fleet :=
  let machine := fleet.machines info.clientIp
  let (outcome, client) := machine.client.receiveServerInput deployment.json deployment.serverIp
    deployment.serverPort junkId payload
  let sends := outcome.toOption.getD []
  { fleet.update info.clientIp (fun machine => { machine with client }) with
    toServer :=
      (if info ∈ fleet.history.clients then sends.map fun event => (info, event.payload)
        else []) ++ fleet.toServer }

def operator (line : Bytes) (order : IterationOrder ((_ : Int) × ClientInfo)) (fleet : Fleet) :
    Fleet :=
  { fleet with
    toClients :=
      (handedOver deployment.json fleet.disk order fleet.history.handlers line).filterMap
        fleet.history.inFlight ++ fleet.toClients
    pushed :=
      (askedFor deployment.json fleet.disk fleet.history.handlers line).toList ++ fleet.pushed }

/-- The server is killed, or told to exit, and started again.  It knows no connection, and what
was sent on the old ones does not reach it; what it wrote to them may still be read. -/
def serverRestart (fleet : Fleet) : Fleet :=
  { fleet with
    history := History.empty
    toServer := [] }

/-- A message that has arrived stays in flight: it may arrive again, or be lost. -/
def step (fleet : Fleet) : FleetEvent → Fleet
  | .accept connection => { fleet with history := fleet.history.accept connection }
  | .sample ip call => fleet.update ip (Machine.sample deployment.cpuShare call)
  | .generateLog ip order nowMs => fleet.update ip (Machine.generateLog order nowMs)
  | .sendBatch info => fleet.sendBatch info
  | .recvInput index junk netCount order =>
      match fleet.toServer[index]? with
      | some (info, payload) => fleet.recvInput info payload junk netCount order
      | none => fleet
  | .recvServerInput index junkId =>
      match fleet.toClients[index]? with
      | some (info, payload) => fleet.recvServerInput deployment info payload junkId
      | none => fleet
  | .operator line order => fleet.operator deployment line order
  | .edit name file => { fleet with disk := Function.update fleet.disk name file }
  | .restart ip junkAckId junk temp renames =>
      fleet.update ip (Machine.restart deployment.json junkAckId junk temp renames)
  | .serverRestart => fleet.serverRestart
  | .loseToServer index => { fleet with toServer := fleet.toServer.eraseIdx index }
  | .loseToClient index => { fleet with toClients := fleet.toClients.eraseIdx index }

/-- Clients that have just started, and a server that nobody has connected to. -/
structure Fresh (fleet : Fleet) : Prop where
  machines : ∀ ip, (fleet.machines ip).Fresh
  disk : ∀ ip, fleet.disk (clientLogFile ip) = File.absent
  connections : fleet.history.connections = []
  toServer : fleet.toServer = []
  toClients : fleet.toClients = []
  pushed : fleet.pushed = []

/-- The steps considered: the configured names fit a line, no client logs 2^32 entries,
batches are sent on connections that were accepted, and nobody edits the log files. -/
def Allowed (fleet : Fleet) : FleetEvent → Prop
  | .generateLog ip _ _ =>
      let machine := fleet.machines ip
      (∀ entry ∈ machine.config.configEntries, LogEntry.CleanName entry.processName) ∧
        machine.reported.length +
          (alerts machine.table machine.config.configEntries).length < 2 ^ 32
  | .sendBatch info => info ∈ fleet.history.clients
  | .edit name _ => ∀ ip, name ≠ clientLogFile ip
  | _ => True

/-- A client that is started again finds an entry that is not acked, or has never logged. -/
def Resumes (fleet : Fleet) : FleetEvent → Prop
  | .restart ip junkAckId junk temp renames =>
      ((fleet.machines ip).queue.restart junkAckId junk temp renames).logEntries ≠ [] ∨
        (fleet.machines ip).reported = []
  | _ => True

/-- The states that runs lead to, with every restart that resumes, or with any restarts. -/
inductive Run (resuming : Prop) (start : Fleet) : Fleet → Prop where
  | refl : Run resuming start start
  | step {fleet : Fleet} (run : Run resuming start fleet) (event : FleetEvent)
      (allowed : fleet.Allowed event) (resumes : resuming → fleet.Resumes event) :
      Run resuming start (fleet.step deployment event)

/-- What a round trip depends on, apart from the state. -/
structure Trip where
  info : ClientInfo
  junk : Indeterminate
  netCount : UInt32
  order : IterationOrder ((_ : Int) × ClientInfo)
  junkId : UInt64

/-- One undisturbed round trip: a batch is sent, and what is written last arrives. -/
def roundTrip (fleet : Fleet) (trip : Trip) : Fleet :=
  let sent := fleet.step deployment (.sendBatch trip.info)
  let handled := sent.step deployment (.recvInput 0 trip.junk trip.netCount trip.order)
  handled.step deployment (.recvServerInput 0 trip.junkId)

/-- Round trips of any machines, one after another, where there is something to send. -/
def roundTrips (fleet : Fleet) (trips : List Trip) : Fleet :=
  trips.foldl
    (fun fleet trip =>
      if (fleet.machines trip.info.clientIp).queue.logEntries.isEmpty then fleet
      else fleet.roundTrip deployment trip) fleet

end Fleet

end RemoteMonitoring
