/-
Module: RemoteMonitoring.System.EventBuses
Purpose: The event bus (common/event_bus.cpp) of the server and that of the client with the
  callbacks as they are: they publish on the bus that calls them, and the threads that
  subscribe them do so while messages arrive.
Trusted boundary: the JSON library is a parameter; fewer than 2^31 connections are accepted
Main exports: Server, Server.publish, Server.dispatch, Server.Reachable, Client, Client.publish,
  Client.dispatch
-/
import RemoteMonitoring.Lib.NestedPublish
import RemoteMonitoring.Server.ClientManager
import RemoteMonitoring.Server.EventBus
import RemoteMonitoring.System.Reception

namespace RemoteMonitoring.EventBus

open ByteText
open NestedPublish (Callback Subscriber Ending)
open NestedPublish.Callback (publishAll)

/-! ### The server -/

namespace Server

/-- A message comes with the values that the uninitialised variables hold while it is
handled. -/
inductive Event where
  | recv (event : NetworkRecvEvent) (junk : Indeterminate) (netCount : UInt32)
  | send (event : NetworkSendEvent)
  | input (payload : Bytes)

/-- Who subscribes: the constructor of `ClientHandler`, `register_user_input_handler` and
`register_send_output_to_client`. -/
inductive Subscription where
  | clientHandler (info : ClientInfo)
  | userInput
  | sendOutput
deriving DecidableEq, Repr

/-- The files, what the sending threads were given, and `is_running`. -/
structure State where
  disk : Disk
  handed : List (Nat × Bytes)
  isRunning : Bool

/-- Only the handler of the operator's commands has a `try` around what it publishes. -/
def callback (json : JsonLibrary) (order : IterationOrder ((_ : Int) × ClientInfo))
    (handlers : ClientHandlers) : Subscription → Subscriber State Event RuntimeError
  | .clientHandler info, .recv event junk netCount, state =>
      match ClientHandler.onNetworkRecv info junk netCount event state.disk with
      | .error e => .done (.error e) state
      | .ok (disk, sends) => publishAll (sends.map Event.send) { state with disk }
  | .userInput, .input payload, state =>
      if payload = ascii "exit" then .done (.ok ()) { state with isRunning := false }
      else (publishAll ((onInput json state.disk handlers payload).map Event.send) state).caught
  | .sendOutput, .send event, state =>
      let handed := state.handed ++ (sendOutputToClient order handlers event).toList
      .done (.ok ()) { state with handed }
  | _, _, state => .done (.ok ()) state

/-- How far the main thread is in `run`. -/
inductive Progress where
  | started | userInput | sendOutput | running
deriving DecidableEq, Repr

end Server

/-- The server with its two threads that subscribe.  A handler that is constructed has
subscribed, but is not yet in the table. -/
structure Server where
  subscribers : List Server.Subscription
  connections : List Accepted
  constructing : Option ClientInfo
  handlers : ClientHandlers
  progress : Server.Progress
  state : Server.State

namespace Server

/-- Each is one step of a thread; the threads take their steps in any order. -/
inductive Step where
  | construct (connection : Accepted)
  | addNewClient
  | run
  | publish (event : Event) (order : IterationOrder ((_ : Int) × ClientInfo))

variable (json : JsonLibrary)

/-- `EventBus::publish`: the callbacks of those that have subscribed. -/
def publish (depth : Nat) (order : IterationOrder ((_ : Int) × ClientInfo)) (server : Server)
    (event : Event) : Ending State RuntimeError :=
  NestedPublish.publish (server.subscribers.map (callback json order server.handlers)) depth
    event server.state

/-- The constructor of the next `ClientHandler`, in the loop of `accept_new_client`. -/
def construct (connection : Accepted) (server : Server) : Server :=
  match server.constructing with
  | some _ => server
  | none =>
      let info : ClientInfo := ⟨server.connections.length + 1, connection.clientSocket,
        connection.clientIp, connection.clientPort⟩
      { server with
        subscribers := server.subscribers ++ [.clientHandler info]
        connections := server.connections ++ [connection]
        constructing := some info }

def addNewClient (server : Server) : Server :=
  match server.constructing with
  | none => server
  | some info =>
      { server with
        constructing := none
        handlers := RemoteMonitoring.addNewClient server.handlers info }

/-- The next statement of `run`. -/
def run (server : Server) : Server :=
  match server.progress with
  | .started =>
      { server with subscribers := server.subscribers ++ [.userInput], progress := .userInput }
  | .userInput =>
      { server with subscribers := server.subscribers ++ [.sendOutput], progress := .sendOutput }
  | .sendOutput =>
      { server with state := { server.state with isRunning := true }, progress := .running }
  | .running => server

/-- A publication that does not end leaves nothing. -/
def step (server : Server) : Step → Option Server
  | .construct connection => some (server.construct connection)
  | .addNewClient => some server.addNewClient
  | .run => some server.run
  | .publish event order =>
      (server.publish json 2 order event).map fun ending => { server with state := ending.2 }

/-- The server right after the constructor of `ClientManager`. -/
def initial (disk : Disk) : Server := ⟨[], [], none, ∅, .started, ⟨disk, [], false⟩⟩

inductive Reachable (disk : Disk) : Server → Prop where
  | initial : Reachable disk (initial disk)
  | step {server after : Server} (reached : Reachable disk server) (event : Step)
      (steps : server.step json event = some after) : Reachable disk after

/-! The same without a bus. -/

/-- The connections of the handlers in the table. -/
def added (server : Server) : List Accepted :=
  if server.constructing.isSome then server.connections.dropLast else server.connections

/-- What becomes of messages to clients: before the main thread has subscribed the sending
callback, nothing. -/
def hand (order : IterationOrder ((_ : Int) × ClientInfo)) (server : Server)
    (sends : List NetworkSendEvent) : List (Nat × Bytes) :=
  if server.progress = .started ∨ server.progress = .userInput then []
  else sends.filterMap (sendOutputToClient order (acceptNewClients server.added))

/-- Every message is first handled by all the handlers that are constructed, and then what they
answer is handed over; a line of the operator has no effect before its callback is subscribed. -/
def dispatch (order : IterationOrder ((_ : Int) × ClientInfo)) (server : Server) :
    Event → Except RuntimeError Unit × State
  | .recv event junk netCount =>
      let (outcome, disk, sends) := RemoteMonitoring.publish junk netCount event
        (acceptedClients 1 server.connections) server.state.disk
      (outcome, { server.state with disk, handed := server.state.handed ++ server.hand order sends })
  | .send event =>
      (.ok (), { server.state with handed := server.state.handed ++ server.hand order [event] })
  | .input payload =>
      if server.progress = .started then (.ok (), server.state)
      else if payload = ascii "exit" then (.ok (), { server.state with isRunning := false })
      else
        let sends := onInput json server.state.disk (acceptNewClients server.added) payload
        (.ok (), { server.state with handed := server.state.handed ++ server.hand order sends })

end Server

/-! ### The client -/

namespace Client

inductive Event where
  | recv (event : NetworkRecvEvent) (junkId : UInt64)
  | send (event : NetworkSendEvent)

/-- Who subscribes: the constructor of `ClientLogger`, `register_send_outout_to_server` and
`register_recv_config`. -/
inductive Subscription where
  | clientLogger | sendOutput | recvConfig
deriving DecidableEq, Repr

/-- The order in which `client_main` subscribes them; the receiving thread is started behind
the first. -/
def subscriptions : List Subscription := [.clientLogger, .sendOutput, .recvConfig]

/-- The client, and what the sending threads were given. -/
structure State where
  client : ConfiguredClient
  sent : List Bytes

end Client

/-- What does not change while the client runs. -/
structure Client where
  json : JsonLibrary
  serverIp : Bytes
  serverPort : UInt16

namespace Client

def callback (client : Client) : Subscription → Subscriber State Event RuntimeError
  | .clientLogger, .recv event junkId, state =>
      match state.client.logger.onNetworkRecv junkId event with
      | .error e => .done (.error e) state
      | .ok logger => .done (.ok ()) { state with client := { state.client with logger } }
  | .sendOutput, .send event, state =>
      .done (.ok ()) { state with sent := state.sent ++ [event.payload] }
  | .recvConfig, .recv event _, state =>
      match recvConfig client.json client.serverIp client.serverPort event state.client.logger
        state.client.file with
      | .error e => .done (.error e) state
      | .ok (logger, file, sends) =>
          (publishAll (sends.map Event.send) { state with client := ⟨logger, file⟩ }).caught
  | _, _, state => .done (.ok ()) state

/-- `EventBus::publish` when `registered` of the callbacks are subscribed. -/
def publish (client : Client) (depth registered : Nat) (event : Event) (state : State) :
    Ending State RuntimeError :=
  NestedPublish.publish ((subscriptions.take registered).map client.callback) depth event state

/-- A message to the server is given to a thread; of what is received only acks count before
the last callback is subscribed. -/
def dispatch (client : Client) (registered : Nat) (state : State) :
    Event → Except RuntimeError Unit × State
  | .send event =>
      if registered < 2 then (.ok (), state)
      else (.ok (), { state with sent := state.sent ++ [event.payload] })
  | .recv event junkId =>
      if registered < 3 then
        match state.client.logger.onNetworkRecv junkId event with
        | .error e => (.error e, state)
        | .ok logger => (.ok (), { state with client := { state.client with logger } })
      else
        match state.client.publishRecv client.json client.serverIp client.serverPort junkId event with
        | (.error e, after) => (.error e, { state with client := after })
        | (.ok sends, after) =>
            (.ok (), ⟨after, state.sent ++ sends.map NetworkSendEvent.payload⟩)

end Client

end RemoteMonitoring.EventBus
