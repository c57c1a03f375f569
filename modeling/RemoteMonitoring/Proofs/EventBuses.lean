/-
Module: RemoteMonitoring.Proofs.EventBuses
Purpose: Publishing on the bus from inside a callback does what handling the message first and
  its answers afterwards does, whichever callbacks the threads have subscribed so far and in
  whatever order.
Trusted boundary: the JSON library is a parameter
Main exports: Server.Wired, Server.reachable_wired, server_publishes, client_publishes
-/
import RemoteMonitoring.Proofs.FleetOrder
import RemoteMonitoring.System.EventBuses

namespace RemoteMonitoring.EventBus

open ByteText
open NestedPublish (deliver deliver_single deliver_all_ignored publish_of_depth)
open NestedPublish.Callback (publishAll run_publishAll run_caught)

namespace Server

def Subscription.clientHandler? : Subscription → Option ClientInfo
  | .clientHandler info => some info
  | _ => none

/-! ### Who has subscribed -/

theorem acceptedClients_append (start : Nat) (one two : List Accepted) :
    acceptedClients start (one ++ two) =
      acceptedClients start one ++ acceptedClients (start + one.length) two := by
  induction one generalizing start with
  | nil => rfl
  | cons connection later ih =>
      simp only [List.cons_append, acceptedClients, ih, List.length_cons]
      rw [Nat.add_right_comm, Nat.add_assoc start]

/-- Each callback of the main thread is subscribed once or not yet, and the handlers are
subscribed in the order in which their connections were accepted, wherever the others stand. -/
structure Wired (server : Server) : Prop where
  clients : server.subscribers.filterMap Subscription.clientHandler? =
    acceptedClients 1 server.connections
  userInput : server.subscribers.count .userInput = if server.progress = .started then 0 else 1
  sendOutput : server.subscribers.count .sendOutput =
    if server.progress = .started ∨ server.progress = .userInput then 0 else 1
  constructing : ∀ info ∈ server.constructing, acceptedClients 1 server.connections =
    acceptedClients 1 server.connections.dropLast ++ [info]
  table : server.handlers = acceptNewClients server.added

variable {json : JsonLibrary} {disk : Disk} {server after : Server}

/-- A handler subscribes when it is constructed. -/
theorem Wired.construct (wired : Wired server) (connection : Accepted) :
    Wired (server.construct connection) := by
  unfold Server.construct
  cases constructing : server.constructing with
  | some info => exact wired
  | none =>
      have table := wired.table
      rw [added, constructing, Option.isSome_none, if_neg Bool.false_ne_true] at table
      constructor
      · rw [List.filterMap_append, wired.clients, acceptedClients_append, Nat.add_comm 1]
        rfl
      · rw [List.count_append, wired.userInput]
        rfl
      · rw [List.count_append, wired.sendOutput]
        rfl
      · intro info same
        cases same
        rw [List.dropLast_concat, acceptedClients_append, Nat.add_comm 1]
        rfl
      · rw [added, Option.isSome_some, if_pos rfl, List.dropLast_concat]
        exact table

/-- Then it is put into the table. -/
theorem Wired.addNewClient (wired : Wired server) : Wired server.addNewClient := by
  unfold Server.addNewClient
  cases constructing : server.constructing with
  | none => exact wired
  | some info =>
      have pending := wired.constructing info constructing
      have table := wired.table
      rw [added, constructing, Option.isSome_some, if_pos rfl] at table
      refine ⟨wired.clients, wired.userInput, wired.sendOutput, ?_, ?_⟩
      · intro other impossible
        cases impossible
      · rw [added, Option.isSome_none, if_neg Bool.false_ne_true, acceptNewClients, pending,
          List.foldl_append, table]
        rfl

/-- The main thread subscribes its two callbacks in turn. -/
theorem Wired.run (wired : Wired server) : Wired server.run := by
  obtain ⟨clients, userInput, sendOutput, constructing, table⟩ := wired
  unfold Server.run
  cases progress : server.progress with
  | started =>
      simp only [progress] at userInput sendOutput
      refine ⟨?_, ?_, ?_, constructing, table⟩
      · rw [List.filterMap_append, clients]
        exact List.append_nil _
      · rw [List.count_append, userInput]
        rfl
      · rw [List.count_append, sendOutput]
        rfl
  | userInput =>
      simp only [progress] at userInput sendOutput
      refine ⟨?_, ?_, ?_, constructing, table⟩
      · rw [List.filterMap_append, clients]
        exact List.append_nil _
      · rw [List.count_append, userInput]
        rfl
      · rw [List.count_append, sendOutput]
        rfl
  | sendOutput =>
      simp only [progress] at userInput sendOutput
      exact ⟨clients, userInput, sendOutput, constructing, table⟩
  | running => exact ⟨clients, userInput, sendOutput, constructing, table⟩

/-- No step of a thread, and no publication, breaks the wiring. -/
theorem Wired.step (wired : Wired server) {event : Step}
    (steps : server.step json event = some after) : Wired after := by
  cases event with
  | construct connection =>
      cases steps
      exact wired.construct connection
  | addNewClient =>
      cases steps
      exact wired.addNewClient
  | run =>
      cases steps
      exact wired.run
  | publish event order =>
      obtain ⟨ending, _, rfl⟩ := Option.map_eq_some_iff.mp steps
      exact ⟨wired.clients, wired.userInput, wired.sendOutput, wired.constructing, wired.table⟩

/-- So the wiring holds in every reachable state. -/
theorem reachable_wired (reached : Reachable json disk server) : Wired server := by
  induction reached with
  | initial =>
      refine ⟨rfl, rfl, rfl, ?_, rfl⟩
      intro info impossible
      cases impossible
  | step reached event steps ih => exact ih.step steps

/-! ### What is handed over -/

section Publish

variable {order : IterationOrder ((_ : Int) × ClientInfo)}

@[simp] theorem hand_nil : server.hand order [] = [] := by
  unfold hand
  split <;> rfl

/-- Messages are handed over one after another. -/
theorem hand_append (one two : List NetworkSendEvent) :
    server.hand order (one ++ two) = server.hand order one ++ server.hand order two := by
  unfold hand
  split
  · rfl
  · exact List.filterMap_append

/-- The state when some messages to clients were published. -/
def handOver (order : IterationOrder ((_ : Int) × ClientInfo)) (server : Server)
    (sends : List NetworkSendEvent) (state : State) : State :=
  { state with handed := state.handed ++ server.hand order sends }

@[simp] theorem handOver_disk (sends : List NetworkSendEvent) (state : State) :
    (handOver order server sends state).disk = state.disk := rfl

@[simp] theorem handOver_nil (state : State) : handOver order server [] state = state := by
  unfold handOver
  rw [hand_nil, List.append_nil]

theorem handOver_handOver (one two : List NetworkSendEvent) (state : State) :
    handOver order server two (handOver order server one state) =
      handOver order server (one ++ two) state := by
  unfold handOver
  rw [hand_append, List.append_assoc]

/-- Publishing a message to a client does nothing but hand it over. -/
def HandsOver (order : IterationOrder ((_ : Int) × ClientInfo)) (server : Server)
    (publish : Event → State → NestedPublish.Ending State RuntimeError) : Prop :=
  ∀ event state, publish (.send event) state = some (.ok (), handOver order server [event] state)

theorem HandsOver.publishAll {publish : Event → State → NestedPublish.Ending State RuntimeError}
    (hands : HandsOver order server publish) (sends : List NetworkSendEvent) (state : State) :
    (publishAll (sends.map Event.send) state).run publish =
      some (.ok (), handOver order server sends state) :=
  run_publishAll handOver_nil (fun event later => handOver_handOver [event] later) hands sends state

/-- A member that is counted once stands at one place. -/
theorem split_of_count_eq_one {subscribers : List Subscription} {subscription : Subscription}
    (once : subscribers.count subscription = 1) :
    ∃ front back, subscribers = front ++ subscription :: back ∧ subscription ∉ front ++ back := by
  have member : subscription ∈ subscribers :=
    List.count_pos_iff.mp (once ▸ Nat.one_pos)
  obtain ⟨front, back, rfl⟩ := List.append_of_mem member
  refine ⟨front, back, rfl, ?_⟩
  rw [List.count_append, List.count_cons_self] at once
  apply List.count_eq_zero.mp
  rw [List.count_append]
  omega

section Meant

variable {handlers : ClientHandlers} {event : Event} {subscription : Subscription}
  {subscribers : List Subscription}
  {publish : Event → State → NestedPublish.Ending State RuntimeError}

/-- An event for which only one callback is meant has no effect before this is subscribed. -/
theorem deliver_absent
    (meant : ∀ {other}, other ≠ subscription → ∀ state,
      callback json order handlers other event state = .done (.ok ()) state)
    (absent : subscribers.count subscription = 0) (state : State) :
    deliver publish event (subscribers.map (callback json order handlers)) state =
      some (.ok (), state) := by
  apply deliver_all_ignored
  intro subscriber member
  obtain ⟨other, inside, rfl⟩ := List.mem_map.mp member
  apply meant
  rintro rfl
  exact List.count_eq_zero.mp absent inside

/-- And then it has the effect of this callback. -/
theorem deliver_once
    (meant : ∀ {other}, other ≠ subscription → ∀ state,
      callback json order handlers other event state = .done (.ok ()) state)
    (once : subscribers.count subscription = 1) {state after : State}
    (acts : (callback json order handlers subscription event state).run publish =
      some (.ok (), after)) :
    deliver publish event (subscribers.map (callback json order handlers)) state =
      some (.ok (), after) := by
  obtain ⟨front, back, rfl, alone⟩ := split_of_count_eq_one once
  rw [List.map_append, List.map_cons]
  refine deliver_single ?_ acts
  intro subscriber member
  rw [← List.map_append] at member
  obtain ⟨other, inside, rfl⟩ := List.mem_map.mp member
  apply meant
  rintro rfl
  exact alone inside

end Meant

/-- Only the sending callback looks at messages to clients. -/
theorem callback_send {other : Subscription} (differs : other ≠ .sendOutput)
    (handlers : ClientHandlers) (event : NetworkSendEvent) (state : State) :
    callback json order handlers other (.send event) state = .done (.ok ()) state := by
  cases other with
  | clientHandler info => rfl
  | userInput => rfl
  | sendOutput => exact absurd rfl differs

/-- And only one looks at the lines of the operator. -/
theorem callback_input {other : Subscription} (differs : other ≠ .userInput)
    (handlers : ClientHandlers) (payload : Bytes) (state : State) :
    callback json order handlers other (.input payload) state = .done (.ok ()) state := by
  cases other with
  | clientHandler info => rfl
  | userInput => exact absurd rfl differs
  | sendOutput => rfl

/-- A message to a client is handed over by the sending callback, and nothing else happens. -/
theorem publish_send (wired : Wired server) (depth : Nat) : HandsOver order server
    (NestedPublish.publish (server.subscribers.map (callback json order server.handlers))
      (depth + 1)) := by
  intro event state
  have count := wired.sendOutput
  rw [NestedPublish.publish]
  by_cases early : server.progress = .started ∨ server.progress = .userInput
  · rw [if_pos early] at count
    unfold handOver hand
    rw [if_pos early, List.append_nil]
    exact deliver_absent (fun differs => callback_send differs server.handlers event) count state
  · rw [if_neg early] at count
    refine deliver_once (fun differs => callback_send differs server.handlers event) count ?_
    unfold handOver hand
    rw [if_neg early, ← wired.table]
    cases sent : sendOutputToClient order server.handlers event with
    | none => simp [callback, NestedPublish.Callback.run, sent]
    | some message => simp [callback, NestedPublish.Callback.run, sent]

/-- The handlers handle a message in the order of their connections; the callbacks between them
do not see it, and what they publish meanwhile is only handed over. -/
theorem deliver_recv {publish : Event → State → NestedPublish.Ending State RuntimeError}
    (hands : HandsOver order server publish) (handlers : ClientHandlers)
    (event : NetworkRecvEvent) (junk : Indeterminate) (netCount : UInt32)
    (subscribers : List Subscription) (state : State) :
    deliver publish (.recv event junk netCount)
        (subscribers.map (callback json order handlers)) state =
      let (outcome, disk, sends) := RemoteMonitoring.publish junk netCount event
        (subscribers.filterMap Subscription.clientHandler?) state.disk
      some (outcome, handOver order server sends { state with disk }) := by
  induction subscribers generalizing state with
  | nil =>
      rw [List.filterMap_nil, RemoteMonitoring.publish]
      simp only [handOver, hand_nil, List.append_nil]
      rfl
  | cons subscription later ih =>
      cases subscription with
      | userInput => exact ih state
      | sendOutput => exact ih state
      | clientHandler info =>
          have filters : (Subscription.clientHandler info :: later).filterMap
              Subscription.clientHandler? =
            info :: later.filterMap Subscription.clientHandler? := rfl
          rw [filters, List.map_cons, deliver, callback, RemoteMonitoring.publish]
          cases handles : ClientHandler.onNetworkRecv info junk netCount event state.disk with
          | error e =>
              simp only [NestedPublish.Callback.run, handOver, hand_nil, List.append_nil]
          | ok outcome =>
              obtain ⟨disk, sends⟩ := outcome
              simp only [hands.publishAll, ih, handOver_disk]
              rw [← handOver_handOver]
              rfl

theorem publish_recv (wired : Wired server) (event : NetworkRecvEvent) (junk : Indeterminate)
    (netCount : UInt32) :
    server.publish json 2 order (.recv event junk netCount) =
      some (server.dispatch json order (.recv event junk netCount)) := by
  have hands : HandsOver order server
      (NestedPublish.publish (server.subscribers.map (callback json order server.handlers)) 1) :=
    publish_send wired 0
  rw [Server.publish, NestedPublish.publish, deliver_recv hands, wired.clients]
  rfl

/-- A line of the operator is one call of the callback for it, and what that publishes is handed
over. -/
theorem publish_input (wired : Wired server) (payload : Bytes) :
    server.publish json 2 order (.input payload) =
      some (server.dispatch json order (.input payload)) := by
  have count := wired.userInput
  have hands : HandsOver order server
      (NestedPublish.publish (server.subscribers.map (callback json order server.handlers)) 1) :=
    publish_send wired 0
  rw [Server.publish, NestedPublish.publish, dispatch]
  by_cases early : server.progress = .started
  · rw [if_pos early] at count
    rw [if_pos early]
    exact deliver_absent (fun differs => callback_input differs server.handlers payload) count _
  · rw [if_neg early] at count
    rw [if_neg early]
    by_cases leaves : payload = ascii "exit"
    · rw [if_pos leaves]
      refine deliver_once (fun differs => callback_input differs server.handlers payload) count ?_
      rw [callback, if_pos leaves, NestedPublish.Callback.run]
    · rw [if_neg leaves]
      refine deliver_once (fun differs => callback_input differs server.handlers payload) count ?_
      rw [callback, if_neg leaves, ← wired.table]
      exact run_caught (hands.publishAll _ _)

end Publish

end Server

/-- However far the two threads that subscribe have come, a publication on the server's bus ends,
with no deeper nesting than one, and does what handling the messages one after another does. -/
theorem server_publishes {json : JsonLibrary} {disk : Disk} {server : Server}
    (reached : Server.Reachable json disk server) (event : Server.Event)
    (order : IterationOrder ((_ : Int) × ClientInfo)) {depth : Nat} (deep : 2 ≤ depth) :
    server.publish json depth order event = some (server.dispatch json order event) := by
  have wired := Server.reachable_wired reached
  refine publish_of_depth ?_ deep
  cases event with
  | recv event junk netCount => exact Server.publish_recv wired event junk netCount
  | send event => exact Server.publish_send wired 1 event server.state
  | input payload => exact Server.publish_input wired payload

/-- The sending callback is subscribed behind the handler of the first connection. -/
def startedServer : Server where
  subscribers := [.userInput, .clientHandler ⟨1, 4, ascii "10.0.0.7", 50000⟩, .sendOutput]
  connections := [⟨4, ascii "10.0.0.7", 50000⟩]
  constructing := none
  handlers := RemoteMonitoring.addNewClient ∅ ⟨1, 4, ascii "10.0.0.7", 50000⟩
  progress := .sendOutput
  state := ⟨sampleDisk, [], false⟩

theorem reachable_startedServer : Server.Reachable sampleJson sampleDisk startedServer :=
  (((Server.Reachable.initial.step .run rfl).step
    (.construct ⟨4, ascii "10.0.0.7", 50000⟩) rfl).step .addNewClient rfl).step .run rfl

theorem server_publishes_sample :
    startedServer.publish sampleJson 3 .stored (.input (ascii "1:config chrome.json")) =
        some (startedServer.dispatch sampleJson .stored (.input (ascii "1:config chrome.json"))) ∧
      (startedServer.dispatch sampleJson .stored
        (.input (ascii "1:config chrome.json"))).2.handed = [(4, samplePush.payload)] :=
  ⟨server_publishes reachable_startedServer _ _ (by decide), by decide +kernel⟩

/-! ### The client -/

namespace Client

variable {client : Client}

/-- The state when some messages to the server were published. -/
def send (sends : List NetworkSendEvent) (state : State) : State :=
  { state with sent := state.sent ++ sends.map NetworkSendEvent.payload }

/-- With the sending callback among those subscribed, publishing messages to the server sends
them. -/
theorem run_publishAll_send {publish : Event → State → NestedPublish.Ending State RuntimeError}
    (sends : ∀ event state, publish (.send event) state = some (.ok (), send [event] state))
    (events : List NetworkSendEvent) (state : State) :
    (publishAll (events.map Event.send) state).run publish =
      some (.ok (), send events state) := by
  apply run_publishAll _ _ sends
  · intro state
    unfold send
    rw [List.map_nil, List.append_nil]
  · intro event later state
    unfold send
    rw [List.append_assoc, ← List.map_append, List.singleton_append]

theorem take_subscriptions (more : Nat) : subscriptions.take (more + 3) = subscriptions := by
  simp [subscriptions]

theorem publish_send (depth registered : Nat) (event : NetworkSendEvent) (state : State) :
    client.publish (depth + 1) registered (.send event) state =
      some (client.dispatch registered state (.send event)) := by
  match registered with
  | 0 => rfl
  | 1 => rfl
  | 2 => rfl
  | more + 3 =>
      have late : ¬ more + 3 < 2 := by omega
      rw [dispatch, if_neg late, publish, take_subscriptions]
      rfl

section Recv

variable {publish : Event → State → NestedPublish.Ending State RuntimeError}

/-- The callback of the logger comes first; the others see what it leaves, unless it throws. -/
theorem deliver_clientLogger (event : NetworkRecvEvent) (junkId : UInt64)
    (later : List Subscription) (state : State) :
    deliver publish (.recv event junkId) ((Subscription.clientLogger :: later).map client.callback)
        state =
      match state.client.logger.onNetworkRecv junkId event with
      | .error e => some (.error e, state)
      | .ok logger =>
          deliver publish (.recv event junkId) (later.map client.callback)
            { state with client := { state.client with logger } } := by
  rw [List.map_cons, deliver, callback]
  cases state.client.logger.onNetworkRecv junkId event with
  | error e => rfl
  | ok logger => rfl

/-- The reply is published inside a `try`. -/
theorem deliver_recvConfig
    (sends : ∀ event state, publish (.send event) state = some (.ok (), send [event] state))
    (event : NetworkRecvEvent) (junkId : UInt64) (state : State) :
    deliver publish (.recv event junkId) [client.callback .recvConfig] state =
      match recvConfig client.json client.serverIp client.serverPort event state.client.logger
        state.client.file with
      | .error e => some (.error e, state)
      | .ok (logger, file, events) =>
          some (.ok (), send events { state with client := ⟨logger, file⟩ }) := by
  rw [deliver, callback]
  cases recvConfig client.json client.serverIp client.serverPort event state.client.logger
      state.client.file with
  | error e => rfl
  | ok outcome =>
      obtain ⟨logger, file, events⟩ := outcome
      simp only [run_caught (run_publishAll_send sends events _), deliver]

end Recv

/-- A received message is handled by the logger and then by the configuration subscriber, as far
as they are there. -/
theorem publish_recv {registered : Nat} (started : 0 < registered) (event : NetworkRecvEvent)
    (junkId : UInt64) (state : State) :
    client.publish 2 registered (.recv event junkId) state =
      some (client.dispatch registered state (.recv event junkId)) := by
  match registered with
  | 0 => cases started
  | 1 =>
      rw [publish, NestedPublish.publish, subscriptions, List.take_succ_cons,
        deliver_clientLogger, dispatch]
      cases state.client.logger.onNetworkRecv junkId event with
      | error e => rfl
      | ok logger => rfl
  | 2 =>
      rw [publish, NestedPublish.publish, subscriptions, List.take_succ_cons,
        deliver_clientLogger, dispatch]
      cases state.client.logger.onNetworkRecv junkId event with
      | error e => rfl
      | ok logger => rfl
  | more + 3 =>
      have late : ¬ more + 3 < 3 := by omega
      have sends (event : NetworkSendEvent) (state : State) :
          NestedPublish.publish (subscriptions.map client.callback) 1 (.send event) state =
            some (.ok (), send [event] state) := rfl
      rw [publish, NestedPublish.publish, take_subscriptions, dispatch, if_neg late,
        ConfiguredClient.publishRecv]
      rw [subscriptions] at sends ⊢
      rw [deliver_clientLogger]
      cases state.client.logger.onNetworkRecv junkId event with
      | error e => rfl
      | ok logger =>
          have recvs := @deliver_recvConfig client _ sends event junkId
            { state with client := { state.client with logger } }
          refine recvs.trans ?_
          simp only
          cases recvConfig client.json client.serverIp client.serverPort event logger
              state.client.file with
          | error e => rfl
          | ok outcome => rfl

end Client

/-- From the moment the receiving thread runs, a publication on the client's bus ends, and does
what the two callbacks for messages do one after another; what is not subscribed yet is lost. -/
theorem client_publishes (client : Client) {registered : Nat} (started : 0 < registered)
    (event : Client.Event) (state : Client.State) {depth : Nat} (deep : 2 ≤ depth) :
    client.publish depth registered event state = some (client.dispatch registered state event) := by
  refine publish_of_depth ?_ deep
  cases event with
  | recv event junkId => exact Client.publish_recv started event junkId state
  | send event => exact Client.publish_send 1 registered event state

def startingClient : Client.State := ⟨⟨⟨Config.defaultConfig, sampleQueue⟩, File.absent⟩, []⟩

/-- A configuration that arrives before the last callback is subscribed is lost. -/
theorem client_publishes_sample :
    Client.publish ⟨sampleJson, ascii "10.0.0.1", 12345⟩ 2 2
        (.recv ⟨ascii "10.0.0.1", 12345, samplePush.payload⟩ 0) startingClient =
      some (Client.dispatch ⟨sampleJson, ascii "10.0.0.1", 12345⟩ 2 startingClient
        (.recv ⟨ascii "10.0.0.1", 12345, samplePush.payload⟩ 0)) :=
  client_publishes _ (by decide) _ _ (by decide)

end RemoteMonitoring.EventBus
