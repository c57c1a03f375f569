/-
Module: RemoteMonitoring.Proofs.FleetOrder
Purpose: What holds of the whole deployment at any time: tables can be looked up, a message to a
  client is an ack or a configuration that the operator asked for, and the configuration in
  force at a machine is that of its start or one that was pushed to it.
Trusted boundary: none
Main exports: Orderly, orderly_step, orderly_steps, run_orderly
-/
import RemoteMonitoring.Proofs.Alerts
import RemoteMonitoring.Proofs.Dispatch
import RemoteMonitoring.Proofs.ProcessTable
import RemoteMonitoring.Proofs.Routing
import RemoteMonitoring.System.Fleet

namespace RemoteMonitoring

open ByteText

/-! ### The client's subscribers on any message -/

section Reception

variable (json : JsonLibrary) (serverIp : Bytes) (serverPort : UInt16) (junkId : UInt64)
  (payload : Bytes) (client : ConfiguredClient)

/-- The configuration subscriber leaves the queue as it is. -/
theorem recvConfig_frame (event : NetworkRecvEvent) (logger : ClientLogger) (file : File) :
    match recvConfig json serverIp serverPort event logger file with
    | .error _ => True
    | .ok (after, _, sends) =>
        after.logQueue = logger.logQueue ∧
          (after.config = logger.config ∨
            ∃ entries, pushedEntries json event = some entries ∧ after.config = ⟨entries⟩) ∧
          ∀ reply ∈ sends, reply.payload = configOk := by
  unfold recvConfig pushedEntries
  cases decoded : readString (.ofBytes event.payload) with
  | error e => trivial
  | ok outcome =>
      simp only [bind, Except.bind, pure, Except.pure]
      cases front : (ascii "config ").isPrefixOf outcome.1 with
      | false => simp
      | true =>
          simp only [if_true]
          cases parses : json.parse (outcome.1.drop (ascii "config ").length) with
          | none => simp
          | some entries => simp [writeString_configOk, ClientLogger.setConfig]

/-- What a message does to a client: the queue, the configuration, and what is published. -/
theorem receiveServerInput_frame :
    let outcome := client.receiveServerInput json serverIp serverPort junkId payload
    outcome.2.logger.logQueue = followedQueue junkId payload client.logger.logQueue ∧
      (outcome.2.logger.config = client.logger.config ∨
        ∃ entries, pushedEntries json ⟨serverIp, serverPort, payload⟩ = some entries ∧
          outcome.2.logger.config = ⟨entries⟩) ∧
      ∀ reply ∈ outcome.1.toOption.getD [], reply.payload = configOk := by
  unfold ConfiguredClient.receiveServerInput
  by_cases empty : payload = []
  · subst empty
    rw [if_pos rfl]
    exact ⟨rfl, Or.inl rfl, by simp [Except.toOption]⟩
  · rw [if_neg empty]
    unfold ConfiguredClient.publishRecv ClientLogger.onNetworkRecv followedQueue
    cases handled : ackSubscriber junkId payload client.logger.logQueue with
    | error e => exact ⟨rfl, Or.inl rfl, by simp [bind, Except.bind, Except.toOption]⟩
    | ok queue =>
        simp only [bind, Except.bind, pure, Except.pure]
        have frame := recvConfig_frame json serverIp serverPort ⟨serverIp, serverPort, payload⟩
          { client.logger with logQueue := queue } client.file
        cases configured : recvConfig json serverIp serverPort ⟨serverIp, serverPort, payload⟩
            { client.logger with logQueue := queue } client.file with
        | error e => exact ⟨rfl, Or.inl rfl, by simp [Except.toOption]⟩
        | ok after =>
            rw [configured] at frame
            exact frame

end Reception

/-- An ack pushes nothing. -/
theorem pushedEntries_ack (json : JsonLibrary) (ip : Bytes) (port : UInt16) (id : UInt64) :
    pushedEntries json ⟨ip, port, ackPayload id⟩ = none := by
  have reads := readString_writeString (writeString_ackMessage id) []
  have other : (ascii "config ").isPrefixOf (ackMessage id) = false := rfl
  rw [List.append_nil] at reads
  simp only [pushedEntries, reads, other, Bool.false_eq_true, if_false]

/-- A message that carries a text the library accepts pushes what it parses to. -/
theorem pushedEntries_push {json : JsonLibrary} {content payload : Bytes}
    {entries : List ConfigEntry} (written : writeString (ascii "config " ++ content) = .ok payload)
    (parses : json.parse content = some entries) (ip : Bytes) (port : UInt16) :
    pushedEntries json ⟨ip, port, payload⟩ = some entries := by
  have reads := readString_writeString written []
  have text : (ascii "config " ++ content).drop (ascii "config ").length = content :=
    List.drop_left
  rw [List.append_nil] at reads
  simp only [pushedEntries, reads, List.isPrefixOf_iff_prefix, List.prefix_append, if_true, text,
    parses]

/-! ### Connections -/

section Connections

variable {history : History}

/-- The client that reads from a socket is the one whose connection it is. -/
theorem find_clientSocket {info : ClientInfo} (member : info ∈ history.clients) :
    history.clients.find? (fun other => other.clientSocket = info.clientSocket) = some info := by
  cases found : history.clients.find? fun other => other.clientSocket = info.clientSocket with
  | none =>
      have differs := List.find?_eq_none.mp found info member
      simp at differs
  | some other =>
      have same := List.find?_some found
      rw [decide_eq_true_eq] at same
      rw [eq_of_clientSocket history.distinct (List.mem_of_find?_eq_some found) member same]

/-- In flight is what was written to the socket of an accepted connection. -/
theorem inFlight_eq_some {item : Nat × Bytes} {sent : ClientInfo × Bytes} :
    history.inFlight item = some sent ↔
      sent.1 ∈ history.clients ∧ (sent.1.clientSocket, sent.2) = item := by
  unfold History.inFlight
  constructor
  · intro found
    obtain ⟨info, search, rfl⟩ := Option.map_eq_some_iff.mp found
    have socket := List.find?_some search
    rw [decide_eq_true_eq] at socket
    exact ⟨List.mem_of_find?_eq_some search, Prod.ext socket rfl⟩
  · rintro ⟨inside, rfl⟩
    rw [find_clientSocket inside]
    rfl

/-- What is published for an address goes to a client with that address. -/
theorem mem_answers {order : IterationOrder ((_ : Int) × ClientInfo)}
    {events : List NetworkSendEvent} {sent : ClientInfo × Bytes}
    (answers : sent ∈ (events.filterMap (sendOutputToClient order history.handlers)).filterMap
      history.inFlight) :
    ∃ event ∈ events, sent.2 = event.payload ∧ sent.1.clientIp = event.ip := by
  obtain ⟨item, written, found⟩ := List.mem_filterMap.mp answers
  obtain ⟨event, published, goes⟩ := List.mem_filterMap.mp written
  obtain ⟨inside, rfl⟩ := inFlight_eq_some.mp found
  refine ⟨event, published, ?_⟩
  unfold sendOutputToClient getClientInfoFromIpAndPort at goes
  cases search : (order.visit history.handlers.entries).find? fun entry =>
      entry.2.clientIp = event.ip ∧ entry.2.clientPort = event.port with
  | none =>
      simp only [search] at goes
      cases goes
  | some entry =>
      simp only [search] at goes
      split at goes
      · cases goes
      · rw [Option.some.injEq, Prod.mk.injEq] at goes
        obtain ⟨socket, payload⟩ := goes
        have listed := order.mem_visit.mp (List.mem_of_find?_eq_some search)
        have passes := List.find?_some search
        simp only [decide_eq_true_eq] at passes
        have equal := eq_of_clientSocket history.distinct (mem_handlers.mp listed).1 inside socket
        exact ⟨payload.symm, equal ▸ passes.1⟩

/-- What a line sends to a client is the configuration that it asks for, for the address of that
client. -/
theorem askedFor_of_handedOver {json : JsonLibrary} {disk : Disk} {line : Bytes}
    {order : IterationOrder ((_ : Int) × ClientInfo)} {sent : ClientInfo × Bytes}
    (handed : sent ∈ (handedOver json disk order history.handlers line).filterMap
      history.inFlight) :
    ∃ content entries, writeString (ascii "config " ++ content) = .ok sent.2 ∧
      json.parse content = some entries ∧
      askedFor json disk history.handlers line = some (sent.1.clientIp, entries) := by
  obtain ⟨item, written, carried⟩ := List.mem_filterMap.mp handed
  obtain ⟨reader, rfl⟩ := inFlight_eq_some.mp carried
  obtain ⟨client, member, idStr, message, rfl, free, id, published, socket⟩ :=
    mem_handedOver_iff.mp written
  obtain ⟨known, _, _, name, content, entries, rfl, opens, parses, encoded⟩ :=
    mem_userMessage_iff.mp published
  obtain ⟨found, inside, same, ip, _⟩ := getClientInfo_mem order member
  rw [same] at socket
  have equal := eq_of_clientSocket history.distinct inside reader socket.symm
  refine ⟨content, entries, encoded, parses, ?_⟩
  have looked : history.handlers.lookup (strToInt idStr) = some client :=
    lookup_handlers.mpr ⟨member, id.symm⟩
  have text : (ascii "config " ++ name).drop (ascii "config ").length = name := List.drop_left
  unfold askedFor
  rw [findClientFromInput_append history.handlers free, looked, ← equal]
  simp only [known, if_false, List.isPrefixOf_iff_prefix, List.prefix_append, if_true, text, opens,
    Option.bind_some, parses, Option.map_some, ip]

end Connections

/-! ### The invariant -/

/-- A message to the client `info`: an ack, or a configuration that was pushed to its address. -/
def Meant (json : JsonLibrary) (pushed : List (Bytes × List ConfigEntry)) (info : ClientInfo)
    (payload : Bytes) : Prop :=
  (∃ id, payload = ackPayload id) ∨
    ∃ content entries, writeString (ascii "config " ++ content) = .ok payload ∧
      json.parse content = some entries ∧ (info.clientIp, entries) ∈ pushed

structure Orderly (deployment : Deployment) (fleet : Fleet) : Prop where
  keys : ∀ ip, ∃ pids, (fleet.machines ip).table.KeysAre pids
  config : ∀ ip, (fleet.machines ip).config = (fleet.machines ip).started ∨
    ∃ entries, (ip, entries) ∈ fleet.pushed ∧ (fleet.machines ip).config = ⟨entries⟩
  toClients : ∀ item ∈ fleet.toClients, Meant deployment.json fleet.pushed item.1 item.2

theorem orderly_fresh (deployment : Deployment) {fleet : Fleet} (fresh : fleet.Fresh) :
    Orderly deployment fleet where
  keys ip := ⟨[], (fresh.machines ip).table ▸ ProcessTable.empty_keys⟩
  config ip := Or.inl (fresh.machines ip).started.symm
  toClients := by simp [fresh.toClients]

section Step

variable {deployment : Deployment} {fleet : Fleet}

theorem Meant.mono {json : JsonLibrary} {pushed more : List (Bytes × List ConfigEntry)}
    {info : ClientInfo} {payload : Bytes} (meant : Meant json pushed info payload)
    (kept : pushed ⊆ more) : Meant json more info payload :=
  meant.imp_right fun ⟨content, entries, written, parses, asked⟩ =>
    ⟨content, entries, written, parses, kept asked⟩

/-- A change of one machine that leaves its table and its configuration in order. -/
theorem Orderly.update (orderly : Orderly deployment fleet) (ip : Bytes)
    (change : Machine → Machine)
    (keys : ∃ pids, (change (fleet.machines ip)).table.KeysAre pids)
    (config : (change (fleet.machines ip)).config = (change (fleet.machines ip)).started ∨
      ∃ entries, (ip, entries) ∈ fleet.pushed ∧
        (change (fleet.machines ip)).config = ⟨entries⟩) :
    Orderly deployment (fleet.update ip change) where
  keys other := by
    by_cases same : other = ip
    · simp only [Fleet.update, same, Function.update_self]
      exact keys
    · simp only [Fleet.update, Function.update_of_ne same]
      exact orderly.keys other
  config other := by
    by_cases same : other = ip
    · simp only [Fleet.update, same, Function.update_self]
      exact config
    · simp only [Fleet.update, Function.update_of_ne same]
      exact orderly.config other
  toClients := orderly.toClients

/-- `generate_log` never throws. -/
theorem Orderly.generateLog_eq (orderly : Orderly deployment fleet) (ip : Bytes)
    (order : ListingOrder) (nowMs : UInt64) :
    let machine := fleet.machines ip
    let due := alerts machine.table machine.config.configEntries
    machine.generateLog order nowMs =
      { machine with
        client := { machine.client with
          logger := { machine.client.logger with
            logQueue := ClientLogger.logAlerts nowMs due machine.queue } }
        reported := machine.reported ++ due.map (Prod.mk nowMs) } := by
  obtain ⟨pids, keys⟩ := orderly.keys ip
  simp only [Machine.generateLog, ClientLogger.generateLog_eq keys]
  rfl

/-- The server answers a message with acks only, which carry no configuration. -/
theorem orderly_recvInput (orderly : Orderly deployment fleet) (info : ClientInfo)
    (payload : Bytes) (junk : Indeterminate) (netCount : UInt32)
    (order : IterationOrder ((_ : Int) × ClientInfo)) :
    Orderly deployment (fleet.recvInput info payload junk netCount order) := by
  have frame := publishRecv_frame junk netCount ⟨info.clientIp, info.clientPort, payload⟩
    fleet.history.clients fleet.disk
  refine { orderly with toClients := ?_ }
  intro item member
  rcases List.mem_append.mp member with answer | older
  · obtain ⟨event, published, same, _⟩ := mem_answers answer
    obtain ⟨id, rfl⟩ := frame.acks event published
    exact Or.inl ⟨id, same⟩
  · exact orderly.toClients item older

/-- A configuration that a client takes was asked for at its address, as everything in flight to
it was. -/
theorem orderly_recvServerInput (orderly : Orderly deployment fleet) {info : ClientInfo}
    {payload : Bytes} (meant : Meant deployment.json fleet.pushed info payload)
    (junkId : UInt64) :
    Orderly deployment (fleet.recvServerInput deployment info payload junkId) := by
  obtain ⟨_, config, _⟩ := receiveServerInput_frame deployment.json deployment.serverIp
    deployment.serverPort junkId payload (fleet.machines info.clientIp).client
  have updated := orderly.update info.clientIp
    (fun machine => { machine with
      client := ((fleet.machines info.clientIp).client.receiveServerInput deployment.json
        deployment.serverIp deployment.serverPort junkId payload).2 })
    (orderly.keys info.clientIp) (by
      rcases config with same | ⟨entries, pushed, configured⟩
      · simp only [Machine.config, same]
        exact orderly.config info.clientIp
      · refine Or.inr ⟨entries, ?_, configured⟩
        rcases meant with ⟨id, rfl⟩ | ⟨content, others, written, parses, asked⟩
        · rw [pushedEntries_ack] at pushed
          cases pushed
        · rw [pushedEntries_push written parses] at pushed
          cases pushed
          exact asked)
  exact { updated with }

/-- What the operator asks for is recorded before it is in flight. -/
theorem orderly_operator (orderly : Orderly deployment fleet) (line : Bytes)
    (order : IterationOrder ((_ : Int) × ClientInfo)) :
    Orderly deployment (fleet.operator deployment line order) where
  keys := orderly.keys
  config ip := (orderly.config ip).imp_right fun ⟨entries, asked, same⟩ =>
    ⟨entries, List.mem_append_right _ asked, same⟩
  toClients := by
    intro item member
    rcases List.mem_append.mp member with handed | older
    · obtain ⟨content, entries, written, parses, asked⟩ := askedFor_of_handedOver handed
      refine Or.inr ⟨content, entries, written, parses, ?_⟩
      simp [Fleet.operator, asked]
    · exact (orderly.toClients item older).mono (List.subset_append_right _ _)

/-- Each step keeps the deployment in order: one case for each event. -/
theorem orderly_step (orderly : Orderly deployment fleet) (event : FleetEvent) :
    Orderly deployment (fleet.step deployment event) := by
  cases event with
  | accept connection => exact { orderly with }
  | sample ip call =>
      obtain ⟨pids, keys⟩ := orderly.keys ip
      exact orderly.update ip _ ⟨_, ProcessTable.updateTable_keys deployment.cpuShare call keys⟩
        (orderly.config ip)
  | generateLog ip order nowMs =>
      refine orderly.update ip _ ?_ ?_
      · rw [orderly.generateLog_eq]
        exact orderly.keys ip
      · rw [orderly.generateLog_eq]
        exact orderly.config ip
  | sendBatch info =>
      simp only [Fleet.step, Fleet.sendBatch]
      split
      · exact { orderly with }
      · exact orderly
  | recvInput index junk netCount order =>
      rw [Fleet.step]
      split
      · exact orderly_recvInput orderly _ _ junk netCount order
      · exact orderly
  | recvServerInput index junkId =>
      rw [Fleet.step]
      split
      · rename_i info payload found
        have meant := orderly.toClients _ (List.mem_of_getElem? found)
        exact orderly_recvServerInput orderly meant junkId
      · exact orderly
  | operator line order => exact orderly_operator orderly line order
  | edit name file => exact { orderly with }
  | restart ip junkAckId junk temp renames =>
      refine orderly.update ip _ ?_ ?_
      · unfold Machine.restart
        split
        · exact orderly.keys ip
        · exact ⟨[], ProcessTable.empty_keys⟩
      · unfold Machine.restart
        split
        · exact orderly.config ip
        · exact Or.inl rfl
  | serverRestart => exact { orderly with }
  | loseToServer index => exact { orderly with }
  | loseToClient index =>
      refine { orderly with toClients := ?_ }
      exact fun item member => orderly.toClients item (List.mem_of_mem_eraseIdx member)

/-- From a fresh start every sequence of events keeps the order. -/
theorem orderly_steps {start : Fleet} (fresh : start.Fresh) (events : List FleetEvent) :
    Orderly deployment (events.foldl (Fleet.step deployment) start) := by
  induction events using List.reverseRecOn with
  | nil => exact orderly_fresh deployment fresh
  | append_singleton events event ih =>
      rw [List.foldl_append, List.foldl_cons, List.foldl_nil]
      exact orderly_step ih event

theorem run_orderly {resuming : Prop} {start : Fleet} (fresh : start.Fresh)
    (run : Fleet.Run deployment resuming start fleet) : Orderly deployment fleet := by
  induction run with
  | refl => exact orderly_fresh deployment fresh
  | step run event allowed resumes ih => exact orderly_step ih event

end Step

end RemoteMonitoring
