/-
Module: RemoteMonitoring.Proofs.Fleet
Purpose: What a machine and the server's file for it go through in the whole deployment is a
  lifetime of one client and one server, with everything else as a disturbance; so what holds
  of such lifetimes holds of every machine at once.
Trusted boundary: none
Main exports: Mirrors, mirrors_step, run_mirrors, fleet_files, fleet_files_grow, fleet_config
-/
import RemoteMonitoring.Proofs.AnyRestart
import RemoteMonitoring.Proofs.FleetOrder

namespace RemoteMonitoring

open ByteText
open LogEntry (Numbered)

/-- Lifetimes go on from one another. -/
theorem System.Lifetime.trans {resuming : Prop} {ip : Bytes} {one two three : System}
    (first : Lifetime resuming ip one two) (second : Lifetime resuming ip two three) :
    Lifetime resuming ip one three := by
  induction second with
  | refl => exact first
  | step _ event lives resumes ih => exact ih.step event lives resumes

theorem System.Lifetime.single {resuming : Prop} {ip : Bytes} {s : System} (event : LifeEvent)
    (lives : System.Lives ip s event) (resumes : resuming → System.Resumes s event) :
    System.Lifetime resuming ip s (s.live event) :=
  System.Lifetime.refl.step event lives resumes

/-! ### The alerts of a round -/

/-- The entry stands for the alert. -/
def Logs (entry : LogEntry) (report : UInt64 × Alert) : Prop :=
  entry = ⟨entry.id, report.2.name, report.1, report.2.logType, UInt64.ofNat report.2.value⟩

theorem numbered_getElem {start index : Nat} {entries : List LogEntry}
    (numbered : Numbered start entries) (inside : index < entries.length) :
    entries[index].id.toNat = start + index + 1 := by
  have tail := numbered.drop (Nat.le_of_lt inside)
  rw [List.drop_eq_getElem_cons inside] at tail
  exact tail.1

/-- Entries with ids that count up from 1 are those that the alerts are to be logged as. -/
theorem eq_numberReports {issued : List LogEntry} {reported : List (UInt64 × Alert)}
    (numbered : Numbered 0 issued) (logs : List.Forall₂ Logs issued reported) :
    issued = numberReports reported := by
  apply List.ext_getElem
  · rw [numberReports, List.length_mapIdx, logs.length_eq]
  · intro index inside _
    have id := numbered_getElem numbered inside
    have report := logs.get inside (logs.length_eq ▸ inside)
    simp only [List.get_eq_getElem] at report
    rw [Nat.zero_add] at id
    simp only [numberReports, List.getElem_mapIdx, ← id, UInt64.ofNat_toNat]
    exact report

theorem mem_reported {issued : List LogEntry} {reported : List (UInt64 × Alert)}
    (logs : List.Forall₂ Logs issued reported) {entry : LogEntry} (member : entry ∈ issued) :
    ∃ report ∈ reported, Logs entry report := by
  obtain ⟨index, inside, rfl⟩ := List.getElem_of_mem member
  exact ⟨_, List.getElem_mem _, logs.get inside (logs.length_eq ▸ inside)⟩

/-- Logging some alerts is a lifetime of the one client that adds their entries one by one. -/
theorem lifetime_logAlerts {resuming : Prop} {ip : Bytes} {sys : System} {due : List Alert}
    (clean : ∀ alert ∈ due, LogEntry.CleanName alert.name)
    (room : sys.issued.length + due.length < 2 ^ 32) (nowMs : UInt64) :
    ∃ fresh, List.Forall₂ Logs fresh (due.map (Prod.mk nowMs)) ∧
      System.Lifetime resuming ip sys
        { sys with
          queue := ClientLogger.logAlerts nowMs due sys.queue
          issued := sys.issued ++ fresh } := by
  induction due generalizing sys with
  | nil =>
      refine ⟨[], .nil, ?_⟩
      rw [List.append_nil]
      exact .refl
  | cons alert later ih =>
      rw [List.length_cons] at room
      let event : LifeEvent :=
        .during (.addLog alert.name nowMs alert.logType (UInt64.ofNat alert.value))
      have lives : System.Lives ip sys event := ⟨clean alert List.mem_cons_self, by omega⟩
      have first : System.Lifetime resuming ip sys (sys.live event) :=
        .single event lives fun _ => trivial
      have length : (sys.live event).issued.length = sys.issued.length + 1 := List.length_append
      obtain ⟨fresh, logs, rest⟩ := @ih (sys.live event)
        (fun other member => clean other (List.mem_cons_of_mem alert member))
        (by rw [length]; omega)
      refine ⟨⟨sys.queue.newId, alert.name, nowMs, alert.logType, UInt64.ofNat alert.value⟩ ::
        fresh, .cons rfl logs, ?_⟩
      rw [List.append_cons]
      exact first.trans rest

/-- An alert has a name that is watched. -/
theorem mem_alerts_name {table : ProcessTable} {configEntries : List ConfigEntry} {alert : Alert}
    (member : alert ∈ alerts table configEntries) :
    ∃ entry ∈ configEntries, alert.name = entry.processName := by
  obtain ⟨entry, inside, here⟩ := List.mem_flatMap.mp member
  obtain ⟨resource, _, rfl⟩ := List.mem_map.mp here
  exact ⟨entry, inside, rfl⟩

/-! ### The server's handlers -/

/-- A message that is in flight may be handled by every handler of its connection. -/
theorem lifetime_publishRecv {resuming : Prop} {ip : Bytes} {sys : System} {port : UInt16}
    {payload : Bytes} (sent : payload ∈ sys.toServer) (junk : Indeterminate) (netCount : UInt32)
    (handlers : List ClientInfo) :
    let outcome := publishRecv junk netCount ⟨ip, port, payload⟩ handlers sys.disk
    ∃ toClient, (∀ other ∈ sys.toClient, other ∈ toClient) ∧
      (∀ event ∈ outcome.2, event.payload ∈ toClient) ∧
      System.Lifetime resuming ip sys { sys with disk := outcome.1, toClient := toClient } := by
  induction handlers generalizing sys with
  | nil => exact ⟨sys.toClient, fun _ member => member, by simp [publishRecv], .refl⟩
  | cons info rest ih =>
      rw [publishRecv]
      cases handled : ClientHandler.onNetworkRecv info junk netCount ⟨ip, port, payload⟩
          sys.disk with
      | error e => exact ⟨sys.toClient, fun _ member => member, by simp, .refl⟩
      | ok outcome =>
          by_cases own : ((ip, port) : Bytes × UInt16) = info.connection
          · rw [ClientInfo.connection, Prod.mk.injEq] at own
            obtain ⟨rfl, rfl⟩ := own
            obtain ⟨index, found⟩ := List.getElem?_of_mem sent
            let event : LifeEvent := .during (.recvBatch index info junk netCount)
            have effect : sys.live event =
                { sys with
                  disk := outcome.1
                  toClient := outcome.2.map NetworkSendEvent.payload ++ sys.toClient } := by
              simp only [event, System.live, System.step, found, System.recvBatch, handled]
            have first : System.Lifetime resuming info.clientIp sys (sys.live event) :=
              .single event rfl fun _ => trivial
            rw [effect] at first
            obtain ⟨toClient, kept, answers, later⟩ := @ih
              { sys with
                disk := outcome.1
                toClient := outcome.2.map NetworkSendEvent.payload ++ sys.toClient } sent
            refine ⟨toClient, fun other member => kept other (List.mem_append_right _ member), ?_,
              first.trans later⟩
            intro published member
            rcases List.mem_append.mp member with now | after
            · exact kept _ (List.mem_append_left _ (List.mem_map_of_mem now))
            · exact answers published after
          · rw [onNetworkRecv_other own] at handled
            cases handled
            obtain ⟨toClient, kept, answers, later⟩ := ih sent
            exact ⟨toClient, kept, by simpa using answers, later⟩

/-! ### The simulation -/

/-- The part of the deployment that belongs to the machine at `ip`, seen as one client and one
server: the same queue, the same files, what was to be logged, and no message that is not in
flight there as well. -/
structure Mirrors (fleet : Fleet) (ip : Bytes) (sys : System) : Prop where
  queue : sys.queue = (fleet.machines ip).queue
  disk : sys.disk = fleet.disk
  issued : List.Forall₂ Logs sys.issued (fleet.machines ip).reported
  toServer : ∀ item ∈ fleet.toServer, item.1.clientIp = ip →
    item.2 ∈ sys.toServer ∨ item.2 = configOk
  toClients : ∀ item ∈ fleet.toClients, item.1.clientIp = ip → ∀ id,
    item.2 = ackPayload id → item.2 ∈ sys.toClient

section Step

variable {deployment : Deployment} {fleet : Fleet} {ip : Bytes} {sys : System}
  {resuming : Prop}

/-- A change of a machine that leaves its queue and its record alone, or of another machine. -/
theorem Mirrors.update (mirrors : Mirrors fleet ip sys) (other : Bytes)
    (change : Machine → Machine)
    (kept : ip = other → (change (fleet.machines ip)).queue = (fleet.machines ip).queue ∧
      (change (fleet.machines ip)).reported = (fleet.machines ip).reported) :
    Mirrors (fleet.update other change) ip sys := by
  by_cases same : ip = other
  · subst same
    obtain ⟨queue, reported⟩ := kept rfl
    exact
      { mirrors with
        queue := by simpa [Fleet.update, queue] using mirrors.queue
        issued := by simpa [Fleet.update, reported] using mirrors.issued }
  · exact
      { mirrors with
        queue := by simpa [Fleet.update, same] using mirrors.queue
        issued := by simpa [Fleet.update, same] using mirrors.issued }

/-- A round of one machine logs its alerts there, and is nothing to the others. -/
theorem mirrors_generateLog (orderly : Orderly deployment fleet) (mirrors : Mirrors fleet ip sys)
    {order : ListingOrder} {nowMs : UInt64}
    (allowed : fleet.Allowed (.generateLog ip order nowMs)) :
    ∃ sys', System.Lifetime resuming ip sys sys' ∧
      Mirrors (fleet.step deployment (.generateLog ip order nowMs)) ip sys' := by
  obtain ⟨names, room⟩ := allowed
  have clean : ∀ alert ∈ alerts (fleet.machines ip).table
      (fleet.machines ip).config.configEntries, LogEntry.CleanName alert.name := by
    intro alert member
    obtain ⟨entry, inside, same⟩ := mem_alerts_name member
    rw [same]
    exact names entry inside
  obtain ⟨fresh, logs, run⟩ := @lifetime_logAlerts resuming ip sys _ clean
    (by rw [mirrors.issued.length_eq]; exact room) nowMs
  have logged := orderly.generateLog_eq ip order nowMs
  refine ⟨_, run, ?_⟩
  exact
    { mirrors with
      queue := by
        simp only [Fleet.step, Fleet.update, Function.update_self, logged]
        rw [mirrors.queue]
        rfl
      issued := by
        simp only [Fleet.step, Fleet.update, Function.update_self, logged]
        exact List.rel_append mirrors.issued logs }

/-- A batch that is sent is in flight in both views. -/
theorem Mirrors.sendBatch {info : ClientInfo} (mirrors : Mirrors fleet info.clientIp sys) :
    Mirrors (fleet.sendBatch info) info.clientIp sys.sendBatch := by
  simp only [System.sendBatch, Fleet.sendBatch, ← mirrors.queue]
  cases sendLogs sys.queue with
  | error e => exact mirrors
  | ok sent =>
      cases sent with
      | none => exact mirrors
      | some payload =>
          refine { mirrors with toServer := ?_ }
          intro item member same
          rcases List.mem_cons.mp member with rfl | older
          · exact Or.inl List.mem_cons_self
          · exact (mirrors.toServer item older same).imp_left (List.mem_cons_of_mem payload)

/-- To the other machines it is nothing. -/
theorem Mirrors.sendBatch_other (mirrors : Mirrors fleet ip sys) {info : ClientInfo}
    (other : info.clientIp ≠ ip) : Mirrors (fleet.sendBatch info) ip sys := by
  unfold Fleet.sendBatch
  split
  · refine { mirrors with toServer := ?_ }
    intro item member same
    rcases List.mem_cons.mp member with rfl | older
    · exact absurd same other
    · exact mirrors.toServer item older same
  · exact mirrors

/-- In either case this machine goes on as one client does. -/
theorem mirrors_sendBatch (mirrors : Mirrors fleet ip sys) (info : ClientInfo) :
    ∃ sys', System.Lifetime resuming ip sys sys' ∧
      Mirrors (fleet.step deployment (.sendBatch info)) ip sys' := by
  by_cases own : info.clientIp = ip
  · subst own
    exact ⟨_, .single (.during .sendBatch) trivial fun _ => trivial, mirrors.sendBatch⟩
  · exact ⟨sys, .refl, mirrors.sendBatch_other own⟩

/-- Elsewhere the server may do what it likes. -/
theorem mirrors_elsewhere (mirrors : Mirrors fleet ip sys) {disk : Disk}
    (same : disk (clientLogFile ip) = fleet.disk (clientLogFile ip)) :
    System.Lifetime resuming ip sys { sys with disk := disk } ∧
      Mirrors { fleet with disk := disk } ip { sys with disk := disk } :=
  ⟨.single (.elsewhere disk) (by rw [System.Lives, mirrors.disk, same]) fun _ => trivial,
    { mirrors with disk := rfl }⟩

/-- The server handles a message, and its answers are in flight in both. -/
theorem Mirrors.recvInput (mirrors : Mirrors fleet ip sys) {info : ClientInfo} {payload : Bytes}
    {junk : Indeterminate} {netCount : UInt32} (order : IterationOrder ((_ : Int) × ClientInfo))
    {disk : Disk} {sends : List NetworkSendEvent}
    (publishes : publishRecv junk netCount ⟨info.clientIp, info.clientPort, payload⟩
      fleet.history.clients fleet.disk = (disk, sends))
    {toClient : List Bytes} (kept : ∀ other ∈ sys.toClient, other ∈ toClient)
    (answers : ∀ event ∈ sends, event.payload ∈ toClient) :
    Mirrors (fleet.recvInput info payload junk netCount order) ip
      { sys with disk := disk, toClient := toClient } := by
  simp only [Fleet.recvInput, publishes]
  refine { mirrors with disk := rfl, toClients := ?_ }
  intro item member same id acks
  rcases List.mem_append.mp member with answer | older
  · obtain ⟨event, published, payload, _⟩ := mem_answers answer
    rw [payload]
    exact answers event published
  · exact kept _ (mirrors.toClients item older same id acks)

/-- A message from another machine goes on other files, and its answers to other addresses. -/
theorem Mirrors.recvInput_other (mirrors : Mirrors fleet ip sys) {info : ClientInfo}
    (other : info.clientIp ≠ ip) (payload : Bytes) (junk : Indeterminate) (netCount : UInt32)
    (order : IterationOrder ((_ : Int) × ClientInfo)) :
    let after := fleet.recvInput info payload junk netCount order
    after.disk (clientLogFile ip) = sys.disk (clientLogFile ip) ∧
      Mirrors after ip { sys with disk := after.disk } := by
  have frame := publishRecv_frame junk netCount ⟨info.clientIp, info.clientPort, payload⟩
    fleet.history.clients fleet.disk
  have differs : clientLogFile ip ≠ clientLogFile info.clientIp :=
    fun same => other (clientLogFile_injective same).symm
  refine ⟨?_, { mirrors with disk := rfl, toClients := ?_ }⟩
  · rw [mirrors.disk]
    exact frame.others _ differs
  · intro item member same id acks
    rcases List.mem_append.mp member with answer | older
    · obtain ⟨event, published, _, address⟩ := mem_answers answer
      obtain ⟨_, rfl⟩ := frame.acks event published
      exact absurd (address.symm.trans same) other
    · exact mirrors.toClients item older same id acks

/-- A message that the server handles is a batch of this machine, or leaves its file as it is and
sends it nothing. -/
theorem mirrors_recvInput (mirrors : Mirrors fleet ip sys) {info : ClientInfo} {payload : Bytes}
    (sent : (info, payload) ∈ fleet.toServer) (junk : Indeterminate) (netCount : UInt32)
    (order : IterationOrder ((_ : Int) × ClientInfo)) :
    ∃ sys', System.Lifetime resuming ip sys sys' ∧
      Mirrors (fleet.recvInput info payload junk netCount order) ip sys' := by
  by_cases own : info.clientIp = ip
  · subst own
    rcases mirrors.toServer _ sent rfl with batch | reply
    · obtain ⟨toClient, kept, answers, run⟩ := @lifetime_publishRecv resuming info.clientIp sys
        info.clientPort payload batch junk netCount fleet.history.clients
      rw [mirrors.disk] at answers run
      exact ⟨_, run, mirrors.recvInput order rfl kept answers⟩
    · simp only at reply
      subst reply
      refine ⟨sys, .refl, ?_⟩
      simp only [Fleet.recvInput, publishRecv_configOk, List.filterMap_nil, List.nil_append]
      exact { mirrors with }
  · obtain ⟨same, next⟩ := mirrors.recvInput_other own payload junk netCount order
    exact ⟨_, .single (.elsewhere _) same fun _ => trivial, next⟩

/-- An ack is followed in both, and a configuration leaves the queue alone. -/
theorem followed_meant {json : JsonLibrary} {pushed : List (Bytes × List ConfigEntry)}
    {info : ClientInfo} {payload : Bytes} (meant : Meant json pushed info payload)
    (held : ∀ id, payload = ackPayload id → payload ∈ sys.toClient) (junkId : UInt64) :
    ∃ sys', System.Lifetime resuming ip sys sys' ∧ sys'.queue = followedQueue junkId payload
      sys.queue ∧ sys'.issued = sys.issued ∧ sys'.disk = sys.disk ∧
      sys'.toServer = sys.toServer ∧ sys'.toClient = sys.toClient := by
  rcases meant with ⟨id, rfl⟩ | ⟨content, entries, written, parses, _⟩
  · obtain ⟨index, found⟩ := List.getElem?_of_mem (held id rfl)
    refine ⟨_, .single (.during (.recvAck index junkId)) trivial fun _ => trivial, ?_⟩
    simp only [System.live, System.step, found, recvAck_ackPayload, followedQueue,
      ackSubscriber_ackPayload]
    exact ⟨trivial, trivial, trivial, trivial, trivial⟩
  · refine ⟨sys, .refl, ?_, rfl, rfl, rfl, rfl⟩
    have reads := readString_writeString written []
    have other : (ascii "ack ").isPrefixOf (ascii "config " ++ content) = false := rfl
    rw [List.append_nil] at reads
    simp [followedQueue, ackSubscriber, reads, other, bind, Except.bind, pure, Except.pure]

/-- What a client publishes for a message is the reply to a configuration. -/
theorem toServer_recvServerInput {info : ClientInfo} {payload : Bytes} {junkId : UInt64}
    {item : ClientInfo × Bytes}
    (member : item ∈ (fleet.recvServerInput deployment info payload junkId).toServer) :
    item ∈ fleet.toServer ∨ item.2 = configOk := by
  obtain ⟨_, _, replies⟩ := receiveServerInput_frame deployment.json deployment.serverIp
    deployment.serverPort junkId payload (fleet.machines info.clientIp).client
  rcases List.mem_append.mp member with reply | older
  · split at reply
    · obtain ⟨event, published, rfl⟩ := List.mem_map.mp reply
      exact Or.inr (replies event published)
    · cases reply
  · exact Or.inl older

/-- A client reads a message, and its queue follows in both. -/
theorem Mirrors.recvServerInput {info : ClientInfo} (mirrors : Mirrors fleet info.clientIp sys)
    {payload : Bytes} {junkId : UInt64} {sys' : System}
    (queue : sys'.queue = followedQueue junkId payload sys.queue)
    (issued : sys'.issued = sys.issued) (disk : sys'.disk = sys.disk)
    (toServer : sys'.toServer = sys.toServer) (toClient : sys'.toClient = sys.toClient) :
    Mirrors (fleet.recvServerInput deployment info payload junkId) info.clientIp sys' := by
  obtain ⟨follows, _, _⟩ := receiveServerInput_frame deployment.json deployment.serverIp
    deployment.serverPort junkId payload (fleet.machines info.clientIp).client
  constructor
  · simp only [Fleet.recvServerInput, Fleet.update, Function.update_self, Machine.queue, follows]
    rw [queue, mirrors.queue]
    rfl
  · rw [disk]
    exact mirrors.disk
  · rw [issued]
    simpa [Fleet.recvServerInput, Fleet.update] using mirrors.issued
  · intro item member same
    rw [toServer]
    exact (toServer_recvServerInput member).elim
      (fun older => mirrors.toServer item older same) Or.inr
  · rw [toClient]
    exact mirrors.toClients

/-- What another client reads is nothing to this one. -/
theorem Mirrors.recvServerInput_other (mirrors : Mirrors fleet ip sys) {info : ClientInfo}
    (other : info.clientIp ≠ ip) (payload : Bytes) (junkId : UInt64) :
    Mirrors (fleet.recvServerInput deployment info payload junkId) ip sys := by
  have others : ip ≠ info.clientIp := fun same => other same.symm
  exact
    { queue := by simpa [Fleet.recvServerInput, Fleet.update, others] using mirrors.queue
      disk := mirrors.disk
      issued := by simpa [Fleet.recvServerInput, Fleet.update, others] using mirrors.issued
      toServer := fun item member same => (toServer_recvServerInput member).elim
        (fun older => mirrors.toServer item older same) Or.inr
      toClients := mirrors.toClients }

/-- What a client reads is an ack, which its queue takes, or a configuration, which the queue does
not look at. -/
theorem mirrors_recvServerInput (mirrors : Mirrors fleet ip sys) {info : ClientInfo}
    {payload : Bytes} (inFlight : (info, payload) ∈ fleet.toClients)
    (meant : Meant deployment.json fleet.pushed info payload) (junkId : UInt64) :
    ∃ sys', System.Lifetime resuming ip sys sys' ∧
      Mirrors (fleet.recvServerInput deployment info payload junkId) ip sys' := by
  by_cases own : info.clientIp = ip
  · subst own
    obtain ⟨sys', run, queue, issued, disk, toServer, toClient⟩ :
        ∃ sys', System.Lifetime resuming info.clientIp sys sys' ∧ _ :=
      followed_meant meant (fun id acks => mirrors.toClients _ inFlight rfl id acks) junkId
    exact ⟨sys', run, mirrors.recvServerInput queue issued disk toServer toClient⟩
  · exact ⟨sys, .refl, mirrors.recvServerInput_other own payload junkId⟩

/-- What the operator sends carries no ack. -/
theorem mirrors_operator (mirrors : Mirrors fleet ip sys) (line : Bytes)
    (order : IterationOrder ((_ : Int) × ClientInfo)) :
    Mirrors (fleet.operator deployment line order) ip sys := by
  refine { mirrors with toClients := ?_ }
  intro item member same id acks
  rcases List.mem_append.mp member with handed | older
  · -- what the operator sends is not an ack
    obtain ⟨content, entries, written, parses, _⟩ := askedFor_of_handedOver handed
    have config := pushedEntries_push written parses [] 0
    rw [acks, pushedEntries_ack] at config
    cases config
  · exact mirrors.toClients item older same id acks

/-- A restart of the machine is one in both views, and that of another machine is none. -/
theorem mirrors_restart (mirrors : Mirrors fleet ip sys) (other : Bytes) {junkAckId : UInt64}
    {junk : Nat → Indeterminate} {temp : File} {renames : Bool}
    (resumes : resuming → fleet.Resumes (.restart other junkAckId junk temp renames)) :
    ∃ sys', System.Lifetime resuming ip sys sys' ∧
      Mirrors (fleet.step deployment (.restart other junkAckId junk temp renames)) ip sys' := by
  by_cases own : ip = other
  · subst own
    cases started : startConfig deployment.json (fleet.machines ip).client.file with
    | error e =>
        refine ⟨sys, .refl, mirrors.update ip _ fun _ => ?_⟩
        simp [Machine.restart, started]
    | ok outcome =>
        have goesOn : resuming →
            System.Resumes sys (.restart junkAckId junk temp renames) := by
          intro wanted
          rw [System.Resumes, mirrors.queue]
          refine (resumes wanted).imp_right fun nothing => ?_
          have logs := mirrors.issued
          rw [nothing] at logs
          exact List.forall₂_nil_right_iff.mp logs
        refine ⟨_, .single (.restart junkAckId junk temp renames) trivial goesOn, ?_⟩
        exact
          { mirrors with
            queue := by
              simp [System.live, System.restart, mirrors.queue, Fleet.step, Fleet.update,
                Machine.restart, started, Machine.queue]
            issued := by
              simpa [System.live, System.restart, Fleet.step, Fleet.update, Machine.restart,
                started] using mirrors.issued }
  · exact ⟨sys, .refl, mirrors.update other _ fun same => absurd same own⟩

/-- Every step of the deployment is, for each machine, some steps of its lifetime. -/
theorem mirrors_step (orderly : Orderly deployment fleet) (mirrors : Mirrors fleet ip sys)
    {event : FleetEvent} (allowed : fleet.Allowed event)
    (resumes : resuming → fleet.Resumes event) :
    ∃ sys', System.Lifetime resuming ip sys sys' ∧
      Mirrors (fleet.step deployment event) ip sys' := by
  cases event with
  | accept connection => exact ⟨sys, .refl, { mirrors with }⟩
  | sample other call => exact ⟨sys, .refl, mirrors.update other _ fun _ => ⟨rfl, rfl⟩⟩
  | generateLog other order nowMs =>
      by_cases own : ip = other
      · subst own
        exact mirrors_generateLog orderly mirrors allowed
      · exact ⟨sys, .refl, mirrors.update other _ fun same => absurd same own⟩
  | sendBatch info => exact mirrors_sendBatch mirrors info
  | recvInput index junk netCount order =>
      rw [Fleet.step]
      split
      · rename_i found
        exact mirrors_recvInput mirrors (List.mem_of_getElem? found) junk netCount order
      · exact ⟨sys, .refl, mirrors⟩
  | recvServerInput index junkId =>
      rw [Fleet.step]
      split
      · rename_i info payload found
        have sent := List.mem_of_getElem? found
        exact mirrors_recvServerInput mirrors sent (orderly.toClients _ sent) junkId
      · exact ⟨sys, .refl, mirrors⟩
  | operator line order => exact ⟨sys, .refl, mirrors_operator mirrors line order⟩
  | edit name file =>
      obtain ⟨run, next⟩ : System.Lifetime resuming ip sys _ ∧ _ :=
        mirrors_elsewhere mirrors (Function.update_of_ne (allowed ip).symm file fleet.disk)
      exact ⟨_, run, next⟩
  | restart other junkAckId junk temp renames => exact mirrors_restart mirrors other resumes
  | serverRestart =>
      refine ⟨sys, .refl, { mirrors with toServer := ?_ }⟩
      exact fun item member => absurd member List.not_mem_nil
  | loseToServer index =>
      refine ⟨sys, .refl, { mirrors with toServer := ?_ }⟩
      exact fun item member => mirrors.toServer item (List.mem_of_mem_eraseIdx member)
  | loseToClient index =>
      refine ⟨sys, .refl, { mirrors with toClients := ?_ }⟩
      exact fun item member => mirrors.toClients item (List.mem_of_mem_eraseIdx member)

/-- A whole run of the deployment, as one machine sees it, is a lifetime of one client with the
server. -/
theorem run_mirrors {start : Fleet} (fresh : start.Fresh)
    (run : Fleet.Run deployment resuming start fleet) (ip : Bytes) :
    ∃ junkAckId junk sys, System.Lifetime resuming ip
      (System.initial junkAckId junk start.disk) sys ∧ Mirrors fleet ip sys := by
  induction run with
  | refl =>
      obtain ⟨junkAckId, junk, queue⟩ := (fresh.machines ip).queue
      refine ⟨junkAckId, junk, _, .refl, ?_⟩
      exact
        { queue := queue.symm
          disk := rfl
          issued := by
            rw [(fresh.machines ip).reported]
            exact .nil
          toServer := by simp [fresh.toServer]
          toClients := by simp [fresh.toClients] }
  | step run event allowed resumes ih =>
      obtain ⟨junkAckId, junk, sys, lifetime, mirrors⟩ := ih
      obtain ⟨sys', more, next⟩ := mirrors_step (run_orderly fresh run) mirrors allowed resumes
      exact ⟨junkAckId, junk, sys', lifetime.trans more, next⟩

/-- From one state of the deployment to a later one, the lifetimes go on. -/
theorem later_mirrors {start later : Fleet} (fresh : start.Fresh)
    (before : Fleet.Run deployment resuming start fleet)
    (run : Fleet.Run deployment resuming fleet later) (mirrors : Mirrors fleet ip sys) :
    ∃ sys', System.Lifetime resuming ip sys sys' ∧ Mirrors later ip sys' := by
  have trans {between : Fleet} (run : Fleet.Run deployment resuming fleet between) :
      Fleet.Run deployment resuming start between := by
    induction run with
    | refl => exact before
    | step _ event allowed resumes ih => exact ih.step event allowed resumes
  induction run with
  | refl => exact ⟨sys, .refl, mirrors⟩
  | step run event allowed resumes ih =>
      obtain ⟨sys', lifetime, now⟩ := ih
      obtain ⟨sys'', more, next⟩ :=
        mirrors_step (run_orderly fresh (trans run)) now allowed resumes
      exact ⟨sys'', lifetime.trans more, next⟩

end Step

/-! ### What holds of the deployment -/

/-- The server's files.  As long as every client that is started again finds something to go on
with, and however often the server is, at any time and for every machine at once: the server's
file is a front part of what the machine was to log, without gap, repetition or a foreign entry,
and the client still has everything behind some point of it. -/
theorem fleet_files {deployment : Deployment} {start fleet : Fleet} (fresh : start.Fresh)
    (run : Fleet.Run deployment True start fleet) (ip : Bytes) :
    let reference := numberReports (fleet.machines ip).reported
    ∃ stored ≤ reference.length, ∃ released ≤ stored,
      (fleet.disk (clientLogFile ip)).bytes =
          (reference.take stored).flatMap LogEntry.serializeStr ∧
        (fleet.machines ip).queue.logEntries = reference.drop released := by
  obtain ⟨junkAckId, junk, sys, lifetime, mirrors⟩ := run_mirrors fresh run ip
  obtain ⟨a, kept, resumable, persists⟩ := lifetime_persists (fresh.disk ip) lifetime
  have refines := persists.refines
  have numbered := refines.numbered
  rw [← refines.issued] at numbered
  have reference := eq_numberReports numbered mirrors.issued
  rw [← reference, ← mirrors.disk, ← mirrors.queue, refines.issued]
  exact ⟨a.stored, resumable.inv.stored_le, a.released, resumable.inv.released_le, refines.file,
    refines.pending⟩

/-! A machine on which one process is watched, next to others on which none is. -/

def watchedMachine (ip : Bytes) : Machine where
  table := ProcessTable.empty
  client :=
    ⟨⟨⟨if ip = ascii "10.0.0.7" then [⟨ascii "vim", 100, 1000, 1000, 1000⟩] else []⟩,
      LogQueue.ofFiles 0 (fun _ => default) File.absent File.absent⟩, File.absent⟩
  started := ⟨if ip = ascii "10.0.0.7" then [⟨ascii "vim", 100, 1000, 1000, 1000⟩] else []⟩
  reported := []

def freshFleet : Fleet where
  machines := watchedMachine
  disk := fun _ => File.absent
  history := History.empty
  toServer := []
  toClients := []
  pushed := []

theorem fresh_freshFleet : freshFleet.Fresh where
  machines _ := ⟨rfl, ⟨0, fun _ => default, rfl⟩, rfl, rfl⟩
  disk _ := rfl
  connections := rfl
  toServer := rfl
  toClients := rfl
  pushed := rfl

def sampleDeployment : Deployment := ⟨sampleJson, fun _ _ => 0, ascii "10.0.0.1", 12345⟩

/-- A process that uses 4096 bytes of memory. -/
def vimCall : UpdateCall where
  statCpu := some ⟨10, 90⟩
  pids := some [⟨31, some (ascii "vim" ++ [0]), none, some ⟨5, 4096⟩, ⟨none, none⟩, none⟩]
  pidNetworkUsage := ∅
  order := .stored

/-- It is found to use too much, and the server is told. -/
def watchedEvents : List FleetEvent :=
  [.accept ⟨4, ascii "10.0.0.7", 50000⟩, .sample (ascii "10.0.0.7") vimCall,
    .generateLog (ascii "10.0.0.7") .stored 1700000000000,
    .sendBatch ⟨1, 4, ascii "10.0.0.7", 50000⟩, .recvInput 0 default 0 .stored]

def watchedFleet : Fleet := watchedEvents.foldl (Fleet.step sampleDeployment) freshFleet

theorem run_watchedFleet (resuming : Prop) :
    Fleet.Run sampleDeployment resuming freshFleet watchedFleet := by
  have accepted : Fleet.Run sampleDeployment resuming freshFleet _ :=
    Fleet.Run.refl.step (.accept ⟨4, ascii "10.0.0.7", 50000⟩) trivial fun _ => trivial
  have logged := (accepted.step (.sample (ascii "10.0.0.7") vimCall) trivial
    fun _ => trivial).step (.generateLog (ascii "10.0.0.7") .stored 1700000000000)
      ⟨by decide +kernel, by decide +kernel⟩ fun _ => trivial
  have sent := logged.step (.sendBatch ⟨1, 4, ascii "10.0.0.7", 50000⟩)
    (List.mem_singleton_self (⟨1, 4, ascii "10.0.0.7", 50000⟩ : ClientInfo)) fun _ => trivial
  exact sent.step (.recvInput 0 default 0 .stored) trivial fun _ => trivial

theorem fleet_files_sample :
    (watchedFleet.disk (clientLogFile (ascii "10.0.0.7"))).bytes =
        ascii "1|vim|1700000000000|2|4096\n" ∧
      let reference := numberReports (watchedFleet.machines (ascii "10.0.0.7")).reported
      ∃ stored ≤ reference.length, ∃ released ≤ stored,
        (watchedFleet.disk (clientLogFile (ascii "10.0.0.7"))).bytes =
            (reference.take stored).flatMap LogEntry.serializeStr ∧
          (watchedFleet.machines (ascii "10.0.0.7")).queue.logEntries =
            reference.drop released :=
  ⟨by decide +kernel, fleet_files fresh_freshFleet (run_watchedFleet True) _⟩

/-- However often clients and the server are started again: every file of the server has the
ids 1, 2, 3 and so on, it only grows, and every entry in it stands for an alert of its machine. -/
theorem fleet_files_grow {deployment : Deployment} {start fleet later : Fleet}
    (fresh : start.Fresh) (before : Fleet.Run deployment False start fleet)
    (run : Fleet.Run deployment False fleet later) (ip : Bytes) :
    ∃ kept more, Numbered 0 (kept ++ more) ∧
      (fleet.disk (clientLogFile ip)).bytes = kept.flatMap LogEntry.serializeStr ∧
      (later.disk (clientLogFile ip)).bytes = (kept ++ more).flatMap LogEntry.serializeStr ∧
      ∀ entry ∈ kept ++ more, ∃ report ∈ (later.machines ip).reported, Logs entry report := by
  obtain ⟨junkAckId, junk, sys, lifetime, mirrors⟩ := run_mirrors fresh before ip
  obtain ⟨sys', further, mirrors'⟩ := later_mirrors fresh before run mirrors
  obtain ⟨kept, written, traceable⟩ :=
    lifetime_grows (traceable_initial junkAckId junk (fresh.disk ip)) lifetime
  obtain ⟨more, left, traceable'⟩ := lifetime_grows traceable further
  rw [List.nil_append] at traceable traceable'
  refine ⟨kept, more, traceable'.stores.numbered, ?_, ?_, ?_⟩
  · rw [← mirrors.disk]
    exact traceable.stores.content
  · rw [← mirrors'.disk]
    exact traceable'.stores.content
  · exact fun entry member => mem_reported mirrors'.issued (traceable'.kept_issued entry member)

/-- The client and the server are both killed before the ack arrives, and the client connects and
sends again. -/
def resentFleet : Fleet :=
  [.restart (ascii "10.0.0.7") 0 (fun _ => default) File.absent true, .serverRestart,
    .accept ⟨4, ascii "10.0.0.7", 50001⟩, .sendBatch ⟨1, 4, ascii "10.0.0.7", 50001⟩,
    .recvInput 0 default 0 .stored].foldl (Fleet.step sampleDeployment) watchedFleet

theorem reconnected (deployment : Deployment) (fleet : Fleet) (connection : Accepted) :
    (⟨1, connection.clientSocket, connection.clientIp, connection.clientPort⟩ : ClientInfo) ∈
      ((fleet.step deployment .serverRestart).step deployment (.accept connection)).history.clients
    := by
  simp [Fleet.step, Fleet.serverRestart, History.empty, History.accept, History.Accepts,
    History.clients, acceptedClients]

theorem run_resentFleet : Fleet.Run sampleDeployment False watchedFleet resentFleet := by
  have started : Fleet.Run sampleDeployment False watchedFleet _ :=
    (Fleet.Run.refl.step (.restart (ascii "10.0.0.7") 0 (fun _ => default) File.absent true)
      trivial False.elim).step .serverRestart trivial False.elim
  have connected := started.step (.accept ⟨4, ascii "10.0.0.7", 50001⟩) trivial False.elim
  have sent := connected.step (.sendBatch ⟨1, 4, ascii "10.0.0.7", 50001⟩)
    (reconnected _ _ ⟨4, ascii "10.0.0.7", 50001⟩) False.elim
  rw [resentFleet, List.foldl_cons, List.foldl_cons, List.foldl_cons, List.foldl_cons,
    List.foldl_cons, List.foldl_nil]
  exact sent.step (.recvInput 0 default 0 .stored) trivial False.elim

theorem fleet_files_grow_sample :
    ∃ kept more, Numbered 0 (kept ++ more) ∧
      (watchedFleet.disk (clientLogFile (ascii "10.0.0.7"))).bytes =
        kept.flatMap LogEntry.serializeStr ∧
      (resentFleet.disk (clientLogFile (ascii "10.0.0.7"))).bytes =
        (kept ++ more).flatMap LogEntry.serializeStr ∧
      ∀ entry ∈ kept ++ more,
        ∃ report ∈ (resentFleet.machines (ascii "10.0.0.7")).reported, Logs entry report :=
  fleet_files_grow fresh_freshFleet (run_watchedFleet False) run_resentFleet _

/-- Whatever happens, the configuration in force at a machine is that of its last start, or one
that the operator asked for at its address, and for no other. -/
theorem fleet_config {deployment : Deployment} {start : Fleet} (fresh : start.Fresh)
    (events : List FleetEvent) (ip : Bytes) :
    let fleet := events.foldl (Fleet.step deployment) start
    (fleet.machines ip).config = (fleet.machines ip).started ∨
      ∃ entries, (ip, entries) ∈ fleet.pushed ∧ (fleet.machines ip).config = ⟨entries⟩ :=
  (orderly_steps fresh events).config ip

/-- The operator writes a configuration and pushes it to the first client. -/
def pushEvents : List FleetEvent :=
  watchedEvents ++ [.edit (ascii "chrome.json") (sampleDisk (ascii "chrome.json")),
    .operator (ascii "1:config chrome.json") .stored, .recvServerInput 0 0]

theorem fleet_config_sample :
    let fleet := pushEvents.foldl (Fleet.step sampleDeployment) freshFleet
    (fleet.machines (ascii "10.0.0.7")).config ≠ (fleet.machines (ascii "10.0.0.7")).started ∧
      ((fleet.machines (ascii "10.0.0.7")).config =
          (fleet.machines (ascii "10.0.0.7")).started ∨
        ∃ entries, (ascii "10.0.0.7", entries) ∈ fleet.pushed ∧
          (fleet.machines (ascii "10.0.0.7")).config = ⟨entries⟩) :=
  ⟨by decide +kernel, fleet_config fresh_freshFleet pushEvents _⟩

end RemoteMonitoring
