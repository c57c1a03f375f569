/-
Module: RemoteMonitoring.Proofs.FleetDelivery
Purpose: Whatever the deployment has been through, undisturbed round trips of its machines, in
  any order, bring what each machine has logged into the server's file of it.
Trusted boundary: the JSON library is a parameter
Main exports: Mirrored, mirrored_roundTrip, mirrored_roundTrips, fleet_delivers
-/
import RemoteMonitoring.Proofs.Fleet

namespace RemoteMonitoring

open ByteText

/-! ### A connection that is the only one from its address and port -/

section Sole

variable {history : History} {info : ClientInfo}

theorem History.nodup_clients (history : History) : history.clients.Nodup := by
  apply List.Nodup.of_map ClientInfo.clientSocket
  rw [History.clients, map_clientSocket]
  exact history.distinct

/-- With no other connection from its address and port, only the handler of the connection itself
does something with the message. -/
theorem publishRecv_sole (sole : history.Sole info) {payload : Bytes} {junk : Indeterminate}
    {netCount : UInt32} {disk after : Disk} {sends : List NetworkSendEvent}
    (handles : ClientHandler.onNetworkRecv info junk netCount
      ⟨info.clientIp, info.clientPort, payload⟩ disk = .ok (after, sends)) :
    publishRecv junk netCount ⟨info.clientIp, info.clientPort, payload⟩ history.clients disk =
      (after, sends) := by
  obtain ⟨front, behind, split⟩ := List.append_of_mem sole.member
  have alone : info.connection ∉ (front ++ behind).map ClientInfo.connection := by
    intro there
    obtain ⟨other, inside, same⟩ := List.mem_map.mp there
    have listed : other ∈ history.clients := by
      rw [split, List.mem_append, List.mem_cons]
      exact (List.mem_append.mp inside).imp_right Or.inr
    have nodup := history.nodup_clients
    rw [split, List.nodup_middle, List.nodup_cons] at nodup
    rw [sole.alone other listed same] at inside
    exact nodup.1 inside
  rw [split, ← publish_snd, publish_of_split _ rfl alone, handles]

/-- What is published for the connection is in flight on it, and on no other. -/
theorem answers_sole (sole : history.Sole info) (order : IterationOrder ((_ : Int) × ClientInfo))
    (payload : Bytes) :
    ([⟨info.clientIp, info.clientPort, payload⟩].filterMap
      (sendOutputToClient order history.handlers)).filterMap history.inFlight =
        [(info, payload)] := by
  obtain ⟨found, inside, looked, ip, port⟩ := getClientInfo_mem order sole.member
  have equal := sole.alone found inside (by rw [ClientInfo.connection, ip, port]; rfl)
  have known : info.clientId ≠ 0 := by
    have range := clientId_range sole.member
    omega
  have handed : sendOutputToClient order history.handlers
      ⟨info.clientIp, info.clientPort, payload⟩ = some (info.clientSocket, payload) := by
    rw [equal] at looked
    simp [sendOutputToClient, looked, known]
  have carried : history.inFlight (info.clientSocket, payload) = some (info, payload) :=
    inFlight_eq_some.mpr ⟨sole.member, rfl⟩
  simp [handed, carried]

/-- A handler that brings one more ack in flight has published just this ack. -/
theorem handles_of_toClient {sys : System} {payload : Bytes} {junk : Indeterminate}
    {netCount : UInt32} {id : UInt64}
    (toClient : (sys.recvBatch payload info junk netCount).toClient =
      ackPayload id :: sys.toClient) :
    ∃ disk,
      ClientHandler.onNetworkRecv info junk netCount ⟨info.clientIp, info.clientPort, payload⟩
        sys.disk = .ok (disk, [⟨info.clientIp, info.clientPort, ackPayload id⟩]) ∧
      sys.recvBatch payload info junk netCount =
        { sys with disk := disk, toClient := ackPayload id :: sys.toClient } := by
  unfold System.recvBatch at toClient ⊢
  cases handled : ClientHandler.onNetworkRecv info junk netCount
      ⟨info.clientIp, info.clientPort, payload⟩ sys.disk with
  | error e =>
      simp only [handled] at toClient
      exact absurd toClient (List.cons_ne_self _ _).symm
  | ok outcome =>
      obtain ⟨disk, sends⟩ := outcome
      simp only [handled] at toClient
      have published : sends.map NetworkSendEvent.payload = [ackPayload id] :=
        List.append_cancel_right toClient
      obtain ⟨event, rfl, payload⟩ := List.map_eq_singleton_iff.mp published
      obtain ⟨other, rfl⟩ := (onNetworkRecv_frame handled).acks event List.mem_cons_self
      simp only at payload
      exact ⟨disk, by rw [payload], by simp only [handled, toClient]⟩

end Sole

/-! ### One round trip -/

/-- The machine at `ip`, the server's file of it and the messages between the two are as a state
of the protocol says. -/
structure Mirrored (fleet : Fleet) (ip : Bytes) (a : CumulativeAck.State LogEntry) : Prop where
  inv : CumulativeAck.Inv a
  mirrors : ∃ sys, Mirrors fleet ip sys ∧ Refines ip sys a

section Trips

variable {deployment : Deployment} {fleet : Fleet} {ip : Bytes}
  {a : CumulativeAck.State LogEntry}

/-- What was logged on a machine can be encoded. -/
def Encodable (machine : Machine) : Prop :=
  ∀ report ∈ machine.reported, report.2.name.length < 2 ^ 32

/-- What a batch that is sent and answered with an ack goes through. -/
theorem roundTrip_eq {trip : Fleet.Trip} (sole : fleet.history.Sole trip.info) {payload : Bytes}
    (sends : sendLogs (fleet.machines trip.info.clientIp).queue = .ok (some payload))
    {disk : Disk} {id : UInt64}
    (handles : ClientHandler.onNetworkRecv trip.info trip.junk trip.netCount
      ⟨trip.info.clientIp, trip.info.clientPort, payload⟩ fleet.disk =
        .ok (disk, [⟨trip.info.clientIp, trip.info.clientPort, ackPayload id⟩])) :
    fleet.roundTrip deployment trip =
      ((fleet.sendBatch trip.info).recvInput trip.info payload trip.junk trip.netCount
        trip.order).recvServerInput deployment trip.info (ackPayload id) trip.junkId := by
  have sent : fleet.sendBatch trip.info =
      { fleet with toServer := (trip.info, payload) :: fleet.toServer } := by
    rw [Fleet.sendBatch, sends]
  have arrives : (fleet.sendBatch trip.info).toServer[0]? = some (trip.info, payload) := by
    rw [sent]
    rfl
  have returns : ((fleet.sendBatch trip.info).recvInput trip.info payload trip.junk
      trip.netCount trip.order).toClients[0]? = some (trip.info, ackPayload id) := by
    rw [sent]
    simp only [Fleet.recvInput, publishRecv_sole sole handles, answers_sole sole]
    rfl
  simp only [Fleet.roundTrip, Fleet.step, arrives, returns]

/-- Where something waits, a batch is sent, reaches its handler, and is answered with an ack
that the client follows. -/
theorem mirrored_roundTrip {trip : Fleet.Trip} (mirrored : Mirrored fleet trip.info.clientIp a)
    (sole : fleet.history.Sole trip.info)
    (encodable : Encodable (fleet.machines trip.info.clientIp))
    (waiting : (fleet.machines trip.info.clientIp).queue.logEntries.isEmpty = false) :
    ∃ payload id,
      fleet.roundTrip deployment trip =
        ((fleet.sendBatch trip.info).recvInput trip.info payload trip.junk trip.netCount
          trip.order).recvServerInput deployment trip.info (ackPayload id) trip.junkId ∧
      Mirrored (fleet.roundTrip deployment trip) trip.info.clientIp (a.trip 100) := by
  obtain ⟨sys, mirrors, refines⟩ := mirrored.mirrors
  have names : ∀ entry ∈ sys.issued, entry.processName.length < 2 ^ 32 := by
    intro entry member
    obtain ⟨report, inside, logs⟩ := mem_reported mirrors.issued member
    rw [logs]
    exact encodable report inside
  rw [← mirrors.queue] at waiting
  obtain ⟨payload, sends⟩ := refines.sendLogs mirrored.inv names waiting
  obtain ⟨id, toClient, followed⟩ := refines_exchange refines mirrored.inv sends rfl trip.junk
    trip.netCount trip.junkId
  have offered : Mirrors (fleet.sendBatch trip.info) trip.info.clientIp sys.sendBatch :=
    mirrors.sendBatch
  obtain ⟨disk, handles, handled⟩ :=
    handles_of_toClient (toClient.trans (by rw [System.sendBatch, sends]))
  rw [handled] at followed
  rw [offered.disk] at handles
  rw [mirrors.queue] at sends
  have sent : (fleet.sendBatch trip.info).history = fleet.history ∧
      (fleet.sendBatch trip.info).disk = fleet.disk := by
    rw [Fleet.sendBatch, sends]
    exact ⟨rfl, rfl⟩
  have published := publishRecv_sole (sent.1 ▸ sole) handles
  have answered := offered.recvInput trip.order published
    (fun other => List.mem_cons_of_mem (ackPayload id)) (by simp)
  have read := @Mirrors.recvServerInput deployment _ _ _ answered (ackPayload id) trip.junkId
    (System.recvAck _ (ackPayload id) trip.junkId)
    (by rw [recvAck_ackPayload, followedQueue, ackSubscriber_ackPayload])
    (by rw [recvAck_ackPayload]) (by rw [recvAck_ackPayload]) (by rw [recvAck_ackPayload])
    (by rw [recvAck_ackPayload])
  have whole := @roundTrip_eq deployment _ _ sole _ sends _ _ (sent.2 ▸ handles)
  refine ⟨payload, id, whole, mirrored.inv.trip 100, _, ?_, followed⟩
  rw [whole]
  exact read

/-- For every other machine it is as if nothing had happened. -/
theorem Mirrored.exchange_other (mirrored : Mirrored fleet ip a) {info : ClientInfo}
    (other : info.clientIp ≠ ip) (payload answer : Bytes) (junk : Indeterminate)
    (netCount : UInt32) (order : IterationOrder ((_ : Int) × ClientInfo)) (junkId : UInt64) :
    Mirrored (((fleet.sendBatch info).recvInput info payload junk netCount
      order).recvServerInput deployment info answer junkId) ip a := by
  obtain ⟨sys, mirrors, refines⟩ := mirrored.mirrors
  obtain ⟨same, handled⟩ :=
    (mirrors.sendBatch_other other).recvInput_other other payload junk netCount order
  refine ⟨mirrored.inv, _, handled.recvServerInput_other other answer junkId, ?_⟩
  exact
    { refines with
      file := by
        simp only [same]
        exact refines.file
      opens := by
        simp only [same]
        exact refines.opens }

/-- A round trip leaves the connections alone, and what was logged. -/
theorem exchange_frame (fleet : Fleet) (info : ClientInfo) (payload answer : Bytes)
    (junk : Indeterminate) (netCount : UInt32) (order : IterationOrder ((_ : Int) × ClientInfo))
    (junkId : UInt64) :
    let after := ((fleet.sendBatch info).recvInput info payload junk netCount
      order).recvServerInput deployment info answer junkId
    after.history = fleet.history ∧
      ∀ ip, (after.machines ip).reported = (fleet.machines ip).reported := by
  have history : (fleet.sendBatch info).history = fleet.history := by
    unfold Fleet.sendBatch
    split <;> rfl
  have machines : (fleet.sendBatch info).machines = fleet.machines := by
    unfold Fleet.sendBatch
    split <;> rfl
  refine ⟨history, fun ip => ?_⟩
  simp only [Fleet.recvServerInput, Fleet.recvInput, Fleet.update, machines]
  by_cases own : ip = info.clientIp
  · subst own
    simp
  · rw [Function.update_of_ne own]

/-- One round of the sender: a machine with something to send moves on by a hundred entries, or to
the end, and the others stay where they are. -/
theorem mirrored_round {states : Bytes → CumulativeAck.State LogEntry}
    (mirrored : ∀ ip, Mirrored fleet ip (states ip)) {trip : Fleet.Trip}
    (sole : fleet.history.Sole trip.info)
    (encodable : Encodable (fleet.machines trip.info.clientIp)) :
    let after :=
      if (fleet.machines trip.info.clientIp).queue.logEntries.isEmpty then fleet
      else fleet.roundTrip deployment trip
    (after.history = fleet.history ∧
        ∀ ip, (after.machines ip).reported = (fleet.machines ip).reported) ∧
      ∃ next : Bytes → CumulativeAck.State LogEntry, ∀ ip, Mirrored after ip (next ip) ∧
        (next ip).issued = (states ip).issued ∧
        min ((states ip).released + if trip.info.clientIp = ip then 100 else 0)
          (states ip).issued.length ≤ (next ip).released := by
  cases waiting : (fleet.machines trip.info.clientIp).queue.logEntries.isEmpty with
  | true =>
      rw [if_pos rfl]
      refine ⟨⟨rfl, fun _ => rfl⟩, states, fun ip => ⟨mirrored ip, rfl, ?_⟩⟩
      split
      · rename_i own
        subst own
        obtain ⟨sys, mirrors, refines⟩ := (mirrored trip.info.clientIp).mirrors
        have done := List.isEmpty_iff.mp waiting
        rw [← mirrors.queue, refines.pending, List.drop_eq_nil_iff] at done
        omega
      · exact Nat.min_le_left _ _
  | false =>
      obtain ⟨payload, id, whole, own⟩ := @mirrored_roundTrip deployment _ _ _
        (mirrored trip.info.clientIp) sole encodable waiting
      rw [if_neg Bool.false_ne_true]
      refine ⟨whole ▸ exchange_frame fleet trip.info payload (ackPayload id) trip.junk
        trip.netCount trip.order trip.junkId, Function.update states trip.info.clientIp
          ((states trip.info.clientIp).trip 100), fun ip => ?_⟩
      by_cases same : ip = trip.info.clientIp
      · subst same
        rw [Function.update_self, if_pos rfl]
        exact ⟨own, CumulativeAck.trip_issued 100 _,
          CumulativeAck.trip_released (mirrored trip.info.clientIp).inv 100⟩
      · have other := Ne.symm same
        rw [Function.update_of_ne same, if_neg other, whole]
        exact ⟨(mirrored ip).exchange_other other _ _ _ _ _ _, rfl, Nat.min_le_left _ _⟩

/-- Round trips move every machine on by a hundred entries each, or to the end. -/
theorem mirrored_roundTrips {states : Bytes → CumulativeAck.State LogEntry}
    (mirrored : ∀ ip, Mirrored fleet ip (states ip)) {trips : List Fleet.Trip}
    (soles : ∀ trip ∈ trips, fleet.history.Sole trip.info)
    (encodable : ∀ trip ∈ trips, Encodable (fleet.machines trip.info.clientIp)) (ip : Bytes) :
    let after := fleet.roundTrips deployment trips
    (after.machines ip).reported = (fleet.machines ip).reported ∧
      ∃ a', Mirrored after ip a' ∧ a'.issued = (states ip).issued ∧
        min ((states ip).released + 100 * trips.countP fun trip => trip.info.clientIp = ip)
          (states ip).issued.length ≤ a'.released := by
  induction trips generalizing fleet states with
  | nil => exact ⟨rfl, states ip, mirrored ip, rfl, by simp⟩
  | cons trip later ih =>
      rw [List.forall_mem_cons] at soles encodable
      obtain ⟨⟨history, logged⟩, next, round⟩ :=
        @mirrored_round deployment _ _ mirrored _ soles.1 encodable.1
      obtain ⟨reported, a', mirrored', issued, released⟩ := ih (fun other => (round other).1)
        (by rw [history]; exact soles.2)
        (fun other member => by
          unfold Encodable
          rw [logged]
          exact encodable.2 other member)
      obtain ⟨_, same, further⟩ := round ip
      rw [same] at issued released
      refine ⟨reported.trans (logged ip), a', mirrored', issued, ?_⟩
      rw [List.countP_cons]
      simp only [decide_eq_true_eq]
      split at further
      · rename_i own
        rw [if_pos own]
        omega
      · rename_i other
        rw [if_neg other]
        omega

end Trips

/-! ### Delivery -/

/-- Everything is delivered in the end.  After any run in which clients that start again find
something to go on with, round trips of the machines in any order leave nothing in the queue of
a machine that got enough of them, and the text of all that it ever logged in the server's file
of it. -/
theorem fleet_delivers {deployment : Deployment} {start fleet : Fleet} (fresh : start.Fresh)
    (run : Fleet.Run deployment True start fleet) {trips : List Fleet.Trip}
    (soles : ∀ trip ∈ trips, fleet.history.Sole trip.info)
    (encodable : ∀ trip ∈ trips, Encodable (fleet.machines trip.info.clientIp)) {ip : Bytes}
    (enough : (fleet.machines ip).queue.logEntries.length ≤
      100 * trips.countP fun trip => trip.info.clientIp = ip) :
    let after := fleet.roundTrips deployment trips
    (after.machines ip).queue.logEntries = [] ∧
      (after.disk (clientLogFile ip)).bytes =
        (numberReports (fleet.machines ip).reported).flatMap LogEntry.serializeStr := by
  have reached : ∀ other, ∃ a, Mirrored fleet other a := by
    intro other
    obtain ⟨junkAckId, junk, sys, lifetime, mirrors⟩ := run_mirrors fresh run other
    obtain ⟨a, kept, resumable, persists⟩ := lifetime_persists (fresh.disk other) lifetime
    exact ⟨a, resumable.inv, sys, mirrors, persists.refines⟩
  choose states mirrored using reached
  obtain ⟨reported, a', mirrored', issued, released⟩ :=
    @mirrored_roundTrips deployment _ _ mirrored _ soles encodable ip
  obtain ⟨sys, mirrors, refines⟩ := (mirrored ip).mirrors
  obtain ⟨sys', mirrors', refines'⟩ := mirrored'.mirrors
  rw [← mirrors.queue, refines.pending, List.length_drop] at enough
  rw [← issued] at enough released
  have stored := mirrored'.inv.released_le
  have all : a'.issued.length ≤ a'.released := by omega
  have numbered := refines'.numbered
  rw [← refines'.issued] at numbered
  dsimp only
  rw [← mirrors'.queue, ← mirrors'.disk]
  constructor
  · rw [refines'.pending, List.drop_of_length_le all]
  · rw [refines'.file, List.take_of_length_le (by omega), ← refines'.issued, ← reported,
      eq_numberReports numbered mirrors'.issued]

/-- A round trip on the first connection. -/
def watchedTrip : Fleet.Trip := ⟨⟨1, 4, ascii "10.0.0.7", 50000⟩, default, 0, .stored, 0⟩

theorem fleet_delivers_sample :
    (watchedFleet.machines (ascii "10.0.0.7")).queue.logEntries ≠ [] ∧
      let after := watchedFleet.roundTrips sampleDeployment [watchedTrip]
      (after.machines (ascii "10.0.0.7")).queue.logEntries = [] ∧
        (after.disk (clientLogFile (ascii "10.0.0.7"))).bytes =
          (numberReports (watchedFleet.machines (ascii "10.0.0.7")).reported).flatMap
            LogEntry.serializeStr := by
  have sole : watchedFleet.history.Sole watchedTrip.info :=
    ⟨by decide +kernel, by decide +kernel⟩
  have encodable : Encodable (watchedFleet.machines watchedTrip.info.clientIp) := by
    unfold Encodable
    decide +kernel
  have waits : (watchedFleet.machines (ascii "10.0.0.7")).queue.logEntries ≠ [] := by
    decide +kernel
  refine ⟨waits, ?_⟩
  apply fleet_delivers fresh_freshFleet (run_watchedFleet True)
  · exact List.forall_mem_singleton.mpr sole
  · exact List.forall_mem_singleton.mpr encodable
  · decide +kernel

end RemoteMonitoring
