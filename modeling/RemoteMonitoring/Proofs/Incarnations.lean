/-
Module: RemoteMonitoring.Proofs.Incarnations
Purpose: What a restart makes of the files of a queue, and delivery across restarts: the system
  with restarts simulates the resumable protocol as long as every restart finds an entry that
  is not acked.
Trusted boundary: none
Main exports: OnDisk, OnDisk.restart, Persists, persists_live, lifetime_persists,
  roundTrips_deliver
-/
import RemoteMonitoring.Lib.Resumption
import RemoteMonitoring.Proofs.Compaction
import RemoteMonitoring.Proofs.Delivery
import RemoteMonitoring.Proofs.Restart
import RemoteMonitoring.System.Incarnations

namespace RemoteMonitoring

open ByteText
open LogEntry (Numbered CleanName)

/-! ### The files of a queue -/

/-- The log file has the text of `written`, and the ack file has the current ack. -/
structure OnDisk (queue : LogQueue) (written : List LogEntry) : Prop where
  clean : ∀ entry ∈ written, CleanName entry.processName
  logContent : queue.logFile.content = some (written.flatMap LogEntry.serializeStr)
  logOpens : queue.logFile.writable = true
  ackContent : queue.ackFile.content = some (decimal queue.ackId.toNat)
  ackOpens : queue.ackFile.writable = true

/-- A first start has nothing on the disk, and the queue is empty. -/
theorem onDisk_fresh (junkAckId : UInt64) (junk : Nat → Indeterminate) :
    OnDisk (freshQueue junkAckId junk) [] where
  clean := by
    intro entry member
    cases member
  logContent := rfl
  logOpens := rfl
  ackContent := rfl
  ackOpens := rfl

section Operations

variable {queue : LogQueue} {written : List LogEntry}

/-- A new entry is on the disk before anything else happens. -/
theorem OnDisk.addNewLog (onDisk : OnDisk queue written) {processName : Bytes}
    (clean : CleanName processName) (timestampMs : UInt64) (logType : LogType) (value : UInt64) :
    OnDisk (queue.addNewLog processName timestampMs logType value).2
      (written ++ [⟨queue.newId, processName, timestampMs, logType, value⟩]) where
  clean := by
    intro entry member
    cases List.mem_append.mp member with
    | inl older => exact onDisk.clean entry older
    | inr new =>
        rw [List.mem_singleton.mp new]
        exact clean
  logContent := by
    have content : queue.logFile.bytes = written.flatMap LogEntry.serializeStr := by
      simp [File.bytes, onDisk.logContent]
    simp only [LogQueue.addNewLog, LogQueue.getNewId, LogQueue.addLog]
    rw [File.content_append onDisk.logOpens, content]
    simp
  logOpens := by
    simp only [LogQueue.addNewLog, LogQueue.getNewId, LogQueue.addLog, File.writable_append]
    exact onDisk.logOpens
  ackContent := onDisk.ackContent
  ackOpens := onDisk.ackOpens

/-- An ack is in the ack file, and takes no line from the log file. -/
theorem OnDisk.ackLog (onDisk : OnDisk queue written) (id : UInt64) :
    OnDisk (queue.ackLog id) written := by
  by_cases same : id = queue.ackId
  · rw [same, LogQueue.ackLog_self]
    exact onDisk
  · rw [LogQueue.ackLog_of_ne same]
    exact
      { onDisk with
        ackContent := File.content_overwrite onDisk.ackOpens _
        ackOpens := by
          rw [File.writable_overwrite]
          exact onDisk.ackOpens }

/-- The entries of the log file that a restart loads. -/
def unacked (queue : LogQueue) (written : List LogEntry) : List LogEntry :=
  written.filter fun entry => entry.id > queue.ackId

/-- The log file stays as it is, or is replaced by the lines of what is not acked. -/
theorem cleanOldLogs_eq (limit : Nat) (temp : File) (renames : Bool) (queue : LogQueue) :
    queue.cleanOldLogs limit temp renames = queue ∨
      temp.writable = true ∧ queue.cleanOldLogs limit temp renames =
        { queue with
          logFile := temp.overwrite
            ((unacked queue queue.logEntries).flatMap LogEntry.serializeStr) } := by
  by_cases small : queue.logFile.bytes.length ≤ limit
  · exact Or.inl (cleanOldLogs_small small renames)
  · cases opens : temp.writable with
    | false =>
        left
        unfold LogQueue.cleanOldLogs
        cases queue.logFile.content with
        | none => rfl
        | some content => simp [opens]
    | true =>
        cases renames with
        | true => exact Or.inr ⟨rfl, cleanOldLogs_large (Nat.not_le.mp small) opens⟩
        | false =>
            left
            unfold LogQueue.cleanOldLogs
            cases queue.logFile.content with
            | none => rfl
            | some content => simp

/-- A restart keeps the ack and loads what it does not cover.  The log file is left alone, or
it has only what was loaded. -/
theorem OnDisk.restart (onDisk : OnDisk queue written) (junkAckId : UInt64)
    (junk : Nat → Indeterminate) (temp : File) (renames : Bool) :
    let after := queue.restart junkAckId junk temp renames
    after.ackId = queue.ackId ∧ after.logEntries = unacked queue written ∧
      after.newId = LogQueue.firstNewId (unacked queue written) ∧
      (OnDisk after written ∨ OnDisk after (unacked queue written)) := by
  have loaded := LogQueue.ofFiles_logged onDisk.clean onDisk.logContent onDisk.ackContent
    junkAckId junk
  have acks : queue.ackFile.overwrite (decimal queue.ackId.toNat) = queue.ackFile := by
    rw [File.overwrite, if_pos onDisk.ackOpens, ← onDisk.ackContent]
  have again : (unacked queue written).filter (fun entry => entry.id > queue.ackId) =
      unacked queue written := by
    simp [unacked, List.filter_filter]
  dsimp only at loaded
  rw [LogQueue.restart, loaded, LogQueue.destroy]
  generalize pending : unacked queue written = left at again ⊢
  rw [unacked] at pending
  rw [pending]
  rcases cleanOldLogs_eq LogQueue.maxLogFileSize temp renames
      { logFile := queue.logFile, ackFile := queue.ackFile, ackId := queue.ackId,
        logEntries := left, newId := LogQueue.firstNewId left }
    with unchanged | ⟨opens, compacted⟩
  · simp only [unchanged, acks, true_and]
    exact Or.inl { onDisk with }
  · simp only [compacted, acks, unacked, again, true_and]
    refine Or.inr
      { clean := ?_
        logContent := File.content_overwrite opens _
        logOpens := by
          rw [File.writable_overwrite]
          exact opens
        ackContent := onDisk.ackContent
        ackOpens := onDisk.ackOpens }
    intro entry member
    rw [← pending] at member
    exact onDisk.clean entry (List.mem_of_mem_filter member)

end Operations

/-! ### What a step does to the files -/

section Steps

variable {ip : Bytes} {s : System}

/-- A message is an ack, or nothing to the queue. -/
theorem ackSubscriber_cases {junkId : UInt64} {payload : Bytes} {queue after : LogQueue}
    (handled : ackSubscriber junkId payload queue = .ok after) :
    after = queue ∨ ∃ id, after = queue.ackLog id := by
  unfold ackSubscriber at handled
  cases decoded : readString (.ofBytes payload) with
  | error e => simp [decoded, bind, Except.bind] at handled
  | ok message =>
      simp only [decoded, bind, Except.bind, pure, Except.pure] at handled
      split at handled
      · exact Or.inr ⟨_, (Except.ok.inj handled).symm⟩
      · exact Or.inl (Except.ok.inj handled).symm

/-- So what a client receives is an ack, or leaves its queue as it is. -/
theorem recvAck_queue (s : System) (payload : Bytes) (junkId : UInt64) :
    (s.recvAck payload junkId).queue = s.queue ∨
      ∃ id, (s.recvAck payload junkId).queue = s.queue.ackLog id := by
  unfold System.recvAck
  cases handled : ackSubscriber junkId payload s.queue with
  | error e => exact Or.inl rfl
  | ok queue => exact ackSubscriber_cases handled

theorem recvAck_issued (s : System) (payload : Bytes) (junkId : UInt64) :
    (s.recvAck payload junkId).issued = s.issued := by
  unfold System.recvAck
  split <;> rfl

theorem sendBatch_queue (s : System) :
    s.sendBatch.queue = s.queue ∧ s.sendBatch.issued = s.issued := by
  unfold System.sendBatch
  split <;> exact ⟨rfl, rfl⟩

/-- What the server handles is nothing to the client. -/
theorem recvBatch_queue (s : System) (payload : Bytes) (info : ClientInfo) (junk : Indeterminate)
    (netCount : UInt32) :
    (s.recvBatch payload info junk netCount).queue = s.queue ∧
      (s.recvBatch payload info junk netCount).issued = s.issued := by
  unfold System.recvBatch
  dsimp only
  split <;> exact ⟨rfl, rfl⟩

/-- A step of a lifetime is a step of a run, where it is no restart. -/
theorem System.Lives.allowed {event : Event} (lives : System.Lives ip s (.during event)) :
    System.Allowed ip s event := by
  cases event with
  | addLog processName timestampMs logType value => exact ⟨lives.1.2, lives.2⟩
  | recvBatch index info junk netCount => exact lives
  | sendBatch => trivial
  | recvAck index junkId => trivial
  | loseBatch index => trivial
  | loseAck index => trivial

/-- Every step of a lifetime leaves on the disk what a restart needs. -/
theorem onDisk_step {kept : Nat} (onDisk : OnDisk s.queue (s.issued.drop kept))
    (inside : kept ≤ s.issued.length) {event : Event}
    (lives : System.Lives ip s (.during event)) :
    OnDisk (s.step event).queue ((s.step event).issued.drop kept) := by
  cases event with
  | addLog processName timestampMs logType value =>
      have next := onDisk.addNewLog lives.1 timestampMs logType value
      rw [← List.drop_append_of_le_length inside] at next
      exact next
  | sendBatch =>
      rw [System.step, (sendBatch_queue s).1, (sendBatch_queue s).2]
      exact onDisk
  | recvBatch index info junk netCount =>
      rw [System.step]
      split
      · rename_i payload _
        rw [(recvBatch_queue s payload info junk netCount).1,
          (recvBatch_queue s payload info junk netCount).2]
        exact onDisk
      · exact onDisk
  | recvAck index junkId =>
      rw [System.step]
      split
      · rename_i payload _
        rw [recvAck_issued]
        rcases recvAck_queue s payload junkId with same | ⟨id, acked⟩
        · rw [same]
          exact onDisk
        · rw [acked]
          exact onDisk.ackLog id
      · exact onDisk
  | loseBatch index => exact onDisk
  | loseAck index => exact onDisk

end Steps

/-! ### The simulation -/

/-- The system is described by the protocol, and the client's disk has all entries but the
first `kept`. -/
structure Persists (ip : Bytes) (s : System) (a : CumulativeAck.State LogEntry) (kept : Nat) :
    Prop where
  refines : Refines ip s a
  onDisk : OnDisk s.queue (s.issued.drop kept)

section Simulation

variable {ip : Bytes} {s : System} {a : CumulativeAck.State LogEntry} {kept : Nat}

theorem Persists.kept_le (persists : Persists ip s a kept)
    (resumable : CumulativeAck.Resumable a kept) : kept ≤ s.issued.length := by
  rw [persists.refines.issued]
  exact Nat.le_trans resumable.kept_le
    (Nat.le_trans resumable.inv.released_le resumable.inv.stored_le)

/-- What a restart loads is everything behind the last ack, as far as the disk has it. -/
theorem Persists.unacked_eq (persists : Persists ip s a kept)
    (resumable : CumulativeAck.Resumable a kept) :
    unacked s.queue (s.issued.drop kept) = a.issued.drop (max kept a.ackId) := by
  have numbered := persists.refines.numbered
  rw [← persists.refines.issued] at numbered ⊢
  rw [unacked, filter_above (numbered.drop (persists.kept_le resumable)), List.drop_drop,
    ← persists.refines.ackId]
  congr 1
  omega

/-- A restart that resumes goes on with what is not acked, whether or not it has compacted the log
file. -/
theorem persists_restart (persists : Persists ip s a kept)
    (resumable : CumulativeAck.Resumable a kept) {junkAckId : UInt64}
    {junk : Nat → Indeterminate} {temp : File} {renames : Bool}
    (resumes : System.Resumes s (.restart junkAckId junk temp renames)) :
    let after := s.restart junkAckId junk temp renames
    Persists ip after (a.resume kept) kept ∨
      Persists ip after (a.resume kept) (max kept a.ackId) := by
  have refines := persists.refines
  have loads := persists.unacked_eq resumable
  have inside := persists.kept_le resumable
  have acked : max kept a.ackId ≤ a.issued.length :=
    Nat.le_trans resumable.inv_resume.released_le resumable.inv.stored_le
  obtain ⟨ackId, logEntries, newId, onDisk⟩ :=
    persists.onDisk.restart junkAckId junk temp renames
  rw [loads] at logEntries newId onDisk
  have described : Refines ip (s.restart junkAckId junk temp renames) (a.resume kept) :=
    { refines with
      removed := by
        simp only [System.restart, logEntries]
        rw [refines.issued, List.length_drop, Nat.sub_sub_self acked]
        rfl
      pending := logEntries
      ackId := by
        simp only [System.restart, ackId]
        exact refines.ackId
      newId := by
        simp only [System.restart, newId]
        have bounded := refines.bounded
        rcases resumes with found | nothing
        · rw [logEntries] at found
          have more : max kept a.ackId < a.issued.length :=
            Nat.lt_of_not_le fun done => found (List.drop_of_length_le done)
          have count : max kept a.ackId + (a.issued.drop (max kept a.ackId)).length =
              a.issued.length := by
            rw [List.length_drop]
            omega
          have next := firstNewId_numbered
            (Nat.zero_add (max kept a.ackId) ▸ refines.numbered.drop acked) found
            (by rw [count]; omega)
          rw [next, count]
          rfl
        · rw [refines.issued] at nothing
          simp only [CumulativeAck.State.resume, nothing, List.drop_nil]
          rfl }
  rcases onDisk with whole | compacted
  · exact Or.inl ⟨described, whole⟩
  · refine Or.inr ⟨described, ?_⟩
    simp only [System.restart]
    rw [refines.issued]
    exact compacted

/-- Every step is a step of the protocol, a new start of it, or changes nothing there. -/
theorem persists_live (persists : Persists ip s a kept)
    (resumable : CumulativeAck.Resumable a kept) {event : LifeEvent}
    (lives : System.Lives ip s event) (resumes : System.Resumes s event) :
    ∃ a' kept', Relation.ReflGen (CumulativeAck.Resumption 100) (a, kept) (a', kept') ∧
      Persists ip (s.live event) a' kept' := by
  cases event with
  | during event =>
      obtain ⟨a', step, refines⟩ :=
        refines_step persists.refines resumable.inv lives.allowed
      have onDisk := onDisk_step persists.onDisk (persists.kept_le resumable) lives
      refine ⟨a', kept, ?_, refines, onDisk⟩
      rcases step with rfl | step
      · exact .refl
      · exact .single (.protocol kept step)
  | elsewhere disk =>
      have same : disk (clientLogFile ip) = s.disk (clientLogFile ip) := lives
      refine ⟨a, kept, .refl, ?_, persists.onDisk⟩
      exact
        { persists.refines with
          file := by
            simp only [System.live, same]
            exact persists.refines.file
          opens := by
            simp only [System.live, same]
            exact persists.refines.opens }
  | restart junkAckId junk temp renames =>
      rcases persists_restart persists resumable resumes with whole | compacted
      · exact ⟨_, _, .single (.resume a kept), whole⟩
      · exact ⟨_, _, .single (.compact a kept), compacted⟩

/-- Every state that a run with restarts leads to is described by the resumable protocol. -/
theorem lifetime_persists {junkAckId : UInt64} {junk : Nat → Indeterminate} {disk : Disk}
    (absent : disk (clientLogFile ip) = File.absent)
    (run : System.Lifetime True ip (System.initial junkAckId junk disk) s) :
    ∃ a kept, CumulativeAck.Resumable a kept ∧ Persists ip s a kept := by
  suffices reached : ∃ a kept, Relation.ReflTransGen (CumulativeAck.Resumption 100)
      (CumulativeAck.State.initial, 0) (a, kept) ∧ Persists ip s a kept by
    obtain ⟨a, kept, reachable, persists⟩ := reached
    exact ⟨a, kept, CumulativeAck.reachable_resumable reachable, persists⟩
  induction run with
  | refl =>
      exact ⟨_, 0, .refl, refines_initial junkAckId junk absent, onDisk_fresh junkAckId junk⟩
  | step run event lives resumes ih =>
      obtain ⟨a, kept, reachable, persists⟩ := ih
      have resumable := CumulativeAck.reachable_resumable reachable
      obtain ⟨a', kept', step, next⟩ := persists_live persists resumable lives (resumes trivial)
      exact ⟨a', kept', reachable.trans step.to_reflTransGen, next⟩

/-! ### Undisturbed round trips -/

/-- What is sent is the payload of the batch. -/
theorem logPayload_of_sendLogs {queue : LogQueue} {payload : Bytes}
    (sends : sendLogs queue = .ok (some payload)) :
    logPayload (queue.getBatchLog batchSize) = .ok payload := by
  unfold sendLogs at sends
  cases empty : (queue.getBatchLog batchSize).isEmpty with
  | true => simp [empty, pure, Except.pure] at sends
  | false =>
      cases encoded : logPayload (queue.getBatchLog batchSize) with
      | error e => simp [empty, encoded, bind, Except.bind] at sends
      | ok bytes => simpa [empty, encoded, bind, Except.bind, pure, Except.pure] using sends

/-- A batch that can be encoded, its answer and what the client makes of it are a round trip of
the protocol. -/
theorem refines_exchange (refines : Refines ip s a) (inv : CumulativeAck.Inv a) {payload : Bytes}
    (sends : sendLogs s.queue = .ok (some payload)) {info : ClientInfo}
    (same : info.clientIp = ip) (junk : Indeterminate) (netCount : UInt32) (junkId : UInt64) :
    let handled := s.sendBatch.recvBatch payload info junk netCount
    ∃ id, handled.toClient = ackPayload id :: s.toClient ∧
      Refines ip (handled.recvAck (ackPayload id) junkId) (a.trip 100) := by
  have sent : s.sendBatch = { s with toServer := payload :: s.toServer } := by
    rw [System.sendBatch, sends]
  have sentRefines := refines_sendBatch refines inv sends
  have sentInv := inv.offer 100
  have offered := logPayload_of_sendLogs sends
  rw [refines.getBatchLog inv] at offered
  obtain ⟨id, answer, toClient, _, handledRefines⟩ := refines_recvBatch sentRefines sentInv
    List.mem_cons_self offered same junk netCount
  have handledInv := CumulativeAck.inv_receive sentInv (inv.window_le 100).2.2
  have followed := refines_recvAck handledRefines handledInv answer.le junkId
  rw [answer] at followed
  refine ⟨id, ?_, followed⟩
  rw [toClient, sent]

/-- A round trip with a batch that can be encoded is one of the protocol. -/
theorem refines_trip (refines : Refines ip s a) (inv : CumulativeAck.Inv a) {payload : Bytes}
    (sends : sendLogs s.queue = .ok (some payload)) {info : ClientInfo}
    (same : info.clientIp = ip) (junk : Indeterminate) (netCount : UInt32) (junkId : UInt64) :
    Refines ip (s.roundTrip info junk netCount junkId) (a.trip 100) := by
  obtain ⟨id, toClient, followed⟩ := refines_exchange refines inv sends same junk netCount junkId
  have arrives : s.sendBatch.toServer[0]? = some payload := by simp [System.sendBatch, sends]
  have trip : s.roundTrip info junk netCount junkId =
      (s.sendBatch.recvBatch payload info junk netCount).recvAck (ackPayload id) junkId := by
    simp [System.roundTrip, System.step, arrives, toClient]
  rw [trip]
  exact followed

/-- Whatever waits in the queue is sent, if the names can be encoded. -/
theorem Refines.sendLogs (refines : Refines ip s a) (inv : CumulativeAck.Inv a)
    (short : ∀ entry ∈ s.issued, entry.processName.length < 2 ^ 32)
    (waiting : s.queue.logEntries.isEmpty = false) :
    ∃ payload, RemoteMonitoring.sendLogs s.queue = .ok (some payload) := by
  have batch : ∀ entry ∈ s.queue.getBatchLog batchSize, entry.processName.length < 2 ^ 32 := by
    intro entry member
    rw [refines.getBatchLog inv] at member
    rw [refines.issued] at short
    exact short entry (List.mem_of_mem_take (List.mem_of_mem_drop member))
  obtain ⟨payload, encoded⟩ := logPayload_isOk batch
  have some : (s.queue.getBatchLog batchSize).isEmpty = false := by
    rw [List.isEmpty_eq_false_iff] at waiting ⊢
    rw [refines.pending, ne_eq, List.drop_eq_nil_iff, Nat.not_le] at waiting
    rw [refines.getBatchLog inv, ← List.length_pos_iff,
      LogEntry.slice_length (inv.window_le 100).2.2]
    simp only [CumulativeAck.State.window]
    omega
  exact ⟨payload, by simp [RemoteMonitoring.sendLogs, some, encoded, bind, Except.bind, pure,
    Except.pure]⟩

/-- Round trips with whatever can be encoded move on by a hundred entries each, or to the end. -/
theorem roundTrips_refines (refines : Refines ip s a) (inv : CumulativeAck.Inv a)
    (short : ∀ entry ∈ s.issued, entry.processName.length < 2 ^ 32) {trips : List System.Trip}
    (same : ∀ trip ∈ trips, trip.info.clientIp = ip) :
    ∃ a', CumulativeAck.Inv a' ∧ Refines ip (s.roundTrips trips) a' ∧ a'.issued = a.issued ∧
      min (a.released + 100 * trips.length) a.issued.length ≤ a'.released := by
  induction trips generalizing s a with
  | nil => exact ⟨a, inv, refines, rfl, by simp⟩
  | cons trip later ih =>
      have others : ∀ trip ∈ later, trip.info.clientIp = ip :=
        fun other member => same other (List.mem_cons_of_mem trip member)
      have inside := Nat.le_trans inv.released_le inv.stored_le
      simp only [System.roundTrips, List.foldl_cons, List.length_cons]
      cases empty : s.queue.logEntries.isEmpty with
      | true =>
          obtain ⟨a', inv', refines', issued, released⟩ := ih refines inv short others
          have done := List.isEmpty_iff.mp empty
          rw [refines.pending, List.drop_eq_nil_iff] at done
          refine ⟨a', inv', refines', issued, ?_⟩
          omega
      | false =>
          obtain ⟨payload, sends⟩ := refines.sendLogs inv short empty
          have next := refines_trip refines inv sends (same trip List.mem_cons_self) trip.junk
            trip.netCount trip.junkId
          have kept : ∀ entry ∈ (s.roundTrip trip.info trip.junk trip.netCount
              trip.junkId).issued, entry.processName.length < 2 ^ 32 := by
            rw [next.issued, CumulativeAck.trip_issued, ← refines.issued]
            exact short
          obtain ⟨a', inv', refines', issued, released⟩ := ih next (inv.trip 100) kept others
          have further := CumulativeAck.trip_released inv 100
          rw [CumulativeAck.trip_issued] at issued released
          refine ⟨a', inv', refines', issued, ?_⟩
          omega

/-- Everything is delivered in the end.  After any run in which every restart resumes, enough
undisturbed round trips leave nothing in the queue and the text of everything that was ever
issued in the server's file. -/
theorem roundTrips_deliver {junkAckId : UInt64} {junk : Nat → Indeterminate} {disk : Disk}
    (absent : disk (clientLogFile ip) = File.absent)
    (run : System.Lifetime True ip (System.initial junkAckId junk disk) s)
    (short : ∀ entry ∈ s.issued, entry.processName.length < 2 ^ 32) {trips : List System.Trip}
    (same : ∀ trip ∈ trips, trip.info.clientIp = ip)
    (enough : s.queue.logEntries.length ≤ 100 * trips.length) :
    let after := s.roundTrips trips
    after.issued = s.issued ∧ after.queue.logEntries = [] ∧
      (after.disk (clientLogFile ip)).bytes = s.issued.flatMap LogEntry.serializeStr := by
  obtain ⟨a, kept, resumable, persists⟩ := lifetime_persists absent run
  have refines := persists.refines
  have inv := resumable.inv
  obtain ⟨a', inv', refines', issued, released⟩ := roundTrips_refines refines inv short same
  rw [refines.pending, List.length_drop] at enough
  have inside := Nat.le_trans inv.released_le inv.stored_le
  have inside' := Nat.le_trans inv'.released_le inv'.stored_le
  have stored' := inv'.released_le
  have all : a.issued.length ≤ a'.released := by omega
  refine ⟨?_, ?_, ?_⟩
  · rw [refines'.issued, issued, refines.issued]
  · rw [refines'.pending, issued, List.drop_of_length_le all]
  · rw [refines'.file, issued, refines.issued, List.take_of_length_le (by omega)]

end Simulation

/-- A client whose first entry is stored, killed and started again before the ack arrives. -/
def resumedSample : System := storedSample.live (.restart 0 (fun _ => default) File.absent true)

theorem lifetime_storedSample (resuming : Prop) : System.Lifetime resuming (ascii "10.0.0.7")
    (System.initial 0 (fun _ => default) fun _ => File.absent) storedSample := by
  have logged : System.Lifetime resuming (ascii "10.0.0.7")
      (System.initial 0 (fun _ => default) fun _ => File.absent) _ :=
    System.Lifetime.refl.step
      (.during (.addLog (ascii "chrome.exe") 1700000000000 LogType.mem 209715200))
      ⟨by decide, by decide⟩ fun _ => trivial
  exact (logged.step (.during .sendBatch) trivial fun _ => trivial).step
    (.during (.recvBatch 0 ⟨1, 4, ascii "10.0.0.7", 50000⟩ default 0)) rfl fun _ => trivial

theorem lifetime_resumedSample : System.Lifetime True (ascii "10.0.0.7")
    (System.initial 0 (fun _ => default) fun _ => File.absent) resumedSample :=
  (lifetime_storedSample True).step (.restart 0 (fun _ => default) File.absent true) trivial
    fun _ => Or.inl (by decide +kernel)

theorem roundTrips_deliver_sample :
    let after := resumedSample.roundTrips [⟨⟨2, 5, ascii "10.0.0.7", 50001⟩, default, 0, 0⟩]
    after.issued = resumedSample.issued ∧ after.queue.logEntries = [] ∧
      (after.disk (clientLogFile (ascii "10.0.0.7"))).bytes =
        resumedSample.issued.flatMap LogEntry.serializeStr :=
  roundTrips_deliver rfl lifetime_resumedSample (by decide +kernel) (by simp) (by decide +kernel)

end RemoteMonitoring
