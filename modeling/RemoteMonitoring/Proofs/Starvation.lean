/-
Module: RemoteMonitoring.Proofs.Starvation
Purpose: A client that is started again when everything it logged is acked.  Its log file offers
  nothing, so it numbers from 1 again, while the server waits for the id behind the last one.
Trusted boundary: none
Main exports: StartsOver, startsOver_restart, startsOver_step, restart_starves
-/
import RemoteMonitoring.Lib.StartingOver
import RemoteMonitoring.Proofs.Incarnations
import RemoteMonitoring.Proofs.Storage

namespace RemoteMonitoring

open ByteText
open LogEntry (Numbered slice slice_append slice_length slice_numbered take_append_slice)

/-- The server's file has what was issued before the restart, `old`, and behind it what the
protocol takes of the entries issued since. -/
structure StartsOver (ip : Bytes) (old : List LogEntry) (s : System)
    (a : CumulativeAck.State LogEntry) : Prop where
  issued : s.issued = old ++ a.issued
  oldNumbered : Numbered 0 old
  numbered : Numbered 0 a.issued
  bounded : s.issued.length < 2 ^ 32
  single : ∀ entry ∈ s.issued, newline ∉ entry.processName
  pending : s.queue.logEntries = a.issued.drop a.released
  ackId : s.queue.ackId.toNat = a.ackId
  newId : s.queue.newId.toNat = a.issued.length + 1
  file : (s.disk (clientLogFile ip)).bytes =
    (old ++ (a.issued.take a.stored).drop old.length).flatMap LogEntry.serializeStr
  opens : (s.disk (clientLogFile ip)).writable = true
  batches : ∀ payload ∈ s.toServer,
    (∃ window ∈ a.windows, logPayload (slice a.issued window) = .ok payload) ∨
      ∃ window, window.1 ≤ window.2 ∧ window.2 ≤ old.length ∧
        logPayload (slice old window) = .ok payload
  acks : ∀ payload ∈ s.toClient, ∃ id : UInt64, id.toNat ∈ a.acks ∧ payload = ackPayload id
  before : (0, 0) ∈ a.windows

section Steps

variable {ip : Bytes} {old : List LogEntry} {s : System} {a : CumulativeAck.State LogEntry}

/-- What the server has accepted of the entries issued since. -/
def taken (old : List LogEntry) (a : CumulativeAck.State LogEntry) : List LogEntry :=
  (a.issued.take a.stored).drop old.length

/-- Entries issued later are not among those behind the first `ahead`. -/
theorem take_drop_append {issued : List LogEntry} {stored ahead : Nat}
    (inside : stored = ahead ∨ stored ≤ issued.length) (more : List LogEntry) :
    ((issued ++ more).take stored).drop ahead = (issued.take stored).drop ahead := by
  rcases inside with rfl | inside
  · rw [List.drop_of_length_le (List.length_take_le _ _),
      List.drop_of_length_le (List.length_take_le _ _)]
  · rw [List.take_append_of_le_length inside]

/-- The file holds what it held, and behind it what was taken of the new entries. -/
theorem StartsOver.stores (starts : StartsOver ip old s a)
    (behind : CumulativeAck.Behind 100 old.length a) :
    Stores s.disk ip (old ++ taken old a) ∧ (old ++ taken old a).length = a.stored := by
  have least := behind.ahead_le
  have length : (old ++ taken old a).length = a.stored := by
    rw [taken, List.length_append, List.length_drop, List.length_take]
    have stored := behind.stored_le
    omega
  refine ⟨?_, length⟩
  exact
    { numbered := by
        refine LogEntry.numbered_append.mpr ⟨starts.oldNumbered, ?_⟩
        rw [List.length_append] at length
        rcases behind.stored_le with nothing | inside
        · rw [List.eq_nil_of_length_eq_zero (by omega : (taken old a).length = 0)]
          trivial
        · apply (starts.numbered.take a.stored).drop
          rw [List.length_take, Nat.min_eq_left inside]
          exact least
      single := by
        intro entry member
        apply starts.single
        rw [starts.issued]
        cases List.mem_append.mp member with
        | inl older => exact List.mem_append_left _ older
        | inr new =>
            exact List.mem_append_right _ (List.mem_of_mem_take (List.mem_of_mem_drop new))
      content := starts.file
      opens := starts.opens }

/-- A new entry is one more issued one, and is numbered from 1. -/
theorem startsOver_addLog (starts : StartsOver ip old s a)
    (behind : CumulativeAck.Behind 100 old.length a) {processName : Bytes}
    (single : newline ∉ processName) (room : s.issued.length + 1 < 2 ^ 32)
    (timestampMs : UInt64) (logType : LogType) (value : UInt64) :
    ∃ entry, StartsOver ip old (s.addLog processName timestampMs logType value)
      { a with issued := a.issued ++ [entry] } := by
  have released := behind.released_le.2
  have bounded := starts.bounded
  rw [starts.issued, List.length_append] at room bounded
  refine ⟨⟨s.queue.newId, processName, timestampMs, logType, value⟩, ?_⟩
  exact
    { starts with
      issued := by
        simp only [System.addLog, LogQueue.addNewLog, LogQueue.getNewId, starts.issued,
          List.append_assoc]
      numbered := LogEntry.numbered_append.mpr
        ⟨starts.numbered, by rw [Nat.zero_add]; exact starts.newId, trivial⟩
      bounded := by
        simp only [System.addLog, starts.issued, List.length_append, List.length_singleton]
        exact room
      single := by
        intro entry member
        rcases List.mem_append.mp member with older | new
        · exact starts.single entry older
        · rw [List.mem_singleton.mp new]
          exact single
      pending := by
        rw [List.drop_append_of_le_length released, ← starts.pending]
        rfl
      newId := by
        change (s.queue.newId + 1).toNat = _
        rw [UInt64.toNat_add, starts.newId, UInt64.toNat_one, List.length_append,
          List.length_singleton]
        omega
      file := by
        have same := take_drop_append behind.stored_le
          [⟨s.queue.newId, processName, timestampMs, logType, value⟩]
        rw [same]
        exact starts.file
      batches := by
        intro payload member
        rcases starts.batches payload member with ⟨window, sent, built⟩ | older
        · refine Or.inl ⟨window, sent, ?_⟩
          rw [slice_append (behind.windows_le window sent).2.2]
          exact built
        · exact Or.inr older }

/-- The batch that the client offers is the window of the protocol. -/
theorem StartsOver.getBatchLog (starts : StartsOver ip old s a)
    (behind : CumulativeAck.Behind 100 old.length a) :
    s.queue.getBatchLog batchSize = slice a.issued (a.window 100) := by
  have released := behind.released_le.2
  have bounded := starts.bounded
  rw [starts.issued, List.length_append] at bounded
  have fits : s.queue.logEntries.length < 2 ^ 32 := by
    rw [starts.pending, List.length_drop]
    omega
  have size : batchSize.toNat = 100 := rfl
  rw [LogQueue.getBatchLog_eq_take fits, starts.pending, size, slice,
    CumulativeAck.State.window, List.drop_take]
  rcases Nat.le_total (a.released + 100) a.issued.length with inside | beyond
  · rw [Nat.min_eq_left inside, Nat.add_sub_cancel_left]
  · rw [Nat.min_eq_right beyond, List.take_of_length_le (by simp; omega),
      List.take_of_length_le (by simp)]

/-- A batch that is sent is the window of the first hundred entries in the queue. -/
theorem startsOver_sendBatch (starts : StartsOver ip old s a)
    (behind : CumulativeAck.Behind 100 old.length a) :
    StartsOver ip old s.sendBatch a ∨
      StartsOver ip old s.sendBatch { a with windows := a.window 100 :: a.windows } := by
  unfold System.sendBatch
  cases sends : sendLogs s.queue with
  | error e => exact Or.inl starts
  | ok sent =>
      cases sent with
      | none => exact Or.inl starts
      | some payload =>
          have built := logPayload_of_sendLogs sends
          rw [starts.getBatchLog behind] at built
          refine Or.inr
            { starts with
              batches := ?_
              before := List.mem_cons_of_mem _ starts.before }
          intro other member
          rcases List.mem_cons.mp member with rfl | older
          · exact Or.inl ⟨_, List.mem_cons_self, built⟩
          · rcases starts.batches other older with ⟨window, sent, encoded⟩ | before
            · exact Or.inl ⟨window, List.mem_cons_of_mem _ sent, encoded⟩
            · exact Or.inr before

/-- A batch of consecutive entries, none of them behind a gap, moves the server on. -/
theorem startsOver_taken (starts : StartsOver ip old s a)
    (behind : CumulativeAck.Behind 100 old.length a) {batch : List LogEntry} {payload : Bytes}
    {start stored : Nat} (built : logPayload batch = .ok payload)
    (numbered : Numbered start batch) (reaches : start ≤ a.stored)
    (small : start + batch.length < 2 ^ 32)
    (upTo : max a.stored (start + batch.length) = stored)
    (follows : taken old a ++ batch.drop (a.stored - start) =
      (a.issued.take stored).drop old.length)
    {info : ClientInfo} (same : info.clientIp = ip) (junk : Indeterminate) (netCount : UInt32) :
    StartsOver ip old (s.recvBatch payload info junk netCount)
      { a with stored := stored, acks := stored :: a.acks } := by
  subst same
  obtain ⟨stores, length⟩ := starts.stores behind
  have recovered := (stores.lastAckedId junk).trans length
  obtain ⟨reached, accepted⟩ := acceptLoop_numbered numbered (recovered.symm ▸ reaches)
    (by omega)
  rw [recovered] at reached accepted
  rw [recvBatch_logPayload built (by omega) starts.opens junk netCount]
  dsimp only
  generalize acceptLoop (lastAckedId junk (s.disk (clientLogFile info.clientIp))) batch = outcome
    at reached accepted ⊢
  exact
    { starts with
      file := by
        simp only [Function.update_self]
        rw [File.bytes_append starts.opens, starts.file, accepted, ← List.flatMap_append,
          List.append_assoc]
        exact congrArg (fun entries => (old ++ entries).flatMap LogEntry.serializeStr) follows
      opens := by
        simp only [Function.update_self]
        rw [File.writable_append]
        exact starts.opens
      acks := by
        intro other member
        rcases List.mem_cons.mp member with rfl | older
        · exact ⟨outcome.1, by rw [reached, upTo]; exact List.mem_cons_self, rfl⟩
        · obtain ⟨id, sent, encoded⟩ := starts.acks other older
          exact ⟨id, List.mem_cons_of_mem _ sent, encoded⟩ }

/-- A batch of entries issued since. -/
theorem startsOver_recvBatch (starts : StartsOver ip old s a)
    (behind : CumulativeAck.Behind 100 old.length a) {payload : Bytes} {window : Nat × Nat}
    (sent : window ∈ a.windows) (built : logPayload (slice a.issued window) = .ok payload)
    {info : ClientInfo} (same : info.clientIp = ip) (junk : Indeterminate) (netCount : UInt32) :
    StartsOver ip old (s.recvBatch payload info junk netCount) (a.receive window) := by
  obtain ⟨reaches, ordered, inside⟩ := behind.windows_le window sent
  have length := slice_length inside
  have bounded := starts.bounded
  rw [starts.issued, List.length_append] at bounded
  refine startsOver_taken starts behind built (slice_numbered starts.numbered ordered inside)
    reaches (by rw [length]; omega) ?_ ?_ same junk netCount
  · rw [length, CumulativeAck.received_of_le reaches]
    omega
  · rw [CumulativeAck.received_of_le reaches, ← take_append_slice a.issued reaches,
      List.drop_append, taken]
    congr 1
    have least := behind.ahead_le
    rcases Nat.le_total a.stored a.issued.length with held | ahead
    · rw [List.length_take, Nat.min_eq_left held, Nat.sub_eq_zero_of_le least, List.drop_zero]
    · rw [List.drop_of_length_le (by rw [length]; omega), List.drop_nil]

/-- A batch of before the restart. -/
theorem startsOver_recvOld (starts : StartsOver ip old s a)
    (behind : CumulativeAck.Behind 100 old.length a) {payload : Bytes} {window : Nat × Nat}
    (ordered : window.1 ≤ window.2) (inside : window.2 ≤ old.length)
    (built : logPayload (slice old window) = .ok payload) {info : ClientInfo}
    (same : info.clientIp = ip) (junk : Indeterminate) (netCount : UInt32) :
    StartsOver ip old (s.recvBatch payload info junk netCount) (a.receive (0, 0)) := by
  have least := behind.ahead_le
  have length := slice_length inside
  have bounded := starts.bounded
  rw [starts.issued, List.length_append] at bounded
  have nothing : CumulativeAck.State.received a.stored (0, 0) = a.stored := by
    simp [CumulativeAck.State.received]
  have again : a.receive (0, 0) = { a with stored := a.stored, acks := a.stored :: a.acks } := by
    rw [CumulativeAck.State.receive, nothing]
  rw [again]
  refine startsOver_taken starts behind built (slice_numbered starts.oldNumbered ordered inside)
    (by omega) (by rw [length]; omega) (by rw [length]; omega) ?_ same junk netCount
  rw [List.drop_of_length_le (by rw [length]; omega), List.append_nil, taken]

/-- An ack may tell of the entries of before; the queue then loses the new ones with these ids. -/
theorem startsOver_recvAck (starts : StartsOver ip old s a)
    (behind : CumulativeAck.Behind 100 old.length a) (id junkId : UInt64) :
    StartsOver ip old (s.recvAck (ackPayload id) junkId) (a.acknowledge id.toNat) := by
  rw [recvAck_ackPayload]
  by_cases same : id = s.queue.ackId
  · have ignored : s.queue.ackLog id = s.queue := by rw [same, LogQueue.ackLog_self]
    have stays : a.acknowledge id.toNat = a := by
      rw [CumulativeAck.State.acknowledge, if_pos (by rw [same, starts.ackId])]
    rw [ignored, stays]
    exact { starts with }
  · have news : id.toNat ≠ a.ackId := by
      rw [← starts.ackId]
      exact fun equal => same (UInt64.toNat_inj.mp equal)
    rw [CumulativeAck.acknowledge_of_ne news, LogQueue.ackLog_of_ne same]
    exact
      { starts with
        pending := by
          have numbered := starts.numbered.drop behind.released_le.2
          simp only
          rw [starts.pending, LogQueue.popAcked_numbered numbered, List.drop_drop]
          congr 1
          omega
        ackId := rfl }

/-- Every step of the system is a step of the protocol or changes nothing there. -/
theorem startsOver_step (starts : StartsOver ip old s a)
    (behind : CumulativeAck.Behind 100 old.length a) {event : Event}
    (allowed : System.Allowed ip s event) :
    ∃ a', Relation.ReflGen (CumulativeAck.Step 100) a a' ∧
      StartsOver ip old (s.step event) a' := by
  cases event with
  | addLog processName timestampMs logType value =>
      obtain ⟨entry, next⟩ :=
        startsOver_addLog starts behind allowed.1 allowed.2 timestampMs logType value
      exact ⟨_, .single (.issue a entry), next⟩
  | sendBatch =>
      rcases startsOver_sendBatch starts behind with idle | next
      · exact ⟨a, .refl, idle⟩
      · exact ⟨_, .single (.send a), next⟩
  | recvBatch index info junk netCount =>
      cases found : s.toServer[index]? with
      | none => exact ⟨a, .refl, by simpa [System.step, found] using starts⟩
      | some payload =>
          simp only [System.step, found]
          rcases starts.batches payload (List.mem_of_getElem? found) with
            ⟨window, sent, built⟩ | ⟨window, ordered, inside, built⟩
          · exact ⟨_, .single (.receive a window sent),
              startsOver_recvBatch starts behind sent built allowed junk netCount⟩
          · exact ⟨_, .single (.receive a (0, 0) starts.before),
              startsOver_recvOld starts behind ordered inside built allowed junk netCount⟩
  | recvAck index junkId =>
      cases found : s.toClient[index]? with
      | none => exact ⟨a, .refl, by simpa [System.step, found] using starts⟩
      | some payload =>
          simp only [System.step, found]
          obtain ⟨id, sent, rfl⟩ := starts.acks payload (List.mem_of_getElem? found)
          exact ⟨_, .single (.acknowledge a _ sent), startsOver_recvAck starts behind id junkId⟩
  | loseBatch index =>
      refine ⟨a, .refl, { starts with batches := ?_ }⟩
      exact fun payload member => starts.batches payload (List.mem_of_mem_eraseIdx member)
  | loseAck index =>
      refine ⟨a, .refl, { starts with acks := ?_ }⟩
      exact fun payload member => starts.acks payload (List.mem_of_mem_eraseIdx member)

/-- A whole lifetime after such a restart. -/
theorem run_startsOver {start : System}
    (starts : StartsOver ip old start (CumulativeAck.State.startOver old.length))
    (run : System.Run ip start s) :
    ∃ a, CumulativeAck.Behind 100 old.length a ∧ StartsOver ip old s a := by
  suffices reached : ∃ a, Relation.ReflTransGen (CumulativeAck.Step 100)
      (CumulativeAck.State.startOver old.length) a ∧ StartsOver ip old s a by
    obtain ⟨a, reachable, now⟩ := reached
    exact ⟨a, CumulativeAck.reachable_behind reachable, now⟩
  induction run with
  | refl => exact ⟨_, .refl, starts⟩
  | step run event allowed ih =>
      obtain ⟨a, reachable, now⟩ := ih
      have behind := CumulativeAck.reachable_behind reachable
      obtain ⟨a', step, next⟩ := startsOver_step now behind allowed
      exact ⟨a', reachable.trans step.to_reflTransGen, next⟩

end Steps

/-- A restart when the last ack covers everything: the queue is empty, the next id is 1, and the
server has everything. -/
theorem startsOver_restart {ip : Bytes} {s : System} {a : CumulativeAck.State LogEntry}
    {kept : Nat} (persists : Persists ip s a kept) (resumable : CumulativeAck.Resumable a kept)
    (acked : s.queue.ackId.toNat = s.issued.length)
    (inFlight : ∀ payload ∈ s.toClient, payload = ackPayload s.queue.ackId)
    (junkAckId : UInt64) (junk : Nat → Indeterminate) (temp : File) (renames : Bool) :
    StartsOver ip s.issued (s.restart junkAckId junk temp renames)
      (CumulativeAck.State.startOver s.issued.length) := by
  have refines := persists.refines
  have inv := resumable.inv
  have inside := persists.kept_le resumable
  obtain ⟨ackId, logEntries, newId, _⟩ := persists.onDisk.restart junkAckId junk temp renames
  have current := refines.ackId
  have length := congrArg List.length refines.issued
  have covered := inv.ack_le
  have released := inv.released_le
  have stored := inv.stored_le
  have nothing : unacked s.queue (s.issued.drop kept) = [] := by
    rw [persists.unacked_eq resumable, List.drop_of_length_le (by omega)]
  rw [nothing] at logEntries newId
  exact
    { issued := (List.append_nil _).symm
      oldNumbered := by
        rw [refines.issued]
        exact refines.numbered
      numbered := trivial
      bounded := by
        simp only [System.restart, length]
        exact refines.bounded
      single := by
        simp only [System.restart, refines.issued]
        exact refines.single
      pending := logEntries
      ackId := by
        simp only [System.restart, ackId]
        exact acked
      newId := by
        simp only [System.restart, newId]
        rfl
      file := by
        simp only [System.restart, CumulativeAck.State.startOver, List.take_nil, List.drop_nil,
          List.append_nil]
        rw [refines.file, refines.issued, List.take_of_length_le (by omega)]
      opens := refines.opens
      batches := by
        intro payload member
        obtain ⟨window, sent, built⟩ := refines.batches payload member
        obtain ⟨_, ordered, last⟩ := inv.windows_le window sent
        rw [refines.issued]
        exact Or.inr ⟨window, ordered, last, built⟩
      acks := by
        intro payload member
        refine ⟨s.queue.ackId, ?_, inFlight payload member⟩
        rw [acked]
        exact List.mem_singleton_self _
      before := List.mem_singleton_self _ }

/-- Alerts are lost after a restart.  When the client has taken the ack of its last entry, no other
ack is on its way and it is started again, it numbers from 1 again.  The server stores none of as
many entries as it has, whatever the network does; from a hundred on it never stores anything
again, and nothing leaves the client's queue. -/
theorem restart_starves {ip : Bytes} {firstAckId : UInt64} {firstJunk : Nat → Indeterminate}
    {disk : Disk} (absent : disk (clientLogFile ip) = File.absent) {s s' : System}
    (before : System.Lifetime True ip (System.initial firstAckId firstJunk disk) s)
    (acked : s.queue.ackId.toNat = s.issued.length)
    (inFlight : ∀ payload ∈ s.toClient, payload = ackPayload s.queue.ackId)
    {junkAckId : UInt64} {junk : Nat → Indeterminate} {temp : File} {renames : Bool}
    (run : System.Run ip (s.restart junkAckId junk temp renames) s') :
    (s.restart junkAckId junk temp renames).queue.logEntries = [] ∧
    ∃ fresh count, s'.issued = s.issued ++ fresh ∧ Numbered 0 fresh ∧
      (s'.disk (clientLogFile ip)).bytes =
        (s.issued ++ (fresh.drop s.issued.length).take count).flatMap LogEntry.serializeStr ∧
      (100 ≤ s.issued.length → count = 0 ∧ s'.queue.logEntries = fresh) := by
  obtain ⟨a, kept, resumable, persists⟩ := lifetime_persists absent before
  have starts := startsOver_restart persists resumable acked inFlight junkAckId junk temp renames
  obtain ⟨a', behind, now⟩ := run_startsOver starts run
  refine ⟨starts.pending, a'.issued, a'.stored - s.issued.length, now.issued, now.numbered, ?_, ?_⟩
  · rw [now.file, List.drop_take]
  · intro many
    obtain ⟨stored, released, _⟩ := behind.stuck many
    exact ⟨by omega, by rw [now.pending, released, List.drop_zero]⟩

/-- The client of `storedSample` when the ack has arrived. -/
def ackedSample : System := storedSample.live (.during (.recvAck 0 0))

theorem lifetime_ackedSample : System.Lifetime True (ascii "10.0.0.7")
    (System.initial 0 (fun _ => default) fun _ => File.absent) ackedSample :=
  (lifetime_storedSample True).step (.during (.recvAck 0 0)) trivial fun _ => trivial

/-- It is started again and logs one entry, which is sent and handled. -/
def starvedSample : System :=
  (((ackedSample.restart 0 (fun _ => default) File.absent true).step
    (.addLog (ascii "chrome.exe") 1700000060000 LogType.mem 314572800)).step .sendBatch).step
      (.recvBatch 0 ⟨2, 5, ascii "10.0.0.7", 50001⟩ default 0)

theorem restart_starves_sample :
    starvedSample.queue.logEntries.length = 1 ∧
      (ackedSample.restart 0 (fun _ => default) File.absent true).queue.logEntries = [] ∧
      ∃ fresh count, starvedSample.issued = ackedSample.issued ++ fresh ∧ Numbered 0 fresh ∧
        (starvedSample.disk (clientLogFile (ascii "10.0.0.7"))).bytes =
          (ackedSample.issued ++ (fresh.drop ackedSample.issued.length).take count).flatMap
            LogEntry.serializeStr ∧
        (100 ≤ ackedSample.issued.length → count = 0 ∧ starvedSample.queue.logEntries = fresh) := by
  refine ⟨by decide +kernel, ?_⟩
  exact restart_starves rfl lifetime_ackedSample (by decide +kernel) (by decide +kernel)
    (((System.Run.refl.step
      (.addLog (ascii "chrome.exe") 1700000060000 LogType.mem 314572800)
      ⟨by decide, by decide +kernel⟩).step .sendBatch trivial).step
        (.recvBatch 0 ⟨2, 5, ascii "10.0.0.7", 50001⟩ default 0) rfl)

end RemoteMonitoring
