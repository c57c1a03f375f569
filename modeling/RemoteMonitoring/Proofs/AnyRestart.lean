/-
Module: RemoteMonitoring.Proofs.AnyRestart
Purpose: What holds of the server's file of a client however often and whenever that client is
  started again: its ids are consecutive, it only grows, and every entry in it was logged.
Trusted boundary: none
Main exports: Traceable, traceable_live, lifetime_grows
-/
import RemoteMonitoring.Proofs.Incarnations
import RemoteMonitoring.Proofs.Storage

namespace RemoteMonitoring

open ByteText
open LogEntry (Numbered CleanName)

/-- The server's file has `kept` and the client's log file `written`, and nothing anywhere was
not issued. -/
structure Traceable (ip : Bytes) (s : System) (kept written : List LogEntry) : Prop where
  stores : Stores s.disk ip kept
  onDisk : OnDisk s.queue written
  kept_issued : ∀ entry ∈ kept, entry ∈ s.issued
  written_issued : ∀ entry ∈ written, entry ∈ s.issued
  pending_issued : ∀ entry ∈ s.queue.logEntries, entry ∈ s.issued
  id_le : ∀ entry ∈ s.issued, entry.id.toNat ≤ s.issued.length
  newId_le : s.queue.newId.toNat ≤ s.issued.length + 1
  bounded : s.issued.length < 2 ^ 32
  single : ∀ entry ∈ s.issued, newline ∉ entry.processName
  batches : ∀ payload ∈ s.toServer, ∃ batch, logPayload batch = .ok payload ∧
    batch.length ≤ 100 ∧ ∀ entry ∈ batch, entry ∈ s.issued

/-- At the first start nothing is stored and nothing was logged. -/
theorem traceable_initial {ip : Bytes} (junkAckId : UInt64) (junk : Nat → Indeterminate)
    {disk : Disk} (absent : disk (clientLogFile ip) = File.absent) :
    Traceable ip (System.initial junkAckId junk disk) [] [] where
  stores := stores_absent absent
  onDisk := onDisk_fresh junkAckId junk
  kept_issued := by simp
  written_issued := by simp
  pending_issued := by
    intro entry member
    cases member
  id_le := by simp [System.initial]
  newId_le := Nat.le_refl 1
  bounded := by simp [System.initial]
  single := by simp [System.initial]
  batches := by simp [System.initial]

section Steps

variable {ip : Bytes} {s : System} {kept written : List LogEntry}

/-- A server does not hold more entries than were issued: the last id is one of theirs. -/
theorem Traceable.length_le (traceable : Traceable ip s kept written) :
    kept.length ≤ s.issued.length := by
  rcases List.eq_nil_or_concat kept with rfl | ⟨front, entry, rfl⟩
  · exact Nat.zero_le _
  · rw [List.concat_eq_append] at traceable ⊢
    have id := (LogEntry.numbered_append.mp traceable.stores.numbered).2.1
    have bound := traceable.id_le entry (traceable.kept_issued entry (by simp))
    rw [List.length_append, List.length_singleton]
    omega

theorem popAcked_subset (ackId : UInt64) (logEntries : List LogEntry) :
    LogQueue.popAcked ackId logEntries ⊆ logEntries := by
  rw [popAcked_eq]
  exact (List.dropWhile_sublist _).subset

/-- A new entry is written behind those in the log file, and is from then on among the issued
ones. -/
theorem traceable_addLog (traceable : Traceable ip s kept written) {processName : Bytes}
    (clean : CleanName processName) (room : s.issued.length + 1 < 2 ^ 32) (timestampMs : UInt64)
    (logType : LogType) (value : UInt64) :
    ∃ entry, Traceable ip (s.addLog processName timestampMs logType value) kept
      (written ++ [entry]) := by
  have before {entries : List LogEntry} (old : ∀ entry ∈ entries, entry ∈ s.issued)
      (new : LogEntry) : ∀ entry ∈ entries, entry ∈ s.issued ++ [new] :=
    fun entry member => List.mem_append_left _ (old entry member)
  have newId := traceable.newId_le
  have last {entries : List LogEntry} (old : ∀ entry ∈ entries, entry ∈ s.issued)
      (new : LogEntry) : ∀ entry ∈ entries ++ [new], entry ∈ s.issued ++ [new] := by
    intro entry member
    rcases List.mem_append.mp member with older | newest
    · exact List.mem_append_left _ (old entry older)
    · exact List.mem_append_right _ newest
  have length : (s.addLog processName timestampMs logType value).issued.length =
      s.issued.length + 1 := List.length_append
  refine ⟨⟨s.queue.newId, processName, timestampMs, logType, value⟩, ?_⟩
  exact
    { stores := traceable.stores
      onDisk := traceable.onDisk.addNewLog clean timestampMs logType value
      kept_issued := before traceable.kept_issued _
      written_issued := last traceable.written_issued _
      pending_issued := last traceable.pending_issued _
      id_le := by
        intro entry member
        rw [length]
        rcases List.mem_append.mp member with older | newest
        · exact Nat.le_succ_of_le (traceable.id_le entry older)
        · rw [List.mem_singleton.mp newest]
          exact newId
      newId_le := by
        rw [length]
        change (s.queue.newId + 1).toNat ≤ _
        rw [UInt64.toNat_add, UInt64.toNat_one]
        have wraps := Nat.mod_le (s.queue.newId.toNat + 1) (2 ^ 64)
        omega
      bounded := by
        rw [length]
        exact room
      single := by
        intro entry member
        rcases List.mem_append.mp member with older | newest
        · exact traceable.single entry older
        · rw [List.mem_singleton.mp newest]
          exact clean.2
      batches := by
        intro payload member
        obtain ⟨batch, built, short, issued⟩ := traceable.batches payload member
        exact ⟨batch, built, short, before issued _⟩ }

/-- A batch that is sent consists of entries that are in the queue, so of issued ones. -/
theorem traceable_sendBatch (traceable : Traceable ip s kept written) :
    Traceable ip s.sendBatch kept written := by
  unfold System.sendBatch
  cases sends : sendLogs s.queue with
  | error e => exact traceable
  | ok sent =>
      cases sent with
      | none => exact traceable
      | some payload =>
          refine { traceable with batches := ?_ }
          intro other member
          rcases List.mem_cons.mp member with rfl | older
          · refine ⟨_, logPayload_of_sendLogs sends, ?_, ?_⟩
            · unfold LogQueue.getBatchLog
              split
              · simp
              · exact Nat.le_trans (List.length_take_le _ _) (Nat.min_le_left _ _)
            · intro entry member
              unfold LogQueue.getBatchLog at member
              split at member
              · cases member
              · exact traceable.pending_issued entry (List.mem_of_mem_take member)
          · exact traceable.batches other older

/-- The server adds to its file the entries of the batch that continue its numbering, and no
others; a batch that it cannot decode adds none. All of them were issued, since whatever is in
flight was. -/
theorem traceable_recvBatch (traceable : Traceable ip s kept written) {payload : Bytes}
    (sent : payload ∈ s.toServer) {info : ClientInfo} (same : info.clientIp = ip)
    (junk : Indeterminate) (netCount : UInt32) :
    ∃ more, Traceable ip (s.recvBatch payload info junk netCount) (kept ++ more) written := by
  subst same
  obtain ⟨batch, built, short, issued⟩ := traceable.batches payload sent
  have few := traceable.length_le
  have bounded := traceable.bounded
  obtain ⟨taken, file, id, handled, stores, sublist, _⟩ :=
    traceable.stores.onNetworkRecv built (by omega) (by omega)
      (fun entry member => traceable.single entry (issued entry member)) junk netCount
  refine ⟨taken, ?_⟩
  rw [System.recvBatch, handled]
  exact
    { traceable with
      stores := stores
      kept_issued := by
        intro entry member
        rcases List.mem_append.mp member with older | new
        · exact traceable.kept_issued entry older
        · exact issued entry (sublist.subset new) }

/-- An ack takes entries out of the queue, and brings none. -/
theorem traceable_recvAck (traceable : Traceable ip s kept written) (payload : Bytes)
    (junkId : UInt64) : Traceable ip (s.recvAck payload junkId) kept written := by
  unfold System.recvAck
  cases handled : ackSubscriber junkId payload s.queue with
  | error e => exact traceable
  | ok queue =>
      rcases ackSubscriber_cases handled with rfl | ⟨id, rfl⟩
      · exact { traceable with }
      · refine { traceable with
          onDisk := traceable.onDisk.ackLog id
          pending_issued := ?_
          newId_le := ?_ }
        · intro entry member
          by_cases same : id = s.queue.ackId
          · simp only [same, LogQueue.ackLog_self] at member
            exact traceable.pending_issued entry member
          · simp only [LogQueue.ackLog_of_ne same] at member
            exact traceable.pending_issued entry (popAcked_subset _ _ member)
        · by_cases same : id = s.queue.ackId
          · simp only [same, LogQueue.ackLog_self]
            exact traceable.newId_le
          · simp only [LogQueue.ackLog_of_ne same]
            exact traceable.newId_le

/-- What a restart loads from the log file are entries that were written, of which some are left.
-/
theorem traceable_restart (traceable : Traceable ip s kept written) (junkAckId : UInt64)
    (junk : Nat → Indeterminate) (temp : File) (renames : Bool) :
    ∃ left, Traceable ip (s.restart junkAckId junk temp renames) kept left := by
  obtain ⟨_, logEntries, newId, onDisk⟩ := traceable.onDisk.restart junkAckId junk temp renames
  have loaded : ∀ entry ∈ unacked s.queue written, entry ∈ s.issued :=
    fun entry member => traceable.written_issued entry (List.mem_of_mem_filter member)
  have next : (LogQueue.firstNewId (unacked s.queue written)).toNat ≤ s.issued.length + 1 := by
    unfold LogQueue.firstNewId
    split
    · rename_i entry last
      have bound := traceable.id_le entry (loaded entry (List.mem_of_getLast? last))
      have wraps := Nat.mod_le (entry.id.toNat + 1) (2 ^ 64)
      rw [UInt64.toNat_add, UInt64.toNat_one]
      omega
    · simp
  have traced {left : List LogEntry} (files : OnDisk (s.queue.restart junkAckId junk temp renames)
      left) (issued : ∀ entry ∈ left, entry ∈ s.issued) :
      Traceable ip (s.restart junkAckId junk temp renames) kept left :=
    { traceable with
      onDisk := files
      written_issued := issued
      pending_issued := by
        simp only [System.restart, logEntries]
        exact loaded
      newId_le := by
        simp only [System.restart, newId]
        exact next }
  rcases onDisk with whole | compacted
  · exact ⟨written, traced whole traceable.written_issued⟩
  · exact ⟨unacked s.queue written, traced compacted loaded⟩

/-- Whatever happens next, the file only grows. -/
theorem traceable_live (traceable : Traceable ip s kept written) {event : LifeEvent}
    (lives : System.Lives ip s event) :
    ∃ more left, Traceable ip (s.live event) (kept ++ more) left := by
  have same (after : System) {left : List LogEntry} (next : Traceable ip after kept left) :
      ∃ more left, Traceable ip after (kept ++ more) left :=
    ⟨[], left, (List.append_nil kept).symm ▸ next⟩
  cases event with
  | elsewhere disk =>
      have unchanged : disk (clientLogFile ip) = s.disk (clientLogFile ip) := lives
      have stores : Stores disk ip kept :=
        { traceable.stores with
          content := by
            rw [unchanged]
            exact traceable.stores.content
          opens := by
            rw [unchanged]
            exact traceable.stores.opens }
      exact same _ { traceable with stores := stores }
  | restart junkAckId junk temp renames =>
      obtain ⟨left, next⟩ := traceable_restart traceable junkAckId junk temp renames
      exact same _ next
  | during event =>
      simp only [System.live]
      cases event with
      | addLog processName timestampMs logType value =>
          obtain ⟨entry, next⟩ :=
            traceable_addLog traceable lives.1 lives.2 timestampMs logType value
          exact same _ next
      | sendBatch => exact same _ (traceable_sendBatch traceable)
      | recvBatch index info junk netCount =>
          rw [System.step]
          split
          · rename_i payload found
            obtain ⟨more, next⟩ := traceable_recvBatch traceable (List.mem_of_getElem? found) lives
              junk netCount
            exact ⟨more, written, next⟩
          · exact same _ traceable
      | recvAck index junkId =>
          rw [System.step]
          split
          · exact same _ (traceable_recvAck traceable _ junkId)
          · exact same _ traceable
      | loseBatch index =>
          refine same _ { traceable with batches := ?_ }
          exact fun payload member => traceable.batches payload (List.mem_of_mem_eraseIdx member)
      | loseAck index => exact same _ { traceable with }

/-- Over a whole lifetime the stored entries only become more, and all of them were issued: one
case for each kind of step. -/
theorem lifetime_grows {resuming : Prop} {start : System}
    (traceable : Traceable ip start kept written)
    (run : System.Lifetime resuming ip start s) :
    ∃ more left, Traceable ip s (kept ++ more) left := by
  induction run with
  | refl => exact ⟨[], written, (List.append_nil kept).symm ▸ traceable⟩
  | step run event lives _ ih =>
      obtain ⟨more, left, now⟩ := ih
      obtain ⟨next, after, grown⟩ := traceable_live now lives
      exact ⟨more ++ next, after, List.append_assoc kept more next ▸ grown⟩

end Steps

end RemoteMonitoring
