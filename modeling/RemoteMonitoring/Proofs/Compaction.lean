/-
Module: RemoteMonitoring.Proofs.Compaction
Purpose: When the compaction of the log file goes unnoticed: it writes what is in memory, from
  which an ack may have taken entries that a later, lower ack makes pending again.
Trusted boundary: none
Main exports: Logged, logged_run, Logged.destroy, compaction_unnoticed_iff,
  compaction_unnoticed_of_rising
-/
import RemoteMonitoring.System.Compaction

namespace RemoteMonitoring

open ByteText
open LogQueue (takenOff)

/-- The log file has all entries, those that were taken off and those that are in memory; the
ack file has the last ack. -/
structure Logged (queue : LogQueue) (taken : List LogEntry) : Prop where
  clean : ∀ entry ∈ taken ++ queue.logEntries, LogEntry.CleanName entry.processName
  logContent : queue.logFile.content =
    some ((taken ++ queue.logEntries).flatMap LogEntry.serializeStr)
  logOpens : queue.logFile.writable = true
  ackContent : queue.ackFile.content = some (decimal queue.ackId.toNat)
  ackOpens : queue.ackFile.writable = true

/-- A first start has nothing logged. -/
theorem logged_fresh (junkAckId : UInt64) (junk : Nat → Indeterminate) :
    Logged (freshQueue junkAckId junk) [] where
  clean := by
    intro entry member
    cases member
  logContent := rfl
  logOpens := rfl
  ackContent := rfl
  ackOpens := rfl

section Steps

variable {queue : LogQueue} {taken : List LogEntry}

/-- A new entry stands in the queue and at the end of the file. -/
theorem Logged.addNewLog (logged : Logged queue taken) {processName : Bytes}
    (clean : LogEntry.CleanName processName) (timestampMs : UInt64) (logType : LogType)
    (value : UInt64) :
    Logged (queue.addNewLog processName timestampMs logType value).2 taken where
  clean := by
    intro entry member
    simp only [LogQueue.addNewLog, LogQueue.getNewId, LogQueue.addLog, ← List.append_assoc] at member
    cases List.mem_append.mp member with
    | inl before => exact logged.clean entry before
    | inr new =>
        rw [List.mem_singleton.mp new]
        exact clean
  logContent := by
    simp only [LogQueue.addNewLog, LogQueue.getNewId, LogQueue.addLog,
      File.content_append logged.logOpens, File.bytes, logged.logContent, Option.getD_some,
      ← List.append_assoc, List.flatMap_append, List.flatMap_singleton]
  logOpens := by
    simp only [LogQueue.addNewLog, LogQueue.getNewId, LogQueue.addLog, File.writable_append,
      logged.logOpens]
  ackContent := logged.ackContent
  ackOpens := logged.ackOpens

/-- An ack takes off the front of the queue, up to the first entry behind it. -/
theorem popAcked_eq (ackId : UInt64) (logEntries : List LogEntry) :
    LogQueue.popAcked ackId logEntries = logEntries.dropWhile (·.id ≤ ackId) := by
  induction logEntries with
  | nil => rfl
  | cons entry rest ih =>
      rw [LogQueue.popAcked, List.dropWhile_cons]
      simp only [decide_eq_true_eq, ih]

/-- An ack that is a new one takes off the front of the queue, and leaves the lines in the file.
-/
theorem Logged.ackLog (logged : Logged queue taken) {id : UInt64} (different : id ≠ queue.ackId) :
    Logged (queue.ackLog id) (taken ++ queue.logEntries.takeWhile (·.id ≤ id)) := by
  have same : taken ++ queue.logEntries.takeWhile (·.id ≤ id) ++
      LogQueue.popAcked id queue.logEntries = taken ++ queue.logEntries := by
    rw [popAcked_eq, List.append_assoc, List.takeWhile_append_dropWhile]
  rw [LogQueue.ackLog_of_ne different]
  constructor
  · rw [same]
    exact logged.clean
  · rw [same]
    exact logged.logContent
  · exact logged.logOpens
  · exact File.content_overwrite logged.ackOpens _
  · rw [File.writable_overwrite]
    exact logged.ackOpens

end Steps

/-- After any calls the file has the lines of what was taken off, and then those of the queue. -/
theorem logged_run {queue : LogQueue} {taken : List LogEntry} (logged : Logged queue taken)
    {calls : List QueueCall} (clean : QueueCall.CleanNames calls) :
    Logged (queue.run calls) (taken ++ takenOff queue calls) := by
  induction calls generalizing queue taken with
  | nil => simpa [LogQueue.run, takenOff] using logged
  | cons call later ih =>
      have others : QueueCall.CleanNames later := fun processName timestampMs logType value member =>
        clean processName timestampMs logType value (List.mem_cons_of_mem call member)
      cases call with
      | addNewLog processName timestampMs logType value =>
          have name := clean processName timestampMs logType value List.mem_cons_self
          exact ih (logged.addNewLog name timestampMs logType value) others
      | ackLog id =>
          by_cases repeats : id = queue.ackId
          · rw [takenOff, if_pos repeats, List.nil_append]
            have same : queue.ackLog id = queue := by rw [repeats, LogQueue.ackLog_self]
            have rest := ih logged others
            rw [same]
            have run : queue.run (.ackLog id :: later) = queue.run later := by
              rw [LogQueue.run, List.foldl_cons, LogQueue.call, same]
              rfl
            rwa [run]
          · rw [takenOff, if_neg repeats, ← List.append_assoc]
            exact ih (logged.ackLog repeats) others

/-! ### Recovery -/

section Compaction

variable {queue : LogQueue} {taken : List LogEntry} {temp : File}

/-- A file within its limit is left as it is. -/
theorem cleanOldLogs_small {limit : Nat} (small : queue.logFile.bytes.length ≤ limit)
    (renames : Bool) : queue.cleanOldLogs limit temp renames = queue := by
  unfold File.bytes at small
  unfold LogQueue.cleanOldLogs
  cases present : queue.logFile.content with
  | none => rfl
  | some content =>
      rw [present, Option.getD_some] at small
      simp only [small, if_true]

/-- A file that has become too large is replaced by the lines of the queue that are behind the
ack. -/
theorem cleanOldLogs_large {limit : Nat} (large : limit < queue.logFile.bytes.length)
    (opens : temp.writable = true) :
    queue.cleanOldLogs limit temp true =
      let kept := queue.logEntries.filter fun logEntry => logEntry.id > queue.ackId
      { queue with logFile := temp.overwrite (kept.flatMap LogEntry.serializeStr) } := by
  unfold File.bytes at large
  unfold LogQueue.cleanOldLogs
  cases present : queue.logFile.content with
  | none =>
      rw [present, Option.getD_none, List.length_nil] at large
      exact absurd large (Nat.not_lt_zero limit)
  | some content =>
      rw [present, Option.getD_some] at large
      simp [Nat.not_le.mpr large, opens]

/-- Nothing is recovered from what was taken off exactly if the last ack covers it. -/
theorem filter_taken_iff {ackId : UInt64} {pending : List LogEntry} :
    (pending.filter fun entry => entry.id > ackId) =
        ((taken ++ pending).filter fun entry => entry.id > ackId) ↔
      ∀ entry ∈ taken, entry.id ≤ ackId := by
  rw [List.filter_append, List.self_eq_append_left, List.filter_eq_nil_iff]
  simp only [decide_eq_true_eq, gt_iff_lt, UInt64.not_lt]

/-- A restart finds the same with and without the compaction exactly if nothing was compacted, or
nothing that was taken off is behind the last ack. -/
theorem sameRecovery_iff (logged : Logged queue taken) (opens : temp.writable = true)
    (limit : Nat) :
    SameRecovery (queue.cleanOldLogs limit temp true) queue ↔
      queue.logFile.bytes.length ≤ limit ∨ ∀ entry ∈ taken, entry.id ≤ queue.ackId := by
  have recovers := LogQueue.ofFiles_logged logged.clean logged.logContent logged.ackContent
  by_cases small : queue.logFile.bytes.length ≤ limit
  · rw [cleanOldLogs_small small]
    simp [SameRecovery, recovers, small]
  · have kept : ∀ entry ∈ queue.logEntries.filter (fun entry => entry.id > queue.ackId),
        LogEntry.CleanName entry.processName := fun entry member =>
      logged.clean entry (List.mem_append_right taken (List.mem_of_mem_filter member))
    have compacted := LogQueue.ofFiles_logged kept (File.content_overwrite opens _) logged.ackContent
    rw [cleanOldLogs_large (Nat.not_le.mp small) opens, ← filter_taken_iff]
    simp only [SameRecovery, recovers, compacted, small, false_or, true_and, List.filter_filter,
      Bool.and_self]
    constructor
    · intro same
      exact (same 0 (fun _ => default) 0 (fun _ => default)).1
    · intro same _ _ _ _
      exact ⟨same, congrArg LogQueue.firstNewId same⟩

/-- The destructor compacts, and writes the ack that the ack file has already. -/
theorem Logged.destroy (logged : Logged queue taken) (temp : File) (renames : Bool) :
    queue.destroy temp renames =
      ((queue.cleanOldLogs LogQueue.maxLogFileSize temp renames).logFile, queue.ackFile) := by
  have keeps : queue.cleanOldLogs LogQueue.maxLogFileSize temp renames = { queue with
      logFile := (queue.cleanOldLogs LogQueue.maxLogFileSize temp renames).logFile } := by
    unfold LogQueue.cleanOldLogs
    cases queue.logFile.content with
    | none => rfl
    | some content =>
        dsimp only
        split_ifs
        · rfl
        · rfl
        · rfl
        · rfl
  have written : queue.ackFile.overwrite (decimal queue.ackId.toNat) = queue.ackFile := by
    rw [File.overwrite, if_pos logged.ackOpens, ← logged.ackContent]
  rw [LogQueue.destroy, keeps]
  exact congrArg (Prod.mk _) written

end Compaction

/-- After any run of calls, a restart recovers the same from the compacted log file exactly if the
file is not compacted or the last ack is not below the id of an entry that an ack has taken off
the queue. -/
theorem compaction_unnoticed_iff (junkAckId : UInt64) (junk : Nat → Indeterminate)
    {calls : List QueueCall} (clean : QueueCall.CleanNames calls) {temp : File}
    (opens : temp.writable = true) (limit : Nat) :
    let queue := (freshQueue junkAckId junk).run calls
    SameRecovery (queue.cleanOldLogs limit temp true) queue ↔
      queue.logFile.bytes.length ≤ limit ∨
        ∀ entry ∈ takenOff (freshQueue junkAckId junk) calls, entry.id ≤ queue.ackId :=
  sameRecovery_iff (logged_run (logged_fresh junkAckId junk) clean) opens limit

/-- Two entries, of which the first is acked. -/
theorem compaction_unnoticed_iff_sample :
    let calls : List QueueCall :=
      [.addNewLog (ascii "a") 5 LogType.cpu 9, .addNewLog (ascii "b") 6 LogType.mem 8, .ackLog 1]
    let queue := (freshQueue 7 fun _ => default).run calls
    SameRecovery (queue.cleanOldLogs 10 File.absent true) queue ↔
      queue.logFile.bytes.length ≤ 10 ∨
        ∀ entry ∈ takenOff (freshQueue 7 fun _ => default) calls, entry.id ≤ queue.ackId := by
  apply compaction_unnoticed_iff
  · intro processName timestampMs logType value member
    simp only [List.mem_cons, QueueCall.addNewLog.injEq, reduceCtorEq, List.not_mem_nil,
      or_false] at member
    rcases member with ⟨rfl, _⟩ | ⟨rfl, _⟩
    · decide
    · decide
  · rfl

/-- Two entries are acked, and then the server acks the first alone: without compaction a restart
sends the second again, with it the entry is lost. -/
theorem lowered_ack_loses_entry :
    let calls : List QueueCall :=
      [.addNewLog (ascii "a") 5 LogType.cpu 9, .addNewLog (ascii "b") 6 LogType.mem 8,
        .ackLog 2, .ackLog 1]
    let queue := (freshQueue 0 fun _ => default).run calls
    let cleaned := queue.cleanOldLogs 10 File.absent true
    (LogQueue.ofFiles 0 (fun _ => default) queue.logFile queue.ackFile).logEntries =
        [⟨2, ascii "b", 6, LogType.mem, 8⟩] ∧
      (LogQueue.ofFiles 0 (fun _ => default) cleaned.logFile cleaned.ackFile).logEntries = [] ∧
      ¬ SameRecovery cleaned queue := by
  intro calls queue cleaned
  have before : (LogQueue.ofFiles 0 (fun _ => default) queue.logFile queue.ackFile).logEntries =
      [⟨2, ascii "b", 6, LogType.mem, 8⟩] := by
    decide +kernel
  have after : (LogQueue.ofFiles 0 (fun _ => default) cleaned.logFile
      cleaned.ackFile).logEntries = [] := by
    decide +kernel
  refine ⟨before, after, fun same => ?_⟩
  have both := (same 0 (fun _ => default) 0 (fun _ => default)).2.1
  rw [before, after] at both
  cases both

/-! ### Acks that rise -/

/-- No ack is below the one before it. -/
def Rising : LogQueue → List QueueCall → Prop
  | _, [] => True
  | queue, call :: later =>
      queue.ackId ≤ (queue.call call).ackId ∧ Rising (queue.call call) later

/-- With acks that only rise, all that is taken off is below the last one. -/
theorem takenOff_le {queue : LogQueue} {calls : List QueueCall} (rising : Rising queue calls) :
    queue.ackId ≤ (queue.run calls).ackId ∧
      ∀ entry ∈ takenOff queue calls, entry.id ≤ (queue.run calls).ackId := by
  induction calls generalizing queue with
  | nil => exact ⟨UInt64.le_refl _, fun entry member => absurd member List.not_mem_nil⟩
  | cons call later ih =>
      obtain ⟨higher, taken⟩ := ih rising.2
      refine ⟨UInt64.le_trans rising.1 higher, ?_⟩
      cases call with
      | addNewLog processName timestampMs logType value => exact taken
      | ackLog id =>
          intro entry member
          rw [takenOff] at member
          cases List.mem_append.mp member with
          | inr behind => exact taken entry behind
          | inl now =>
              split at now
              · cases now
              · rename_i different
                have acked : entry.id ≤ id := by simpa using List.mem_takeWhile_imp now
                have current : (queue.ackLog id).ackId = id := by
                  rw [LogQueue.ackLog_of_ne different]
                rw [LogQueue.call, current] at higher
                exact UInt64.le_trans acked higher

/-- In a run in which no ack is below the one before it, compaction always goes unnoticed. -/
theorem compaction_unnoticed_of_rising (junkAckId : UInt64) (junk : Nat → Indeterminate)
    {calls : List QueueCall} (clean : QueueCall.CleanNames calls)
    (rising : Rising (freshQueue junkAckId junk) calls) {temp : File}
    (opens : temp.writable = true) (limit : Nat) :
    let queue := (freshQueue junkAckId junk).run calls
    SameRecovery (queue.cleanOldLogs limit temp true) queue :=
  (sameRecovery_iff (logged_run (logged_fresh junkAckId junk) clean) opens limit).mpr
    (Or.inr (takenOff_le rising).2)

end RemoteMonitoring
