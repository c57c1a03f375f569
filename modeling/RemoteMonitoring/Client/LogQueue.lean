/-
Module: RemoteMonitoring.Client.LogQueue
Purpose: `LogQueue` (client/log_queue.hpp and .cpp): the queue of unacknowledged entries, the
  log file and the ack file behind it, and the constructor that reloads both.
Trusted boundary: a write that follows a successful open succeeds
Main exports: LogQueue, LogQueue.ofFiles, LogQueue.addLog, LogQueue.getBatchLog,
  LogQueue.ackLog, LogQueue.getNewId, LogQueue.addNewLog, LogQueue.cleanOldLogs
-/
import RemoteMonitoring.Common.LogEntry
import RemoteMonitoring.Lib.File

namespace RemoteMonitoring

open ByteText

/-- The members `log_file` and `ack_file` are the names of two files; here they
are the files themselves. -/
structure LogQueue where
  logFile : File
  ackFile : File
  ackId : UInt64
  logEntries : List LogEntry
  newId : UInt64
deriving DecidableEq, Repr

namespace LogQueue

/-! ### The constructor -/

/-- What one line of the log file adds to the queue. -/
def loadLine (ackId : UInt64) (junk : Indeterminate) (line : Bytes) : Option LogEntry :=
  if line = [] then none
  else
    let logEntry := (LogEntry.ofIndeterminate junk).ofLine junk.tempNumber line
    if logEntry.id > ackId then some logEntry else none

/-- The loop over the log file, with fresh uninitialised variables in every
round.  `fuel` bounds the number of rounds. -/
def readLog (ackId : UInt64) : (Nat → Indeterminate) → Nat → IStream → List LogEntry
  | _, 0, _ => []
  | junk, fuel + 1, is =>
      if is.eof then []
      else
        let (ret, logEntry, is) :=
          (LogEntry.ofIndeterminate (junk 0)).deserializeStr (junk 0).tempNumber is
        let later := readLog ackId (fun round => junk (round + 1)) fuel is
        if ret ≠ 0 then later
        else if logEntry.id > ackId then logEntry :: later
        else later

/-- `ack_id` is not initialised before `operator>>`, so it starts as `junkAckId`. -/
def readAck (junkAckId : UInt64) (ackFile : File) : File × UInt64 :=
  match ackFile.content with
  | none => (ackFile.overwrite (decimal 0), 0)
  | some content => (ackFile, ((IStream.ofBytes content).extractUInt64 junkAckId).1)

def loadLog (ackId : UInt64) (junk : Nat → Indeterminate) (logFile : File) :
    File × List LogEntry :=
  match logFile.content with
  | none => (logFile.overwrite [], [])
  | some content => (logFile, readLog ackId junk (content.length + 1) (.ofBytes content))

/-- The next id is one more than that of the last pending entry. -/
def firstNewId (logEntries : List LogEntry) : UInt64 :=
  match logEntries.getLast? with
  | some logEntry => logEntry.id + 1
  | none => 1

/-- `LogQueue(log_file, ack_file)`. -/
def ofFiles (junkAckId : UInt64) (junk : Nat → Indeterminate) (logFile ackFile : File) :
    LogQueue :=
  let (ackFile, ackId) := readAck junkAckId ackFile
  let (logFile, logEntries) := loadLog ackId junk logFile
  { logFile, ackFile, ackId, logEntries, newId := firstNewId logEntries }

/-! ### Operations -/

def addLog (queue : LogQueue) (logEntry : LogEntry) : LogQueue :=
  { queue with
    logFile := queue.logFile.append logEntry.serializeStr
    logEntries := queue.logEntries ++ [logEntry] }

/-- The size of the queue is narrowed to 32 bits before it is compared. -/
def getBatchLog (queue : LogQueue) (batchSize : UInt32) : List LogEntry :=
  if queue.logEntries.isEmpty then []
  else
    queue.logEntries.take
      (min batchSize.toNat (UInt32.ofNat queue.logEntries.length).toNat)

/-- The loop that pops acknowledged entries off the front. -/
def popAcked (ackId : UInt64) : List LogEntry → List LogEntry
  | [] => []
  | logEntry :: rest =>
      if logEntry.id ≤ ackId then popAcked ackId rest else logEntry :: rest

/-- An ack below the current one is taken over as well: "server has authority
here, client listens to server". -/
def ackLog (queue : LogQueue) (id : UInt64) : LogQueue :=
  if id = queue.ackId then queue
  else
    { queue with
      ackId := id
      logEntries := popAcked id queue.logEntries
      ackFile := queue.ackFile.overwrite (decimal id.toNat) }

def getNewId (queue : LogQueue) : UInt64 × LogQueue :=
  (queue.newId, { queue with newId := queue.newId + 1 })

/-- How every caller adds an entry: the id comes from `get_new_id` and goes
straight to `add_log`. -/
def addNewLog (queue : LogQueue) (processName : Bytes) (timestampMs : UInt64)
    (logType : LogType) (value : UInt64) : LogEntry × LogQueue :=
  let (id, queue) := queue.getNewId
  let logEntry : LogEntry := { id, processName, timestampMs, logType, value }
  (logEntry, queue.addLog logEntry)

/-! ### The destructor -/

/-- `MAX_LOG_FILE_SIZE`. -/
def maxLogFileSize : Nat := 10 * 2 ^ 20

/-- A log file that is too large is replaced by the temporary file `temp`, into which the pending
entries are written; `renames` is whether `std::rename` succeeds. -/
def cleanOldLogs (maxLogFileSize : Nat) (temp : File) (renames : Bool) (queue : LogQueue) :
    LogQueue :=
  match queue.logFile.content with
  | none => queue
  | some content =>
      if content.length ≤ maxLogFileSize then queue
      else if !temp.writable then queue
      else
        let kept := queue.logEntries.filter fun logEntry => logEntry.id > queue.ackId
        let temp := temp.overwrite (kept.flatMap LogEntry.serializeStr)
        if renames then { queue with logFile := temp } else queue

/-- `~LogQueue()`: the log file and the ack file that it leaves. -/
def destroy (temp : File) (renames : Bool) (queue : LogQueue) : File × File :=
  let queue := queue.cleanOldLogs maxLogFileSize temp renames
  (queue.logFile, queue.ackFile.overwrite (decimal queue.ackId.toNat))

/-! ### What the loops compute -/

/-- An ack that repeats the current one changes nothing. -/
@[simp] theorem ackLog_self (queue : LogQueue) : queue.ackLog queue.ackId = queue := if_pos rfl

/-- Any other ack is followed, also when it goes backwards. -/
theorem ackLog_of_ne {queue : LogQueue} {id : UInt64} (different : id ≠ queue.ackId) :
    queue.ackLog id =
      { queue with
        ackId := id
        logEntries := popAcked id queue.logEntries
        ackFile := queue.ackFile.overwrite (decimal id.toNat) } := if_neg different

/-- On consecutive ids the loop drops a prefix given by the ack. -/
theorem popAcked_numbered {start : Nat} {logEntries : List LogEntry}
    (numbered : LogEntry.Numbered start logEntries) (ackId : UInt64) :
    popAcked ackId logEntries = logEntries.drop (ackId.toNat - start) := by
  induction logEntries generalizing start with
  | nil => simp [popAcked]
  | cons logEntry rest ih =>
      obtain ⟨id, later⟩ := numbered
      by_cases acked : logEntry.id ≤ ackId
      · have front : start + 1 ≤ ackId.toNat := id ▸ UInt64.le_iff_toNat_le.mp acked
        have count : ackId.toNat - start = ackId.toNat - (start + 1) + 1 := by omega
        rw [popAcked, if_pos acked, ih later, count, List.drop_succ_cons]
      · have behind : ackId.toNat < start + 1 := by
          rw [← id]
          exact Nat.lt_of_not_le fun le => acked (UInt64.le_iff_toNat_le.mpr le)
        have count : ackId.toNat - start = 0 := by omega
        rw [popAcked, if_neg acked, count, List.drop_zero]

/-- A batch is the front of the queue, as long as its size is counted in 32 bits. -/
theorem getBatchLog_eq_take {queue : LogQueue} (fits : queue.logEntries.length < 2 ^ 32)
    (batchSize : UInt32) :
    queue.getBatchLog batchSize = queue.logEntries.take batchSize.toNat := by
  unfold getBatchLog
  split
  · rename_i empty
    simp [List.isEmpty_iff.mp empty]
  · rw [UInt32.toNat_ofNat', Nat.mod_eq_of_lt fits]
    rcases Nat.le_total batchSize.toNat queue.logEntries.length with shorter | longer
    · rw [Nat.min_eq_left shorter]
    · rw [Nat.min_eq_right longer, List.take_of_length_le longer, List.take_length]

/-- The lines of a file, each with the uninitialised variables of its round. -/
def loadLines (ackId : UInt64) : (Nat → Indeterminate) → List Bytes → List LogEntry
  | _, [] => []
  | junk, line :: rest =>
      (loadLine ackId (junk 0) line).toList ++
        loadLines ackId (fun round => junk (round + 1)) rest

/-- The loop of the constructor, which tests for the end of the file only before a
round: `none` when so many rounds do not get there. -/
def readLogWithin (ackId : UInt64) : (Nat → Indeterminate) → Nat → IStream →
    Option (List LogEntry)
  | junk, rounds, is =>
      if is.eof then some []
      else
        match rounds with
        | 0 => none
        | rounds + 1 =>
            let (ret, logEntry, is) :=
              (LogEntry.ofIndeterminate (junk 0)).deserializeStr (junk 0).tempNumber is
            let later := readLogWithin ackId (fun round => junk (round + 1)) rounds is
            if ret ≠ 0 then later
            else if logEntry.id > ackId then later.map (logEntry :: ·)
            else later

/-- A loop that stops has loaded what the constructor's loop loads. -/
theorem readLog_of_within {ackId : UInt64} {junk : Nat → Indeterminate} {rounds : Nat}
    {is : IStream} {logEntries : List LogEntry}
    (stops : readLogWithin ackId junk rounds is = some logEntries) :
    readLog ackId junk rounds is = logEntries := by
  induction rounds generalizing junk is logEntries with
  | zero =>
      unfold readLogWithin at stops
      split at stops
      · cases stops
        rfl
      · cases stops
  | succ rounds ih =>
      unfold readLogWithin at stops
      unfold readLog
      by_cases ended : is.eof = true
      · simp only [ended, if_true, Option.some.injEq] at stops ⊢
        exact stops
      · simp only [ended, if_false, Bool.false_eq_true] at stops ⊢
        generalize (LogEntry.ofIndeterminate (junk 0)).deserializeStr (junk 0).tempNumber is =
          outcome at stops ⊢
        obtain ⟨ret, logEntry, after⟩ := outcome
        by_cases skipped : ret ≠ 0
        · simp only [skipped, if_true, ne_eq, not_false_eq_true] at stops ⊢
          exact ih stops
        · by_cases pending : logEntry.id > ackId
          · simp only [skipped, pending, if_true, if_false] at stops ⊢
            obtain ⟨later, rest, rfl⟩ := Option.map_eq_some_iff.mp stops
            rw [ih rest]
          · simp only [skipped, pending, if_false] at stops ⊢
            exact ih stops

/-- After a round that read a line the loop goes on with what is behind it. -/
theorem readLogWithin_step {ackId : UInt64} {junk : Nat → Indeterminate} {rounds : Nat}
    {is after : IStream} {line : Bytes} (running : is.eof = false)
    (taken : is.getline newline [] = (line, after)) (reads : after.fail = false) :
    readLogWithin ackId junk (rounds + 1) is =
      (readLogWithin ackId (fun round => junk (round + 1)) rounds after).map
        ((loadLine ackId (junk 0) line).toList ++ ·) := by
  rw [readLogWithin, LogEntry.deserializeStr, taken]
  by_cases empty : line = []
  · simp [running, reads, empty, loadLine]
  · simp only [running, reads, empty, loadLine, if_false, Bool.false_eq_true]
    split
    · contradiction
    · split <;> simp

theorem readLogWithin_ended (ackId : UInt64) (junk : Nat → Indeterminate) (rounds : Nat)
    (fail : Bool) : readLogWithin ackId junk rounds ⟨[], true, fail⟩ = some [] := by
  unfold readLogWithin
  rfl

/-- The loop loads the lines of a file one after another and stops: every round takes a
line off the file or sets the end-of-file bit. -/
theorem readLogWithin_eq_loadLines (ackId : UInt64) (text : Bytes) {junk : Nat → Indeterminate}
    {rounds : Nat} (enough : text.length < rounds) :
    readLogWithin ackId junk rounds (.ofBytes text) = some (loadLines ackId junk (lines text)) := by
  induction rounds generalizing text junk with
  | zero => exact absurd enough (Nat.not_lt_zero _)
  | succ rounds ih =>
      rcases split_first_newline text with single | ⟨line, rest, single, rfl⟩
      · by_cases empty : text = []
        · subst empty
          unfold readLogWithin
          simp [LogEntry.deserializeStr, IStream.getline_end [], readLogWithin_ended, loadLines]
        · rw [readLogWithin_step (IStream.eof_ofBytes text) (IStream.getline_end [] single)
            (by simpa using empty), lines_unterminated single empty]
          simp [readLogWithin_ended, loadLines]
      · have shorter : rest.length < rounds := by
          simp only [List.length_append, List.length_cons] at enough
          omega
        rw [readLogWithin_step (IStream.eof_ofBytes _) (IStream.getline_append [] rest single)
          (IStream.fail_ofBytes rest), lines_append_newline single, ih rest shorter]
        rfl

/-- The loop visits every line of the file and stops. -/
theorem readLog_eq_loadLines (ackId : UInt64) (text : Bytes) {junk : Nat → Indeterminate}
    {fuel : Nat} (enough : text.length < fuel) :
    readLog ackId junk fuel (.ofBytes text) = loadLines ackId junk (lines text) :=
  readLog_of_within (readLogWithin_eq_loadLines ackId text enough)

theorem loadLog_content {logFile : File} {content : Bytes}
    (present : logFile.content = some content) (ackId : UInt64)
    (junk : Nat → Indeterminate) :
    loadLog ackId junk logFile = (logFile, loadLines ackId junk (lines content)) := by
  simp only [loadLog, present, readLog_eq_loadLines ackId content (Nat.lt_succ_self _)]

/-- A line with a clean name is loaded exactly when its id is not acknowledged. -/
theorem loadLine_line {logEntry : LogEntry} (clean : pipe ∉ logEntry.processName)
    (ackId : UInt64) (junk : Indeterminate) :
    loadLine ackId junk logEntry.line =
      if logEntry.id > ackId then some logEntry else none := by
  simp [loadLine, LogEntry.line_ne_nil, LogEntry.ofLine_line _ _ clean]

/-- The lines of a file are loaded one after another. -/
theorem loadLines_append (ackId : UInt64) (first second : List Bytes)
    (junk : Nat → Indeterminate) :
    loadLines ackId junk (first ++ second) =
      loadLines ackId junk first ++
        loadLines ackId (fun round => junk (round + first.length)) second := by
  induction first generalizing junk with
  | nil => rfl
  | cons line first ih =>
      simp only [List.cons_append, loadLines, ih, List.append_assoc, List.length_cons]
      simp only [Nat.add_assoc]

/-- Reloading the lines of clean entries: none is lost, altered or reordered. -/
theorem loadLines_of_clean {logEntries : List LogEntry}
    (clean : ∀ entry ∈ logEntries, LogEntry.CleanName entry.processName) (ackId : UInt64)
    (junk : Nat → Indeterminate) :
    loadLines ackId junk (lines (logEntries.flatMap LogEntry.serializeStr)) =
      logEntries.filter (fun entry => entry.id > ackId) := by
  induction logEntries generalizing junk with
  | nil => rfl
  | cons logEntry rest ih =>
      have head : LogEntry.CleanName logEntry.processName := clean logEntry (by simp)
      rw [List.flatMap_cons, LogEntry.serializeStr, List.append_assoc, List.singleton_append,
        lines_append_newline (LogEntry.newline_not_mem_line head.2), loadLines,
        loadLine_line head.1, ih fun entry member => clean entry (by simp [member])]
      by_cases pending : logEntry.id > ackId <;> simp [pending]

theorem readAck_decimal {ackFile : File} {ackId : UInt64}
    (content : ackFile.content = some (decimal ackId.toNat)) (junk : UInt64) :
    readAck junk ackFile = (ackFile, ackId) := by
  simp only [readAck, content, IStream.extractUInt64_decimal]

/-- A new queue recovers the ack and, of the entries in the log file, those behind it. -/
theorem ofFiles_logged {logFile ackFile : File} {entries : List LogEntry} {ackId : UInt64}
    (clean : ∀ entry ∈ entries, LogEntry.CleanName entry.processName)
    (logContent : logFile.content = some (entries.flatMap LogEntry.serializeStr))
    (ackContent : ackFile.content = some (decimal ackId.toNat)) (junkAckId : UInt64)
    (junk : Nat → Indeterminate) :
    let pending := entries.filter fun entry => entry.id > ackId
    ofFiles junkAckId junk logFile ackFile =
      { logFile, ackFile, ackId, logEntries := pending, newId := firstNewId pending } := by
  simp only [ofFiles, readAck_decimal ackContent, loadLog_content logContent,
    loadLines_of_clean clean]

end LogQueue

end RemoteMonitoring
