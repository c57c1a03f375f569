/-
Module: RemoteMonitoring.System.Crash
Purpose: A client whose process is killed: what `add_log` and `ack_log` do to the two files one
  effect at a time, and what a kill at any point leaves behind.
Trusted boundary: an append may be cut at any byte; the ack file is truncated when it is opened
  and its new content is written in one piece
Main exports: OwnerCall, DiskEffect, LogQueue.effects, Kill, Kill.files
-/
import RemoteMonitoring.System.QueueRun

namespace RemoteMonitoring

open ByteText

/-- A call on a queue.  Unlike in `QueueCall` the entry may carry any id. -/
inductive OwnerCall where
  | addLog (logEntry : LogEntry)
  | ackLog (id : UInt64)
deriving DecidableEq, Repr

/-- The two files of a queue. -/
structure QueueFiles where
  logFile : File
  ackFile : File
deriving DecidableEq, Repr

/-- What reaches the disk in one piece. -/
inductive DiskEffect where
  | appendLog (text : Bytes)
  | truncateAck
  | writeAck (text : Bytes)
deriving DecidableEq, Repr

def DiskEffect.apply (files : QueueFiles) : DiskEffect → QueueFiles
  | .appendLog text => { files with logFile := files.logFile.append text }
  | .truncateAck => { files with ackFile := files.ackFile.overwrite [] }
  | .writeAck text => { files with ackFile := files.ackFile.append text }

namespace LogQueue

def files (queue : LogQueue) : QueueFiles := ⟨queue.logFile, queue.ackFile⟩

def perform (queue : LogQueue) : OwnerCall → LogQueue
  | .addLog logEntry => queue.addLog logEntry
  | .ackLog id => queue.ackLog id

/-- The effects of a call, in order. -/
def effects (queue : LogQueue) : OwnerCall → List DiskEffect
  | .addLog logEntry => [.appendLog logEntry.serializeStr]
  | .ackLog id =>
      if id = queue.ackId then [] else [.truncateAck, .writeAck (decimal id.toNat)]

/-- All effects of a call together make the files of the queue after it. -/
theorem effects_perform (queue : LogQueue) (call : OwnerCall) :
    (queue.effects call).foldl DiskEffect.apply queue.files = (queue.perform call).files := by
  cases call with
  | addLog logEntry => rfl
  | ackLog id =>
      by_cases same : id = queue.ackId
      · simp [effects, perform, same]
      · simp [effects, perform, ackLog_of_ne same, same, files, DiskEffect.apply,
          File.overwrite_append]

end LogQueue

/-- The process is killed in the call `interrupted`, after `count` of its effects.  If
the next one is an append, `cut` bytes of it are on the disk. -/
structure Kill where
  finished : List OwnerCall
  interrupted : OwnerCall
  count : Nat
  cut : Nat
deriving DecidableEq, Repr

namespace Kill

variable (start : LogQueue) (kill : Kill)

/-- The queue when the interrupted call begins. -/
def queue : LogQueue := kill.finished.foldl LogQueue.perform start

/-- What the kill leaves on the disk. -/
def files : QueueFiles :=
  let effects := (kill.queue start).effects kill.interrupted
  let files := (effects.take kill.count).foldl DiskEffect.apply (kill.queue start).files
  match effects.drop kill.count with
  | .appendLog text :: _ => DiskEffect.apply files (.appendLog (text.take kill.cut))
  | _ => files

/-- The line of the interrupted call is on the disk as a whole, with its newline. -/
def Whole (logEntry : LogEntry) : Prop :=
  0 < kill.count ∨ logEntry.serializeStr.length ≤ kill.cut

instance (logEntry : LogEntry) : Decidable (kill.Whole logEntry) := by
  unfold Whole
  infer_instance

/-- The entries that calls add. -/
def added (calls : List OwnerCall) : List LogEntry :=
  calls.filterMap fun call =>
    match call with
    | .addLog logEntry => some logEntry
    | .ackLog _ => none

/-- The completely written entries, in order. -/
def written : List LogEntry :=
  match kill.interrupted with
  | .addLog logEntry =>
      if kill.Whole logEntry then added kill.finished ++ [logEntry] else added kill.finished
  | .ackLog _ => added kill.finished

/-- The torn last line. -/
def torn : Bytes :=
  match kill.interrupted with
  | .addLog logEntry =>
      if kill.Whole logEntry then [] else logEntry.serializeStr.take kill.cut
  | .ackLog _ => []

/-- The kill falls between the truncation of the ack file and the write. -/
def BetweenTruncateAndWrite : Prop :=
  kill.count = 1 ∧ ∃ id, kill.interrupted = .ackLog id ∧ id ≠ (kill.queue start).ackId

/-- The last ack whose write was completed. -/
def ackOnDisk : UInt64 :=
  match kill.interrupted with
  | .addLog _ => (kill.queue start).ackId
  | .ackLog id => if 2 ≤ kill.count then id else (kill.queue start).ackId

end Kill

end RemoteMonitoring
