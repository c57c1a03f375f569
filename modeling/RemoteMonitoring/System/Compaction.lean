/-
Module: RemoteMonitoring.System.Compaction
Purpose: What is recovered from the files of a queue with and without the compaction of its log
  file, after any run of calls.
Trusted boundary: none
Main exports: QueueCall.CleanNames, LogQueue.takenOff, SameRecovery
-/
import RemoteMonitoring.System.QueueRun

namespace RemoteMonitoring

open ByteText

/-- All names can be represented in a line. -/
def QueueCall.CleanNames (calls : List QueueCall) : Prop :=
  ∀ processName timestampMs logType value,
    .addNewLog processName timestampMs logType value ∈ calls → LogEntry.CleanName processName

namespace LogQueue

/-- The entries that the acks of a run take off the queue. -/
def takenOff : LogQueue → List QueueCall → List LogEntry
  | _, [] => []
  | queue, .addNewLog processName timestampMs logType value :: later =>
      takenOff (queue.addNewLog processName timestampMs logType value).2 later
  | queue, .ackLog id :: later =>
      let taken := if id = queue.ackId then [] else queue.logEntries.takeWhile (·.id ≤ id)
      taken ++ takenOff (queue.ackLog id) later

end LogQueue

/-- Two queues leave files from which the same is recovered. -/
def SameRecovery (one other : LogQueue) : Prop :=
  ∀ oneAckId oneJunk otherAckId otherJunk,
    let first := LogQueue.ofFiles oneAckId oneJunk one.logFile one.ackFile
    let second := LogQueue.ofFiles otherAckId otherJunk other.logFile other.ackFile
    first.ackId = second.ackId ∧ first.logEntries = second.logEntries ∧ first.newId = second.newId

end RemoteMonitoring
