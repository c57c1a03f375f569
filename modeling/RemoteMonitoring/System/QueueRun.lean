/-
Module: RemoteMonitoring.System.QueueRun
Purpose: Whole runs of one `LogQueue` object: the calls its owner makes, one after another, and
  what a list of calls says about the acks and the number of entries.
Trusted boundary: none
Main exports: freshQueue, QueueCall, LogQueue.run, QueueCall.Valid, issuedCount, lastAck, maxAck
-/
import RemoteMonitoring.Client.LogQueue

namespace RemoteMonitoring

open ByteText

/-- A queue made from absent files. -/
def freshQueue (junkAckId : UInt64) (junk : Nat → Indeterminate) : LogQueue :=
  LogQueue.ofFiles junkAckId junk File.absent File.absent

/-- A call that changes the queue. -/
inductive QueueCall where
  | addNewLog (processName : Bytes) (timestampMs : UInt64) (logType : LogType) (value : UInt64)
  | ackLog (id : UInt64)
deriving DecidableEq, Repr

namespace LogQueue

def call (queue : LogQueue) : QueueCall → LogQueue
  | .addNewLog processName timestampMs logType value =>
      (queue.addNewLog processName timestampMs logType value).2
  | .ackLog id => queue.ackLog id

def run (queue : LogQueue) (calls : List QueueCall) : LogQueue := calls.foldl call queue

theorem run_concat (queue : LogQueue) (calls : List QueueCall) (last : QueueCall) :
    queue.run (calls ++ [last]) = (queue.run calls).call last := by
  simp [run]

end LogQueue

namespace QueueCall

/-- How many entries a list of calls adds. -/
def issuedCount : List QueueCall → Nat
  | [] => 0
  | .addNewLog .. :: rest => issuedCount rest + 1
  | .ackLog _ :: rest => issuedCount rest

/-- The ids that are acked, in order. -/
def acks : List QueueCall → List Nat
  | [] => []
  | .addNewLog .. :: rest => acks rest
  | .ackLog id :: rest => id.toNat :: acks rest

/-- The last acked id, 0 before the first ack. -/
def lastAck (calls : List QueueCall) : Nat := (acks calls).getLast?.getD 0

/-- The highest acked id, 0 before the first ack. -/
def maxAck (calls : List QueueCall) : Nat := (acks calls).foldl max 0

/-- Names can be represented in a line, and no ack is above the last id handed
out; `issued` entries have been added before. -/
def Valid (issued : Nat) : List QueueCall → Prop
  | [] => True
  | .addNewLog processName .. :: rest =>
      LogEntry.CleanName processName ∧ Valid (issued + 1) rest
  | .ackLog id :: rest => id.toNat ≤ issued ∧ Valid issued rest

theorem issuedCount_append (first second : List QueueCall) :
    issuedCount (first ++ second) = issuedCount first + issuedCount second := by
  induction first with
  | nil => simp [issuedCount]
  | cons call first ih =>
      cases call with
      | addNewLog => simp only [List.cons_append, issuedCount, ih, Nat.add_right_comm]
      | ackLog id => simp only [List.cons_append, issuedCount, ih]

theorem acks_append (first second : List QueueCall) :
    acks (first ++ second) = acks first ++ acks second := by
  induction first with
  | nil => rfl
  | cons call first ih =>
      cases call with
      | addNewLog => simp only [List.cons_append, acks, ih]
      | ackLog id => simp only [List.cons_append, acks, ih]

/-- A run is valid if its parts are, one after the other. -/
theorem valid_append {issued : Nat} {first second : List QueueCall} :
    Valid issued (first ++ second) ↔
      Valid issued first ∧ Valid (issued + issuedCount first) second := by
  induction first generalizing issued with
  | nil => simp [Valid, issuedCount]
  | cons call first ih =>
      cases call with
      | addNewLog =>
          have shift : issued + 1 + issuedCount first = issued + (issuedCount first + 1) := by
            omega
          simp only [List.cons_append, Valid, issuedCount, ih, and_assoc, shift]
      | ackLog id => simp only [List.cons_append, Valid, issuedCount, ih, and_assoc]

section Last

variable (calls : List QueueCall) (processName : Bytes) (timestampMs : UInt64)
  (logType : LogType) (value id : UInt64)

@[simp] theorem issuedCount_addNewLog :
    issuedCount (calls ++ [.addNewLog processName timestampMs logType value]) =
      issuedCount calls + 1 := by
  rw [issuedCount_append]
  rfl

@[simp] theorem issuedCount_ackLog :
    issuedCount (calls ++ [.ackLog id]) = issuedCount calls := by
  rw [issuedCount_append]
  rfl

@[simp] theorem lastAck_addNewLog :
    lastAck (calls ++ [.addNewLog processName timestampMs logType value]) = lastAck calls := by
  simp [lastAck, acks_append, acks]

@[simp] theorem lastAck_ackLog : lastAck (calls ++ [.ackLog id]) = id.toNat := by
  simp [lastAck, acks_append, acks]

@[simp] theorem maxAck_addNewLog :
    maxAck (calls ++ [.addNewLog processName timestampMs logType value]) = maxAck calls := by
  simp [maxAck, acks_append, acks]

@[simp] theorem maxAck_ackLog : maxAck (calls ++ [.ackLog id]) = max (maxAck calls) id.toNat := by
  simp [maxAck, acks_append, acks]

end Last

end QueueCall

end RemoteMonitoring
