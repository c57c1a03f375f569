/-
Module: RemoteMonitoring.System.Incarnations
Purpose: The client and the server when the client may be killed between any two steps and
  started again on the files it left, any number of times, and the server has other files.
Trusted boundary: a message arrives whole or not at all; the client is not killed inside a write
Main exports: LogQueue.restart, LifeEvent, System.restart, System.live, System.Lives,
  System.Resumes, System.Lifetime, System.roundTrips
-/
import RemoteMonitoring.System.Delivery

namespace RemoteMonitoring

open ByteText

/-- The queue of a new `client_main`.  It is built as an argument and copied into the logger,
since a class with a destructor is not moved; then the destructor of the argument compacts the
log file and writes the ack file, under the names that the copy goes on to use. -/
def LogQueue.restart (junkAckId : UInt64) (junk : Nat → Indeterminate) (temp : File)
    (renames : Bool) (queue : LogQueue) : LogQueue :=
  let logQueue := ofFiles junkAckId junk queue.logFile queue.ackFile
  let (logFile, ackFile) := logQueue.destroy temp renames
  { logQueue with logFile, ackFile }

inductive LifeEvent where
  | during (event : Event)
  | elsewhere (disk : Disk)
  | restart (junkAckId : UInt64) (junk : Nat → Indeterminate) (temp : File) (renames : Bool)

namespace System

/-- What is in flight may still arrive.  An entry that is loaded again counts as not removed. -/
def restart (junkAckId : UInt64) (junk : Nat → Indeterminate) (temp : File) (renames : Bool)
    (s : System) : System :=
  let queue := s.queue.restart junkAckId junk temp renames
  { s with
    queue := queue
    removed := s.issued.take (s.issued.length - queue.logEntries.length) }

def live (s : System) : LifeEvent → System
  | .during event => s.step event
  | .elsewhere disk => { s with disk := disk }
  | .restart junkAckId junk temp renames => s.restart junkAckId junk temp renames

/-- The steps considered: names that a line can hold, fewer than 2^32 entries, connections of
the one client at `ip`, and other files of the server, with which it does whatever it likes. -/
def Lives (ip : Bytes) (s : System) : LifeEvent → Prop
  | .during (.addLog processName _ _ _) =>
      LogEntry.CleanName processName ∧ s.issued.length + 1 < 2 ^ 32
  | .during (.recvBatch _ info _ _) => info.clientIp = ip
  | .elsewhere disk => disk (clientLogFile ip) = s.disk (clientLogFile ip)
  | _ => True

/-- A restart finds an entry that is not acked, or nothing was ever logged. -/
def Resumes (s : System) : LifeEvent → Prop
  | .restart junkAckId junk temp renames =>
      (s.queue.restart junkAckId junk temp renames).logEntries ≠ [] ∨ s.issued = []
  | _ => True

/-- The states that runs lead to, with every restart that resumes, or with any restarts. -/
inductive Lifetime (resuming : Prop) (ip : Bytes) (start : System) : System → Prop where
  | refl : Lifetime resuming ip start start
  | step {s : System} (run : Lifetime resuming ip start s) (event : LifeEvent)
      (lives : Lives ip s event) (resumes : resuming → Resumes s event) :
      Lifetime resuming ip start (s.live event)

/-- What a round trip depends on, apart from the state. -/
structure Trip where
  info : ClientInfo
  junk : Indeterminate
  netCount : UInt32
  junkId : UInt64

/-- Undisturbed round trips, as long as there is something to send. -/
def roundTrips (s : System) (trips : List Trip) : System :=
  trips.foldl
    (fun s trip =>
      if s.queue.logEntries.isEmpty then s
      else s.roundTrip trip.info trip.junk trip.netCount trip.junkId) s

end System

end RemoteMonitoring
