/-
Module: RemoteMonitoring.System.Overlap
Purpose: Two receive threads of one client, of its old and its new connection, that run
  `handle_recv_log` at the same time.  Both have the client's IP, so they share a log file.
Trusted boundary: a step of a call is atomic; a line reaches the file as a whole, at once or
  later from the buffer
Main exports: Party, Turn, Overlap, Overlap.run, Schedule.first, Schedule.lead,
  StoresAscending, RecvLog.Quiet
-/
import RemoteMonitoring.Server.RecvLogSteps

namespace RemoteMonitoring

open ByteText

inductive Party where
  | old
  | new
deriving DecidableEq, Repr

def Party.other : Party → Party
  | .old => .new
  | .new => .old

/-- One step of the schedule: who moves, and whether a line written in this step
is flushed or stays in the buffer. -/
structure Turn where
  party : Party
  flushes : Bool
deriving DecidableEq, Repr

def Turn.outcome (turn : Turn) : WriteOutcome :=
  if turn.flushes then .written else .buffered 0

structure Overlap where
  handler : Party → RecvLog
  file : File

namespace Overlap

/-- Neither thread has done anything. -/
def start (file : File) : Overlap := ⟨fun _ => .start, file⟩

def step (calls : Party → RecvLogCall) (s : Overlap) (turn : Turn) : Overlap :=
  let (handler, file) := (s.handler turn.party).step (calls turn.party) turn.outcome s.file
  ⟨Function.update s.handler turn.party handler, file⟩

def run (calls : Party → RecvLogCall) (s : Overlap) (schedule : List Turn) : Overlap :=
  schedule.foldl (step calls) s

/-- Both calls have returned. -/
def Finished (s : Overlap) : Prop := ∀ party, (s.handler party).phase = .returned

end Overlap

namespace Schedule

/-- The thread that moves first, and so reads the last line first. -/
def first : List Turn → Party
  | [] => .old
  | turn :: _ => turn.party

/-- The turns before the other thread reads the last line. -/
def lead (schedule : List Turn) : List Turn :=
  schedule.takeWhile fun turn => turn.party = first schedule

end Schedule

/-- The ids increase strictly from line to line, so that none is there twice. -/
def StoresAscending (junk : Indeterminate) (file : File) : Prop :=
  ((lines file.bytes).map (lineId junk)).Pairwise (· < ·)

instance (junk : Indeterminate) (file : File) : Decidable (StoresAscending junk file) := by
  unfold StoresAscending
  infer_instance

/-- A call that has read the last line has nothing more to put into the file: its
buffer is empty and what is left of its batch lacks the id that follows. -/
def RecvLog.Quiet (batch : List LogEntry) (handler : RecvLog) : Prop :=
  match handler.phase with
  | .decode | .openFile => ∀ entry ∈ batch, entry.id ≠ handler.lastAckedId + 1
  | .loop =>
      handler.stream.buffer = [] ∧
        ∀ entry ∈ handler.logEntries, entry.id ≠ handler.lastAckedId + 1
  | .publish | .close => handler.stream.buffer = []
  | .readLastLine | .returned => True

end RemoteMonitoring
