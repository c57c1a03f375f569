/-
Module: RemoteMonitoring.System.Sampling
Purpose: The process table over any sequence of `update_table` calls, and the pids it has rows
  for.
Trusted boundary: none
Main exports: afterCalls, completedRounds, completed, CanComplete, KeysAre, UpdatesAll,
  reportedDeltas, Current, Persists
-/
import RemoteMonitoring.Client.ProcessTable

namespace RemoteMonitoring

/-- Nothing throws in the round, apart from what its listing depends on. -/
def PidReads.Runs (reads : PidReads) : Prop :=
  reads.outOfMemory = none ∧ reads.cpuMemStat.isSome

/-- And the command line that it reads has arguments. -/
def PidReads.Listed (reads : PidReads) : Prop :=
  reads.Runs ∧ ∃ listing, readProcessMetadata reads = some listing ∧ listing.args ≠ []

/-- The command line can be read in the round, and has arguments. -/
def PidReads.ShowsArgs (reads : PidReads) : Prop :=
  reads.outOfMemory ≠ some .copyArgs ∧
    ∃ listing, readProcessMetadata reads = some listing ∧ listing.args ≠ []

namespace ProcessTable

/-- The tables after some calls, from empty ones. -/
def afterCalls (cpuShare : UInt64 → CpuStat → UInt32) (calls : List UpdateCall) : ProcessTable :=
  calls.foldl (fun table call => (table.updateTable cpuShare call).2) empty

/-- The pids of the rounds that run to the last statement of the loop. -/
def completedRounds (cpuShare : UInt64 → CpuStat → UInt32) (cpuDelta : CpuStat)
    (pidNetworkUsage : UnorderedMap UInt32 NetworkStat) :
    List PidReads → ProcessTable → List UInt32
  | [], _ => []
  | reads :: later, table =>
      let (round, table) := table.updatePid cpuShare cpuDelta pidNetworkUsage reads
      let others := completedRounds cpuShare cpuDelta pidNetworkUsage later table
      if round = .completed then reads.pid :: others else others

/-- The pids whose update completes in a call. -/
def completed (cpuShare : UInt64 → CpuStat → UInt32) (call : UpdateCall) (table : ProcessTable) :
    List UInt32 :=
  match call.statCpu, call.pids with
  | some nowCpu, some pids =>
      completedRounds cpuShare (cpuDelta nowCpu table.lastCpu) call.pidNetworkUsage pids
        { table with lastCpu := nowCpu }
  | _, _ => []

/-- In one of these rounds everything that is read of the process can be read, and the arguments
have been there before the rounds or are read in one of them up to this. -/
def CanComplete (table : ProcessTable) (pids : List PidReads) (pid : UInt32) : Prop :=
  ∃ front reads back, pids = front ++ reads :: back ∧ reads.pid = pid ∧ reads.Runs ∧
    ((table.listTable.valueAt pid).args ≠ [] ∨
      ∃ other ∈ front ++ [reads], other.pid = pid ∧ other.ShowsArgs)

/-- The pids in each of the three tables. -/
def KeysAre (table : ProcessTable) (pids : List UInt32) : Prop :=
  ∀ pid, (pid ∈ table.listTable ↔ pid ∈ pids) ∧ (pid ∈ table.statTable ↔ pid ∈ pids) ∧
    (pid ∈ table.lastStatTable ↔ pid ∈ pids)

/-! ### One process -/

/-- The pid is listed, and listed once. -/
def ListedOnce (pids : List PidReads) (reads : PidReads) : Prop :=
  ∃ front back, pids = front ++ reads :: back ∧ ∀ other ∈ front ++ back, other.pid ≠ reads.pid

/-- A call that returns and completes the update of a process, of which it reads this. -/
structure Updates (cpuShare : UInt64 → CpuStat → UInt32) (table : ProcessTable)
    (call : UpdateCall) (reads : PidReads) : Prop where
  read : call.statCpu.isSome
  listed : ∃ pids, call.pids = some pids ∧ ListedOnce pids reads
  completed : reads.pid ∈ table.completed cpuShare call

/-- Consecutive calls that update one process, each with what it reads of it. -/
def UpdatesAll (cpuShare : UInt64 → CpuStat → UInt32) (pid : UInt32) :
    List (UpdateCall × PidReads) → ProcessTable → Prop
  | [], _ => True
  | (call, reads) :: later, table =>
      reads.pid = pid ∧ table.Updates cpuShare call reads ∧
        UpdatesAll cpuShare pid later (table.updateTable cpuShare call).2

/-- What is reported as read from or written to the disk after each call. -/
def reportedDeltas (cpuShare : UInt64 → CpuStat → UInt32) (pid : UInt32)
    (field : DiskStat → Option UInt64) :
    List (UpdateCall × PidReads) → ProcessTable → List (Option UInt64)
  | [], _ => []
  | (call, _) :: later, table =>
      let after := (table.updateTable cpuShare call).2
      field (after.statTable.valueAt pid).diskUsage ::
        reportedDeltas cpuShare pid field later after

/-- Where a counter can be read again after calls at which it could not, it was 0 before them.
The last reading and whether a call has missed it since go through the list. -/
def BaselineKept : UInt64 → Bool → List (Option UInt64) → Prop
  | _, _, [] => True
  | last, _, none :: later => BaselineKept last true later
  | last, missed, some now :: later =>
      (missed = true → last = 0) ∧ BaselineKept now false later

/-! ### Snapshots of /proc -/

/-- A call that can read what it needs of /proc, which has one directory for each pid. -/
def Snapshot (call : UpdateCall) : Prop :=
  call.statCpu.isSome ∧ ∃ pids, call.pids = some pids ∧ (pids.map PidReads.pid).Nodup

/-- The processes that /proc shows at a call. -/
def shown (call : UpdateCall) : List PidReads := call.pids.getD []

/-- A delta that is reported is part of the counter. -/
def Within (delta counter : Option UInt64) : Prop := ∀ used ∈ delta, ∃ all ∈ counter, used ≤ all

/-- The row is about the process that has the pid now. -/
structure Describes (table : ProcessTable) (reads : PidReads) : Prop where
  listing : table.listTable.lookup reads.pid = readProcessMetadata reads
  diskRead : Within (table.statTable.valueAt reads.pid).diskUsage.diskRead reads.diskStat.diskRead
  diskWrite :
    Within (table.statTable.valueAt reads.pid).diskUsage.diskWrite reads.diskStat.diskWrite

/-- All rows are. -/
def Current (table : ProcessTable) (call : UpdateCall) : Prop :=
  ∀ pid ∈ table.listTable, ∃ reads ∈ shown call, reads.pid = pid ∧ table.Describes reads

/-- The counter has not fallen since an earlier reading. -/
def NotBelow (now before : Option UInt64) : Prop :=
  ∀ counter ∈ now, ∀ earlier ∈ before, earlier ≤ counter

/-- What /proc shows for a pid is what the same process would show later: the same command
line, and counters that have not fallen. -/
structure Continues (before now : PidReads) : Prop where
  listing : readProcessMetadata now = readProcessMetadata before
  diskRead : NotBelow now.diskStat.diskRead before.diskStat.diskRead
  diskWrite : NotBelow now.diskStat.diskWrite before.diskStat.diskWrite

/-- So it is for every pid from one call to the next, as far as the round for it can end. -/
def Persists (before now : UpdateCall) : Prop :=
  ∀ earlier ∈ shown before, ∀ later ∈ shown now, earlier.pid = later.pid →
    earlier.Listed → later.Runs → Continues earlier later

end ProcessTable

end RemoteMonitoring
