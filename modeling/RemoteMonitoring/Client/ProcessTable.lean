/-
Module: RemoteMonitoring.Client.ProcessTable
Purpose: `ProcessTable` (client/process_table.hpp, process_table.cpp, process_listing.hpp and
  process_stat.hpp): the three tables with a row for each process, how a sample of /proc
  updates them, and the listings made of them.  Of the two platforms Linux is modelled.
Trusted boundary: the bytes of /proc, the parsed stat and io files and the captured traffic are
  inputs of each call; the CPU share, which is computed in `double`, is a parameter, and so is
  `std::partial_sort`; allocations outside of the `try` block succeed
Main exports: ProcessTable, PidReads, updatePid, updatePids, eraseUnseen, UpdateCall,
  updateTable, getSorted, getMapProgramNameResource
-/
import RemoteMonitoring.Lib.ByteText
import RemoteMonitoring.Lib.UnorderedMap

namespace RemoteMonitoring

open ByteText

/-! ### Listings and statistics -/

structure CpuStat where
  cpuUsage : UInt64
  cpuIdle : UInt64
deriving DecidableEq, Repr, Inhabited

structure DiskStat where
  diskRead : Option UInt64
  diskWrite : Option UInt64
deriving DecidableEq, Repr, Inhabited

structure NetworkStat where
  networkRecv : Option UInt64
  networkSend : Option UInt64
deriving DecidableEq, Repr, Inhabited

structure ProcessStat where
  cpuUsagePercent : UInt32
  memUsage : UInt64
  diskUsage : DiskStat
  networkUsage : NetworkStat
deriving DecidableEq, Repr, Inhabited

/-- What the next usage is computed against. -/
structure ProcessLastStat where
  totalCpuUsage : UInt64
  diskStat : DiskStat
deriving DecidableEq, Repr, Inhabited

structure CpuMemStat where
  totalCpuUsage : UInt64
  memUsage : UInt64
deriving DecidableEq, Repr, Inhabited

structure ProcessListing where
  processName : Bytes
  args : List Bytes
deriving DecidableEq, Repr, Inhabited

/-! ### Reading /proc -/

/-- The size of the buffer for one file. -/
def bufferSize : Nat := 4096

/-- "read file to buffer, capped to BUFFER_SIZE"; nothing if it cannot be read. -/
def readFile (file : Option Bytes) : Option Bytes := file.map (List.take (bufferSize - 1))

/-- The arguments up to each terminating 0, with the one under way; what follows the last
0 is dropped. -/
def splitArgs : Bytes → Bytes → List Bytes
  | _, [] => []
  | now, byte :: rest =>
      if byte = 0 then now :: splitArgs [] rest else splitArgs (now ++ [byte]) rest

/-- Nothing if the file cannot be read, which throws. -/
def parseCmdline (cmdline : Option Bytes) : Option (List Bytes) :=
  (readFile cmdline).map (splitArgs [])

def slash : UInt8 := 47

/-- `std::filesystem::path(text).filename()`. -/
def filename (path : Bytes) : Bytes := (path.reverse.takeWhile (· != slash)).reverse

/-- Where an allocation in the `try` block can fail, in the order of the code. -/
inductive AllocationPoint where
  | copyArgs
  | statRow
  | lastStatRow
  | ioPath
  | networkRow
  | seenRow
deriving DecidableEq, Repr

/-- What one round of the loop over the pids reads: two files, what the parsers of two
others return, and the allocation that fails if one does. -/
structure PidReads where
  pid : UInt32
  cmdline : Option Bytes
  comm : Option Bytes
  /-- Nothing if `read_pid_stat_cpu_mem` throws. -/
  cpuMemStat : Option CpuMemStat
  /-- Without values if `read_pid_io` cannot open the file. -/
  diskStat : DiskStat
  outOfMemory : Option AllocationPoint
deriving DecidableEq, Repr

/-- Nothing if a file cannot be read, which throws. -/
def readProcessMetadata (reads : PidReads) : Option ProcessListing := do
  let args := splitArgs [] (← readFile reads.cmdline)
  match args with
  | [] =>
      let processName ← readFile reads.comm
      return { processName, args }
  | command :: _ => return { processName := filename command, args }

/-! ### `update_table` -/

/-- The tables, and the variable that is static in `update_table`. -/
structure ProcessTable where
  listTable : UnorderedMap UInt32 ProcessListing
  statTable : UnorderedMap UInt32 ProcessStat
  lastStatTable : UnorderedMap UInt32 ProcessLastStat
  lastCpu : CpuStat
deriving DecidableEq

namespace ProcessTable

def empty : ProcessTable := ⟨∅, ∅, ∅, default⟩

/-- How a round of the loop over the pids ends: at its last statement, with `continue`,
or in the `catch` block. -/
inductive Round where
  | completed
  | skipped
  | threw
deriving DecidableEq, Repr

/-- The listing is read as long as it has no arguments.  Nothing if that throws. -/
def refreshListing (reads : PidReads) (table : ProcessTable) : Option ProcessTable :=
  if reads.outOfMemory = some .copyArgs then none
  else if (table.listTable.valueAt reads.pid).args.isEmpty then do
    let processListing ← readProcessMetadata reads
    return { table with listTable := table.listTable.assign reads.pid processListing }
  else return table

/-- The unsigned difference to the last value, or to 0 where there was none. -/
def delta (now last : Option UInt64) : Option UInt64 := now.map (· - last.getD 0)

/-- The rows of a process whose files could be read, up to its disk usage. -/
def storeUsage (cpuShare : UInt64 → CpuStat → UInt32) (cpuDelta : CpuStat) (reads : PidReads)
    (cpuMemStat : CpuMemStat) (table : ProcessTable) : ProcessTable :=
  let lastStat := table.lastStatTable.valueAt reads.pid
  let currentCpuDelta := cpuMemStat.totalCpuUsage - lastStat.totalCpuUsage
  let processStat :=
    { table.statTable.valueAt reads.pid with
      cpuUsagePercent := cpuShare currentCpuDelta cpuDelta
      memUsage := cpuMemStat.memUsage
      diskUsage :=
        { diskRead := delta reads.diskStat.diskRead lastStat.diskStat.diskRead
          diskWrite := delta reads.diskStat.diskWrite lastStat.diskStat.diskWrite } }
  let processLastStat :=
    { totalCpuUsage := cpuMemStat.totalCpuUsage, diskStat := reads.diskStat }
  { table with
    statTable := table.statTable.assign reads.pid processStat
    lastStatTable := table.lastStatTable.assign reads.pid processLastStat }

/-- The network usage is looked up with `operator[]`, which shows a pid without traffic
a value without readings. -/
def storeNetwork (pidNetworkUsage : UnorderedMap UInt32 NetworkStat) (pid : UInt32)
    (table : ProcessTable) : ProcessTable :=
  let processStat :=
    { table.statTable.valueAt pid with networkUsage := pidNetworkUsage.valueAt pid }
  { table with statTable := table.statTable.assign pid processStat }

/-- The rest of the `try` block, from the rows of the two other tables on. -/
def updateRows (cpuShare : UInt64 → CpuStat → UInt32) (cpuDelta : CpuStat)
    (pidNetworkUsage : UnorderedMap UInt32 NetworkStat) (reads : PidReads)
    (table : ProcessTable) : Round × ProcessTable :=
  if reads.outOfMemory = some .statRow then (.threw, table)
  else
    let table := { table with statTable := table.statTable.touch reads.pid }
    if reads.outOfMemory = some .lastStatRow then (.threw, table)
    else
      let table := { table with lastStatTable := table.lastStatTable.touch reads.pid }
      match reads.cpuMemStat with
      | none => (.threw, table)
      | some cpuMemStat =>
          if reads.outOfMemory = some .ioPath then (.threw, table)
          else
            let table := table.storeUsage cpuShare cpuDelta reads cpuMemStat
            if reads.outOfMemory = some .networkRow then (.threw, table)
            else
              let table := table.storeNetwork pidNetworkUsage reads.pid
              if reads.outOfMemory = some .seenRow then (.threw, table)
              else (.completed, table)

/-- One round of the loop over the pids. -/
def updatePid (cpuShare : UInt64 → CpuStat → UInt32) (cpuDelta : CpuStat)
    (pidNetworkUsage : UnorderedMap UInt32 NetworkStat) (reads : PidReads)
    (table : ProcessTable) : Round × ProcessTable :=
  let table := { table with listTable := table.listTable.touch reads.pid }
  match table.refreshListing reads with
  | none => (.threw, table)
  | some table =>
      -- "if it can't read then it is probably kernel thread"
      if (table.listTable.valueAt reads.pid).args.isEmpty then (.skipped, table)
      else table.updateRows cpuShare cpuDelta pidNetworkUsage reads

/-- The loop over the pids, with the map `seen`. -/
def updatePids (cpuShare : UInt64 → CpuStat → UInt32) (cpuDelta : CpuStat)
    (pidNetworkUsage : UnorderedMap UInt32 NetworkStat) :
    List PidReads → UnorderedMap UInt32 Bool × ProcessTable →
      UnorderedMap UInt32 Bool × ProcessTable
  | [], state => state
  | reads :: later, (seen, table) =>
      let (round, table) := table.updatePid cpuShare cpuDelta pidNetworkUsage reads
      let seen := if round = .completed then seen.assign reads.pid true else seen
      updatePids cpuShare cpuDelta pidNetworkUsage later (seen, table)

def eraseRow (pid : UInt32) (table : ProcessTable) : ProcessTable :=
  { table with
    listTable := table.listTable.erase pid
    statTable := table.statTable.erase pid
    lastStatTable := table.lastStatTable.erase pid }

/-- The loop over the listings, which erases a row in passing. -/
def eraseUnseen (seen : UnorderedMap UInt32 Bool) :
    List ((_ : UInt32) × ProcessListing) → ProcessTable → ProcessTable
  | [], table => table
  | row :: later, table =>
      if seen.valueAt row.1 = false then eraseUnseen seen later (table.eraseRow row.1)
      else eraseUnseen seen later table

end ProcessTable

/-- The order in which a loop over the listings visits them. -/
abbrev ListingOrder := IterationOrder ((_ : UInt32) × ProcessListing)

/-- What one call of `update_table` reads, and the order of its last loop. -/
structure UpdateCall where
  /-- Nothing if `read_stat_cpu` throws. -/
  statCpu : Option CpuStat
  /-- Nothing if the call throws before it reaches the loop over the pids. -/
  pids : Option (List PidReads)
  pidNetworkUsage : UnorderedMap UInt32 NetworkStat
  order : ListingOrder

namespace ProcessTable

/-- The differences to the last call, with 1 in the place of 0. -/
def cpuDelta (nowCpu lastCpu : CpuStat) : CpuStat :=
  let cpuUsage := nowCpu.cpuUsage - lastCpu.cpuUsage
  let cpuIdle := nowCpu.cpuIdle - lastCpu.cpuIdle
  { cpuUsage := if cpuUsage = 0 then 1 else cpuUsage
    cpuIdle := if cpuIdle = 0 then 1 else cpuIdle }

/-- Whether the call returns, and the tables it leaves. -/
def updateTable (cpuShare : UInt64 → CpuStat → UInt32) (call : UpdateCall)
    (table : ProcessTable) : Bool × ProcessTable :=
  match call.statCpu with
  | none => (false, table)
  | some nowCpu =>
      let cpuDelta := cpuDelta nowCpu table.lastCpu
      let table := { table with lastCpu := nowCpu }
      match call.pids with
      | none => (false, table)
      | some pids =>
          let (seen, table) :=
            updatePids cpuShare cpuDelta call.pidNetworkUsage pids (∅, table)
          (true, table.eraseUnseen seen (call.order.visit table.listTable.entries))

/-! ### `get_sorted` -/

inductive ProcessSortType where
  | cpu
  | mem
  | diskRead
  | diskWrite
  | diskTotal
  | networkRecv
  | networkSend
  | networkTotal
deriving DecidableEq, Repr

/-- A row of both tables; `meta` is called `listing`. -/
structure ProcessFullStat where
  pid : UInt32
  listing : ProcessListing
  stat : ProcessStat
deriving DecidableEq, Repr

/-- Two readings of which either can be missing: the larger one goes first, and one that
is there before one that is not.  Nothing if that does not decide. -/
def compareReading : Option UInt64 → Option UInt64 → Option Bool
  | some _, none => some true
  | none, some _ => some false
  | some left, some right => if left ≠ right then some (decide (left > right)) else none
  | none, none => none

/-- The sums of two readings each.  Without any reading the larger pid goes first, and on
equal sums neither. -/
def compareTotal (leftPid rightPid : UInt32) (left right : Option UInt64 × Option UInt64) :
    Bool :=
  let leftOk := left.1.isSome || left.2.isSome
  let rightOk := right.1.isSome || right.2.isSome
  if !leftOk && !rightOk then decide (leftPid > rightPid)
  else if leftOk != rightOk then leftOk
  else decide (left.1.getD 0 + left.2.getD 0 > right.1.getD 0 + right.2.getD 0)

/-- Whether `lhs` goes before `rhs`; what does not decide leaves it to the pids. -/
def getComparator (type : ProcessSortType) (lhs rhs : ProcessFullStat) : Bool :=
  let byPid := decide (lhs.pid < rhs.pid)
  let leftDisk := lhs.stat.diskUsage
  let rightDisk := rhs.stat.diskUsage
  let leftNetwork := lhs.stat.networkUsage
  let rightNetwork := rhs.stat.networkUsage
  match type with
  | .cpu =>
      if lhs.stat.cpuUsagePercent ≠ rhs.stat.cpuUsagePercent then
        decide (lhs.stat.cpuUsagePercent > rhs.stat.cpuUsagePercent)
      else byPid
  | .mem =>
      if lhs.stat.memUsage ≠ rhs.stat.memUsage then
        decide (lhs.stat.memUsage > rhs.stat.memUsage)
      else byPid
  | .diskRead => (compareReading leftDisk.diskRead rightDisk.diskRead).getD byPid
  | .diskWrite => (compareReading leftDisk.diskWrite rightDisk.diskWrite).getD byPid
  | .diskTotal =>
      compareTotal lhs.pid rhs.pid (leftDisk.diskRead, leftDisk.diskWrite)
        (rightDisk.diskRead, rightDisk.diskWrite)
  | .networkRecv =>
      (compareReading leftNetwork.networkRecv rightNetwork.networkRecv).getD byPid
  | .networkSend =>
      (compareReading leftNetwork.networkSend rightNetwork.networkSend).getD byPid
  | .networkTotal =>
      compareTotal lhs.pid rhs.pid (leftNetwork.networkRecv, leftNetwork.networkSend)
        (rightNetwork.networkRecv, rightNetwork.networkSend)

/-- The row of a listing, with `stat_table.at(pid)`, which throws if there is none. -/
def fullStat (table : ProcessTable) (row : (_ : UInt32) × ProcessListing) :
    Option ProcessFullStat := do
  let stat ← table.statTable.lookup row.1
  return { pid := row.1, listing := row.2, stat }

/-- The sorted rows up to `limit`, of which 0 stands for all.  `partialSort` gets the
comparator and the length of the sorted front.  Nothing if a lookup throws. -/
def getSorted
    (partialSort : (ProcessFullStat → ProcessFullStat → Bool) → Nat → List ProcessFullStat →
      List ProcessFullStat)
    (order : ListingOrder) (type : ProcessSortType) (limit : UInt32) (table : ProcessTable) :
    Option (List ProcessFullStat) := do
  let ret ← (order.visit table.listTable.entries).mapM table.fullStat
  let size := UInt32.ofNat ret.length
  let limit := if limit = 0 then size else min limit size
  return (partialSort (getComparator type) limit.toNat ret).take limit.toNat

/-! ### `get_map_program_name_resource` -/

/-- `thisName` with the usage of one more process. -/
def addUsage (thisName stat : ProcessStat) : ProcessStat :=
  { cpuUsagePercent := thisName.cpuUsagePercent + stat.cpuUsagePercent
    memUsage := thisName.memUsage + stat.memUsage
    diskUsage :=
      { diskRead := some (thisName.diskUsage.diskRead.getD 0 + stat.diskUsage.diskRead.getD 0)
        diskWrite :=
          some (thisName.diskUsage.diskWrite.getD 0 + stat.diskUsage.diskWrite.getD 0) }
    networkUsage :=
      { networkRecv :=
          some (thisName.networkUsage.networkRecv.getD 0 +
            stat.networkUsage.networkRecv.getD 0)
        networkSend :=
          some (thisName.networkUsage.networkSend.getD 0 +
            stat.networkUsage.networkSend.getD 0) } }

/-- One round of the loop, which fails if its lookup throws. -/
def addRow (table : ProcessTable) (totals : UnorderedMap Bytes ProcessStat)
    (row : (_ : UInt32) × ProcessListing) : Option (UnorderedMap Bytes ProcessStat) := do
  let stat ← table.statTable.lookup row.1
  let name := row.2.processName
  return totals.assign name (addUsage (totals.valueAt name) stat)

/-- "all processes with same name are grouped" -/
def getMapProgramNameResource (order : ListingOrder) (table : ProcessTable) :
    Option (UnorderedMap Bytes ProcessStat) :=
  (order.visit table.listTable.entries).foldlM table.addRow ∅

end ProcessTable

end RemoteMonitoring
