/-
Module: RemoteMonitoring.Client.ProcSample
Purpose: `update_table` (client/process_table.cpp) on the files themselves: all of them are read
  into one buffer, in which each parser meets what earlier files have left.
Trusted boundary: `read` delivers a file in one piece, up to the size of the buffer; the network
  usage of a call is an input; allocations succeed
Main exports: ProcPid, refill, readPid, ProcessTable.updatePidsFrom, ProcessTable.updateTableFrom
-/
import RemoteMonitoring.Client.ProcFiles

namespace RemoteMonitoring

open ByteText
open PointerScan (Failure)

/-- The files of a process, nothing for one that cannot be read; and what the uninitialised
variables hold while its io file is parsed. -/
structure ProcPid where
  pid : UInt32
  cmdline : Option Bytes
  comm : Option Bytes
  stat : Option Bytes
  io : Option Bytes
  junk : Nat → UInt64

/-- The buffer after `read_file`. -/
def refill (file : Option Bytes) (buffer : Bytes) : Bytes :=
  match readFile file with
  | none => buffer
  | some content => fillBuffer content buffer

namespace ProcPid

/-- What a round of the loop over the pids reads, by what its two parsers return. -/
def reads (proc : ProcPid) (cpuMemStat : Option CpuMemStat) (diskStat : DiskStat) : PidReads :=
  ⟨proc.pid, proc.cmdline, proc.comm, cpuMemStat, diskStat, none⟩

/-- The arguments with which the round goes on, and the buffer: the files of the listing are read
as long as it has no arguments. -/
def readMetadata (proc : ProcPid) (listed : List Bytes) (buffer : Bytes) : List Bytes × Bytes :=
  if listed.isEmpty then
    match parseCmdline proc.cmdline with
    | none => ([], buffer)
    | some [] => ([], refill proc.comm (refill proc.cmdline buffer))
    | some args => (args, refill proc.cmdline buffer)
  else (listed, buffer)

/-- The reads of one round, given the arguments in the listing.  Without arguments there is a
`continue` or an exception before the files are read that the parsers are for. -/
def readPid (pageSize : UInt64) (proc : ProcPid) (listed : List Bytes) (buffer : Bytes) :
    Except Failure (PidReads × Bytes) :=
  let (args, buffer) := proc.readMetadata listed buffer
  if args.isEmpty then .ok (proc.reads none ⟨none, none⟩, buffer)
  else
    match readPidStatCpuMem pageSize proc.stat buffer with
    | .error .outOfBounds => .error .outOfBounds
    | .error .threw => .ok (proc.reads none ⟨none, none⟩, refill proc.stat buffer)
    | .ok cpuMemStat =>
        let buffer := refill proc.stat buffer
        match readPidIo proc.junk proc.io buffer with
        | .error failure => .error failure
        | .ok diskStat => .ok (proc.reads (some cpuMemStat) diskStat, refill proc.io buffer)

end ProcPid

/-- The files that one call of `update_table` reads, what the uninitialised variables hold while
the first is parsed, the traffic, and the order of the last loop. -/
structure ProcSnapshot where
  stat : Option Bytes
  junk : Nat → UInt64
  /-- Nothing if the call throws before it reaches the loop over the pids. -/
  pids : Option (List ProcPid)
  pidNetworkUsage : UnorderedMap UInt32 NetworkStat
  order : ListingOrder

namespace ProcessTable

variable (cpuShare : UInt64 → CpuStat → UInt32) (pageSize : UInt64)

/-- The loop over the pids. -/
def updatePidsFrom (cpuDelta : CpuStat) (pidNetworkUsage : UnorderedMap UInt32 NetworkStat) :
    List ProcPid → UnorderedMap UInt32 Bool × ProcessTable → Bytes →
      Except Failure ((UnorderedMap UInt32 Bool × ProcessTable) × Bytes)
  | [], state, buffer => .ok (state, buffer)
  | proc :: later, (seen, table), buffer =>
      match proc.readPid pageSize (table.listTable.valueAt proc.pid).args buffer with
      | .error failure => .error failure
      | .ok (reads, buffer) =>
          let (round, table) := table.updatePid cpuShare cpuDelta pidNetworkUsage reads
          let seen := if round = .completed then seen.assign reads.pid true else seen
          updatePidsFrom cpuDelta pidNetworkUsage later (seen, table) buffer

/-- Whether the call returns, the tables and the buffer; a failure if a parser reads behind the
buffer. -/
def updateTableFrom (snapshot : ProcSnapshot) (table : ProcessTable) (buffer : Bytes) :
    Except Failure ((Bool × ProcessTable) × Bytes) :=
  match readStatCpu snapshot.junk snapshot.stat buffer with
  | .error .outOfBounds => .error .outOfBounds
  | .error .threw => .ok ((false, table), refill snapshot.stat buffer)
  | .ok nowCpu =>
      let buffer := refill snapshot.stat buffer
      let cpuDelta := cpuDelta nowCpu table.lastCpu
      let table := { table with lastCpu := nowCpu }
      match snapshot.pids with
      | none => .ok ((false, table), buffer)
      | some pids =>
          match updatePidsFrom cpuShare pageSize cpuDelta snapshot.pidNetworkUsage pids
            (∅, table) buffer with
          | .error failure => .error failure
          | .ok ((seen, table), buffer) =>
              let rows := snapshot.order.visit table.listTable.entries
              .ok ((true, table.eraseUnseen seen rows), buffer)

end ProcessTable

end RemoteMonitoring
