/-
Module: RemoteMonitoring.System.ProcSample
Purpose: A sample of /proc as the kernel shows it: the values of each process, and the files that
  stand for them.
Trusted boundary: none
Main exports: ioText, StatShows, IoShows, ProcPid.Shows, CpuShows, AllShow, afterSnapshots
-/
import RemoteMonitoring.Client.ProcSample
import RemoteMonitoring.System.ProcFiles

namespace RemoteMonitoring

open ByteText
open PointerScan (space startsNul)

/-- /proc/<pid>/io: four lines, the two that are wanted, and the rest. -/
def ioText (front : List Bytes) (diskRead diskWrite : UInt64) (rest : Bytes) : Bytes :=
  front.flatMap (· ++ [newline]) ++ (ascii "read_bytes: " ++ decimal diskRead.toNat ++
    newline :: (ascii "write_bytes: " ++ decimal diskWrite.toNat ++ newline :: rest))

/-- The file is the text of a process with these values, whose name closes its parentheses; or it
cannot be read. -/
inductive StatShows (pageSize : UInt64) (pid : UInt32) : Option Bytes → Option CpuMemStat → Prop where
  | unreadable : StatShows pageSize pid none none
  | text {name : Bytes} {fields : List Bytes} {utime rss : UInt64}
      (columns : StatFields fields utime rss) (closes : ClosesLast name)
      (visible : ∀ field ∈ fields, startsNul field = false) :
      StatShows pageSize pid (some (statText pid name fields)) (some ⟨utime, rss * pageSize⟩)

inductive IoShows : Option Bytes → DiskStat → Prop where
  | unreadable : IoShows none ⟨none, none⟩
  | text {front : List Bytes} (four : front.length = 4) (single : ∀ line ∈ front, newline ∉ line)
      (diskRead diskWrite : UInt64) (rest : Bytes) :
      IoShows (some (ioText front diskRead diskWrite rest)) ⟨some diskRead, some diskWrite⟩

/-- The file is shorter than this. -/
def Below (room : Nat) (file : Option Bytes) : Prop :=
  ∀ content, file = some content → content.length < room

/-- The files of a process show the values of these reads, and are short. -/
structure ProcPid.Shows (pageSize : UInt64) (room : Nat) (proc : ProcPid) (reads : PidReads) :
    Prop where
  pid : reads.pid = proc.pid
  cmdline : reads.cmdline = proc.cmdline
  comm : reads.comm = proc.comm
  stat : StatShows pageSize proc.pid proc.stat reads.cpuMemStat
  io : IoShows proc.io reads.diskStat
  memory : reads.outOfMemory = none
  short : Below room proc.cmdline ∧ Below room proc.comm ∧ Below room proc.stat ∧ Below room proc.io

/-- The first line has these counters, with the one that is read for the idle time; and a space
stands at this place of the file. -/
structure CpuShows (room : Nat) (content : Bytes) (cpuStat : CpuStat) : Prop where
  text : ∃ line rest, content = cpuText line rest ∧ (cpuText line []).length < bufferSize ∧
    (∀ counter ∈ line.counters, counter.value < 2 ^ 64) ∧
    cpuStat.cpuUsage.toNat = (line.counters.map Counter.value).sum % 2 ^ 64 ∧
    cpuStat.cpuIdle.toNat = line.system.value
  space : content[room]? = some space
  inside : room < bufferSize - 1

/-- The files show what the call reads. -/
structure ProcSnapshot.Shows (pageSize : UInt64) (room : Nat) (snapshot : ProcSnapshot)
    (call : UpdateCall) : Prop where
  stat : Option.Rel (CpuShows room) snapshot.stat call.statCpu
  pids : Option.Rel (List.Forall₂ (ProcPid.Shows pageSize room)) snapshot.pids call.pids
  pidNetworkUsage : call.pidNetworkUsage = snapshot.pidNetworkUsage
  order : call.order = snapshot.order

/-- Each call reads what its files show; how long these are can change from call to call. -/
def AllShow (pageSize : UInt64) : List ProcSnapshot → List UpdateCall → Prop :=
  List.Forall₂ fun snapshot call => ∃ room, snapshot.Shows pageSize room call

/-- The tables and the buffer after some calls. -/
def ProcessTable.afterSnapshots (cpuShare : UInt64 → CpuStat → UInt32) (pageSize : UInt64)
    (snapshots : List ProcSnapshot) (state : ProcessTable × Bytes) :
    Except PointerScan.Failure (ProcessTable × Bytes) :=
  snapshots.foldlM
    (fun state snapshot => do
      let (called, buffer) ← state.1.updateTableFrom cpuShare pageSize snapshot state.2
      return (called.2, buffer))
    state

end RemoteMonitoring
