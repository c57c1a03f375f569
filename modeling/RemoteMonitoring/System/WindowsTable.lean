/-
Module: RemoteMonitoring.System.WindowsTable
Purpose: The thread of the events and the calls of `update_table` in any order, and what becomes of
  the traffic and of the disk counters of a process.
Trusted boundary: none
Main exports: WindowsStep, Transfer, WindowsTable.run, lastListed, counted, shownTraffic,
  droppedTraffic, chargedDisk, Follows
-/
import RemoteMonitoring.Client.WindowsTable
import RemoteMonitoring.Lib.Tally
import RemoteMonitoring.System.Sampling
import RemoteMonitoring.System.Traffic

namespace RemoteMonitoring

open ByteText

/-- An event, or a call: it takes the counts in one step. -/
inductive WindowsStep where
  | event (event : EtwEvent)
  | update (call : WindowsCall)

/-- What a call reads of a process that it can open. -/
def WindowsCall.readsOf (call : WindowsCall) (pid : UInt32) : Option WindowsReads :=
  call.listPids.findSome? fun listed => if listed.1 = pid then listed.2 else none

/-- Some bytes that a process has sent or received over IPv4, with the addresses as they are
written. -/
structure Transfer where
  pid : UInt32
  size : UInt32
  direction : Direction
  remote : Bytes
  host : Bytes
  remotePort : UInt16
  localPort : UInt16

def Direction.opcodeName : Direction → WString
  | .outGoing => wide "Data sent."
  | .inGoing => wide "Data received."

namespace Transfer

/-- The event for it. -/
def event (transfer : Transfer) : EtwEvent where
  keywordName := wide "KERNEL_NETWORK_KEYWORD_IPV4"
  opcodeName := transfer.direction.opcodeName
  properties :=
    [some (toWstring (decimal transfer.pid.toNat)), some (toWstring (decimal transfer.size.toNat)),
      some (toWstring transfer.remote), some (toWstring transfer.host),
      some (toWstring (decimal transfer.remotePort.toNat)),
      some (toWstring (decimal transfer.localPort.toNat))]

/-- The texts are addresses. -/
structure Valid (inetPton : Bytes → Option UInt32) (transfer : Transfer) : Prop where
  remote : (inetPton transfer.remote).isSome
  host : (inetPton transfer.host).isSome
  whole : 0 ∉ transfer.remote ∧ 0 ∉ transfer.host

end Transfer

/-- The counter that a direction belongs to. -/
def DiskStat.counter (diskStat : DiskStat) : Direction → Option UInt64
  | .outGoing => diskStat.diskWrite
  | .inGoing => diskStat.diskRead

/-- And the traffic. -/
def NetworkStat.reading (networkUsage : NetworkStat) : Direction → Option UInt64
  | .outGoing => networkUsage.networkSend
  | .inGoing => networkUsage.networkRecv

namespace WindowsTable

variable (cpuShare : UInt64 → UInt64 → UInt32) (inetPton : Bytes → Option UInt32)

def step (windows : WindowsTable) : WindowsStep → WindowsTable
  | .event event =>
      { windows with pidNetworkStatMap := onEvent inetPton event windows.pidNetworkStatMap }
  | .update call => windows.updateTable cpuShare call

def run (steps : List WindowsStep) (windows : WindowsTable) : WindowsTable :=
  steps.foldl (step cpuShare inetPton) windows

/-- The pids that the last call has listed. -/
def lastListed (steps : List WindowsStep) : List UInt32 :=
  steps.foldl
    (fun pids step =>
      match step with
      | .event _ => pids
      | .update call => call.listPids.map Prod.fst)
    []

section Process

variable (pid : UInt32) (direction : Direction)

/-- What an event adds to the traffic of the process. -/
def counted : WindowsStep → Nat
  | .event event =>
      match getNetworkPacket inetPton event with
      | none => 0
      | some packet =>
          if packet.pid = pid ∧ packet.direction = direction then packet.size.toNat else 0
  | .update _ => 0

/-- What a call shows in the row of a process that it can open. -/
def shown (reading : ProcessStat → Option UInt64) (windows : WindowsTable) : WindowsStep → Nat
  | .event _ => 0
  | .update call =>
      if (call.readsOf pid).isSome then
        ((reading ((windows.updateTable cpuShare call).table.statTable.valueAt pid)).getD 0).toNat
      else 0

/-- What a call takes of the counts without showing it, since it cannot open the process or does
not know of it. -/
def dropped (windows : WindowsTable) : WindowsStep → Nat
  | .event _ => 0
  | .update call =>
      if (call.readsOf pid).isSome then 0
      else ((windows.pidNetworkStatMap.valueAt pid).total direction).toNat

variable (steps : List WindowsStep) (windows : WindowsTable)

/-- The traffic that the calls of a run show. -/
def shownTraffic : Nat :=
  Tally.outflow (step cpuShare inetPton)
    (shown cpuShare pid fun stat => some (stat.networkUsage.total direction)) steps windows

def droppedTraffic : Nat :=
  Tally.outflow (step cpuShare inetPton) (dropped pid direction) steps windows

/-- The disk usage that they show. -/
def chargedDisk : Nat :=
  Tally.outflow (step cpuShare inetPton)
    (shown cpuShare pid fun stat => stat.diskUsage.counter direction) steps windows

/-- The readings of the disk counter in a run. -/
def diskReadings : List (Option UInt64) :=
  steps.filterMap fun step =>
    match step with
    | .event _ => none
    | .update call => (call.readsOf pid).map fun reads => reads.diskStat.counter direction

/-- A call lists the process, and each process once. -/
def Follows : WindowsStep → Prop
  | .event _ => True
  | .update call =>
      pid ∈ call.listPids.map Prod.fst ∧ (call.listPids.map Prod.fst).Nodup

end Process

end WindowsTable

end RemoteMonitoring
