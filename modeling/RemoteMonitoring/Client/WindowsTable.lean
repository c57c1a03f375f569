/-
Module: RemoteMonitoring.Client.WindowsTable
Purpose: The process table on the other platform: `OnEvent` and `get_network_packet`
  (client/network_processing.cpp), which count the traffic in a thread of their own, and
  `update_table` (client/process_table.cpp), which takes the counts.
Trusted boundary: the names and the formatted properties of an event are inputs, and so is what
  can be read of a process; `inet_pton` and the CPU share, which is computed in `double`, are
  parameters; allocations succeed
Main exports: NetworkPacketInfo, EtwEvent, getNetworkPacket, onEvent, WindowsTable,
  WindowsTable.updatePid, WindowsTable.updateTable
-/
import RemoteMonitoring.Client.NetworkProcessing
import RemoteMonitoring.Common.Registry
import RemoteMonitoring.Lib.IStream

namespace RemoteMonitoring

open ByteText

/-! ### Events -/

structure NetworkPacketInfo where
  pid : UInt32
  size : UInt32
  localAddr : UInt32
  localPort : UInt16
  remoteAddr : UInt32
  remotePort : UInt16
  receive : Bool
deriving DecidableEq, Repr, Inhabited

/-- What TDH makes of an event: two names, and the text of each property, nothing for one that
could not be formatted. -/
structure EtwEvent where
  keywordName : WString
  opcodeName : WString
  properties : List (Option WString)
deriving DecidableEq, Repr

/-- `find` does not return `npos`. -/
def WString.contains (text part : WString) : Bool := text.tails.any part.isPrefixOf

def fromCharsUInt16 (target : UInt16) (text : Bytes) : UInt16 :=
  ((fromChars (2 ^ 16) text).map UInt16.ofNat).getD target

section Packets

variable (inetPton : Bytes → Option UInt32)

/-- The string ends at its first 0 for `inet_pton`.  Nothing if the address is invalid, which
throws. -/
def ipStringToUInt32 (ip : Bytes) : Option UInt32 := inetPton (ip.takeWhile (· ≠ 0))

/-- The buffer after a property is formatted: it only grows, and is not cleared. -/
def formatProperty (property : Option WString) (buffer : WString) : WString :=
  match property with
  | none => buffer
  | some text => text ++ 0 :: buffer.drop (text.length + 1)

/-- What the whole buffer is read as. -/
def setProperty (propIndex : Nat) (buffer : WString) (networkPacket : NetworkPacketInfo) :
    Option NetworkPacketInfo :=
  let text := buffer.toString
  match propIndex with
  | 0 => some { networkPacket with pid := fromCharsUInt32 networkPacket.pid text }
  | 1 => some { networkPacket with size := fromCharsUInt32 networkPacket.size text }
  | 2 => do
      let remoteAddr ← ipStringToUInt32 inetPton text
      return { networkPacket with remoteAddr }
  | 3 => do
      let localAddr ← ipStringToUInt32 inetPton text
      return { networkPacket with localAddr }
  | 4 => some { networkPacket with remotePort := fromCharsUInt16 networkPacket.remotePort text }
  | 5 => some { networkPacket with localPort := fromCharsUInt16 networkPacket.localPort text }
  | _ => some networkPacket

/-- The loop over the properties, from one of them on. -/
def readProperties : Nat → List (Option WString) → WString → NetworkPacketInfo →
    Option NetworkPacketInfo
  | _, [], _, networkPacket => some networkPacket
  | propIndex, property :: later, buffer, networkPacket => do
      let buffer := formatProperty property buffer
      let networkPacket ← setProperty inetPton propIndex buffer networkPacket
      readProperties (propIndex + 1) later buffer networkPacket

/-- Nothing if it throws. -/
def getNetworkPacket (event : EtwEvent) : Option NetworkPacketInfo :=
  if event.keywordName ≠ wide "KERNEL_NETWORK_KEYWORD_IPV4" then some default
  else
    -- "there are more types other than just data sent and received"
    let receive := !event.opcodeName.contains (wide "Data sent") &&
      event.opcodeName.contains (wide "Data received")
    readProperties inetPton 0 event.properties [] { (default : NetworkPacketInfo) with receive }

def NetworkPacketInfo.direction (networkPacket : NetworkPacketInfo) : Direction :=
  if networkPacket.receive then .inGoing else .outGoing

def onEvent (event : EtwEvent) (pidNetworkStatMap : UnorderedMap UInt32 NetworkStat) :
    UnorderedMap UInt32 NetworkStat :=
  match getNetworkPacket inetPton event with
  | none => pidNetworkStatMap
  | some packet =>
      let networkStat := pidNetworkStatMap.valueAt packet.pid
      pidNetworkStatMap.assign packet.pid (networkStat.count packet.direction packet.size)

end Packets

/-! ### `update_table` -/

/-- What is read of a process with its handle. -/
structure WindowsReads where
  processName : Bytes
  totalCpu : UInt64
  mem : UInt64
  /-- Without values if `GetProcessIoCounters` fails. -/
  diskStat : DiskStat
deriving DecidableEq, Repr

/-- What one call of `update_table` reads, and the order of its last loop. -/
structure WindowsCall where
  systemCpu : UInt64
  /-- Each pid of the list, with nothing for a process that cannot be opened. -/
  listPids : List (UInt32 × Option WindowsReads)
  order : ListingOrder

/-- The tables, of which the CPU variable of the other platform is not used; the variable that is
static in `update_table`; and the map that it shares with the thread of the events. -/
structure WindowsTable where
  table : ProcessTable
  lastSystemCpu : UInt64
  pidNetworkStatMap : UnorderedMap UInt32 NetworkStat

namespace WindowsTable

def empty : WindowsTable := ⟨.empty, 0, ∅⟩

/-- "move out, effectively clearing it after each call" -/
def getPidNetworkStat (windows : WindowsTable) : UnorderedMap UInt32 NetworkStat × WindowsTable :=
  (windows.pidNetworkStatMap, { windows with pidNetworkStatMap := ∅ })

/-- "substracting network io because GetProcessIOCounter has all sort of io (not just disk)" -/
def subtractNetwork (used traffic : Option UInt64) : Option UInt64 :=
  match used, traffic with
  | some used, some traffic => some (used - min used traffic)
  | used, _ => used

section Update

variable (cpuShare : UInt64 → UInt64 → UInt32) (systemCpuDelta : UInt64)
  (pidNetworkUsage : UnorderedMap UInt32 NetworkStat)

/-- What a round does with a process that it can open. -/
def storeReads (pid : UInt32) (reads : WindowsReads) (table : ProcessTable) : ProcessTable :=
  let listing := table.listTable.valueAt pid
  let lastStat := table.lastStatTable.valueAt pid
  let networkUsage := pidNetworkUsage.valueAt pid
  let diskRead := ProcessTable.delta reads.diskStat.diskRead lastStat.diskStat.diskRead
  let diskWrite := ProcessTable.delta reads.diskStat.diskWrite lastStat.diskStat.diskWrite
  { table with
    listTable :=
      table.listTable.assign pid
        (if listing.processName.isEmpty then ⟨reads.processName, []⟩ else listing)
    statTable :=
      table.statTable.assign pid
        { cpuUsagePercent := cpuShare (reads.totalCpu - lastStat.totalCpuUsage) systemCpuDelta
          memUsage := reads.mem
          diskUsage :=
            ⟨subtractNetwork diskRead networkUsage.networkRecv,
              subtractNetwork diskWrite networkUsage.networkSend⟩
          networkUsage }
    lastStatTable := table.lastStatTable.assign pid ⟨reads.totalCpu, reads.diskStat⟩ }

/-- One round of the loop over the pids. -/
def updatePid (pid : UInt32) (hProcess : Option WindowsReads) (table : ProcessTable) :
    ProcessTable :=
  let table :=
    { table with
      listTable := table.listTable.touch pid
      statTable := table.statTable.touch pid
      lastStatTable := table.lastStatTable.touch pid }
  match hProcess with
  | none => table
  | some reads => storeReads cpuShare systemCpuDelta pidNetworkUsage pid reads table

/-- The loop over the pids, with the map `seen`. -/
def updatePids : List (UInt32 × Option WindowsReads) →
    UnorderedMap UInt32 Bool × ProcessTable → UnorderedMap UInt32 Bool × ProcessTable
  | [], state => state
  | (pid, hProcess) :: later, (seen, table) =>
      updatePids later (seen.assign pid true,
        updatePid cpuShare systemCpuDelta pidNetworkUsage pid hProcess table)

end Update

def updateTable (cpuShare : UInt64 → UInt64 → UInt32) (call : WindowsCall)
    (windows : WindowsTable) : WindowsTable :=
  let systemCpuDelta := call.systemCpu - windows.lastSystemCpu
  let systemCpuDelta := if systemCpuDelta = 0 then 1 else systemCpuDelta
  let (pidNetworkUsage, windows) := windows.getPidNetworkStat
  let (seen, table) :=
    updatePids cpuShare systemCpuDelta pidNetworkUsage call.listPids (∅, windows.table)
  { windows with
    table := table.eraseUnseen seen (call.order.visit table.listTable.entries)
    lastSystemCpu := call.systemCpu }

end WindowsTable

end RemoteMonitoring
