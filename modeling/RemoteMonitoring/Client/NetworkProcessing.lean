/-
Module: RemoteMonitoring.Client.NetworkProcessing
Purpose: The traffic of each process from captured packets (client/network_processing.cpp), and
  how `update_table` (client/process_table.cpp) comes to the address and the ports for it.  Of
  the two platforms Linux is modelled.
Trusted boundary: little-endian host; `pcap_next` delivers finitely many packets before it
  returns `NULL`, each with the bytes that were captured of it
Main exports: Packet, classify, processPacket, processPackets, localIp, pidNetworkUsage
-/
import RemoteMonitoring.Client.PortMap
import RemoteMonitoring.Client.ProcessTable
import RemoteMonitoring.Common.Serializable
import RemoteMonitoring.Lib.PointerScan

namespace RemoteMonitoring

open ByteText
open PointerScan (Failure)

/-! ### Packets -/

/-- What `pcap_next` returns: the bytes that were captured, and `header.len`, the length on the
wire. -/
structure Packet where
  bytes : Bytes
  len : UInt32
deriving DecidableEq, Repr

namespace Packet

/-- Some bytes of the packet.  The source does not look at how many were captured. -/
def read (packet : Packet) (offset count : Nat) : Except Failure Bytes :=
  if offset + count ≤ packet.bytes.length then .ok ((packet.bytes.drop offset).take count)
  else .error .outOfBounds

def readByte (packet : Packet) (offset : Nat) : Except Failure UInt8 := do
  let bytes ← packet.read offset 1
  return bytes.headD 0

/-- `ntohs` of the 16 bits at `offset`. -/
def readPort (packet : Packet) (offset : Nat) : Except Failure UInt16 := do
  let bytes ← packet.read offset 2
  return (bytes.getD 0 0).toUInt16 <<< 8 ||| (bytes.getD 1 0).toUInt16

/-- The 32 bits at `offset`, as they are. -/
def readAddress (packet : Packet) (offset : Nat) : Except Failure UInt32 := do
  let bytes ← packet.read offset 4
  return fromMemory32 bytes

end Packet

/-- The two branches of `process_packets`. -/
inductive Direction where
  | outGoing
  | inGoing
deriving DecidableEq, Repr

def ipprotoTcp : UInt8 := 6

/-- Where `ip_hdr` points to, behind the Ethernet header. -/
def ipHdr : Nat := 14

/-- The direction of a packet, and the port that is looked up for it; nothing if `ip_p` is not
that of TCP. -/
def classify (localIp : UInt32) (packet : Packet) :
    Except Failure (Option (Direction × UInt16)) := do
  let ipP ← packet.readByte (ipHdr + 9)
  if ipP ≠ ipprotoTcp then return none
  else
    let ipHl := (← packet.readByte ipHdr) &&& 0x0f
    let tcpHdr := ipHdr + ipHl.toNat * 4
    let srcPort ← packet.readPort tcpHdr
    let dstPort ← packet.readPort (tcpHdr + 2)
    let ipSrc ← packet.readAddress (ipHdr + 12)
    if ipSrc = localIp then return some (.outGoing, srcPort) else return some (.inGoing, dstPort)

/-! ### Totals -/

namespace NetworkStat

/-- `header.len` on top of what is there, or of 0. -/
def count (networkUsage : NetworkStat) (direction : Direction) (len : UInt32) : NetworkStat :=
  match direction with
  | .outGoing =>
      let networkSend := networkUsage.networkSend.getD 0
      { networkUsage with networkSend := some (networkSend + len.toUInt64) }
  | .inGoing =>
      let networkRecv := networkUsage.networkRecv.getD 0
      { networkUsage with networkRecv := some (networkRecv + len.toUInt64) }

end NetworkStat

/-- One round of the loop. -/
def processPacket (localIp : UInt32) (portToPidMap : UnorderedMap UInt16 UInt32)
    (pidNetworkMap : UnorderedMap UInt32 NetworkStat) (packet : Packet) :
    Except Failure (UnorderedMap UInt32 NetworkStat) := do
  match ← classify localIp packet with
  | none => return pidNetworkMap
  | some (direction, port) =>
      match AList.lookup port portToPidMap with
      | none => return pidNetworkMap
      | some pid =>
          let networkUsage := pidNetworkMap.valueAt pid
          return pidNetworkMap.assign pid (networkUsage.count direction packet.len)

def processPackets (localIp : UInt32) (portToPidMap : UnorderedMap UInt16 UInt32)
    (packets : List Packet) : Except Failure (UnorderedMap UInt32 NetworkStat) :=
  packets.foldlM (processPacket localIp portToPidMap) ∅

/-! ### The address -/

/-- A row of the map of the inodes, behind `begin()` in the order in which it is stored. -/
abbrev InodeEntry := Sigma fun _ : UInt32 => SocketInode

/-- `inode_list_all.begin()->second.local_ip`, where nothing looks at whether there is a row. -/
def localIp (order : IterationOrder InodeEntry) (inodeListAll : UnorderedMap UInt32 SocketInode) :
    Except Failure UInt32 :=
  match order.visit inodeListAll.entries with
  | [] => .error .outOfBounds
  | entry :: _ => .ok entry.2.localIp

/-- What `update_table` hands to the loop over the pids. -/
def pidNetworkUsage (inverted : InvertedRange) (order : IterationOrder InodeEntry)
    (inodeListAll : UnorderedMap UInt32 SocketInode) (pids : List FdTable)
    (packets : List Packet) : Except Failure (UnorderedMap UInt32 NetworkStat) := do
  let portToPidMap := portToPidMap inverted inodeListAll pids
  let localIp ← localIp order inodeListAll
  processPackets localIp portToPidMap packets

end RemoteMonitoring
