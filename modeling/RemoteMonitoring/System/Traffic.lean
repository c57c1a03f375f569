/-
Module: RemoteMonitoring.System.Traffic
Purpose: Frames as the headers of IPv4 and TCP lay them out, what it means that the traffic of
  each process is what its frames were long on the wire, and that the direction of a frame does
  not depend on the order in which a hash map is visited.
Trusted boundary: none
Main exports: Packet.Tcp4, Packet.OwnedBy, traffic, Accounted, strays, attribution, Directed
-/
import RemoteMonitoring.Client.NetworkProcessing

namespace RemoteMonitoring

open ByteText
open PointerScan (Failure)

/-! ### Headers -/

namespace Packet

/-- A byte of the frame, 0 where nothing was captured. -/
def octet (packet : Packet) (offset : Nat) : Nat := (packet.bytes.getD offset 0).toNat

/-- The length of the IP header. -/
def headerLength (packet : Packet) : Nat := 4 * (packet.octet 14 % 16)

/-- Where TCP has the source port, and two bytes further the destination port. -/
def ports (packet : Packet) : Nat := 14 + packet.headerLength

/-- Two bytes in network order. -/
def portAt (packet : Packet) (offset : Nat) : UInt16 :=
  UInt16.ofNat (256 * packet.octet offset + packet.octet (offset + 1))

/-- An IPv4 packet with the protocol TCP, captured up to where the ports are in a first fragment:
any other fragment counts as well, with the four bytes at that place, and a frame with a VLAN tag
does not count. -/
def Tcp4 (packet : Packet) : Prop :=
  packet.octet 12 = 0x08 ∧ packet.octet 13 = 0x00 ∧ packet.octet 14 / 16 = 4 ∧
    20 ≤ packet.headerLength ∧ packet.octet 23 = 6 ∧ packet.ports + 4 ≤ packet.bytes.length

instance (packet : Packet) : Decidable packet.Tcp4 := inferInstanceAs (Decidable (_ ∧ _))

/-- The source address. -/
def FromHost (localIp : UInt32) (packet : Packet) : Prop :=
  fromMemory32 ((packet.bytes.drop 26).take 4) = localIp

instance (localIp : UInt32) (packet : Packet) : Decidable (packet.FromHost localIp) :=
  inferInstanceAs (Decidable (_ = _))

/-- The source port of what the host sends, the destination port of everything else. -/
def owningPort (localIp : UInt32) (packet : Packet) : Direction × UInt16 :=
  if packet.FromHost localIp then (.outGoing, packet.portAt packet.ports)
  else (.inGoing, packet.portAt (packet.ports + 2))

/-- The owning port is mapped to the process. -/
def OwnedBy (localIp : UInt32) (portToPidMap : UnorderedMap UInt16 UInt32)
    (direction : Direction) (pid : UInt32) (packet : Packet) : Prop :=
  (packet.owningPort localIp).1 = direction ∧
    AList.lookup (packet.owningPort localIp).2 portToPidMap = some pid

instance (localIp : UInt32) (portToPidMap : UnorderedMap UInt16 UInt32) (direction : Direction)
    (pid : UInt32) (packet : Packet) :
    Decidable (packet.OwnedBy localIp portToPidMap direction pid) :=
  inferInstanceAs (Decidable (_ ∧ _))

/-- The byte that is the protocol in an IPv4 header is captured, and if it is that of TCP, so are
the bytes that are the source address and the ports there. -/
def Legible (packet : Packet) : Prop :=
  24 ≤ packet.bytes.length ∧
    (packet.octet 23 = 6 → 30 ≤ packet.bytes.length ∧ packet.ports + 4 ≤ packet.bytes.length)

instance (packet : Packet) : Decidable packet.Legible := inferInstanceAs (Decidable (_ ∧ _))

end Packet

/-! ### Accounting -/

section Accounting

variable (localIp : UInt32) (portToPidMap : UnorderedMap UInt16 UInt32) (packets : List Packet)
variable (direction : Direction) (pid : UInt32)

/-- How long some frames were on the wire, all together. -/
def wireLength (frames : List Packet) : Nat := (frames.map fun packet => packet.len.toNat).sum

/-- The frames of a process in one direction. -/
def traffic : List Packet :=
  packets.filter fun packet => packet.Tcp4 ∧ packet.OwnedBy localIp portToPidMap direction pid

/-- Other frames whose bytes, read as those headers, have the protocol TCP and a port of the
process. -/
def strays : List Packet :=
  packets.filter fun packet => ¬ packet.Tcp4 ∧ packet.octet 23 = 6 ∧
    packet.OwnedBy localIp portToPidMap direction pid

/-- What a process has sent or received, 0 if there is no reading. -/
def NetworkStat.total (networkUsage : NetworkStat) : Direction → UInt64
  | .outGoing => networkUsage.networkSend.getD 0
  | .inGoing => networkUsage.networkRecv.getD 0

/-- Nothing is read that was not captured, and the totals are those of the frames. -/
def Accounted : Prop :=
  ∃ usage, processPackets localIp portToPidMap packets = .ok usage ∧ ∀ pid direction,
    ((usage.valueAt pid).total direction).toNat =
      wireLength (traffic localIp portToPidMap packets direction pid)

end Accounting

/-! ### Directions -/

/-- The branch that a frame takes, and the process that it is attributed to. -/
def attribution (inverted : InvertedRange) (order : IterationOrder InodeEntry)
    (inodeListAll : UnorderedMap UInt32 SocketInode) (pids : List FdTable) (packet : Packet) :
    Except Failure (Option (Direction × Option UInt32)) := do
  let localIp ← localIp order inodeListAll
  let classified ← classify localIp packet
  return classified.map fun (direction, port) =>
    (direction, AList.lookup port (portToPidMap inverted inodeListAll pids))

/-- There is a first row in every order, and the order makes no difference for any frame. -/
def Directed (inverted : InvertedRange) (inodeListAll : UnorderedMap UInt32 SocketInode)
    (pids : List FdTable) (packets : List Packet) : Prop :=
  (∀ order, localIp order inodeListAll ≠ .error .outOfBounds) ∧
    ∀ one two, ∀ packet ∈ packets,
      attribution inverted one inodeListAll pids packet =
        attribution inverted two inodeListAll pids packet

/-- The row is the last one of /proc/net/tcp, without the loop back, that has its inode. -/
def Stays (junk : Nat → SocketInode) (tcp : Bytes) (row : SocketInode) : Prop :=
  ∃ front back, tcpRows junk tcp = front ++ row :: back ∧ ∀ later ∈ back, later.inode ≠ row.inode

end RemoteMonitoring
