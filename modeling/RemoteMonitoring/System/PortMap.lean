/-
Module: RemoteMonitoring.System.PortMap
Purpose: Sockets, rows and links as the kernel shows them, and what it means that the owner of
  a port is found.
Trusted boundary: none
Main exports: TcpRow, TcpTable, Holder, Owner, PortsFound, readInode, FoundAt
-/
import RemoteMonitoring.Client.PortMap

namespace RemoteMonitoring

open ByteText

/-! ### The table of sockets -/

/-- A text without white space. -/
structure Word where
  letters : Bytes
  nonempty : letters ≠ []
  visible : ∀ byte ∈ letters, IStream.isSpace byte = false

/-- A column: a word behind at least one space. -/
structure Column extends Word where
  gap : Nat

def Column.text (column : Column) : Bytes := List.replicate (column.gap + 1) 32 ++ column.letters

/-- A row of /proc/net/tcp: its number, the two addresses, six columns that are passed over, and
the inode with what stands behind it. -/
structure TcpRow where
  indent : Nat
  label : Word
  localIp : Base.hex.Numeral (2 ^ 32)
  localPort : Base.hex.Numeral (2 ^ 16)
  remIp : Base.hex.Numeral (2 ^ 32)
  remPort : Base.hex.Numeral (2 ^ 16)
  columns : List Column
  six : columns.length = 6
  inodeGap : Nat
  inode : Base.dec.Numeral (2 ^ 32)
  rest : Bytes
  behind : rest = [] ∨ rest.head? = some 32
  single : newline ∉ rest

namespace TcpRow

def text (row : TcpRow) : Bytes :=
  List.replicate row.indent 32 ++ row.label.letters ++
    32 :: (row.localIp.digits ++ 58 :: (row.localPort.digits ++
      32 :: (row.remIp.digits ++ 58 :: (row.remPort.digits ++
        (row.columns.flatMap Column.text ++
          32 :: (List.replicate row.inodeGap 32 ++ row.inode.digits ++ row.rest))))))

/-- An address that starts with 127; its first byte is the lowest. -/
def Loopback (row : TcpRow) : Prop := row.localIp.toNat % 256 = 127

instance (row : TcpRow) : Decidable row.Loopback := inferInstanceAs (Decidable (_ = _))

end TcpRow

/-- A header and some rows, where no two rows have the inode of one socket. -/
structure TcpTable where
  header : Bytes
  single : newline ∉ header
  rows : List TcpRow
  sockets : rows.Pairwise fun one other => one.inode.toNat = other.inode.toNat → one.inode.toNat = 0

def TcpTable.text (table : TcpTable) : Bytes :=
  table.header ++ newline :: table.rows.flatMap fun row => row.text ++ [newline]

/-- A socket that is not of the loop back has this inode and this port. -/
def TcpTable.Listed (table : TcpTable) (inode : Nat) (port : UInt16) : Prop :=
  ∃ row ∈ table.rows, ¬ row.Loopback ∧ row.inode.toNat = inode ∧ inode ≠ 0 ∧
    row.localPort.toNat = port.toNat

/-! ### The links -/

/-- What a file descriptor links to. -/
inductive FdLink where
  | socket (inode : UInt32)
  | file (name : Bytes) (other : name.take 8 ≠ socketMark)
  | unreadable

def FdLink.text : FdLink → Option Bytes
  | .socket inode => some (socketMark ++ decimal inode.toNat ++ ascii "]")
  | .file name _ => some name
  | .unreadable => none

/-- A process with its file descriptors. -/
structure Holder where
  pid : UInt32
  fds : List FdLink

/-- The reads show the processes, in the order in which they are listed; what is in the
variables is left open. -/
def Shows (reads : List FdTable) (holders : List Holder) : Prop :=
  reads.map (fun table => (table.pid, table.fds.map FdRead.link)) =
    holders.map fun holder => (holder.pid, holder.fds.map FdLink.text)

/-! ### Ports and owners -/

variable (holders : List Holder) (table : TcpTable)

/-- A process with this number has a socket with this port. -/
def Owner (port : UInt16) (pid : UInt32) : Prop :=
  ∃ holder ∈ holders, holder.pid = pid ∧
    ∃ inode, .socket inode ∈ holder.fds ∧ table.Listed inode.toNat port

/-- A port that has an owner is mapped, and only to an owner. -/
structure PortsFound (ports : UnorderedMap UInt16 UInt32) : Prop where
  mapped : ∀ port pid, Owner holders table port pid → ∃ other, AList.lookup port ports = some other
  owned : ∀ port pid, AList.lookup port ports = some pid → Owner holders table port pid

/-- What is read of an inode that a link has: all but the last eight digits of one that has more,
nothing of one that has just eight, and of a shorter one what the inverted range gives. -/
def readInode (inverted : InvertedRange) (inode : Nat) : Option Nat :=
  if 10 ^ 8 ≤ inode then some (inode / 10 ^ 8)
  else if 10 ^ 7 ≤ inode then none
  else
    match inverted with
    | .empty => none
    | .unbounded => some inode

variable (inverted : InvertedRange)

/-- What is read of an inode of the process is the inode of a socket with this port. -/
def Holder.Hits (holder : Holder) (port : UInt16) : Prop :=
  ∃ inode, .socket inode ∈ holder.fds ∧
    ∃ value, readInode inverted inode.toNat = some value ∧ table.Listed value port

/-- Of an inode of the process nothing is read. -/
def Holder.Loose (holder : Holder) : Prop :=
  ∃ inode, .socket inode ∈ holder.fds ∧ readInode inverted inode.toNat = none

/-- If the port has an owner, some process hits it; and every process that hits it, or may hit
anything, owns it unless a later one hits it. -/
structure FoundAt (port : UInt16) : Prop where
  hit : (∃ pid, Owner holders table port pid) → ∃ holder ∈ holders, holder.Hits table inverted port
  last : ∀ front holder back, holders = front ++ holder :: back →
    holder.Hits table inverted port ∨
      (holder.Loose inverted ∧ ∃ inode, table.Listed inode port) →
    (∀ later ∈ back, ¬ later.Hits table inverted port) → Owner holders table port holder.pid

end RemoteMonitoring
