/-
Module: RemoteMonitoring.Client.PortMap
Purpose: Which process has which local port (client/process_table.cpp): the socket links of
  /proc/<pid>/fd joined with the rows of /proc/net/tcp.
Trusted boundary: `std::filesystem` delivers the links of a directory, some of them unreadable
Main exports: InvertedRange, parseSocketInode, getSocketInodeList, parseNetTcp, portToPidMap
-/
import RemoteMonitoring.Lib.Extraction
import RemoteMonitoring.Lib.UnorderedMap

namespace RemoteMonitoring

open ByteText

/-! ### /proc/<pid>/fd -/

def socketMark : Bytes := ascii "socket:["

/-- What `from_chars` makes of a range that ends before it starts: it reads nothing, or it only
looks whether the two ends are equal, as libstdc++ does, and reads on to the first character that
is no digit. -/
inductive InvertedRange where
  | empty
  | unbounded
deriving DecidableEq, Repr

/-- The number is read from the range between 8 and `link.size() - 9`; `number` starts as `junk`.
With less than eight characters before the bracket the second is in front of the first. -/
def parseSocketInode (inverted : InvertedRange) (junk : UInt64) (link : Bytes) : UInt64 :=
  if link.take 8 ≠ socketMark then 0
  else if link.length < 8 + 9 then
    match inverted with
    | .empty => junk
    | .unbounded => fromCharsUInt64 junk (link.drop 8)
  else fromCharsUInt64 junk ((link.take (link.length - 9)).drop 8)

/-- An entry of the directory: its link, if that can be read, and what `number` starts as. -/
structure FdRead where
  link : Option Bytes
  junk : UInt64
deriving DecidableEq, Repr

/-- The inodes of one process, in 32 bits. -/
def getSocketInodeList (inverted : InvertedRange) (fds : List FdRead) : List UInt32 :=
  (fds.filterMap fun fd =>
    fd.link.map fun link => (parseSocketInode inverted fd.junk link).toUInt32).filter (· ≠ 0)

/-! ### /proc/net/tcp -/

structure SocketInode where
  inode : UInt32
  localIp : UInt32
  localPort : UInt16
  remIp : UInt32
  remPort : UInt16
deriving DecidableEq, Repr, Inhabited

/-- One line, or nothing for the loop back.  The fields start as `junk`. -/
def parseTcpLine (junk : SocketInode) (line : Bytes) : Option SocketInode :=
  let iss := IStream.ofBytes line
  let (_, iss) := iss.extractWord []
  let (localIp, iss) := iss.extractUInt32 .hex junk.localIp
  if localIp &&& 0xff = 127 then none
  else
    let (_, iss) := iss.extractChar 0
    let (localPort, iss) := iss.extractUInt16 .hex junk.localPort
    let (remIp, iss) := iss.extractUInt32 .hex junk.remIp
    let (_, iss) := iss.extractChar 0
    let (remPort, iss) := iss.extractUInt16 .hex junk.remPort
    -- columns 4 to 9
    let iss := (fun iss : IStream => (iss.extractWord []).2)^[6] iss
    let (inode, _) := iss.extractUInt32 .dec junk.inode
    some { inode, localIp, localPort, remIp, remPort }

/-- The rows behind the header, where each line has fields of its own. -/
def tcpRows (junk : Nat → SocketInode) (tcp : Bytes) : List SocketInode :=
  ((lines tcp).drop 1).zipIdx.filterMap fun (line, n) => parseTcpLine (junk n) line

/-- By inode, where a later row takes the place of an earlier one. -/
def parseNetTcp (junk : Nat → SocketInode) (tcp : Bytes) : UnorderedMap UInt32 SocketInode :=
  (tcpRows junk tcp).foldl (fun ret row => ret.assign row.inode row) ∅

/-! ### The port map -/

structure FdTable where
  pid : UInt32
  fds : List FdRead
deriving DecidableEq, Repr

/-- A port is added if the inode is known. -/
def addPort (inodeListAll : UnorderedMap UInt32 SocketInode) (pid : UInt32)
    (portToPidMap : UnorderedMap UInt16 UInt32) (inode : UInt32) : UnorderedMap UInt16 UInt32 :=
  match AList.lookup inode inodeListAll with
  | some row => portToPidMap.assign row.localPort pid
  | none => portToPidMap

/-- What one process adds.  Without inodes it is passed over, and adds nothing. -/
def addPorts (inverted : InvertedRange) (inodeListAll : UnorderedMap UInt32 SocketInode)
    (portToPidMap : UnorderedMap UInt16 UInt32) (table : FdTable) : UnorderedMap UInt16 UInt32 :=
  (getSocketInodeList inverted table.fds).foldl (addPort inodeListAll table.pid) portToPidMap

def portToPidMap (inverted : InvertedRange) (inodeListAll : UnorderedMap UInt32 SocketInode)
    (pids : List FdTable) : UnorderedMap UInt16 UInt32 :=
  pids.foldl (addPorts inverted inodeListAll) ∅

end RemoteMonitoring
