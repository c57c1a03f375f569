/-
Module: RemoteMonitoring.Proofs.PortMap
Purpose: When the owner of a port is found: the rows are read right, and what is read of the inode
  in a link depends on how many digits it has.
Trusted boundary: none
Main exports: parseTcpLine_text, lookup_parseNetTcp, parseSocketInode_socket, lookup_portToPidMap,
  portToPidMap_found_iff
-/
import RemoteMonitoring.Lib.Tally
import RemoteMonitoring.System.PortMap

namespace RemoteMonitoring

open ByteText

/-! ### Rows -/

theorem extractWord_column (column : Column) (target rest : Bytes) :
    (IStream.ofBytes (column.text ++ 32 :: rest)).extractWord target =
      (column.letters, IStream.ofBytes (32 :: rest)) :=
  IStream.extractWord_append (column.gap + 1) column.nonempty column.visible target rfl rest

theorem columns_start (columns : List Column) (rest : Bytes) :
    ∃ more, columns.flatMap Column.text ++ 32 :: rest = 32 :: more := by
  cases columns with
  | nil => exact ⟨rest, rfl⟩
  | cons column columns => simp [Column.text, List.replicate_succ]

/-- The columns that are passed over. -/
theorem extractWords_columns (columns : List Column) (rest : Bytes) :
    (fun iss : IStream => (iss.extractWord []).2)^[columns.length]
      (IStream.ofBytes (columns.flatMap Column.text ++ 32 :: rest)) =
        IStream.ofBytes (32 :: rest) := by
  induction columns with
  | nil => rfl
  | cons column columns ih =>
      obtain ⟨more, same⟩ := columns_start columns rest
      rw [List.length_cons, Function.iterate_succ_apply, List.flatMap_cons, List.append_assoc, same,
        extractWord_column, ← same, ih]

namespace TcpRow

/-- What is read from a row. -/
def entry (row : TcpRow) : SocketInode where
  inode := UInt32.ofNat row.inode.toNat
  localIp := UInt32.ofNat row.localIp.toNat
  localPort := UInt16.ofNat row.localPort.toNat
  remIp := UInt32.ofNat row.remIp.toNat
  remPort := UInt16.ofNat row.remPort.toNat

/-- The test for the loop back is one of the first byte of the address. -/
theorem loopback_iff (row : TcpRow) : row.entry.localIp &&& 0xff = 127 ↔ row.Loopback := by
  have low := Nat.and_two_pow_sub_one_eq_mod row.localIp.toNat 8
  have small : row.localIp.toNat < 2 ^ 32 := row.localIp.small
  rw [← UInt32.toNat_inj, UInt32.toNat_and]
  unfold entry Loopback
  rw [UInt32.toNat_ofNat', Nat.mod_eq_of_lt small]
  exact low ▸ Iff.rfl

end TcpRow

/-- What is behind the inode ends the numeral. -/
theorem TcpRow.stops_rest (row : TcpRow) : Base.dec.Stops row.rest := by
  intro byte head
  cases row.behind with
  | inl empty =>
      rw [empty] at head
      cases head
  | inr blank =>
      rw [blank] at head
      obtain rfl := Option.some.inj head
      decide

/-- A well-formed line is read as its row, or passed over if it is of the loop back. -/
theorem parseTcpLine_text (junk : SocketInode) (row : TcpRow) :
    parseTcpLine junk row.text = if row.Loopback then none else some row.entry := by
  have label := fun rest => IStream.extractWord_append row.indent row.label.nonempty
    row.label.visible [] (show IStream.isSpace 32 = true from rfl) rest
  have localIp : ∀ rest, (IStream.ofBytes (32 :: (row.localIp.digits ++ 58 :: rest))).extractUInt32
      .hex junk.localIp = (row.entry.localIp, IStream.ofBytes (58 :: rest)) := fun rest =>
    IStream.extractUInt32_numeral 1 row.localIp junk.localIp (Base.stops_colon rest)
  have localPort : ∀ rest, (IStream.ofBytes (row.localPort.digits ++ 32 :: rest)).extractUInt16
      .hex junk.localPort = (row.entry.localPort, IStream.ofBytes (32 :: rest)) := fun rest =>
    IStream.extractUInt16_numeral 0 row.localPort junk.localPort (Base.stops_space .hex rest)
  have remIp : ∀ rest, (IStream.ofBytes (32 :: (row.remIp.digits ++ 58 :: rest))).extractUInt32
      .hex junk.remIp = (row.entry.remIp, IStream.ofBytes (58 :: rest)) := fun rest =>
    IStream.extractUInt32_numeral 1 row.remIp junk.remIp (Base.stops_colon rest)
  have remPort : ∀ rest, (IStream.ofBytes (row.remPort.digits ++ 32 :: rest)).extractUInt16
      .hex junk.remPort = (row.entry.remPort, IStream.ofBytes (32 :: rest)) := fun rest =>
    IStream.extractUInt16_numeral 0 row.remPort junk.remPort (Base.stops_space .hex rest)
  have colon := fun rest => @IStream.extractChar_cons 58 rfl 0 rest
  have inode : ((IStream.ofBytes (32 :: (List.replicate row.inodeGap 32 ++ row.inode.digits ++
      row.rest))).extractUInt32 .dec junk.inode).1 = row.entry.inode := congrArg Prod.fst
    (IStream.extractUInt32_numeral (row.inodeGap + 1) row.inode junk.inode row.stops_rest)
  have columns := fun rest => row.six ▸ extractWords_columns row.columns rest
  obtain ⟨more, start⟩ := columns_start row.columns
    (List.replicate row.inodeGap 32 ++ row.inode.digits ++ row.rest)
  rw [parseTcpLine, TcpRow.text]
  simp only [label, localIp, row.loopback_iff]
  split
  · rfl
  · simp only [colon, localPort, remIp, start, remPort]
    simp only [← start, columns, inode]

/-! ### The table -/

theorem newline_not_mem_numeral {base : Base} {bound : Nat} (numeral : base.Numeral bound) :
    newline ∉ numeral.digits := by
  intro member
  have bounds := Base.bounds_of_isDigit (numeral.all newline member)
  exact absurd bounds.1 (by decide)

theorem newline_not_mem_word (word : Word) : newline ∉ word.letters := by
  intro member
  exact absurd (word.visible newline member) (by decide)

/-- A row is one line. -/
theorem newline_not_mem_text (row : TcpRow) : newline ∉ row.text := by
  have blank : ∀ gap, newline ∉ List.replicate gap (32 : UInt8) := by
    intro gap member
    exact absurd (List.mem_replicate.mp member).2 (by decide)
  have columns : newline ∉ row.columns.flatMap Column.text := by
    rw [List.mem_flatMap]
    rintro ⟨column, _, member⟩
    cases List.mem_append.mp member with
    | inl gap => exact blank _ gap
    | inr letter => exact newline_not_mem_word column.toWord letter
  have mark : newline ≠ 32 ∧ newline ≠ 58 := by decide
  simp only [TcpRow.text, List.mem_append, List.mem_cons, blank, newline_not_mem_word,
    newline_not_mem_numeral, columns, row.single, mark, or_self, not_false_eq_true]

/-- The file is the header and the rows, line by line. -/
theorem lines_text (table : TcpTable) :
    lines table.text = table.header :: table.rows.map TcpRow.text := by
  rw [TcpTable.text, lines_append_newline table.single]
  congr 1
  induction table.rows with
  | nil => rfl
  | cons row rows ih =>
      rw [List.flatMap_cons, List.append_assoc, List.singleton_append,
        lines_append_newline (newline_not_mem_text row), ih, List.map_cons]

/-- And so is the file, but for its header. -/
theorem tcpRows_text (junk : Nat → SocketInode) (table : TcpTable) :
    tcpRows junk table.text =
      (table.rows.filter fun row => ¬ row.Loopback).map TcpRow.entry := by
  rw [tcpRows, lines_text, List.drop_one, List.tail_cons]
  generalize 0 = start
  induction table.rows generalizing start with
  | nil => rfl
  | cons row rows ih =>
      rw [List.map_cons, List.zipIdx_cons, List.filterMap_cons, ih, List.filter_cons]
      dsimp only
      rw [parseTcpLine_text]
      by_cases loopback : row.Loopback
      · simp [loopback]
      · simp [loopback]

/-- A socket has one row. -/
theorem TcpTable.unique (table : TcpTable) {row other : TcpRow} (one : row ∈ table.rows)
    (two : other ∈ table.rows) (same : row.inode.toNat = other.inode.toNat)
    (socket : row.inode.toNat ≠ 0) : row = other := by
  have apart : table.rows.Pairwise fun one other : TcpRow =>
      one.inode.toNat = other.inode.toNat → one.inode.toNat ≠ 0 → one = other :=
    table.sockets.imp fun zero same some => absurd (zero same) some
  have flipped : table.rows.Pairwise fun other one : TcpRow =>
      one.inode.toNat = other.inode.toNat → one.inode.toNat ≠ 0 → one = other :=
    table.sockets.imp fun zero same some => absurd (same.trans (zero same.symm)) some
  exact apart.forall_of_forall_of_flip (fun _ _ _ _ => rfl) flipped one two same socket

theorem inode_entry (row : TcpRow) : row.entry.inode.toNat = row.inode.toNat :=
  Nat.mod_eq_of_lt row.inode.small

theorem localPort_entry (row : TcpRow) : row.entry.localPort.toNat = row.localPort.toNat :=
  Nat.mod_eq_of_lt row.localPort.small

/-- A row with a socket is found by its inode: no other row has it. -/
theorem lookup_row (junk : Nat → SocketInode) {table : TcpTable} {row : TcpRow}
    (member : row ∈ table.rows) (visible : ¬ row.Loopback) (socket : row.inode.toNat ≠ 0) :
    AList.lookup row.entry.inode (parseNetTcp junk table.text) = some row.entry := by
  rw [parseNetTcp, tcpRows_text]
  apply UnorderedMap.lookup_assigned
  · exact List.mem_map_of_mem (List.mem_filter.mpr ⟨member, by simpa using visible⟩)
  · intro entry inside same
    obtain ⟨other, kept, rfl⟩ := List.mem_map.mp inside
    have equal : row.inode.toNat = other.inode.toNat := by
      rw [← inode_entry, ← inode_entry, same]
    rw [table.unique member (List.mem_filter.mp kept).1 equal socket]

/-- What is found under an inode is the port of its socket. -/
theorem lookup_parseNetTcp (junk : Nat → SocketInode) (table : TcpTable) {inode : UInt32}
    (socket : inode.toNat ≠ 0) (port : UInt16) :
    (∃ entry, AList.lookup inode (parseNetTcp junk table.text) = some entry ∧
        entry.localPort = port) ↔ table.Listed inode.toNat port := by
  constructor
  · rintro ⟨entry, found, rfl⟩
    by_cases present : ∃ row ∈ table.rows, ¬ row.Loopback ∧ row.entry.inode = inode
    · obtain ⟨row, member, visible, rfl⟩ := present
      rw [inode_entry] at socket
      rw [lookup_row junk member visible socket] at found
      cases found
      exact ⟨row, member, visible, (inode_entry row).symm, inode_entry row ▸ socket,
        (localPort_entry row).symm⟩
    · have absent : ∀ entry ∈ (table.rows.filter fun row => ¬ row.Loopback).map TcpRow.entry,
          entry.inode ≠ inode := by
        intro entry inside same
        obtain ⟨row, kept, rfl⟩ := List.mem_map.mp inside
        obtain ⟨member, visible⟩ := List.mem_filter.mp kept
        exact present ⟨row, member, by simpa using visible, same⟩
      rw [parseNetTcp, tcpRows_text, UnorderedMap.lookup_unassigned absent] at found
      cases found
  · rintro ⟨row, member, visible, same, _, portSame⟩
    have key : row.entry.inode = inode := UInt32.toNat_inj.mp ((inode_entry row).trans same)
    refine ⟨row.entry, ?_, UInt16.toNat_inj.mp ((localPort_entry row).trans portSame)⟩
    rw [← key]
    exact lookup_row junk member visible (same ▸ socket)

/-! ### Links -/

/-- Without its last digits a numeral is that of a quotient. -/
theorem decimal_split {n count : Nat} (long : 10 ^ count ≤ n) :
    ∃ tail, decimal n = decimal (n / 10 ^ count) ++ tail ∧ tail.length = count := by
  induction count with
  | zero => exact ⟨[], by simp, rfl⟩
  | succ count ih =>
      obtain ⟨tail, same, length⟩ := ih (le_trans (Nat.pow_le_pow_right (by omega) (by omega)) long)
      obtain ⟨digit, _, step⟩ := decimal_step (n / 10 ^ count)
      have more : ¬ n / 10 ^ count < 10 := by
        rw [Nat.div_lt_iff_lt_mul (by positivity), not_lt, ← Nat.pow_succ']
        exact long
      rw [if_neg more, Nat.div_div_eq_div_mul, ← Nat.pow_succ] at step
      exact ⟨digit :: tail, by rw [same, step]; simp, by simp [length]⟩

/-- A number from a power of ten on has more digits than that. -/
theorem decimal_length_gt {n count : Nat} (long : 10 ^ count ≤ n) :
    count < (decimal n).length := by
  obtain ⟨tail, same, length⟩ := decimal_split long
  have some : 0 < (decimal (n / 10 ^ count)).length := List.length_pos_iff.mpr (decimal_ne_nil _)
  rw [same, List.length_append, length]
  omega

theorem fromChars_decimal {n : Nat} (small : n < 2 ^ 64) (junk : UInt64) {rest : Bytes}
    (stops : ∀ byte ∈ rest.head?, isDigit byte = false) :
    fromCharsUInt64 junk (decimal n ++ rest) = UInt64.ofNat n := by
  rw [fromCharsUInt64, fromChars_of_leadingNumeral (leadingNumeral_decimal_append n stops) small]
  rfl

/-- What is read of the inode in a link. -/
theorem parseSocketInode_socket (inverted : InvertedRange) (junk : UInt64) (inode : UInt32) :
    parseSocketInode inverted junk (socketMark ++ decimal inode.toNat ++ ascii "]") =
      ((readInode inverted inode.toNat).map UInt64.ofNat).getD junk := by
  have mark : socketMark.length = 8 := rfl
  have bracket : (ascii "]").length = 1 := rfl
  have wide : inode.toNat < 2 ^ 64 := lt_trans inode.toNat_lt (by decide)
  have start : (socketMark ++ decimal inode.toNat ++ ascii "]").take 8 = socketMark := by
    rw [List.append_assoc, ← mark, List.take_left]
  have behind : (socketMark ++ decimal inode.toNat ++ ascii "]").drop 8 =
      decimal inode.toNat ++ ascii "]" := by
    rw [List.append_assoc, ← mark, List.drop_left]
  have total : (socketMark ++ decimal inode.toNat ++ ascii "]").length =
      8 + (decimal inode.toNat).length + 1 := by
    rw [List.length_append, List.length_append, mark, bracket]
  unfold parseSocketInode
  rw [if_neg (not_not.mpr start), total, behind]
  by_cases long : 10 ^ 8 ≤ inode.toNat
  · -- the range ends eight digits before the bracket
    have many := decimal_length_gt long
    obtain ⟨tail, same, length⟩ := decimal_split long
    have kept : ((socketMark ++ decimal inode.toNat ++ ascii "]").take
        (8 + (decimal inode.toNat).length + 1 - 9)).drop 8 = decimal (inode.toNat / 10 ^ 8) := by
      have count : 8 + (decimal inode.toNat).length + 1 - 9 - 8 =
          (decimal (inode.toNat / 10 ^ 8)).length := by
        rw [same, List.length_append, length]
        omega
      rw [List.drop_take, behind, count, same, List.append_assoc, List.take_left]
    have ends := @fromChars_decimal _ (lt_of_le_of_lt (Nat.div_le_self inode.toNat (10 ^ 8)) wide)
      junk [] (by simp)
    rw [List.append_nil] at ends
    have read : readInode inverted inode.toNat = some (inode.toNat / 10 ^ 8) := if_pos long
    rw [if_neg (by omega), kept, ends, read]
    rfl
  · by_cases eight : 10 ^ 7 ≤ inode.toNat
    · have exact := decimal_length_gt eight
      have atMost := decimal_length_le (by omega) (not_le.mp long)
      have nothing : ((socketMark ++ decimal inode.toNat ++ ascii "]").take
          (8 + (decimal inode.toNat).length + 1 - 9)).drop 8 = [] := by
        rw [List.drop_take, show 8 + (decimal inode.toNat).length + 1 - 9 - 8 = 0 by omega,
          List.take_zero]
      have read : readInode inverted inode.toNat = none := by
        unfold readInode
        rw [if_neg long, if_pos eight]
      rw [if_neg (by omega), nothing, read]
      rfl
    · have few := decimal_length_le (by omega) (not_le.mp eight)
      rw [if_pos (by omega)]
      unfold readInode
      rw [if_neg long, if_neg eight]
      cases inverted with
      | empty => rfl
      | unbounded =>
          apply fromChars_decimal wide junk
          intro byte behind
          rw [← Option.some.inj (behind : some (93 : UInt8) = some byte)]
          rfl

/-- Where the inverted range is read on, a short inode is read as it is. -/
example : parseSocketInode .unbounded 0 (ascii "socket:[12345]") = 12345 := by decide +kernel

theorem parseSocketInode_file (inverted : InvertedRange) (junk : UInt64) {name : Bytes}
    (other : name.take 8 ≠ socketMark) : parseSocketInode inverted junk name = 0 := if_pos other

/-- Which inodes a process is taken to have. -/
theorem mem_getSocketInodeList {inverted : InvertedRange} {fds : List FdRead} {inode : UInt32} :
    inode ∈ getSocketInodeList inverted fds ↔
      inode ≠ 0 ∧ ∃ fd ∈ fds, ∃ link, fd.link = some link ∧
        (parseSocketInode inverted fd.junk link).toUInt32 = inode := by
  simp only [getSocketInodeList, List.mem_filter, List.mem_filterMap, Option.map_eq_some_iff,
    decide_eq_true_eq]
  exact and_comm

/-! ### The map -/

section Map

variable {inverted : InvertedRange} {all : UnorderedMap UInt32 SocketInode} {port : UInt16}

/-- An inode with this port. -/
def HasPort (all : UnorderedMap UInt32 SocketInode) (port : UInt16) (inode : UInt32) : Prop :=
  ∃ row, AList.lookup inode all = some row ∧ row.localPort = port

/-- A process that sets the entry of the port. -/
def FdTable.Writes (reads : FdTable) (inverted : InvertedRange)
    (all : UnorderedMap UInt32 SocketInode) (port : UInt16) : Prop :=
  ∃ inode ∈ getSocketInodeList inverted reads.fds, HasPort all port inode

/-- An inode sets the entry of its own port, and no other. -/
theorem lookup_addPort (pid : UInt32) (ports : UnorderedMap UInt16 UInt32) (inode : UInt32) :
    (HasPort all port inode → AList.lookup port (addPort all pid ports inode) = some pid) ∧
      (¬ HasPort all port inode →
        AList.lookup port (addPort all pid ports inode) = AList.lookup port ports) := by
  unfold addPort
  constructor
  · rintro ⟨row, found, same⟩
    simp only [found]
    rw [UnorderedMap.lookup_assign, if_pos same.symm]
  · intro other
    cases found : AList.lookup inode all with
    | none => rfl
    | some row =>
        have apart : port ≠ row.localPort := fun same => other ⟨row, found, same.symm⟩
        dsimp only
        rw [UnorderedMap.lookup_assign, if_neg apart]

/-- Inodes of other ports leave the entry as it is. -/
theorem lookup_inodes_of_not {inodes : List UInt32}
    (silent : ∀ inode ∈ inodes, ¬ HasPort all port inode) (pid : UInt32)
    (ports : UnorderedMap UInt16 UInt32) :
    AList.lookup port (inodes.foldl (addPort all pid) ports) = AList.lookup port ports := by
  induction inodes generalizing ports with
  | nil => rfl
  | cons inode inodes ih =>
      rw [List.foldl_cons, ih fun other member => silent other (List.mem_cons_of_mem _ member)]
      exact (lookup_addPort pid ports inode).2 (silent inode List.mem_cons_self)

/-- One inode of the port is enough for the process to have it. -/
theorem lookup_inodes {inodes : List UInt32} (known : ∃ inode ∈ inodes, HasPort all port inode)
    (pid : UInt32) (ports : UnorderedMap UInt16 UInt32) :
    AList.lookup port (inodes.foldl (addPort all pid) ports) = some pid := by
  induction inodes using List.reverseRecOn with
  | nil =>
      obtain ⟨_, member, _⟩ := known
      cases member
  | append_singleton inodes last ih =>
      rw [List.foldl_append, List.foldl_cons, List.foldl_nil]
      by_cases has : HasPort all port last
      · exact (lookup_addPort pid _ last).1 has
      · rw [(lookup_addPort pid _ last).2 has]
        apply ih
        obtain ⟨inode, member, found⟩ := known
        cases List.mem_append.mp member with
        | inl earlier => exact ⟨inode, earlier, found⟩
        | inr ends => exact absurd found (List.mem_singleton.mp ends ▸ has)

/-- What a process does to the entry of a port. -/
theorem lookup_addPorts (ports : UnorderedMap UInt16 UInt32) (reads : FdTable) :
    (reads.Writes inverted all port →
        AList.lookup port (addPorts inverted all ports reads) = some reads.pid) ∧
      (¬ reads.Writes inverted all port →
        AList.lookup port (addPorts inverted all ports reads) = AList.lookup port ports) := by
  rw [addPorts]
  constructor
  · intro writes
    exact lookup_inodes writes reads.pid ports
  · intro silent
    exact lookup_inodes_of_not (fun inode member has => silent ⟨inode, member, has⟩) reads.pid ports

/-- The entry of a port is that of the last process that sets it. -/
theorem lookup_portToPidMap (pids : List FdTable) (pid : UInt32) :
    AList.lookup port (portToPidMap inverted all pids) = some pid ↔
      ∃ front reads back, pids = front ++ reads :: back ∧ reads.Writes inverted all port ∧
        (∀ later ∈ back, ¬ later.Writes inverted all port) ∧ reads.pid = pid :=
  Tally.foldl_last (fun ports reads => (lookup_addPorts ports reads).1)
    (fun ports reads => (lookup_addPorts ports reads).2) rfl pids pid

/-- A port is mapped as soon as some process sets its entry. -/
theorem mapped_of_writes {pids : List FdTable} {reads : FdTable} (member : reads ∈ pids)
    (writes : reads.Writes inverted all port) :
    ∃ pid, AList.lookup port (portToPidMap inverted all pids) = some pid := by
  unfold portToPidMap
  induction pids using List.reverseRecOn with
  | nil => cases member
  | append_singleton pids last ih =>
      rw [List.foldl_append, List.foldl_cons, List.foldl_nil]
      by_cases sets : last.Writes inverted all port
      · exact ⟨last.pid, (lookup_addPorts _ last).1 sets⟩
      · rw [(lookup_addPorts _ last).2 sets]
        rcases List.mem_append.mp member with earlier | ends
        · exact ih earlier
        · exact absurd writes (List.mem_singleton.mp ends ▸ sets)

end Map

/-! ### What a process sets -/

section Shown

variable {inverted : InvertedRange} {junk : Nat → SocketInode} {holder : Holder}
  {reads : FdTable} {table : TcpTable} {port : UInt16}

/-- The reads of one process. -/
def Holder.ShownBy (holder : Holder) (reads : FdTable) : Prop :=
  reads.pid = holder.pid ∧ reads.fds.map FdRead.link = holder.fds.map FdLink.text

/-- What an inode is taken for. -/
def takenFor (inverted : InvertedRange) (junk : UInt64) (inode : UInt32) : UInt32 :=
  (((readInode inverted inode.toNat).map UInt64.ofNat).getD junk).toUInt32

/-- What is read of an inode is no more than the inode. -/
theorem readInode_le {inode value : Nat} (read : readInode inverted inode = some value) :
    value ≤ inode := by
  unfold readInode at read
  split at read
  · cases read
    exact Nat.div_le_self _ _
  · split at read
    · cases read
    · cases inverted with
      | empty => cases read
      | unbounded =>
          cases read
          exact Nat.le_refl inode

/-- And so it fits 32 bits. -/
theorem toNat_takenFor {inode : UInt32} {value : Nat}
    (read : readInode inverted inode.toNat = some value) (junk : UInt64) :
    (takenFor inverted junk inode).toNat = value := by
  have small : value < 2 ^ 32 := lt_of_le_of_lt (readInode_le read) inode.toNat_lt
  rw [takenFor, read, Option.map_some, Option.getD_some, UInt64.toNat_toUInt32,
    UInt64.toNat_ofNat', Nat.mod_eq_of_lt (lt_trans small (by decide)), Nat.mod_eq_of_lt small]

theorem takenFor_of_none {inode : UInt32} (nothing : readInode inverted inode.toNat = none)
    (junk : UInt64) : takenFor inverted junk inode = junk.toUInt32 := by
  rw [takenFor, nothing]
  rfl

/-- The inodes that a process is taken to have come from its sockets. -/
theorem mem_inodes_iff (shown : holder.ShownBy reads) {value : UInt32} :
    value ∈ getSocketInodeList inverted reads.fds ↔
      value ≠ 0 ∧ ∃ inode, .socket inode ∈ holder.fds ∧
        ∃ fd ∈ reads.fds, fd.link = (FdLink.socket inode).text ∧
          value = takenFor inverted fd.junk inode := by
  rw [mem_getSocketInodeList]
  constructor
  · rintro ⟨socket, fd, member, link, linked, rfl⟩
    refine ⟨socket, ?_⟩
    have inside : some link ∈ holder.fds.map FdLink.text := by
      rw [← shown.2, ← linked]
      exact List.mem_map_of_mem member
    obtain ⟨target, there, text⟩ := List.mem_map.mp inside
    cases target with
    | socket inode =>
        obtain rfl := Option.some.inj text
        refine ⟨inode, there, fd, member, linked, ?_⟩
        rw [parseSocketInode_socket, takenFor]
    | file name other =>
        obtain rfl := Option.some.inj text
        rw [parseSocketInode_file inverted fd.junk other] at socket
        exact absurd rfl socket
    | unreadable => cases text
  · rintro ⟨socket, inode, _, fd, member, link, rfl⟩
    refine ⟨socket, fd, member, _, link, ?_⟩
    rw [parseSocketInode_socket, takenFor]

/-- Each socket is read. -/
theorem read_of_socket (shown : holder.ShownBy reads) {inode : UInt32}
    (member : .socket inode ∈ holder.fds) :
    ∃ fd ∈ reads.fds, fd.link = (FdLink.socket inode).text := by
  have inside : (FdLink.socket inode).text ∈ reads.fds.map FdRead.link := by
    rw [shown.2]
    exact List.mem_map_of_mem member
  obtain ⟨fd, there, link⟩ := List.mem_map.mp inside
  exact ⟨fd, there, link⟩

theorem hasPort_iff {value : UInt32} (socket : value ≠ 0) :
    HasPort (parseNetTcp junk table.text) port value ↔ table.Listed value.toNat port :=
  lookup_parseNetTcp junk table (fun zero => socket (UInt32.toNat_inj.mp zero)) port

/-- A hit sets the entry, whatever is in the variables. -/
theorem writes_of_hits (shown : holder.ShownBy reads) (hits : holder.Hits table inverted port) :
    reads.Writes inverted (parseNetTcp junk table.text) port := by
  obtain ⟨inode, member, read, known, listed⟩ := hits
  obtain ⟨fd, there, link⟩ := read_of_socket shown member
  have value := toNat_takenFor known fd.junk
  have socket : takenFor inverted fd.junk inode ≠ 0 := by
    intro zero
    obtain ⟨_, _, _, _, nonzero, _⟩ := listed
    rw [← value, zero] at nonzero
    exact nonzero rfl
  refine ⟨takenFor inverted fd.junk inode,
    (mem_inodes_iff shown).mpr ⟨socket, inode, member, fd, there, link, rfl⟩,
    (hasPort_iff socket).mpr ?_⟩
  rw [value]
  exact listed

/-- A process that sets the entry of a port hits it, or what is in a variable does. -/
theorem hits_of_writes (shown : holder.ShownBy reads)
    (writes : reads.Writes inverted (parseNetTcp junk table.text) port) :
    holder.Hits table inverted port ∨
      (holder.Loose inverted ∧
        ∃ fd ∈ reads.fds, fd.junk ≠ 0 ∧ ∃ inode, table.Listed inode port) := by
  obtain ⟨value, member, has⟩ := writes
  obtain ⟨socket, inode, there, fd, inside, _, rfl⟩ := (mem_inodes_iff shown).mp member
  have listed := (hasPort_iff socket).mp has
  cases read : readInode inverted inode.toNat with
  | none =>
      refine Or.inr ⟨⟨inode, there, read⟩, fd, inside, ?_, _, listed⟩
      intro zero
      rw [takenFor_of_none read, zero] at socket
      exact socket rfl
  | some value =>
      rw [toNat_takenFor read] at listed
      exact Or.inl ⟨inode, there, value, read, listed⟩

/-- A process whose variables all hold the same value. -/
def Holder.readWith (holder : Holder) (junk : UInt64) : FdTable :=
  ⟨holder.pid, holder.fds.map fun fd => ⟨fd.text, junk⟩⟩

theorem shownBy_readWith (holder : Holder) (junk : UInt64) :
    holder.ShownBy (holder.readWith junk) := by
  refine ⟨rfl, ?_⟩
  rw [Holder.readWith, List.map_map]
  rfl

/-- With 0 in the variables, only a hit sets an entry. -/
theorem hits_of_writes_zero
    (writes : (holder.readWith 0).Writes inverted (parseNetTcp junk table.text) port) :
    holder.Hits table inverted port := by
  rcases hits_of_writes (shownBy_readWith holder 0) writes with hits | ⟨_, fd, member, other, _⟩
  · exact hits
  · obtain ⟨_, _, rfl⟩ := List.mem_map.mp member
    exact absurd rfl other

/-- Where nothing is read, the variable may hold any inode, so that of a socket with the port. -/
theorem writes_of_loose (loose : holder.Loose inverted) {inode : Nat}
    (listed : table.Listed inode port) :
    ∃ value, (holder.readWith value).Writes inverted (parseNetTcp junk table.text) port := by
  obtain ⟨target, member, nothing⟩ := loose
  obtain ⟨row, _, _, same, nonzero, _⟩ := id listed
  have small : inode < 2 ^ 32 := same ▸ row.inode.small
  have value : (takenFor inverted (UInt64.ofNat inode) target).toNat = inode := by
    rw [takenFor_of_none nothing, UInt64.toNat_toUInt32, UInt64.toNat_ofNat',
      Nat.mod_eq_of_lt (lt_trans small (by decide)), Nat.mod_eq_of_lt small]
  have socket : takenFor inverted (UInt64.ofNat inode) target ≠ 0 := by
    intro zero
    rw [zero] at value
    exact nonzero value.symm
  refine ⟨UInt64.ofNat inode, _, (mem_inodes_iff (shownBy_readWith holder _)).mpr ⟨socket, target,
    member, _, List.mem_map_of_mem member, rfl, rfl⟩, (hasPort_iff socket).mpr ?_⟩
  rw [value]
  exact listed

end Shown

/-! ### All processes -/

section Shows

variable {holders : List Holder} {reads : List FdTable}

/-- Every process is shown. -/
theorem Shows.reads_of_mem (shown : Shows reads holders) {holder : Holder}
    (member : holder ∈ holders) : ∃ table ∈ reads, holder.ShownBy table := by
  have inside := List.mem_map_of_mem (f := fun holder : Holder =>
    (holder.pid, holder.fds.map FdLink.text)) member
  rw [← shown] at inside
  obtain ⟨table, there, same⟩ := List.mem_map.mp inside
  exact ⟨table, there, Prod.mk.inj same⟩

/-- What is shown before and behind a process is before and behind it in the list. -/
theorem Shows.split {front back : List FdTable} {table : FdTable}
    (shown : Shows (front ++ table :: back) holders) :
    ∃ first holder later, holders = first ++ holder :: later ∧ holder.ShownBy table ∧
      Shows back later := by
  unfold Shows at shown
  rw [List.map_append, List.map_cons] at shown
  obtain ⟨first, rest, rfl, _, tail⟩ := List.map_eq_append_iff.mp shown.symm
  obtain ⟨holder, later, rfl, same, behind⟩ := List.map_eq_cons_iff.mp tail
  exact ⟨first, holder, later, rfl, Prod.mk.inj same.symm, behind.symm⟩

/-- The variables may all hold 0. -/
theorem shows_zero (holders : List Holder) : Shows (holders.map (Holder.readWith · 0)) holders := by
  unfold Shows
  rw [List.map_map]
  apply List.map_congr_left
  intro holder _
  exact Prod.ext (shownBy_readWith holder 0).1 (shownBy_readWith holder 0).2

/-- Or those of one process another value. -/
theorem shows_between (front back : List Holder) (holder : Holder) (junk : UInt64) :
    Shows (front.map (Holder.readWith · 0) ++ holder.readWith junk ::
      back.map (Holder.readWith · 0)) (front ++ holder :: back) := by
  unfold Shows
  obtain ⟨pid, links⟩ := shownBy_readWith holder junk
  rw [List.map_append, List.map_cons, List.map_append, List.map_cons, shows_zero front,
    shows_zero back, pid, links]

end Shows

/-- The owners of all ports are found, whatever is in the variables, exactly if for each port
some process hits it when it has an owner, and no process may set it last that is no owner. -/
theorem portToPidMap_found_iff (inverted : InvertedRange) (holders : List Holder)
    (table : TcpTable) :
    (∀ junk reads, Shows reads holders →
      PortsFound holders table (portToPidMap inverted (parseNetTcp junk table.text) reads)) ↔
        ∀ port, FoundAt holders table inverted port := by
  constructor
  · intro all port
    constructor
    · rintro ⟨pid, owner⟩
      obtain ⟨other, found⟩ :=
        (all (fun _ => default) _ (shows_zero holders)).mapped port pid owner
      obtain ⟨front, reads, back, whole, writes, _⟩ := (lookup_portToPidMap _ other).mp found
      have member : reads ∈ holders.map (Holder.readWith · 0) := by simp [whole]
      obtain ⟨holder, there, rfl⟩ := List.mem_map.mp member
      exact ⟨holder, there, hits_of_writes_zero writes⟩
    · intro front holder back same sets silent
      obtain ⟨value, writes⟩ : ∃ value, (holder.readWith value).Writes inverted
          (parseNetTcp (fun _ => default) table.text) port := by
        rcases sets with hits | ⟨loose, inode, listed⟩
        · exact ⟨0, writes_of_hits (shownBy_readWith holder 0) hits⟩
        · exact writes_of_loose loose listed
      have shown := shows_between front back holder value
      rw [← same] at shown
      refine (all _ _ shown).owned port _ ((lookup_portToPidMap _ _).mpr
        ⟨_, _, _, rfl, writes, ?_, rfl⟩)
      intro later member
      obtain ⟨other, there, rfl⟩ := List.mem_map.mp member
      exact fun again => silent other there (hits_of_writes_zero again)
  · intro found junk reads shown
    constructor
    · intro port pid owner
      obtain ⟨holder, member, hits⟩ := (found port).hit ⟨pid, owner⟩
      obtain ⟨table, there, byTable⟩ := shown.reads_of_mem member
      exact mapped_of_writes there (writes_of_hits byTable hits)
    · intro port pid entry
      obtain ⟨front, table, back, rfl, writes, silent, rfl⟩ :=
        (lookup_portToPidMap reads pid).mp entry
      obtain ⟨first, holder, later, same, byTable, behind⟩ := shown.split
      rw [byTable.1]
      apply (found port).last first holder later same
      · rcases hits_of_writes byTable writes with hits | ⟨loose, _, _, _, listed⟩
        · exact Or.inl hits
        · exact Or.inr ⟨loose, listed⟩
      · intro other member hits
        obtain ⟨reads, there, shownBy⟩ := behind.reads_of_mem member
        exact silent reads there (writes_of_hits shownBy hits)

/-- The socket 12345678 on port 80. -/
def row80 : TcpRow where
  indent := 3
  label := ⟨ascii "0:", by decide, by decide +kernel⟩
  localIp := ⟨ascii "0100000A", by decide, by decide +kernel, by decide⟩
  localPort := ⟨ascii "0050", by decide, by decide +kernel, by decide⟩
  remIp := ⟨ascii "00000000", by decide, by decide +kernel, by decide⟩
  remPort := ⟨ascii "0000", by decide, by decide +kernel, by decide⟩
  columns := List.replicate 6 ⟨⟨ascii "00", by decide, by decide +kernel⟩, 0⟩
  six := rfl
  inodeGap := 0
  inode := ⟨ascii "12345678", by decide, by decide +kernel, by decide⟩
  rest := ascii " 1"
  behind := Or.inr rfl
  single := by decide

/-- The process 7 has the socket, and its port is not found: the range is empty, so that it does
not matter how an inverted one is read. -/
theorem eight_digits_not_found :
    ¬ ∃ inverted, ∀ holders table junk reads, Shows reads holders →
      PortsFound holders table (portToPidMap inverted (parseNetTcp junk table.text) reads) := by
  rintro ⟨inverted, found⟩
  let table : TcpTable := ⟨ascii "sl", by decide, [row80], by simp⟩
  let holder : Holder := ⟨7, [.socket 12345678]⟩
  have owner : Owner [holder] table 80 7 :=
    ⟨holder, by simp, rfl, 12345678, by simp [holder], row80, by simp [table], by decide, by decide, by decide, by decide⟩
  obtain ⟨pid, entry⟩ :=
    (found [holder] table (fun _ => default) _ (shows_zero [holder])).mapped 80 7 owner
  have nothing : getSocketInodeList inverted (holder.readWith 0).fds = [] := by
    cases inverted with
    | empty => decide +kernel
    | unbounded => decide +kernel
  rw [List.map_singleton, portToPidMap, List.foldl_cons, List.foldl_nil, addPorts, nothing] at entry
  cases entry

end RemoteMonitoring
