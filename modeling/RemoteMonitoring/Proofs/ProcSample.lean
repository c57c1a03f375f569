/-
Module: RemoteMonitoring.Proofs.ProcSample
Purpose: `update_table` on the files does what it does on the values they show: what earlier files
  have left in the buffer makes no difference as long as a space of /proc/stat is left in it.
Trusted boundary: none
Main exports: Roomy, readStatCpu_shows, readPid_shows, updatePidsFrom_shows,
  updateTableFrom_shows, samples_refine
-/
import RemoteMonitoring.System.ProcSample
import RemoteMonitoring.System.Sampling
import RemoteMonitoring.Proofs.CpuTotals
import RemoteMonitoring.Proofs.ProcStat

namespace RemoteMonitoring

open ByteText
open PointerScan

/-! ### The buffer -/

/-- A space stands at this place of the buffer, which the files of the processes do not reach. -/
structure Roomy (room : Nat) (buffer : Bytes) : Prop where
  length : buffer.length = bufferSize
  space : buffer[room]? = some space
  inside : room < bufferSize - 1

theorem length_fillBuffer {content buffer : Bytes} (fits : content.length < bufferSize)
    (length : buffer.length = bufferSize) : (fillBuffer content buffer).length = bufferSize := by
  unfold fillBuffer
  split
  · exact length
  · simp only [List.length_append, List.length_cons, List.length_drop, length]
    omega

/-- Reading a file leaves the buffer as long as it is. -/
theorem length_refill (file : Option Bytes) {buffer : Bytes} (length : buffer.length = bufferSize) :
    (refill file buffer).length = bufferSize := by
  cases file with
  | none => exact length
  | some content =>
      apply length_fillBuffer _ length
      rw [List.length_take, bufferSize]
      omega

/-- Behind the terminator the buffer is as it was. -/
theorem getElem?_fillBuffer {content : Bytes} {i : Nat} (behind : content.length < i)
    (buffer : Bytes) : (fillBuffer content buffer)[i]? = buffer[i]? := by
  unfold fillBuffer
  split
  · rfl
  · obtain ⟨more, rfl⟩ := Nat.exists_eq_add_of_lt behind
    rw [List.getElem?_append_right (by omega), Nat.add_assoc, Nat.add_sub_cancel_left,
      List.getElem?_cons_succ, List.getElem?_drop]
    congr 1
    omega

theorem readFile_of_below {room : Nat} (inside : room < bufferSize - 1) {content : Bytes}
    (short : content.length < room) : readFile (some content) = some content := by
  rw [readFile, Option.map_some, List.take_of_length_le (by omega)]

/-- A short file ends in front of the space. -/
theorem Roomy.refill {room : Nat} {buffer : Bytes} (roomy : Roomy room buffer)
    {file : Option Bytes} (short : Below room file) : Roomy room (refill file buffer) := by
  refine ⟨length_refill file roomy.length, ?_, roomy.inside⟩
  cases file with
  | none => exact roomy.space
  | some content =>
      have below := short content rfl
      simp only [RemoteMonitoring.refill, readFile_of_below roomy.inside below]
      rw [getElem?_fillBuffer below, roomy.space]

/-! ### /proc/stat -/

/-- The buffer has the space of /proc/stat. -/
theorem roomy_of_cpuShows {room : Nat} {content : Bytes} {cpuStat : CpuStat}
    (shows : CpuShows room content cpuStat) {buffer : Bytes}
    (length : buffer.length = bufferSize) : Roomy room (refill (some content) buffer) := by
  refine ⟨length_refill _ length, ?_, shows.inside⟩
  have taken : (content.take (bufferSize - 1))[room]? = some space := by
    rw [List.getElem?_take_of_lt shows.inside, shows.space]
  obtain ⟨reaches, _⟩ := List.getElem?_eq_some_iff.mp taken
  have nonempty : content.take (bufferSize - 1) ≠ [] :=
    List.ne_nil_of_length_pos (Nat.zero_lt_of_lt reaches)
  simp only [refill, readFile, Option.map_some, fillBuffer_ne_nil nonempty]
  rw [List.getElem?_append_left reaches, taken]

/-- With the first line as it is shown, /proc/stat is read right whatever the buffer held before:
the line fits into it, and the scan ends behind the last counter of the line. -/
theorem readStatCpu_shows {room : Nat} {content : Bytes} {cpuStat : CpuStat}
    (shows : CpuShows room content cpuStat) (junk : Nat → UInt64) (buffer : Bytes) :
    readStatCpu junk (some content) buffer = .ok cpuStat := by
  obtain ⟨line, rest, rfl, fits, small, usage, idle⟩ := shows.text
  have isCounter : line.system ∈ line.counters := by simp [CpuLine.counters]
  have sum := addColumns_sum junk (reads_lineTokens line) small (le_refl 2)
    (by simp [CpuLine.counters]) ⟨0, 0⟩
  have system := congrArg UInt64.toNat (cpuIdle_lineTokens junk line)
  rw [toNat_fromChars (leadingNumeral_counter line.system) (small _ isCounter)] at system
  rw [readStatCpu_fits fits]
  obtain ⟨cpuUsage, cpuIdle⟩ := cpuStat
  cases read : addColumns junk 2 ⟨0, 0⟩ (lineTokens line) with
  | mk readUsage readIdle =>
      rw [read] at sum system
      have sameUsage : readUsage = cpuUsage := by
        apply UInt64.toNat_inj.mp
        simpa [usage] using sum
      have sameIdle : readIdle = cpuIdle := UInt64.toNat_inj.mp (system.trans idle.symm)
      rw [sameUsage, sameIdle]

/-! ### The files of a process -/

theorem mem_drop_of_roomy {room : Nat} {buffer : Bytes} (roomy : Roomy room buffer) {count : Nat}
    (low : count ≤ room) : space ∈ buffer.drop count := by
  have stands : (buffer.drop count)[room - count]? = some space := by
    rw [List.getElem?_drop, Nat.add_sub_cancel' low, roomy.space]
  exact List.mem_of_getElem? stands

/-- The stat file is read right, since the space that ends its last field is still there. -/
theorem readPidStat_shows {room : Nat} {buffer : Bytes} (roomy : Roomy room buffer)
    {pageSize : UInt64} {pid : UInt32} {file : Option Bytes} {cpuMemStat : CpuMemStat}
    (shows : StatShows pageSize pid file (some cpuMemStat)) (short : Below room file) :
    readPidStatCpuMem pageSize file buffer = .ok cpuMemStat := by
  cases shows with
  | @text name fields utime rss columns closes visible =>
      have below := short _ rfl
      have input : StatInput pid name fields utime rss buffer :=
        ⟨columns, lt_trans below (lt_of_lt_of_le roomy.inside (Nat.sub_le _ _)), roomy.length⟩
      exact (readsStat_of_closesLast closes input pageSize).mpr
        ⟨mem_drop_of_roomy roomy below, visible⟩

theorem readPidStat_unreadable {pageSize : UInt64} {pid : UInt32} {file : Option Bytes}
    (shows : StatShows pageSize pid file none) (buffer : Bytes) :
    readPidStatCpuMem pageSize file buffer = .error .threw := by
  cases shows
  rfl

theorem skipLine_append {line : Bytes} (single : newline ∉ line) (rest : Bytes) :
    skipLine (line ++ newline :: rest) = .ok ((), rest) := by
  simp [skipLine, scanTo_append single, advance]

/-- The number of a line is behind its label. -/
theorem scanNumber_append {label : Bytes} (noSpace : space ∉ label) (junk value : UInt64)
    (rest : Bytes) :
    scanNumber junk (label ++ space :: (decimal value.toNat ++ newline :: rest)) =
      .ok (value, rest) := by
  have single : newline ∉ decimal value.toNat := not_mem_decimal rfl
  simp [scanNumber, scanTo_append noSpace, advance, scanTo_append single]

/-- The four lines are passed over, and then the two counters are read. -/
theorem parsePidIo_ioText {front : List Bytes} (four : front.length = 4)
    (single : ∀ line ∈ front, newline ∉ line) (junk : Nat → UInt64)
    (diskRead diskWrite : UInt64) (rest : Bytes) :
    parsePidIo junk (ioText front diskRead diskWrite rest) =
      .ok ⟨some diskRead, some diskWrite⟩ := by
  match front, four with
  | [first, second, third, fourth], _ =>
      have lines : newline ∉ first ∧ newline ∉ second ∧ newline ∉ third ∧ newline ∉ fourth := by
        simpa using single
      have readLabel : ascii "read_bytes: " = ascii "read_bytes:" ++ [space] := by decide
      have writeLabel : ascii "write_bytes: " = ascii "write_bytes:" ++ [space] := by decide
      have readSpace : space ∉ ascii "read_bytes:" := by decide
      have writeSpace : space ∉ ascii "write_bytes:" := by decide
      simp only [parsePidIo, ioText, readLabel, writeLabel, List.flatMap_cons, List.flatMap_nil,
        List.append_assoc, List.cons_append, List.nil_append, skipLine_append lines.1,
        skipLine_append lines.2.1, skipLine_append lines.2.2.1, skipLine_append lines.2.2.2, ok_bind,
        scanNumber_append readSpace, scanNumber_append writeSpace, pure_eq]

theorem ioText_append (front : List Bytes) (diskRead diskWrite : UInt64) (rest more : Bytes) :
    ioText front diskRead diskWrite rest ++ more =
      ioText front diskRead diskWrite (rest ++ more) := by
  simp [ioText]

/-- The io file is read right from any buffer. -/
theorem readPidIo_shows {room : Nat} (inside : room < bufferSize - 1) {file : Option Bytes}
    {diskStat : DiskStat} (shows : IoShows file diskStat) (short : Below room file)
    (junk : Nat → UInt64) (buffer : Bytes) : readPidIo junk file buffer = .ok diskStat := by
  cases shows with
  | unreadable => rfl
  | @text front four single diskRead diskWrite rest =>
      have nonempty : ioText front diskRead diskWrite rest ≠ [] := by simp [ioText]
      simp only [readPidIo, readFile_of_below inside (short _ rfl), fillBuffer_ne_nil nonempty]
      rw [ioText_append, parsePidIo_ioText four single]

/-! ### One round -/

/-- The files that are read for the metadata are short, so the space behind them stays. -/
theorem Roomy.readMetadata {room : Nat} {buffer : Bytes} (roomy : Roomy room buffer)
    {pageSize : UInt64} {proc : ProcPid} {reads : PidReads}
    (shows : proc.Shows pageSize room reads) (listed : List Bytes) :
    Roomy room (proc.readMetadata listed buffer).2 := by
  have cmdline := roomy.refill shows.short.1
  unfold ProcPid.readMetadata
  split
  · split
    · exact roomy
    · exact cmdline.refill shows.short.2.1
    · exact cmdline
  · exact roomy

/-- The arguments after a refreshed listing are those with which the round goes on. -/
theorem refreshListing_args {pageSize : UInt64} {room : Nat} {proc : ProcPid} {reads : PidReads}
    (shows : proc.Shows pageSize room reads) {table refreshed : ProcessTable}
    (refresh : table.refreshListing reads = some refreshed) (buffer : Bytes) :
    (refreshed.listTable.valueAt reads.pid).args =
      (proc.readMetadata (table.listTable.valueAt proc.pid).args buffer).1 := by
  rw [← shows.pid]
  unfold ProcessTable.refreshListing at refresh
  rw [if_neg (by simp [shows.memory])] at refresh
  unfold ProcPid.readMetadata parseCmdline
  split at refresh
  · rename_i unlisted
    rw [if_pos unlisted]
    cases read : readFile reads.cmdline with
    | none => simp [readProcessMetadata, read] at refresh
    | some content =>
        rw [shows.cmdline] at read
        rw [read]
        cases args : splitArgs [] content with
        | nil =>
            cases name : readFile reads.comm with
            | none => simp [readProcessMetadata, shows.cmdline, read, args, name] at refresh
            | some processName =>
                simp [readProcessMetadata, shows.cmdline, read, args, name] at refresh
                simp [← refresh, args, UnorderedMap.valueAt_assign]
        | cons command others =>
            simp [readProcessMetadata, shows.cmdline, read, args] at refresh
            simp [← refresh, args, UnorderedMap.valueAt_assign]
  · rename_i listed
    rw [if_neg listed]
    cases refresh
    rfl

/-- A round without arguments ends before anything depends on what the parsers return. -/
theorem updatePid_unlisted {cpuShare : UInt64 → CpuStat → UInt32} {cpuDelta : CpuStat}
    {pidNetworkUsage : UnorderedMap UInt32 NetworkStat} {reads : PidReads} {table : ProcessTable}
    (unlisted : ∀ refreshed,
      ProcessTable.refreshListing reads { table with listTable := table.listTable.touch reads.pid } =
        some refreshed → (refreshed.listTable.valueAt reads.pid).args.isEmpty = true)
    (cpuMemStat : Option CpuMemStat) (diskStat : DiskStat) :
    table.updatePid cpuShare cpuDelta pidNetworkUsage
        { reads with cpuMemStat := cpuMemStat, diskStat := diskStat } =
      table.updatePid cpuShare cpuDelta pidNetworkUsage reads := by
  have same : ∀ start : ProcessTable, start.refreshListing
      { reads with cpuMemStat := cpuMemStat, diskStat := diskStat } = start.refreshListing reads :=
    fun _ => rfl
  simp only [ProcessTable.updatePid, same]
  cases refresh : ProcessTable.refreshListing reads
      { table with listTable := table.listTable.touch reads.pid } with
  | none => rfl
  | some refreshed => simp only [unlisted refreshed refresh, if_true]

/-- When the stat file cannot be read nothing depends on the io file. -/
theorem updatePid_unreadable {cpuShare : UInt64 → CpuStat → UInt32} {cpuDelta : CpuStat}
    {pidNetworkUsage : UnorderedMap UInt32 NetworkStat} {reads : PidReads} {table : ProcessTable}
    (missing : reads.cpuMemStat = none) (diskStat : DiskStat) :
    table.updatePid cpuShare cpuDelta pidNetworkUsage { reads with diskStat := diskStat } =
      table.updatePid cpuShare cpuDelta pidNetworkUsage reads := by
  have same : ∀ start : ProcessTable,
      start.refreshListing { reads with diskStat := diskStat } = start.refreshListing reads :=
    fun _ => rfl
  have rows : ∀ start : ProcessTable,
      start.updateRows cpuShare cpuDelta pidNetworkUsage { reads with diskStat := diskStat } =
        start.updateRows cpuShare cpuDelta pidNetworkUsage reads := by
    intro start
    simp only [ProcessTable.updateRows, missing]
  unfold ProcessTable.updatePid
  simp only [same, rows]

/-- The two files that are parsed are all that the reads can differ in. -/
theorem reads_eq {pageSize : UInt64} {room : Nat} {proc : ProcPid} {reads : PidReads}
    (shows : proc.Shows pageSize room reads) (cpuMemStat : Option CpuMemStat)
    (diskStat : DiskStat) :
    proc.reads cpuMemStat diskStat =
      { reads with cpuMemStat := cpuMemStat, diskStat := diskStat } := by
  simp [ProcPid.reads, shows.pid, shows.cmdline, shows.comm, shows.memory]

/-- A round reads what makes it do the same as what its files show. -/
theorem readPid_shows (cpuShare : UInt64 → CpuStat → UInt32) (cpuDelta : CpuStat)
    (pidNetworkUsage : UnorderedMap UInt32 NetworkStat) {pageSize : UInt64} {room : Nat}
    {proc : ProcPid} {reads : PidReads} (shows : proc.Shows pageSize room reads) {buffer : Bytes}
    (roomy : Roomy room buffer) (table : ProcessTable) :
    ∃ found after,
      proc.readPid pageSize (table.listTable.valueAt proc.pid).args buffer = .ok (found, after) ∧
        Roomy room after ∧ found.pid = reads.pid ∧
        table.updatePid cpuShare cpuDelta pidNetworkUsage found =
          table.updatePid cpuShare cpuDelta pidNetworkUsage reads := by
  have room' := roomy.readMetadata shows (table.listTable.valueAt proc.pid).args
  have args : ∀ refreshed,
      ProcessTable.refreshListing reads { table with listTable := table.listTable.touch reads.pid } =
          some refreshed → (refreshed.listTable.valueAt reads.pid).args =
        (proc.readMetadata (table.listTable.valueAt proc.pid).args buffer).1 := by
    intro refreshed refresh
    have touched := refreshListing_args shows refresh buffer
    rwa [UnorderedMap.valueAt_touch] at touched
  cases metadata : proc.readMetadata (table.listTable.valueAt proc.pid).args buffer with
  | mk goesOn between =>
      rw [metadata] at room' args
      simp only [ProcPid.readPid, metadata]
      split
      · rename_i none
        refine ⟨_, _, rfl, room', shows.pid.symm, ?_⟩
        rw [reads_eq shows]
        apply updatePid_unlisted
        intro refreshed refresh
        rw [args refreshed refresh, none]
      · cases parsed : reads.cpuMemStat with
        | none =>
            have nothing : StatShows pageSize proc.pid proc.stat none := parsed ▸ shows.stat
            rw [readPidStat_unreadable nothing]
            refine ⟨_, _, rfl, room'.refill shows.short.2.2.1, shows.pid.symm, ?_⟩
            rw [reads_eq shows, ← parsed]
            exact updatePid_unreadable parsed _
        | some cpuMemStat =>
            have readable : StatShows pageSize proc.pid proc.stat (some cpuMemStat) :=
              parsed ▸ shows.stat
            have filled := room'.refill shows.short.2.2.1
            rw [readPidStat_shows room' readable shows.short.2.2.1]
            simp only [readPidIo_shows roomy.inside shows.io shows.short.2.2.2]
            refine ⟨_, _, rfl, filled.refill shows.short.2.2.2, shows.pid.symm, ?_⟩
            rw [reads_eq shows, ← parsed]

/-! ### A call, and a run -/

/-- The loop over the processes: every file is shorter than the room that is left in front of the
space, so that each parser finds an end, and leaves the space for the next. -/
theorem updatePidsFrom_shows (cpuShare : UInt64 → CpuStat → UInt32) (cpuDelta : CpuStat)
    (pidNetworkUsage : UnorderedMap UInt32 NetworkStat) {pageSize : UInt64} {room : Nat}
    {procs : List ProcPid} {pids : List PidReads}
    (shows : List.Forall₂ (ProcPid.Shows pageSize room) procs pids)
    (state : UnorderedMap UInt32 Bool × ProcessTable) {buffer : Bytes}
    (roomy : Roomy room buffer) :
    ∃ after, ProcessTable.updatePidsFrom cpuShare pageSize cpuDelta pidNetworkUsage procs state
        buffer = .ok (ProcessTable.updatePids cpuShare cpuDelta pidNetworkUsage pids state, after) ∧
      Roomy room after := by
  induction shows generalizing state buffer with
  | nil => exact ⟨buffer, rfl, roomy⟩
  | cons first _ ih =>
      obtain ⟨found, between, read, room', pid, same⟩ :=
        readPid_shows cpuShare cpuDelta pidNetworkUsage first roomy state.2
      simp only [ProcessTable.updatePidsFrom, read, ProcessTable.updatePids, same, pid]
      exact ih _ room'

/-- One call; it starts with /proc/stat, which brings the space with it. -/
theorem updateTableFrom_shows (cpuShare : UInt64 → CpuStat → UInt32) {pageSize : UInt64}
    {room : Nat} {snapshot : ProcSnapshot} {call : UpdateCall}
    (shows : snapshot.Shows pageSize room call) (table : ProcessTable) {buffer : Bytes}
    (length : buffer.length = bufferSize) :
    ∃ after, table.updateTableFrom cpuShare pageSize snapshot buffer =
        .ok (table.updateTable cpuShare call, after) ∧ after.length = bufferSize := by
  obtain ⟨file, junk, procs, traffic, visits⟩ := snapshot
  obtain ⟨statCpu, pids, pidNetworkUsage, order⟩ := call
  obtain ⟨stat, listed, rfl, rfl⟩ := shows
  cases stat with
  | none => exact ⟨buffer, rfl, length⟩
  | @some content nowCpu stat =>
      have roomy := roomy_of_cpuShows stat length
      simp only [ProcessTable.updateTableFrom, readStatCpu_shows stat, ProcessTable.updateTable]
      cases listed with
      | none => exact ⟨_, rfl, roomy.length⟩
      | some listed =>
          obtain ⟨after, updated, room'⟩ := updatePidsFrom_shows cpuShare
            (ProcessTable.cpuDelta nowCpu table.lastCpu) pidNetworkUsage listed
            (∅, { table with lastCpu := nowCpu }) roomy
          simp only [updated]
          exact ⟨after, rfl, room'.length⟩

/-- Calls that read their files through the buffer leave the tables that calls leave which are
given the values. -/
theorem samples_refine (cpuShare : UInt64 → CpuStat → UInt32) {pageSize : UInt64}
    {snapshots : List ProcSnapshot} {calls : List UpdateCall}
    (files : AllShow pageSize snapshots calls) {buffer : Bytes}
    (length : buffer.length = bufferSize) :
    ∃ after, ProcessTable.afterSnapshots cpuShare pageSize snapshots (.empty, buffer) =
      .ok (ProcessTable.afterCalls cpuShare calls, after) := by
  unfold ProcessTable.afterSnapshots ProcessTable.afterCalls
  generalize ProcessTable.empty = table
  induction files generalizing table buffer with
  | nil => exact ⟨buffer, rfl⟩
  | cons first _ ih =>
      obtain ⟨room, shows⟩ := first
      obtain ⟨between, updated, length'⟩ := updateTableFrom_shows cpuShare shows table length
      simp only [List.foldlM_cons, updated, List.foldl_cons]
      exact ih length' _

/-- A first line with the counters 1 to 9 and 0, and a space far behind it. -/
def shellCpuLine : CpuLine :=
  ⟨oneDigit 49 rfl, oneDigit 50 rfl, oneDigit 51 rfl, oneDigit 52 rfl, oneDigit 53 rfl,
    oneDigit 54 rfl, oneDigit 55 rfl, oneDigit 56 rfl, oneDigit 57 rfl, oneDigit 48 rfl⟩

def shellProc : ProcPid where
  pid := 1
  cmdline := some (ascii "sh" ++ [0])
  comm := some (ascii "sh")
  stat := some (statText 1 (ascii "sh") (columnsWith 50))
  io := some (ioText (List.replicate 4 (ascii "rchar: 1")) 5 6 [])
  junk := fun _ => 0

def shellReads : PidReads where
  pid := 1
  cmdline := some (ascii "sh" ++ [0])
  comm := some (ascii "sh")
  cpuMemStat := some ⟨2, 4096⟩
  diskStat := ⟨some 5, some 6⟩
  outOfMemory := none

def shellSnapshot : ProcSnapshot where
  stat := some (cpuText shellCpuLine (List.replicate 300 120 ++ [space]))
  junk := fun _ => 0
  pids := some [shellProc]
  pidNetworkUsage := ∅
  order := .stored

def shellCall : UpdateCall where
  statCpu := some ⟨45, 3⟩
  pids := some [shellReads]
  pidNetworkUsage := ∅
  order := .stored

theorem closes_sh : Closes (leftPara :: ascii "sh" ++ [rightPara]) := by
  have text : leftPara :: ascii "sh" ++ [rightPara] = [40, 115, 104, 41] := by decide
  rw [text, ← closesFrom_zero]
  simp [closesFrom_cons, countPara, leftPara, rightPara]

theorem shellProc_shows : shellProc.Shows 4096 329 shellReads where
  pid := rfl
  cmdline := rfl
  comm := rfl
  stat := @StatShows.text 4096 1 (ascii "sh") (columnsWith 50) 2 1 (statFields_columnsWith rfl rfl)
    (Or.inl closes_sh) (by decide +kernel)
  io := .text rfl (by decide +kernel) 5 6 []
  memory := rfl
  short := by
    refine ⟨?_, ?_, ?_, ?_⟩ <;>
      · rintro content ⟨⟩
        decide +kernel

theorem shellSnapshot_shows : shellSnapshot.Shows 4096 329 shellCall where
  stat := .some
    { text := ⟨shellCpuLine, _, rfl, by decide +kernel, by decide +kernel, by decide +kernel,
        by decide +kernel⟩
      space := by decide +kernel
      inside := by decide }
  pids := .some (.cons shellProc_shows .nil)
  pidNetworkUsage := rfl
  order := rfl

theorem samples_refine_sample :
    ∃ after, ProcessTable.afterSnapshots (fun _ _ => 0) 4096 [shellSnapshot, shellSnapshot]
        (.empty, List.replicate bufferSize 0) =
      .ok (ProcessTable.afterCalls (fun _ _ => 0) [shellCall, shellCall], after) :=
  samples_refine (fun _ _ => 0) (.cons ⟨329, shellSnapshot_shows⟩
    (.cons ⟨329, shellSnapshot_shows⟩ .nil)) List.length_replicate

end RemoteMonitoring
