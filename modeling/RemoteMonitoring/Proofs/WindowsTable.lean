/-
Module: RemoteMonitoring.Proofs.WindowsTable
Purpose: On the platform with events the three tables agree in every state, the traffic of a
  process is shown, dropped or still there, and its disk usage is bounded by its counters.
Trusted boundary: none
Main exports: rowOf_updatePids, updateTable_opened, windows_tables_agree, traffic_conserved,
  disk_charged
-/
import RemoteMonitoring.Proofs.ProcessRow
import RemoteMonitoring.Proofs.Registry
import RemoteMonitoring.Proofs.Traffic
import RemoteMonitoring.System.WindowsTable

namespace RemoteMonitoring

open ByteText
open ProcessTable (rowOf)

namespace WindowsTable

/-! ### The tables -/

section Rounds

variable (cpuShare : UInt64 → UInt64 → UInt32) (systemCpuDelta : UInt64)
  (pidNetworkUsage : UnorderedMap UInt32 NetworkStat)

/-- A round gives its pid a row in every table, whether or not the process was opened. -/
theorem updatePid_keys (pid : UInt32) (hProcess : Option WindowsReads) (table : ProcessTable) :
    ProcessTable.RoundKeys pid table
        (.completed, updatePid cpuShare systemCpuDelta pidNetworkUsage pid hProcess table) ∧
      pid ∈ (updatePid cpuShare systemCpuDelta pidNetworkUsage pid hProcess table).listTable := by
  have touched : ProcessTable.GrowsBy pid table
      { table with
        listTable := table.listTable.touch pid
        statTable := table.statTable.touch pid
        lastStatTable := table.lastStatTable.touch pid } := ⟨.touch _, .touch _, .touch _⟩
  cases hProcess with
  | none => exact ⟨⟨touched, fun _ => by simp [updatePid]⟩, by simp [updatePid]⟩
  | some reads =>
      have stored : ProcessTable.GrowsBy pid table
          (updatePid cpuShare systemCpuDelta pidNetworkUsage pid (some reads) table) :=
        touched.trans ⟨.assign _ _, .assign _ _, .assign _ _⟩
      exact ⟨⟨stored, fun _ => by simp [updatePid, storeReads]⟩, by simp [updatePid, storeReads]⟩

/-- The loop keeps the tables consistent. -/
theorem updatePids_consistent (listPids : List (UInt32 × Option WindowsReads))
    {seen : UnorderedMap UInt32 Bool} {table : ProcessTable}
    (before : ProcessTable.Consistent seen table) :
    let after := updatePids cpuShare systemCpuDelta pidNetworkUsage listPids (seen, table)
    ProcessTable.Consistent after.1 after.2 := by
  induction listPids generalizing seen table with
  | nil => exact before
  | cons listed later ih =>
      obtain ⟨pid, hProcess⟩ := listed
      have keys := updatePid_keys cpuShare systemCpuDelta pidNetworkUsage pid hProcess table
      exact ih (before.round keys.1 keys.2)

/-- All listed pids are seen. -/
theorem updatePids_seen (listPids : List (UInt32 × Option WindowsReads))
    (seen : UnorderedMap UInt32 Bool) (table : ProcessTable) (pid : UInt32) :
    (updatePids cpuShare systemCpuDelta pidNetworkUsage listPids (seen, table)).1.valueAt pid =
        true ↔ seen.valueAt pid = true ∨ pid ∈ listPids.map Prod.fst := by
  induction listPids generalizing seen table with
  | nil => simp [updatePids]
  | cons listed later ih =>
      obtain ⟨first, hProcess⟩ := listed
      rw [updatePids, ih, UnorderedMap.valueAt_assign, List.map_cons, List.mem_cons]
      by_cases same : pid = first
      · simp [same]
      · simp [same]

end Rounds

variable (cpuShare : UInt64 → UInt64 → UInt32) (inetPton : Bytes → Option UInt32)

/-- A call is the loop over the pids, with some share of the CPU time, and the removal of what it
has not seen. -/
theorem exists_updateTable (call : WindowsCall) (windows : WindowsTable) :
    ∃ systemCpuDelta,
      let after := updatePids cpuShare systemCpuDelta windows.pidNetworkStatMap call.listPids
        (∅, windows.table)
      (windows.updateTable cpuShare call).table =
        after.2.eraseUnseen after.1 (call.order.visit after.2.listTable.entries) :=
  ⟨_, rfl⟩

/-- So after a call there are rows for what it lists. -/
theorem updateTable_keys (call : WindowsCall) {windows : WindowsTable} {pids : List UInt32}
    (keys : windows.table.KeysAre pids) :
    (windows.updateTable cpuShare call).table.KeysAre (call.listPids.map Prod.fst) := by
  intro pid
  obtain ⟨systemCpuDelta, whole⟩ := exists_updateTable cpuShare call windows
  have loop := updatePids_consistent cpuShare systemCpuDelta windows.pidNetworkStatMap
    call.listPids (keys.consistent windows.table.lastCpu)
  have seen := updatePids_seen cpuShare systemCpuDelta windows.pidNetworkStatMap call.listPids ∅
    windows.table pid
  have erased := ProcessTable.eraseUnseen_visit call.order loop pid
  rw [whole]
  simpa [seen] using erased

theorem run_append_singleton (steps : List WindowsStep) (last : WindowsStep)
    (windows : WindowsTable) :
    run cpuShare inetPton (steps ++ [last]) windows =
      step cpuShare inetPton (run cpuShare inetPton steps windows) last := by
  simp [run]

/-- So it is after any events and calls. -/
theorem run_keys (steps : List WindowsStep) :
    (run cpuShare inetPton steps empty).table.KeysAre (lastListed steps) := by
  induction steps using List.reverseRecOn with
  | nil => exact ProcessTable.empty_keys
  | append_singleton steps last ih =>
      rw [run_append_singleton, lastListed, List.foldl_append]
      cases last with
      | event event => exact ih
      | update call => exact updateTable_keys cpuShare call ih

/-- In every state the three tables have rows for the pids that the last call has listed, whatever
could be read of them, and the listings find the rows they look up. -/
theorem windows_tables_agree (steps : List WindowsStep) :
    let table := (run cpuShare inetPton steps empty).table
    table.KeysAre (lastListed steps) ∧ ∀ order,
      (∀ partialSort type limit, (table.getSorted partialSort order type limit).isSome) ∧
        (table.getMapProgramNameResource order).isSome := by
  have keys := run_keys cpuShare inetPton steps
  refine ⟨keys, fun order => ⟨?_, keys.getMapProgramNameResource_isSome order⟩⟩
  intro partialSort type limit
  exact keys.getSorted_isSome partialSort order type limit

/-! ### The row of a process -/

section Rows

variable (systemCpuDelta : UInt64) (pidNetworkUsage : UnorderedMap UInt32 NetworkStat)

/-- What a call makes of the rows before it for a process that it can open. -/
structure RowAfter (pid : UInt32) (reads : WindowsReads) (before after : ProcessTable) :
    Prop where
  networkUsage : (after.statTable.valueAt pid).networkUsage = pidNetworkUsage.valueAt pid
  diskUsage : ∀ direction, (after.statTable.valueAt pid).diskUsage.counter direction =
    subtractNetwork
      (ProcessTable.delta (reads.diskStat.counter direction)
        ((before.lastStatTable.valueAt pid).diskStat.counter direction))
      ((pidNetworkUsage.valueAt pid).reading direction)
  lastDisk : (after.lastStatTable.valueAt pid).diskStat = reads.diskStat

/-- What a round does to a row is about this row only. -/
theorem RowAfter.congr {pid : UInt32} {reads : WindowsReads}
    {before after otherBefore otherAfter : ProcessTable}
    (row : RowAfter pidNetworkUsage pid reads before after)
    (sameBefore : otherBefore.rowOf pid = before.rowOf pid)
    (sameAfter : otherAfter.rowOf pid = after.rowOf pid) :
    RowAfter pidNetworkUsage pid reads otherBefore otherAfter := by
  simp only [rowOf, Prod.mk.injEq] at sameBefore sameAfter
  obtain ⟨_, _, lastBefore⟩ := sameBefore
  obtain ⟨_, statAfter, lastAfter⟩ := sameAfter
  constructor
  · rw [statAfter]
    exact row.networkUsage
  · intro direction
    rw [statAfter, lastBefore]
    exact row.diskUsage direction
  · rw [lastAfter]
    exact row.lastDisk

/-- A round for another process, or for one that it cannot open, leaves the rows. -/
theorem rowOf_updatePid {pid other : UInt32} {hProcess : Option WindowsReads}
    (apart : pid ≠ other ∨ hProcess = none) (table : ProcessTable) :
    (updatePid cpuShare systemCpuDelta pidNetworkUsage other hProcess table).rowOf pid =
      table.rowOf pid := by
  cases hProcess with
  | none => simp [updatePid, rowOf]
  | some reads =>
      have different : pid ≠ other := apart.resolve_right (by simp)
      simp [updatePid, storeReads, rowOf, UnorderedMap.valueAt_assign, different]

/-- A process that is opened has its readings in its row. -/
theorem updatePid_row (pid : UInt32) (reads : WindowsReads) (table : ProcessTable) :
    RowAfter pidNetworkUsage pid reads table
      (updatePid cpuShare systemCpuDelta pidNetworkUsage pid (some reads) table) := by
  constructor
  · simp [updatePid, storeReads, UnorderedMap.valueAt_assign]
  · intro direction
    cases direction with
    | outGoing =>
        simp [updatePid, storeReads, UnorderedMap.valueAt_assign, DiskStat.counter,
          NetworkStat.reading]
    | inGoing =>
        simp [updatePid, storeReads, UnorderedMap.valueAt_assign, DiskStat.counter,
          NetworkStat.reading]
  · simp [updatePid, storeReads, UnorderedMap.valueAt_assign]

/-- The rounds leave the row of a process alone that they cannot open. -/
theorem rowOf_updatePids {pid : UInt32} {listPids : List (UInt32 × Option WindowsReads)}
    (unopened : ∀ reads, (pid, some reads) ∉ listPids)
    (seen : UnorderedMap UInt32 Bool) (table : ProcessTable) :
    (updatePids cpuShare systemCpuDelta pidNetworkUsage listPids (seen, table)).2.rowOf pid =
      table.rowOf pid := by
  induction listPids generalizing seen table with
  | nil => rfl
  | cons listed later ih =>
      obtain ⟨other, hProcess⟩ := listed
      have rest := ih fun reads member => unopened reads (List.mem_cons_of_mem _ member)
      rw [updatePids, rest]
      apply rowOf_updatePid
      cases hProcess with
      | none => exact Or.inr rfl
      | some reads =>
          left
          rintro rfl
          exact unopened reads List.mem_cons_self

/-- With more than one round for a process the last that can open it shows the same traffic. -/
theorem networkUsage_updatePids {pid : UInt32} {reads : WindowsReads}
    {listPids : List (UInt32 × Option WindowsReads)} (opened : (pid, some reads) ∈ listPids)
    (seen : UnorderedMap UInt32 Bool) (table : ProcessTable) :
    ((updatePids cpuShare systemCpuDelta pidNetworkUsage listPids
      (seen, table)).2.statTable.valueAt pid).networkUsage = pidNetworkUsage.valueAt pid := by
  induction listPids generalizing reads seen table with
  | nil => cases opened
  | cons listed later ih =>
      obtain ⟨other, hProcess⟩ := listed
      rw [updatePids]
      by_cases again : ∃ reads, (pid, some reads) ∈ later
      · obtain ⟨_, member⟩ := again
        exact ih member _ _
      · have unopened : ∀ reads, (pid, some reads) ∉ later := not_exists.mp again
        have here : (pid, some reads) = (other, hProcess) :=
          (List.mem_cons.mp opened).resolve_right (unopened reads)
        obtain ⟨rfl, rfl⟩ := Prod.mk.inj here
        have row := updatePid_row cpuShare systemCpuDelta pidNetworkUsage pid reads table
        exact (row.congr pidNetworkUsage rfl
          (rowOf_updatePids cpuShare systemCpuDelta pidNetworkUsage unopened _ _)).networkUsage

/-- Among the rounds for all processes it is the one for this process that counts. -/
theorem updatePids_row {pid : UInt32} {reads : WindowsReads}
    {listPids : List (UInt32 × Option WindowsReads)} (opened : (pid, some reads) ∈ listPids)
    (once : (listPids.map Prod.fst).Nodup) (seen : UnorderedMap UInt32 Bool)
    (table : ProcessTable) :
    RowAfter pidNetworkUsage pid reads table
      (updatePids cpuShare systemCpuDelta pidNetworkUsage listPids (seen, table)).2 := by
  induction listPids generalizing seen table with
  | nil => cases opened
  | cons listed later ih =>
      obtain ⟨other, hProcess⟩ := listed
      obtain ⟨absent, distinct⟩ := List.nodup_cons.mp once
      rw [updatePids]
      cases List.mem_cons.mp opened with
      | inl here =>
          obtain ⟨rfl, rfl⟩ := Prod.mk.inj here
          have unopened : ∀ others, (pid, some others) ∉ later := fun _ member =>
            absent (List.mem_map.mpr ⟨_, member, rfl⟩)
          exact (updatePid_row cpuShare systemCpuDelta pidNetworkUsage pid reads table).congr
            pidNetworkUsage rfl
            (rowOf_updatePids cpuShare systemCpuDelta pidNetworkUsage unopened _ _)
      | inr further =>
          have different : pid ≠ other := by
            rintro rfl
            exact absent (List.mem_map.mpr ⟨_, further, rfl⟩)
          exact (ih further distinct _ _).congr pidNetworkUsage
            (rowOf_updatePid cpuShare systemCpuDelta pidNetworkUsage (Or.inl different) table).symm
            rfl

end Rows

/-! ### A call -/

theorem mem_of_readsOf {call : WindowsCall} {pid : UInt32} {reads : WindowsReads}
    (opened : call.readsOf pid = some reads) : (pid, some reads) ∈ call.listPids := by
  obtain ⟨listed, member, found⟩ := List.exists_of_findSome?_eq_some opened
  split at found
  · rename_i same
    rwa [← same, ← found]
  · cases found

theorem not_mem_of_readsOf {call : WindowsCall} {pid : UInt32}
    (unopened : call.readsOf pid = none) (reads : WindowsReads) :
    (pid, some reads) ∉ call.listPids := by
  intro member
  have none := List.findSome?_eq_none_iff.mp unopened _ member
  simp at none

/-- What the loop over the pids leaves of a process that is listed stays. -/
theorem rowOf_updateTable {call : WindowsCall} {pid : UInt32}
    (listed : pid ∈ call.listPids.map Prod.fst) (windows : WindowsTable) :
    ∃ systemCpuDelta, (windows.updateTable cpuShare call).table.rowOf pid =
      (updatePids cpuShare systemCpuDelta windows.pidNetworkStatMap call.listPids
        (∅, windows.table)).2.rowOf pid := by
  obtain ⟨systemCpuDelta, whole⟩ := exists_updateTable cpuShare call windows
  refine ⟨systemCpuDelta, ?_⟩
  rw [whole]
  apply ProcessTable.rowOf_eraseUnseen
  exact (updatePids_seen _ _ _ _ _ _ pid).mpr (Or.inr listed)

/-- A call leaves the row of a process alone that it cannot open. -/
theorem rowOf_unopened {call : WindowsCall} {pid : UInt32}
    (listed : pid ∈ call.listPids.map Prod.fst) (unopened : call.readsOf pid = none)
    (windows : WindowsTable) :
    (windows.updateTable cpuShare call).table.rowOf pid = windows.table.rowOf pid := by
  obtain ⟨systemCpuDelta, same⟩ := rowOf_updateTable cpuShare listed windows
  rw [same]
  exact rowOf_updatePids cpuShare systemCpuDelta _ (not_mem_of_readsOf unopened) _ _

/-- A call stores the readings of a process that it can open. -/
theorem updateTable_opened {call : WindowsCall} {pid : UInt32} {reads : WindowsReads}
    (opened : call.readsOf pid = some reads) (once : (call.listPids.map Prod.fst).Nodup)
    (windows : WindowsTable) :
    RowAfter windows.pidNetworkStatMap pid reads windows.table
      (windows.updateTable cpuShare call).table := by
  have member := mem_of_readsOf opened
  obtain ⟨systemCpuDelta, same⟩ :=
    rowOf_updateTable cpuShare (List.mem_map_of_mem member) windows
  exact (updatePids_row cpuShare systemCpuDelta windows.pidNetworkStatMap member once ∅
    windows.table).congr _ rfl same

/-- And the traffic that was counted up to it. -/
theorem networkUsage_opened {call : WindowsCall} {pid : UInt32} {reads : WindowsReads}
    (opened : call.readsOf pid = some reads) (windows : WindowsTable) :
    ((windows.updateTable cpuShare call).table.statTable.valueAt pid).networkUsage =
      windows.pidNetworkStatMap.valueAt pid := by
  have member := mem_of_readsOf opened
  obtain ⟨systemCpuDelta, same⟩ :=
    rowOf_updateTable cpuShare (List.mem_map_of_mem member) windows
  have stat := congrArg (fun row => row.2.1.networkUsage) same
  exact stat.trans
    (networkUsage_updatePids cpuShare systemCpuDelta windows.pidNetworkStatMap member ∅ _)

/-! ### Events -/

theorem toString_append (one two : WString) :
    WString.toString (one ++ two) = one.toString ++ two.toString := List.map_append

/-- What earlier texts have left in the buffer stands behind a 0. -/
theorem toString_formatProperty (text : Bytes) (buffer : WString) :
    ∃ rest, (formatProperty (some (toWstring text)) buffer).toString = text ++ 0 :: rest := by
  refine ⟨WString.toString (buffer.drop ((toWstring text).length + 1)), ?_⟩
  rw [formatProperty, toString_append, toString_toWstring]
  rfl

theorem leadingNumeral_formatted (n : Nat) (rest : Bytes) :
    leadingNumeral (decimal n ++ 0 :: rest) = some n :=
  leadingNumeral_decimal_append n (by simp [isDigit])

/-- What an earlier property has left in the buffer is behind the NUL byte. -/
theorem ipStringToUInt32_formatted {text : Bytes} (whole : 0 ∉ text) (rest : Bytes) :
    ipStringToUInt32 inetPton (text ++ 0 :: rest) = inetPton text := by
  have visible : ∀ byte ∈ text, decide (byte ≠ 0) = true := by
    intro byte member
    exact decide_eq_true fun same => whole (same ▸ member)
  rw [ipStringToUInt32, List.takeWhile_append_of_pos visible, List.takeWhile_cons_of_neg (by decide),
    List.append_nil]

theorem fromCharsUInt32_formatted {text : Bytes} {value : UInt32} {rest : Bytes}
    (formatted : text = decimal value.toNat ++ 0 :: rest) (target : UInt32) :
    fromCharsUInt32 target text = value :=
  fromCharsUInt32_of_leadingNumeral (formatted ▸ leadingNumeral_formatted value.toNat rest)

/-- A direction is told from the name of the opcode. -/
theorem receives_iff (direction : Direction) :
    (!direction.opcodeName.contains (wide "Data sent") &&
      direction.opcodeName.contains (wide "Data received")) = (direction == .inGoing) := by
  cases direction with
  | outGoing => decide +kernel
  | inGoing => decide +kernel

/-- However long the texts are, each is read as it was formatted. -/
theorem getNetworkPacket_transfer {transfer : Transfer} (valid : transfer.Valid inetPton) :
    ∃ packet, getNetworkPacket inetPton transfer.event = some packet ∧
      packet.pid = transfer.pid ∧ packet.size = transfer.size ∧
        packet.direction = transfer.direction := by
  obtain ⟨remoteAddr, remote⟩ := Option.isSome_iff_exists.mp valid.remote
  obtain ⟨localAddr, host⟩ := Option.isSome_iff_exists.mp valid.host
  have address : ∀ (text : Bytes) buffer, 0 ∉ text → ipStringToUInt32 inetPton
      (formatProperty (some (toWstring text)) buffer).toString = inetPton text := by
    intro text buffer whole
    obtain ⟨rest, formatted⟩ := toString_formatProperty text buffer
    rw [formatted, ipStringToUInt32_formatted inetPton whole]
  have number : ∀ (target value : UInt32) buffer, fromCharsUInt32 target
      (formatProperty (some (toWstring (decimal value.toNat))) buffer).toString = value := by
    intro target value buffer
    obtain ⟨rest, formatted⟩ := toString_formatProperty (decimal value.toNat) buffer
    exact fromCharsUInt32_formatted formatted target
  simp only [getNetworkPacket, Transfer.event, ne_eq, not_true_eq_false, if_false, receives_iff,
    readProperties, setProperty, address _ _ valid.whole.1, address _ _ valid.whole.2, remote, host,
    number, Option.bind_eq_bind, Option.bind_some, Option.pure_def]
  refine ⟨_, rfl, rfl, rfl, ?_⟩
  cases transfer.direction with
  | outGoing => rfl
  | inGoing => rfl

section Process

variable (pid : UInt32) (direction : Direction)

/-! ### Traffic -/

/-- An event adds to the shared map what it counts, in 64 bits. -/
theorem total_onEvent (event : EtwEvent) (pidNetworkStatMap : UnorderedMap UInt32 NetworkStat) :
    (((onEvent inetPton event pidNetworkStatMap).valueAt pid).total direction).toNat =
      (((pidNetworkStatMap.valueAt pid).total direction).toNat +
        counted inetPton pid direction (.event event)) % 2 ^ 64 := by
  have small := ((pidNetworkStatMap.valueAt pid).total direction).toNat_lt
  cases read : getNetworkPacket inetPton event with
  | none =>
      simp only [onEvent, counted, read, Nat.add_zero]
      exact (Nat.mod_eq_of_lt small).symm
  | some packet =>
      simp only [onEvent, counted, read, UnorderedMap.valueAt_assign]
      by_cases same : pid = packet.pid
      · rw [if_pos same, NetworkStat.total_count, ← same]
        by_cases toward : packet.direction = direction
        · rw [if_pos toward, if_pos ⟨rfl, toward⟩, UInt64.toNat_add, UInt32.toNat_toUInt64]
        · rw [if_neg toward, if_neg fun both => toward both.2]
          exact (Nat.mod_eq_of_lt small).symm
      · rw [if_neg same, if_neg fun both => same both.1.symm]
        exact (Nat.mod_eq_of_lt small).symm

/-- An event adds to the counts, and a call moves them out of the map. -/
theorem step_moves (windows : WindowsTable) (item : WindowsStep) :
    (((step cpuShare inetPton windows item).pidNetworkStatMap.valueAt pid).total
          direction).toNat +
        (shown cpuShare pid (fun stat => some (stat.networkUsage.total direction)) windows item +
          dropped pid direction windows item) =
      (((windows.pidNetworkStatMap.valueAt pid).total direction).toNat +
        counted inetPton pid direction item) % 2 ^ 64 := by
  have small := ((windows.pidNetworkStatMap.valueAt pid).total direction).toNat_lt
  cases item with
  | event event => exact total_onEvent inetPton pid direction event windows.pidNetworkStatMap
  | update call =>
      have emptied : (((step cpuShare inetPton windows
          (.update call)).pidNetworkStatMap.valueAt pid).total direction).toNat = 0 := by
        cases direction with
        | outGoing => rfl
        | inGoing => rfl
      have nothing : counted inetPton pid direction (.update call) = 0 := rfl
      rw [emptied, nothing, Nat.zero_add, Nat.add_zero, Nat.mod_eq_of_lt small]
      cases opened : call.readsOf pid with
      | none => simp [shown, dropped, opened]
      | some reads => simp [shown, dropped, opened, networkUsage_opened cpuShare opened windows]

theorem counted_transfer {transfer : Transfer} (valid : transfer.Valid inetPton) :
    counted inetPton pid direction (.event transfer.event) =
      if transfer.pid = pid ∧ transfer.direction = direction then transfer.size.toNat else 0 := by
  obtain ⟨packet, read, samePid, sameSize, sameDirection⟩ := getNetworkPacket_transfer inetPton valid
  simp only [counted, read, samePid, sameSize, sameDirection]

/-- The event for a transfer counts its bytes for its process.  Over any order of events and calls,
what the events count for a process is what the calls show of it and what they drop, with what is
still in the map: modulo 2 ^ 64, and exactly as long as there is less. -/
theorem traffic_conserved :
    (∀ transfer : Transfer, transfer.Valid inetPton →
      counted inetPton pid direction (.event transfer.event) =
        if transfer.pid = pid ∧ transfer.direction = direction then transfer.size.toNat else 0) ∧
    ∀ steps : List WindowsStep,
      let left := (((run cpuShare inetPton steps empty).pidNetworkStatMap.valueAt pid).total
        direction).toNat
      let taken := shownTraffic cpuShare inetPton pid direction steps empty +
        droppedTraffic cpuShare inetPton pid direction steps empty
      let counts := (steps.map (counted inetPton pid direction)).sum
      left + taken ≡ counts [MOD 2 ^ 64] ∧ (counts < 2 ^ 64 → left + taken = counts) := by
  refine ⟨fun transfer valid => counted_transfer inetPton pid direction valid, ?_⟩
  intro steps
  have drained := Tally.foldl_drained
    (fun windows : WindowsTable =>
      ((windows.pidNetworkStatMap.valueAt pid).total direction).toNat)
    (step_moves cpuShare inetPton pid direction) steps empty
  have start : (((empty.pidNetworkStatMap.valueAt pid).total direction)).toNat = 0 := by
    cases direction with
    | outGoing => rfl
    | inGoing => rfl
  rw [Tally.outflow_add, start, Nat.zero_add] at drained
  exact drained

/-! ### Disk usage -/

theorem total_eq (networkUsage : NetworkStat) :
    networkUsage.total direction = (networkUsage.reading direction).getD 0 := by
  cases direction with
  | outGoing => rfl
  | inGoing => rfl

theorem toNat_sub_min (used traffic : UInt64) :
    (used - min used traffic).toNat = used.toNat - min used.toNat traffic.toNat := by
  have least : min used traffic = if used ≤ traffic then used else traffic := rfl
  rw [least]
  split
  · rename_i le
    rw [UInt64.toNat_sub_of_le _ _ (UInt64.le_refl used), min_eq_left (UInt64.le_iff_toNat_le.mp le)]
  · rename_i more
    have le : traffic ≤ used := UInt64.le_of_lt (UInt64.not_le.mp more)
    rw [UInt64.toNat_sub_of_le _ _ le, min_eq_right (UInt64.le_iff_toNat_le.mp le)]

/-- What a call charges to the disk is at most what the counter has grown by, and falls behind that
by no more than the traffic it shows. -/
theorem subtractNetwork_bounds {now last : UInt64} (grown : last ≤ now)
    (traffic : Option UInt64) :
    let charged := ((subtractNetwork (some (now - last)) traffic).getD 0).toNat
    last.toNat + charged ≤ now.toNat ∧
      now.toNat ≤ last.toNat + charged + (traffic.getD 0).toNat := by
  have difference := UInt64.toNat_sub_of_le now last grown
  have bound := UInt64.le_iff_toNat_le.mp grown
  cases traffic with
  | none =>
      simp only [subtractNetwork, Option.getD_some, difference]
      omega
  | some traffic =>
      simp only [subtractNetwork, Option.getD_some, toNat_sub_min, difference]
      omega

variable {cpuShare inetPton pid direction}

/-- As long as the calls list a process once each, and those that can open it read its counter,
which does not fall: what they charge to its disk is at most what the counter has grown by, and
falls behind it by no more than the traffic they show. -/
theorem disk_charged {steps : List WindowsStep} (follows : ∀ step ∈ steps, Follows pid step)
    {windows : WindowsTable} {start : UInt64}
    (baseline :
      ((windows.table.lastStatTable.valueAt pid).diskStat.counter direction).getD 0 = start)
    {counters : List UInt64} (readable : diskReadings pid direction steps = counters.map some)
    (ascending : (start :: counters).Pairwise (· ≤ ·)) :
    let charged := chargedDisk cpuShare inetPton pid direction steps windows
    let traffic := shownTraffic cpuShare inetPton pid direction steps windows
    start.toNat + charged ≤ (counters.getLastD start).toNat ∧
      (counters.getLastD start).toNat ≤ start.toNat + charged + traffic := by
  unfold chargedDisk shownTraffic
  induction steps generalizing windows start counters with
  | nil =>
      cases counters with
      | nil => exact ⟨le_refl _, Nat.le_add_right _ _⟩
      | cons counter later => cases readable
  | cons first steps ih =>
      have rest := fun later member => follows later (List.mem_cons_of_mem first member)
      cases first with
      | event event =>
          simp only [Tally.outflow, shown, Nat.zero_add]
          exact @ih rest (step cpuShare inetPton windows (.event event)) start baseline counters
            readable ascending
      | update call =>
          obtain ⟨listed, once⟩ := follows (.update call) List.mem_cons_self
          cases opened : call.readsOf pid with
          | none =>
              have row := rowOf_unopened cpuShare listed opened windows
              have kept := congrArg (fun row => row.2.2.diskStat.counter direction) row
              simp only [Tally.outflow, shown, opened, Option.isSome_none, Bool.false_eq_true,
                if_false, Nat.zero_add]
              apply ih rest _ _ ascending
              · rw [← baseline]
                exact congrArg (Option.getD · 0) kept
              · simpa [diskReadings, opened] using readable
          | some reads =>
              have row := updateTable_opened cpuShare opened once windows
              obtain ⟨counter, later, rfl⟩ : ∃ counter later, counters = counter :: later := by
                cases counters with
                | nil => simp [diskReadings, opened] at readable
                | cons counter later => exact ⟨counter, later, rfl⟩
              simp only [diskReadings, List.filterMap_cons, opened, Option.map_some,
                List.map_cons, List.cons.injEq] at readable
              obtain ⟨here, readable⟩ := readable
              obtain ⟨grown, ascending⟩ := List.pairwise_cons.mp ascending
              have charge := row.diskUsage direction
              rw [here, ProcessTable.delta, Option.map_some, baseline] at charge
              have bounds := subtractNetwork_bounds (grown counter List.mem_cons_self)
                ((windows.pidNetworkStatMap.valueAt pid).reading direction)
              have last : ((step cpuShare inetPton windows (.update call)).table.lastStatTable.valueAt
                  pid).diskStat.counter direction = some counter :=
                (congrArg (DiskStat.counter · direction) row.lastDisk).trans here
              have after := @ih rest (step cpuShare inetPton windows (.update call)) counter
                (by rw [last]; rfl) later readable ascending
              simp only [← charge, ← total_eq] at bounds
              simp only [Tally.outflow, shown, opened, Option.isSome_some, if_true,
                Option.getD_some, row.networkUsage, List.getLastD_cons]
              dsimp only at after
              omega

end Process

/-! ### A sample -/

/-- 100 bytes that process 7 has received. -/
def receivedTransfer : Transfer :=
  ⟨7, 100, .inGoing, ascii "10.0.0.2", ascii "10.0.0.1", 443, 50000⟩

/-- A call that can open process 7, with this counter for what it has read. -/
def openingCall (counter : UInt64) : WindowsCall where
  systemCpu := 1000
  listPids := [(7, some ⟨ascii "vim.exe", 10, 4096, ⟨some counter, some 0⟩⟩), (4, none)]
  order := .stored

/-- After a first call. -/
def openedOnce : WindowsTable :=
  run (fun _ _ => 0) (fun _ => some 0) [.update (openingCall 50)] empty

def laterSteps : List WindowsStep := [.event receivedTransfer.event, .update (openingCall 250)]

theorem laterSteps_follow : ∀ step ∈ laterSteps, Follows 7 step := by
  intro step member
  simp only [laterSteps, List.mem_cons, List.not_mem_nil, or_false] at member
  rcases member with rfl | rfl
  · exact trivial
  · exact ⟨by decide, by decide⟩

/-- Of 200 bytes that are read behind the first call 100 are charged to the disk. -/
theorem disk_charged_sample :
    let charged := chargedDisk (fun _ _ => 0) (fun _ => some 0) 7 .inGoing laterSteps openedOnce
    let traffic := shownTraffic (fun _ _ => 0) (fun _ => some 0) 7 .inGoing laterSteps openedOnce
    50 + charged ≤ 250 ∧ 250 ≤ 50 + charged + traffic :=
  @disk_charged (fun _ _ => 0) (fun _ => some 0) 7 .inGoing laterSteps laterSteps_follow openedOnce
    50 (by decide +kernel) [250] (by decide +kernel) (by decide +kernel)

end WindowsTable

end RemoteMonitoring
