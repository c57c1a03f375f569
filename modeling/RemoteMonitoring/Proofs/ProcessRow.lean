/-
Module: RemoteMonitoring.Proofs.ProcessRow
Purpose: What a call of `update_table` does to the rows of one process: the round for it makes
  them of what it reads and of the rows before, and no other round touches them.
Trusted boundary: none
Main exports: ProcessTable.rowOf, ProcessTable.RowAfter, updatePid_row, updateTable_row
-/
import RemoteMonitoring.Proofs.ProcessTable

namespace RemoteMonitoring

namespace ProcessTable

/-- What the tables hold of a process, with default values where there is no row. -/
def rowOf (table : ProcessTable) (pid : UInt32) :
    ProcessListing × ProcessStat × ProcessLastStat :=
  (table.listTable.valueAt pid, table.statTable.valueAt pid, table.lastStatTable.valueAt pid)

/-- What a completed round makes of the rows before it. -/
structure RowAfter (reads : PidReads) (before after : ProcessTable) : Prop where
  listing : after.listTable.valueAt reads.pid =
    if (before.listTable.valueAt reads.pid).args = [] then
      (readProcessMetadata reads).getD default
    else before.listTable.valueAt reads.pid
  diskUsage : (after.statTable.valueAt reads.pid).diskUsage =
    let last := (before.lastStatTable.valueAt reads.pid).diskStat
    ⟨delta reads.diskStat.diskRead last.diskRead, delta reads.diskStat.diskWrite last.diskWrite⟩
  lastDisk : (after.lastStatTable.valueAt reads.pid).diskStat = reads.diskStat

/-- What a round does to a row is about this row only. -/
theorem RowAfter.congr {reads : PidReads} {before after otherBefore otherAfter : ProcessTable}
    (row : RowAfter reads before after)
    (sameBefore : otherBefore.rowOf reads.pid = before.rowOf reads.pid)
    (sameAfter : otherAfter.rowOf reads.pid = after.rowOf reads.pid) :
    RowAfter reads otherBefore otherAfter := by
  simp only [rowOf, Prod.mk.injEq] at sameBefore sameAfter
  obtain ⟨listBefore, statBefore, lastBefore⟩ := sameBefore
  obtain ⟨listAfter, statAfter, lastAfter⟩ := sameAfter
  constructor
  · rw [listAfter, listBefore]
    exact row.listing
  · rw [statAfter, lastBefore]
    exact row.diskUsage
  · rw [lastAfter]
    exact row.lastDisk

section Round

variable (cpuShare : UInt64 → CpuStat → UInt32) (cpuDelta : CpuStat)
  (pidNetworkUsage : UnorderedMap UInt32 NetworkStat) (reads : PidReads)

/-- A new listing leaves the rows of other pids as they are. -/
theorem rowOf_refreshListing {table after : ProcessTable} {other : UInt32}
    (different : other ≠ reads.pid) (refreshed : table.refreshListing reads = some after) :
    after.rowOf other = table.rowOf other := by
  unfold refreshListing at refreshed
  split at refreshed
  · cases refreshed
  · split at refreshed
    · cases read : readProcessMetadata reads with
      | none => simp [read] at refreshed
      | some listing =>
          simp only [read, Option.bind_eq_bind, Option.bind_some, Option.pure_def,
            Option.some.injEq] at refreshed
          subst refreshed
          simp [rowOf, UnorderedMap.valueAt_assign, different]
    · cases refreshed
      rfl

/-- And so do the new readings. -/
theorem rowOf_updateRows {table : ProcessTable} {other : UInt32}
    (different : other ≠ reads.pid) :
    (table.updateRows cpuShare cpuDelta pidNetworkUsage reads).2.rowOf other =
      table.rowOf other := by
  unfold updateRows
  simp only
  split
  · rfl
  · split
    · simp [rowOf]
    · split
      · simp [rowOf]
      · split
        · simp [rowOf]
        · split
          · simp [rowOf, storeUsage, UnorderedMap.valueAt_assign, different]
          · split
            · simp [rowOf, storeUsage, storeNetwork, UnorderedMap.valueAt_assign, different]
            · simp [rowOf, storeUsage, storeNetwork, UnorderedMap.valueAt_assign, different]

/-- No other round touches the rows of a process. -/
theorem rowOf_updatePid {table : ProcessTable} {other : UInt32}
    (different : other ≠ reads.pid) :
    (table.updatePid cpuShare cpuDelta pidNetworkUsage reads).2.rowOf other =
      table.rowOf other := by
  have touched : ({ table with listTable := table.listTable.touch reads.pid }).rowOf other =
      table.rowOf other := by simp [rowOf]
  unfold updatePid
  simp only
  split
  · exact touched
  · rename_i refreshed read
    have fresh := (rowOf_refreshListing reads different read).trans touched
    split
    · exact fresh
    · exact (rowOf_updateRows cpuShare cpuDelta pidNetworkUsage reads different).trans fresh

/-- A round that completes leaves in its row what was read. -/
theorem updatePid_row {table : ProcessTable}
    (completed : (table.updatePid cpuShare cpuDelta pidNetworkUsage reads).1 = .completed) :
    RowAfter reads table (table.updatePid cpuShare cpuDelta pidNetworkUsage reads).2 := by
  have runs := (updatePid_completed_iff cpuShare cpuDelta pidNetworkUsage reads table).mp completed
  obtain ⟨memory, stat, shown⟩ := runs
  obtain ⟨cpuMemStat, parsed⟩ := Option.isSome_iff_exists.mp stat
  by_cases cached : (table.listTable.valueAt reads.pid).args = []
  · obtain ⟨listing, read, args⟩ := shown.resolve_left (fun other => other cached)
    constructor
    all_goals
      simp [updatePid, refreshListing, updateRows, storeUsage, storeNetwork,
        UnorderedMap.valueAt_assign, memory, parsed, cached, read, args]
  · constructor
    all_goals
      simp [updatePid, refreshListing, updateRows, storeUsage, storeNetwork,
        UnorderedMap.valueAt_assign, memory, parsed, cached]

end Round

/-! ### The loops -/

section Loop

variable (cpuShare : UInt64 → CpuStat → UInt32) (cpuDelta : CpuStat)
  (pidNetworkUsage : UnorderedMap UInt32 NetworkStat)

/-- The tables after some rounds. -/
def afterRounds (pids : List PidReads) (table : ProcessTable) : ProcessTable :=
  pids.foldl (fun table reads => (table.updatePid cpuShare cpuDelta pidNetworkUsage reads).2) table

/-- The tables do not depend on what was seen. -/
theorem updatePids_snd (pids : List PidReads) (seen : UnorderedMap UInt32 Bool)
    (table : ProcessTable) :
    (updatePids cpuShare cpuDelta pidNetworkUsage pids (seen, table)).2 =
      afterRounds cpuShare cpuDelta pidNetworkUsage pids table := by
  induction pids generalizing seen table with
  | nil => rfl
  | cons reads later ih =>
      rw [updatePids_cons]
      exact ih _ _

theorem afterRounds_append (front back : List PidReads) (table : ProcessTable) :
    afterRounds cpuShare cpuDelta pidNetworkUsage (front ++ back) table =
      afterRounds cpuShare cpuDelta pidNetworkUsage back
        (afterRounds cpuShare cpuDelta pidNetworkUsage front table) := List.foldl_append

/-- The rounds of two parts of the list, one after the other. -/
theorem completedRounds_append (front back : List PidReads) (table : ProcessTable) :
    completedRounds cpuShare cpuDelta pidNetworkUsage (front ++ back) table =
      completedRounds cpuShare cpuDelta pidNetworkUsage front table ++
        completedRounds cpuShare cpuDelta pidNetworkUsage back
          (afterRounds cpuShare cpuDelta pidNetworkUsage front table) := by
  induction front generalizing table with
  | nil => rfl
  | cons reads later ih =>
      simp only [List.cons_append, completedRounds, ih, afterRounds, List.foldl_cons]
      split
      · rfl
      · rfl

/-- Rounds for other pids leave the row as it is. -/
theorem rowOf_afterRounds {pids : List PidReads} {pid : UInt32}
    (others : ∀ other ∈ pids, other.pid ≠ pid) (table : ProcessTable) :
    (afterRounds cpuShare cpuDelta pidNetworkUsage pids table).rowOf pid = table.rowOf pid := by
  induction pids generalizing table with
  | nil => rfl
  | cons reads later ih =>
      have different : pid ≠ reads.pid := (others reads List.mem_cons_self).symm
      exact (ih (fun other member => others other (List.mem_cons_of_mem reads member)) _).trans
        (rowOf_updatePid cpuShare cpuDelta pidNetworkUsage reads different)

/-- Only a pid that is listed can be completed. -/
theorem not_mem_completedRounds {pids : List PidReads} {pid : UInt32}
    (others : ∀ other ∈ pids, other.pid ≠ pid) (table : ProcessTable) :
    pid ∉ completedRounds cpuShare cpuDelta pidNetworkUsage pids table := by
  induction pids generalizing table with
  | nil => exact List.not_mem_nil
  | cons reads later ih =>
      have rest := ih fun other member => others other (List.mem_cons_of_mem reads member)
      have different : pid ≠ reads.pid := (others reads List.mem_cons_self).symm
      unfold completedRounds
      simp only
      split
      · simp [different, rest]
      · exact rest _

/-- What the loop over the pids does to a pid that is listed once. -/
theorem afterRounds_row {pids : List PidReads} {reads : PidReads}
    (once : ListedOnce pids reads) (table : ProcessTable) :
    (reads.pid ∈ completedRounds cpuShare cpuDelta pidNetworkUsage pids table ↔
        reads.outOfMemory = none ∧ reads.cpuMemStat.isSome ∧
          ((table.listTable.valueAt reads.pid).args ≠ [] ∨
            ∃ listing, readProcessMetadata reads = some listing ∧ listing.args ≠ [])) ∧
      (reads.pid ∈ completedRounds cpuShare cpuDelta pidNetworkUsage pids table →
        RowAfter reads table (afterRounds cpuShare cpuDelta pidNetworkUsage pids table)) := by
  obtain ⟨front, back, rfl, others⟩ := once
  have inFront : ∀ other ∈ front, other.pid ≠ reads.pid := fun other member =>
    others other (List.mem_append_left back member)
  have inBack : ∀ other ∈ back, other.pid ≠ reads.pid := fun other member =>
    others other (List.mem_append_right front member)
  have before := rowOf_afterRounds cpuShare cpuDelta pidNetworkUsage inFront table
  have cached : (afterRounds cpuShare cpuDelta pidNetworkUsage front table).listTable.valueAt
      reads.pid = table.listTable.valueAt reads.pid := congrArg Prod.fst before
  have here : reads.pid ∈ completedRounds cpuShare cpuDelta pidNetworkUsage
        (front ++ reads :: back) table ↔
      ((afterRounds cpuShare cpuDelta pidNetworkUsage front table).updatePid cpuShare cpuDelta
        pidNetworkUsage reads).1 = .completed := by
    rw [completedRounds_append, List.mem_append, completedRounds]
    have elsewhere := not_mem_completedRounds cpuShare cpuDelta pidNetworkUsage inBack
    simp only [not_mem_completedRounds cpuShare cpuDelta pidNetworkUsage inFront table, false_or]
    split
    · simp [*]
    · simp [*]
  constructor
  · rw [here, updatePid_completed_iff, cached]
  · intro completed
    have row := updatePid_row cpuShare cpuDelta pidNetworkUsage reads (here.mp completed)
    rw [afterRounds_append]
    exact row.congr before.symm
      (rowOf_afterRounds cpuShare cpuDelta pidNetworkUsage inBack _)

end Loop

/-- The loop over the listings leaves the rows of a process that is seen. -/
theorem rowOf_eraseUnseen {seen : UnorderedMap UInt32 Bool} {pid : UInt32}
    (known : seen.valueAt pid = true) (rows : List ((_ : UInt32) × ProcessListing))
    (table : ProcessTable) : (table.eraseUnseen seen rows).rowOf pid = table.rowOf pid := by
  induction rows generalizing table with
  | nil => rfl
  | cons row later ih =>
      unfold eraseUnseen
      split
      · rename_i unseen
        have different : pid ≠ row.1 := by
          intro same
          rw [← same, known] at unseen
          cases unseen
        rw [ih]
        simp [rowOf, eraseRow, UnorderedMap.valueAt, AList.lookup_erase_ne different]
      · exact ih table

/-- What a call does to a pid that is listed once. -/
theorem updateTable_row (cpuShare : UInt64 → CpuStat → UInt32) {call : UpdateCall}
    {pids : List PidReads} {reads : PidReads} (read : call.statCpu.isSome)
    (listed : call.pids = some pids) (once : ListedOnce pids reads) (table : ProcessTable) :
    (reads.pid ∈ table.completed cpuShare call ↔
        reads.Runs ∧ ((table.listTable.valueAt reads.pid).args ≠ [] ∨
          ∃ listing, readProcessMetadata reads = some listing ∧ listing.args ≠ [])) ∧
      (reads.pid ∈ table.completed cpuShare call →
        RowAfter reads table (table.updateTable cpuShare call).2) := by
  obtain ⟨nowCpu, stat⟩ := Option.isSome_iff_exists.mp read
  have loop := afterRounds_row cpuShare (cpuDelta nowCpu table.lastCpu) call.pidNetworkUsage once
    { table with lastCpu := nowCpu }
  have seen := updatePids_seen cpuShare (cpuDelta nowCpu table.lastCpu) call.pidNetworkUsage pids
    ∅ { table with lastCpu := nowCpu } reads.pid
  simp only [completed, updateTable, stat, listed, PidReads.Runs, and_assoc]
  refine ⟨loop.1, fun done => ?_⟩
  refine (loop.2 done).congr rfl ?_
  rw [rowOf_eraseUnseen (seen.mpr (Or.inr done)), updatePids_snd]

end ProcessTable

end RemoteMonitoring
