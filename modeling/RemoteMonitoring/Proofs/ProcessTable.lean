/-
Module: RemoteMonitoring.Proofs.ProcessTable
Purpose: After every call of `update_table` the three tables have rows for the same pids, so
  that the lookups behind the listings find theirs.
Trusted boundary: none
Main exports: updatePid_keys, updatePid_completed_iff, mem_completedRounds_iff,
  updatePids_consistent, eraseUnseen_visit, updateTable_keys, tables_agree
-/
import RemoteMonitoring.System.Sampling

namespace RemoteMonitoring

open ByteText

namespace ProcessTable

/-- In each of the tables no row is lost, and none but that of `pid` is new. -/
structure GrowsBy (pid : UInt32) (before after : ProcessTable) : Prop where
  list : UnorderedMap.GrowsBy pid before.listTable after.listTable
  stat : UnorderedMap.GrowsBy pid before.statTable after.statTable
  lastStat : UnorderedMap.GrowsBy pid before.lastStatTable after.lastStatTable

/-- Growing twice is growing. -/
theorem GrowsBy.trans {pid : UInt32} {before between after : ProcessTable}
    (one : GrowsBy pid before between) (two : GrowsBy pid between after) :
    GrowsBy pid before after where
  list := one.list.trans two.list
  stat := one.stat.trans two.stat
  lastStat := one.lastStat.trans two.lastStat

/-! ### One round -/

section Round

variable (cpuShare : UInt64 → CpuStat → UInt32) (cpuDelta : CpuStat)
  (pidNetworkUsage : UnorderedMap UInt32 NetworkStat) (reads : PidReads)

theorem growsBy_touchList (pid : UInt32) (table : ProcessTable) :
    GrowsBy pid table { table with listTable := table.listTable.touch pid } where
  list := UnorderedMap.GrowsBy.touch _
  stat := UnorderedMap.GrowsBy.refl _
  lastStat := UnorderedMap.GrowsBy.refl _

theorem growsBy_touchStat (pid : UInt32) (table : ProcessTable) :
    GrowsBy pid table { table with statTable := table.statTable.touch pid } where
  list := UnorderedMap.GrowsBy.refl _
  stat := UnorderedMap.GrowsBy.touch _
  lastStat := UnorderedMap.GrowsBy.refl _

theorem growsBy_touchLastStat (pid : UInt32) (table : ProcessTable) :
    GrowsBy pid table { table with lastStatTable := table.lastStatTable.touch pid } where
  list := UnorderedMap.GrowsBy.refl _
  stat := UnorderedMap.GrowsBy.refl _
  lastStat := UnorderedMap.GrowsBy.touch _

theorem growsBy_storeUsage (cpuMemStat : CpuMemStat) (table : ProcessTable) :
    GrowsBy reads.pid table (table.storeUsage cpuShare cpuDelta reads cpuMemStat) where
  list := UnorderedMap.GrowsBy.refl _
  stat := UnorderedMap.GrowsBy.assign _ _
  lastStat := UnorderedMap.GrowsBy.assign _ _

theorem growsBy_storeNetwork (pid : UInt32) (table : ProcessTable) :
    GrowsBy pid table (table.storeNetwork pidNetworkUsage pid) where
  list := UnorderedMap.GrowsBy.refl _
  stat := UnorderedMap.GrowsBy.assign _ _
  lastStat := UnorderedMap.GrowsBy.refl _

/-- A new listing adds no row but that of its pid. -/
theorem growsBy_refreshListing {table after : ProcessTable}
    (refreshed : table.refreshListing reads = some after) : GrowsBy reads.pid table after := by
  unfold refreshListing at refreshed
  split at refreshed
  · cases refreshed
  · split at refreshed
    · cases read : readProcessMetadata reads with
      | none => simp [read] at refreshed
      | some processListing =>
          simp only [read, Option.bind_eq_bind, Option.bind_some, Option.pure_def,
            Option.some.injEq] at refreshed
          subst refreshed
          exact ⟨UnorderedMap.GrowsBy.assign _ _, UnorderedMap.GrowsBy.refl _,
            UnorderedMap.GrowsBy.refl _⟩
    · cases refreshed
      exact ⟨UnorderedMap.GrowsBy.refl _, UnorderedMap.GrowsBy.refl _,
        UnorderedMap.GrowsBy.refl _⟩

/-- What a round can do to the keys, wherever it ends. -/
structure RoundKeys (pid : UInt32) (before : ProcessTable) (result : Round × ProcessTable) :
    Prop where
  grows : GrowsBy pid before result.2
  rows : result.1 = .completed → pid ∈ result.2.statTable ∧ pid ∈ result.2.lastStatTable

theorem RoundKeys.of_incomplete {pid : UInt32} {before : ProcessTable}
    {result : Round × ProcessTable} (grows : GrowsBy pid before result.2)
    (other : result.1 ≠ .completed) : RoundKeys pid before result :=
  ⟨grows, fun completed => absurd completed other⟩

/-- The readings add no rows but those of their pid, and if they are stored all, it has its row in
every table. -/
theorem updateRows_keys (table : ProcessTable) :
    RoundKeys reads.pid table (table.updateRows cpuShare cpuDelta pidNetworkUsage reads) := by
  have threw {after : ProcessTable} (grows : GrowsBy reads.pid table after) :
      RoundKeys reads.pid table (.threw, after) := .of_incomplete grows (by simp)
  unfold updateRows
  split
  · exact threw ⟨.refl _, .refl _, .refl _⟩
  · have stat := growsBy_touchStat reads.pid table
    simp only
    split
    · exact threw stat
    · have lastStat := stat.trans (growsBy_touchLastStat reads.pid _)
      split
      · exact threw lastStat
      · rename_i cpuMemStat read
        split
        · exact threw lastStat
        · have stored := lastStat.trans
            (growsBy_storeUsage cpuShare cpuDelta reads cpuMemStat _)
          split
          · exact threw stored
          · have network := stored.trans
              (growsBy_storeNetwork pidNetworkUsage reads.pid _)
            split
            · exact threw network
            · exact ⟨network, fun _ => by simp [storeNetwork, storeUsage]⟩

/-- A whole round does the same, and whatever becomes of it, its pid is listed. -/
theorem updatePid_keys (table : ProcessTable) :
    RoundKeys reads.pid table (table.updatePid cpuShare cpuDelta pidNetworkUsage reads) ∧
      reads.pid ∈ (table.updatePid cpuShare cpuDelta pidNetworkUsage reads).2.listTable := by
  have listed := growsBy_touchList reads.pid table
  have there : reads.pid ∈ table.listTable.touch reads.pid := by simp
  unfold updatePid
  simp only
  split
  · exact ⟨.of_incomplete listed (by simp), there⟩
  · rename_i refreshed read
    have fresh := growsBy_refreshListing reads read
    have kept := (fresh.list reads.pid).1 there
    split
    · exact ⟨.of_incomplete (listed.trans fresh) (by simp), kept⟩
    · have rest := updateRows_keys cpuShare cpuDelta pidNetworkUsage reads refreshed
      exact ⟨⟨(listed.trans fresh).trans rest.grows, rest.rows⟩,
        (rest.grows.list reads.pid).1 kept⟩

/-- The readings are stored exactly if there are any, and no row lacks the memory. -/
theorem updateRows_completed_iff (table : ProcessTable) :
    (table.updateRows cpuShare cpuDelta pidNetworkUsage reads).1 = .completed ↔
      reads.cpuMemStat.isSome ∧ reads.outOfMemory ∉
        [some .statRow, some .lastStatRow, some .ioPath, some .networkRow, some .seenRow] := by
  unfold updateRows
  simp only [List.mem_cons, List.not_mem_nil, or_false, not_or]
  split
  · simp [*]
  · split
    · simp [*]
    · cases reads.cpuMemStat with
      | none => simp
      | some cpuMemStat =>
          simp only [Option.isSome_some, true_and]
          split
          · simp [*]
          · split
            · simp [*]
            · split
              · simp [*]
              · simp [*]

/-- The update of a pid completes if nothing throws and the listing, the cached one or the
one that is read in its place, has arguments. -/
theorem updatePid_completed_iff (table : ProcessTable) :
    (table.updatePid cpuShare cpuDelta pidNetworkUsage reads).1 = .completed ↔
      reads.outOfMemory = none ∧ reads.cpuMemStat.isSome ∧
        ((table.listTable.valueAt reads.pid).args ≠ [] ∨
          ∃ listing, readProcessMetadata reads = some listing ∧ listing.args ≠ []) := by
  have points : reads.outOfMemory = none ↔ reads.outOfMemory ≠ some .copyArgs ∧
      reads.outOfMemory ∉ [some AllocationPoint.statRow, some .lastStatRow, some .ioPath,
        some .networkRow, some .seenRow] := by
    cases reads.outOfMemory with
    | none => simp
    | some point => cases point <;> simp
  unfold updatePid refreshListing
  rw [points]
  simp only [UnorderedMap.valueAt_touch]
  by_cases copies : reads.outOfMemory = some .copyArgs
  · simp [copies]
  · by_cases cached : (table.listTable.valueAt reads.pid).args = []
    · cases read : readProcessMetadata reads with
      | none => simp [copies, cached]
      | some listing =>
          by_cases shown : listing.args = []
          · simp [copies, cached, shown, UnorderedMap.valueAt_assign]
          · simp [copies, cached, shown, UnorderedMap.valueAt_assign,
              updateRows_completed_iff cpuShare cpuDelta pidNetworkUsage reads, and_comm]
    · simp [copies, cached, updateRows_completed_iff cpuShare cpuDelta pidNetworkUsage reads,
        and_comm]

/-- The readings leave the listings as they are. -/
theorem listTable_updateRows (table : ProcessTable) :
    (table.updateRows cpuShare cpuDelta pidNetworkUsage reads).2.listTable = table.listTable := by
  unfold updateRows
  simp only
  split
  · rfl
  · split
    · rfl
    · split
      · rfl
      · split
        · rfl
        · split
          · rfl
          · split
            · rfl
            · rfl

/-- A round touches the listing of its pid, and refreshes it if it can. -/
theorem listTable_updatePid (table : ProcessTable) :
    let touched := { table with listTable := table.listTable.touch reads.pid }
    (table.updatePid cpuShare cpuDelta pidNetworkUsage reads).2.listTable =
      ((touched.refreshListing reads).getD touched).listTable := by
  intro touched
  unfold updatePid
  simp only
  split
  · rename_i threw
    rw [threw]
    rfl
  · rename_i refreshed read
    rw [read, Option.getD_some]
    split
    · rfl
    · exact listTable_updateRows cpuShare cpuDelta pidNetworkUsage reads refreshed

/-- A process has arguments if it had some, or shows some now. -/
theorem args_refreshListing (table : ProcessTable) (pid : UInt32) :
    (((table.refreshListing reads).getD table).listTable.valueAt pid).args ≠ [] ↔
      (table.listTable.valueAt pid).args ≠ [] ∨ (reads.pid = pid ∧ reads.ShowsArgs) := by
  unfold refreshListing PidReads.ShowsArgs
  by_cases copies : reads.outOfMemory = some .copyArgs
  · simp [copies]
  · by_cases cached : (table.listTable.valueAt reads.pid).args = []
    · cases read : readProcessMetadata reads with
      | none => simp [copies, cached]
      | some listing =>
          by_cases same : pid = reads.pid
          · simp [copies, cached, same, UnorderedMap.valueAt_assign]
          · have other : reads.pid ≠ pid := fun equal => same equal.symm
            simp [copies, cached, same, other, UnorderedMap.valueAt_assign]
    · have kept : (table.listTable.valueAt pid).args ≠ [] ∨ (reads.pid = pid ∧
          ∃ listing, readProcessMetadata reads = some listing ∧ listing.args ≠ []) →
          (table.listTable.valueAt pid).args ≠ [] := by
        rintro (there | ⟨rfl, _⟩)
        · exact there
        · exact cached
      simp only [copies, List.isEmpty_iff, cached, if_false, Option.pure_def, Option.getD_some]
      exact ⟨Or.inl, fun either => kept (either.imp_right fun shown => ⟨shown.1, shown.2.2⟩)⟩

/-- A listing has arguments after a round if it had them before or the round reads them,
wherever the round ends. -/
theorem args_updatePid (table : ProcessTable) (pid : UInt32) :
    ((table.updatePid cpuShare cpuDelta pidNetworkUsage reads).2.listTable.valueAt pid).args ≠ [] ↔
      (table.listTable.valueAt pid).args ≠ [] ∨ (reads.pid = pid ∧ reads.ShowsArgs) := by
  rw [listTable_updatePid, args_refreshListing, UnorderedMap.valueAt_touch]

end Round

/-! ### The loop over the pids -/

/-- What holds between the rounds: each row has a listing, and each pid that has been seen
has all its rows. -/
structure Consistent (seen : UnorderedMap UInt32 Bool) (table : ProcessTable) : Prop where
  statListed : ∀ pid, pid ∈ table.statTable → pid ∈ table.listTable
  lastStatListed : ∀ pid, pid ∈ table.lastStatTable → pid ∈ table.listTable
  seenStat : ∀ pid, seen.valueAt pid = true → pid ∈ table.statTable
  seenLastStat : ∀ pid, seen.valueAt pid = true → pid ∈ table.lastStatTable

section Loop

variable (cpuShare : UInt64 → CpuStat → UInt32) (cpuDelta : CpuStat)
  (pidNetworkUsage : UnorderedMap UInt32 NetworkStat)

/-- What is seen after a round. -/
def seenAfter (round : Round) (pid : UInt32) (seen : UnorderedMap UInt32 Bool) :
    UnorderedMap UInt32 Bool :=
  if round = .completed then seen.assign pid true else seen

/-- A pid is seen when its round is completed. -/
theorem valueAt_seenAfter {round : Round} {pid other : UInt32}
    {seen : UnorderedMap UInt32 Bool} :
    (seenAfter round pid seen).valueAt other = true ↔
      (round = .completed ∧ other = pid) ∨ seen.valueAt other = true := by
  unfold seenAfter
  split
  · rename_i completed
    rw [UnorderedMap.valueAt_assign]
    split
    · simp [*]
    · simp [*]
  · simp [*]

/-- What a round adds to the tables is seen if it is complete, and otherwise in the listings, from
where the sweep takes it. -/
theorem Consistent.round {seen : UnorderedMap UInt32 Bool} {table : ProcessTable}
    {pid : UInt32} {result : Round × ProcessTable} (before : Consistent seen table)
    (keys : RoundKeys pid table result) (listed : pid ∈ result.2.listTable) :
    Consistent (seenAfter result.1 pid seen) result.2 where
  statListed other row := by
    cases (keys.grows.stat other).2 row with
    | inl same => exact same ▸ listed
    | inr old => exact (keys.grows.list other).1 (before.statListed other old)
  lastStatListed other row := by
    cases (keys.grows.lastStat other).2 row with
    | inl same => exact same ▸ listed
    | inr old => exact (keys.grows.list other).1 (before.lastStatListed other old)
  seenStat other flag := by
    cases valueAt_seenAfter.mp flag with
    | inl now => exact now.2 ▸ (keys.rows now.1).1
    | inr old => exact (keys.grows.stat other).1 (before.seenStat other old)
  seenLastStat other flag := by
    cases valueAt_seenAfter.mp flag with
    | inl now => exact now.2 ▸ (keys.rows now.1).2
    | inr old => exact (keys.grows.lastStat other).1 (before.seenLastStat other old)

/-- The loop, round by round. -/
theorem updatePids_cons (reads : PidReads) (later : List PidReads)
    (seen : UnorderedMap UInt32 Bool) (table : ProcessTable) :
    updatePids cpuShare cpuDelta pidNetworkUsage (reads :: later) (seen, table) =
      let result := table.updatePid cpuShare cpuDelta pidNetworkUsage reads
      updatePids cpuShare cpuDelta pidNetworkUsage later
        (seenAfter result.1 reads.pid seen, result.2) := rfl

/-- So the loop keeps the tables consistent. -/
theorem updatePids_consistent (pids : List PidReads) {seen : UnorderedMap UInt32 Bool}
    {table : ProcessTable} (before : Consistent seen table) :
    let after := updatePids cpuShare cpuDelta pidNetworkUsage pids (seen, table)
    Consistent after.1 after.2 := by
  induction pids generalizing seen table with
  | nil => exact before
  | cons reads later ih =>
      have step := updatePid_keys cpuShare cpuDelta pidNetworkUsage reads table
      rw [updatePids_cons]
      exact ih (before.round step.1 step.2)

/-- The pids that the loop has seen are those of its completed rounds. -/
theorem updatePids_seen (pids : List PidReads) (seen : UnorderedMap UInt32 Bool)
    (table : ProcessTable) (pid : UInt32) :
    (updatePids cpuShare cpuDelta pidNetworkUsage pids (seen, table)).1.valueAt pid = true ↔
      seen.valueAt pid = true ∨
        pid ∈ completedRounds cpuShare cpuDelta pidNetworkUsage pids table := by
  induction pids generalizing seen table with
  | nil => simp [updatePids, completedRounds]
  | cons reads later ih =>
      rw [updatePids_cons]
      simp only [ih, valueAt_seenAfter, completedRounds]
      split
      · rename_i completed
        simp [completed, or_left_comm, or_assoc]
      · rename_i other
        simp [other]

/-- Which rounds complete is decided by what can be read in them and by the listings there were
before. -/
theorem mem_completedRounds_iff (pids : List PidReads) (table : ProcessTable) (pid : UInt32) :
    pid ∈ completedRounds cpuShare cpuDelta pidNetworkUsage pids table ↔
      table.CanComplete pids pid := by
  induction pids generalizing table with
  | nil => simp [completedRounds, CanComplete]
  | cons reads later ih =>
      have first := updatePid_completed_iff cpuShare cpuDelta pidNetworkUsage reads table
      have kept := args_updatePid cpuShare cpuDelta pidNetworkUsage reads table pid
      have split : pid ∈ completedRounds cpuShare cpuDelta pidNetworkUsage (reads :: later) table ↔
          ((table.updatePid cpuShare cpuDelta pidNetworkUsage reads).1 = .completed ∧
            reads.pid = pid) ∨
          pid ∈ completedRounds cpuShare cpuDelta pidNetworkUsage later
            (table.updatePid cpuShare cpuDelta pidNetworkUsage reads).2 := by
        simp only [completedRounds]
        split
        · rename_i completed
          simp [completed, eq_comm]
        · rename_i other
          simp [other]
      rw [split, ih, first]
      unfold CanComplete
      rw [kept]
      constructor
      · rintro (⟨⟨memory, stat, shown⟩, same⟩ | ⟨front, target, back, rfl, here, runs, shown⟩)
        · refine ⟨[], reads, later, rfl, same, ⟨memory, stat⟩, ?_⟩
          subst same
          refine shown.imp_right fun fresh => ⟨reads, by simp, rfl, ?_, fresh⟩
          simp [memory]
        · refine ⟨reads :: front, target, back, rfl, here, runs, ?_⟩
          rcases shown with (before | fresh) | ⟨other, member, same, fresh⟩
          · exact Or.inl before
          · exact Or.inr ⟨reads, by simp, fresh⟩
          · exact Or.inr ⟨other, List.mem_cons_of_mem reads member, same, fresh⟩
      · rintro ⟨front, target, back, whole, here, runs, shown⟩
        cases front with
        | nil =>
            rw [List.nil_append, List.cons.injEq] at whole
            obtain ⟨rfl, rfl⟩ := whole
            subst here
            refine Or.inl ⟨⟨runs.1, runs.2, shown.imp_right ?_⟩, rfl⟩
            rintro ⟨other, member, _, _, fresh⟩
            rwa [List.mem_singleton.mp member] at fresh
        | cons head front =>
            rw [List.cons_append, List.cons.injEq] at whole
            obtain ⟨rfl, rfl⟩ := whole
            refine Or.inr ⟨front, target, back, rfl, here, runs, ?_⟩
            rcases shown with before | ⟨other, member, fresh⟩
            · exact Or.inl (Or.inl before)
            · rcases List.mem_cons.mp member with rfl | member
              · exact Or.inl (Or.inr fresh)
              · exact Or.inr ⟨other, member, fresh⟩

end Loop

/-! ### The loop over the listings -/

/-- The rows that stay are those that are seen or not visited. -/
theorem eraseUnseen_keys (seen : UnorderedMap UInt32 Bool)
    (rows : List ((_ : UInt32) × ProcessListing)) (table : ProcessTable) (pid : UInt32) :
    let stays := pid ∈ rows.keys → seen.valueAt pid = true
    let after := table.eraseUnseen seen rows
    (pid ∈ after.listTable ↔ pid ∈ table.listTable ∧ stays) ∧
      (pid ∈ after.statTable ↔ pid ∈ table.statTable ∧ stays) ∧
        (pid ∈ after.lastStatTable ↔ pid ∈ table.lastStatTable ∧ stays) := by
  induction rows generalizing table with
  | nil => simp [eraseUnseen]
  | cons row later ih =>
      unfold eraseUnseen
      by_cases unseen : seen.valueAt row.1 = false
      · have erased := ih (table.eraseRow row.1)
        by_cases same : pid = row.1
        · simpa [unseen, same, eraseRow] using erased
        · simpa [unseen, same, eraseRow] using erased
      · have kept := ih table
        by_cases same : pid = row.1
        · simpa [unseen, same] using kept
        · simpa [unseen, same] using kept

/-- After both loops the tables have rows for the pids that are seen. -/
theorem eraseUnseen_visit (order : ListingOrder) {seen : UnorderedMap UInt32 Bool}
    {table : ProcessTable} (before : Consistent seen table) (pid : UInt32) :
    let after := table.eraseUnseen seen (order.visit table.listTable.entries)
    (pid ∈ after.listTable ↔ seen.valueAt pid = true) ∧
      (pid ∈ after.statTable ↔ seen.valueAt pid = true) ∧
        (pid ∈ after.lastStatTable ↔ seen.valueAt pid = true) := by
  have visited : pid ∈ (order.visit table.listTable.entries).keys ↔ pid ∈ table.listTable :=
    ((order.perm table.listTable.entries).map Sigma.fst).mem_iff
  have erased := eraseUnseen_keys seen (order.visit table.listTable.entries) table pid
  simp only [visited] at erased
  have stat := before.statListed pid
  have lastStat := before.lastStatListed pid
  have seenStat := before.seenStat pid
  have seenLastStat := before.seenLastStat pid
  refine ⟨erased.1.trans ?_, erased.2.1.trans ?_, erased.2.2.trans ?_⟩
  · exact ⟨fun kept => kept.2 kept.1, fun flag => ⟨stat (seenStat flag), fun _ => flag⟩⟩
  · exact ⟨fun kept => kept.2 (stat kept.1), fun flag => ⟨seenStat flag, fun _ => flag⟩⟩
  · exact ⟨fun kept => kept.2 (lastStat kept.1),
      fun flag => ⟨seenLastStat flag, fun _ => flag⟩⟩

/-! ### Calls -/

section Calls

variable (cpuShare : UInt64 → CpuStat → UInt32)

/-- Before the loop nothing is seen, and the keys agree. -/
theorem KeysAre.consistent {table : ProcessTable} {pids : List UInt32}
    (keys : table.KeysAre pids) (lastCpu : CpuStat) :
    Consistent ∅ { table with lastCpu } where
  statListed pid row := (keys pid).1.mpr ((keys pid).2.1.mp row)
  lastStatListed pid row := (keys pid).1.mpr ((keys pid).2.2.mp row)
  seenStat _ flag := by cases flag
  seenLastStat _ flag := by cases flag

/-- A call returns exactly if /proc/stat and the list of the pids can be read. -/
theorem updateTable_returns (call : UpdateCall) (table : ProcessTable) :
    (table.updateTable cpuShare call).1 = (call.statCpu.isSome && call.pids.isSome) := by
  unfold updateTable
  cases call.statCpu with
  | none => rfl
  | some nowCpu =>
      cases call.pids with
      | none => rfl
      | some reads => rfl

/-- A pid is completed exactly if the two files can be read, and a round for it can come to its
end. -/
theorem mem_completed_iff (call : UpdateCall) (table : ProcessTable) (pid : UInt32) :
    pid ∈ table.completed cpuShare call ↔
      call.statCpu.isSome ∧ ∃ pids, call.pids = some pids ∧ table.CanComplete pids pid := by
  unfold completed
  cases call.statCpu with
  | none => simp
  | some nowCpu =>
      cases call.pids with
      | none => simp
      | some reads =>
          simp only [mem_completedRounds_iff, Option.isSome_some, Option.some.injEq, true_and]
          exact ⟨fun can => ⟨reads, rfl, can⟩, fun ⟨_, same, can⟩ => same ▸ can⟩

/-- Whatever the keys were, a call that returns leaves those of its completed rounds, and a
call that throws changes none. -/
theorem updateTable_keys (call : UpdateCall) {table : ProcessTable} {pids : List UInt32}
    (keys : table.KeysAre pids) :
    let (returned, after) := table.updateTable cpuShare call
    after.KeysAre (if returned then table.completed cpuShare call else pids) := by
  unfold updateTable completed
  cases call.statCpu with
  | none => exact keys
  | some nowCpu =>
      cases call.pids with
      | none => exact keys
      | some reads =>
          intro pid
          have loop := updatePids_consistent cpuShare (cpuDelta nowCpu table.lastCpu)
            call.pidNetworkUsage reads (keys.consistent nowCpu)
          have seen := updatePids_seen cpuShare (cpuDelta nowCpu table.lastCpu)
            call.pidNetworkUsage reads ∅ { table with lastCpu := nowCpu } pid
          have erased := eraseUnseen_visit call.order loop pid
          simpa [seen] using erased

theorem empty_keys : empty.KeysAre [] := by
  intro pid
  simp [empty]

/-- After any calls the three tables have the same keys. -/
theorem foldl_keys (calls : List UpdateCall) {table : ProcessTable} {pids : List UInt32}
    (keys : table.KeysAre pids) :
    ∃ pids, (calls.foldl (fun table call => (table.updateTable cpuShare call).2) table).KeysAre
      pids := by
  induction calls generalizing table pids with
  | nil => exact ⟨pids, keys⟩
  | cons call later ih => exact ih (updateTable_keys cpuShare call keys)

/-- The three tables agree after any calls. -/
theorem afterCalls_keys (calls : List UpdateCall) :
    (afterCalls cpuShare calls).KeysAre (afterCalls cpuShare calls).listTable.keys := by
  obtain ⟨pids, keys⟩ := foldl_keys cpuShare calls empty_keys
  intro pid
  have same : pid ∈ (afterCalls cpuShare calls).listTable.keys ↔ pid ∈ pids :=
    AList.mem_keys.symm.trans (keys pid).1
  exact ⟨AList.mem_keys, (keys pid).2.1.trans same.symm, (keys pid).2.2.trans same.symm⟩

end Calls

/-! ### The listings -/

section Listings

variable {table : ProcessTable} {pids : List UInt32}

/-- The lookup for a listing finds a row. -/
theorem KeysAre.lookup_isSome (keys : table.KeysAre pids) {order : ListingOrder}
    {row : (_ : UInt32) × ProcessListing} (visited : row ∈ order.visit table.listTable.entries) :
    (table.statTable.lookup row.1).isSome := by
  have stored : row ∈ table.listTable.entries := order.mem_visit.mp visited
  have listed : row.1 ∈ table.listTable := List.mem_map_of_mem stored
  apply AList.lookup_isSome.mpr
  exact (keys row.1).2.1.mpr ((keys row.1).1.mp listed)

/-- No look-up throws, if every listed pid has its statistics. -/
theorem mapM_fullStat_isSome {rows : List ((_ : UInt32) × ProcessListing)}
    (found : ∀ row ∈ rows, (table.statTable.lookup row.1).isSome) :
    (rows.mapM table.fullStat).isSome := by
  induction rows with
  | nil => rfl
  | cons row rows ih =>
      obtain ⟨stat, here⟩ := Option.isSome_iff_exists.mp (found row List.mem_cons_self)
      obtain ⟨others, rest⟩ := Option.isSome_iff_exists.mp
        (ih fun other member => found other (List.mem_cons_of_mem row member))
      simp [List.mapM_cons, fullStat, here, rest]

/-- So it is for `get_sorted`. -/
theorem KeysAre.getSorted_isSome (keys : table.KeysAre pids)
    (partialSort : (ProcessFullStat → ProcessFullStat → Bool) → Nat → List ProcessFullStat →
      List ProcessFullStat)
    (order : ListingOrder) (type : ProcessSortType) (limit : UInt32) :
    (table.getSorted partialSort order type limit).isSome := by
  have rows : ((order.visit table.listTable.entries).mapM table.fullStat).isSome :=
    mapM_fullStat_isSome fun _ visited => keys.lookup_isSome visited
  obtain ⟨ret, collected⟩ := Option.isSome_iff_exists.mp rows
  simp [getSorted, collected]

/-- And for the totals. -/
theorem foldlM_addRow_isSome {rows : List ((_ : UInt32) × ProcessListing)}
    (found : ∀ row ∈ rows, (table.statTable.lookup row.1).isSome)
    (totals : UnorderedMap Bytes ProcessStat) : (rows.foldlM table.addRow totals).isSome := by
  induction rows generalizing totals with
  | nil => rfl
  | cons row rows ih =>
      obtain ⟨stat, here⟩ := Option.isSome_iff_exists.mp (found row List.mem_cons_self)
      have rest := ih fun other member => found other (List.mem_cons_of_mem row member)
      simp [List.foldlM_cons, addRow, here, rest]

theorem KeysAre.getMapProgramNameResource_isSome (keys : table.KeysAre pids)
    (order : ListingOrder) : (table.getMapProgramNameResource order).isSome :=
  foldlM_addRow_isSome (fun _ visited => keys.lookup_isSome visited) ∅

end Listings

/-- After any calls, one more call returns if it can read what it needs before its loops.  Then
it leaves rows in the three tables for the pids whose update it completed, and these are the ones
of which all could be read; a call that throws keeps the rows there were.  Either way the listings
find the rows they look up, in whatever order they visit the processes. -/
theorem tables_agree (cpuShare : UInt64 → CpuStat → UInt32) (calls : List UpdateCall)
    (call : UpdateCall) :
    let before := afterCalls cpuShare calls
    let (returned, after) := before.updateTable cpuShare call
    returned = (call.statCpu.isSome && call.pids.isSome) ∧
      after.KeysAre
        (if call.statCpu.isSome && call.pids.isSome then before.completed cpuShare call
          else before.listTable.keys) ∧
      (∀ pid, pid ∈ before.completed cpuShare call ↔
        call.statCpu.isSome ∧ ∃ pids, call.pids = some pids ∧ before.CanComplete pids pid) ∧
      ∀ order,
        (∀ partialSort type limit, (after.getSorted partialSort order type limit).isSome) ∧
          (after.getMapProgramNameResource order).isSome := by
  have returns := updateTable_returns cpuShare call (afterCalls cpuShare calls)
  have keys := updateTable_keys cpuShare call (afterCalls_keys cpuShare calls)
  refine ⟨returns, returns ▸ keys, mem_completed_iff cpuShare call _,
    fun order => ⟨?_, keys.getMapProgramNameResource_isSome order⟩⟩
  intro partialSort type limit
  exact keys.getSorted_isSome partialSort order type limit

end ProcessTable

end RemoteMonitoring
