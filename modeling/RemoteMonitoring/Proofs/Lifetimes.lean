/-
Module: RemoteMonitoring.Proofs.Lifetimes
Purpose: Whether the rows describe the processes that have the pids now: the tables keep the
  command line and the counters of a pid for as long as its update completes, whoever has it.
Trusted boundary: none
Main exports: Remembers, current_iff_persists, Remembers.updateTable, rows_current_iff
-/
import RemoteMonitoring.Proofs.ProcessRow

namespace RemoteMonitoring

open ByteText

namespace ProcessTable

variable {cpuShare : UInt64 → CpuStat → UInt32}

/-- The rows are those of the processes that a call could list. -/
structure Remembers (table : ProcessTable) (call : UpdateCall) : Prop where
  keys : ∃ pids, table.KeysAre pids ∧
    ∀ pid, pid ∈ pids ↔ ∃ reads ∈ shown call, reads.pid = pid ∧ reads.Listed
  listing : ∀ reads ∈ shown call, reads.Listed →
    table.listTable.lookup reads.pid = readProcessMetadata reads
  lastDisk : ∀ reads ∈ shown call, reads.Listed →
    (table.lastStatTable.valueAt reads.pid).diskStat = reads.diskStat

/-- Where no pid is listed twice, each is listed once. -/
theorem listedOnce_of_nodup {pids : List PidReads} (distinct : (pids.map PidReads.pid).Nodup)
    {reads : PidReads} (member : reads ∈ pids) : ListedOnce pids reads := by
  obtain ⟨front, back, rfl⟩ := List.append_of_mem member
  refine ⟨front, back, rfl, ?_⟩
  intro other elsewhere same
  simp only [List.map_append, List.map_cons, List.nodup_append, List.nodup_cons] at distinct
  rcases List.mem_append.mp elsewhere with inFront | inBack
  · exact distinct.2.2 _ (List.mem_map_of_mem inFront) _ List.mem_cons_self same
  · exact distinct.2.1.1 (same ▸ List.mem_map_of_mem inBack)

/-- An unsigned difference is part of the counter unless it wraps. -/
theorem within_delta_iff (now last : Option UInt64) :
    Within (delta now last) now ↔ NotBelow now last := by
  cases now with
  | none => simp [Within, NotBelow, delta]
  | some counter =>
      cases last with
      | none => simp [Within, NotBelow, delta]
      | some earlier =>
          have difference : counter - earlier ≤ counter ↔ earlier ≤ counter := by
            have bound := earlier.toNat_lt
            simp only [UInt64.le_iff_toNat_le, UInt64.toNat_sub]
            omega
          simpa [Within, NotBelow, delta] using difference

/-- A row that a round has made, against what the round has read. -/
theorem RowAfter.describes_iff {reads : PidReads} {table after : ProcessTable}
    (row : RowAfter reads table after) (there : reads.pid ∈ after.listTable) :
    after.Describes reads ↔
      some (after.listTable.valueAt reads.pid) = readProcessMetadata reads ∧
        NotBelow reads.diskStat.diskRead
            (table.lastStatTable.valueAt reads.pid).diskStat.diskRead ∧
          NotBelow reads.diskStat.diskWrite
            (table.lastStatTable.valueAt reads.pid).diskStat.diskWrite := by
  constructor
  · rintro ⟨listing, diskRead, diskWrite⟩
    rw [row.diskUsage, within_delta_iff] at diskRead diskWrite
    exact ⟨UnorderedMap.lookup_eq_valueAt there ▸ listing, diskRead, diskWrite⟩
  · rintro ⟨listing, diskRead, diskWrite⟩
    constructor
    · rw [UnorderedMap.lookup_eq_valueAt there, listing]
    · rw [row.diskUsage]
      exact (within_delta_iff _ _).mpr diskRead
    · rw [row.diskUsage]
      exact (within_delta_iff _ _).mpr diskWrite

section Call

variable {table : ProcessTable} {before call : UpdateCall}

/-- The rows of a pid that the call before has listed. -/
theorem Remembers.known (remembers : table.Remembers before) {earlier : PidReads}
    (shown : earlier ∈ shown before) (listed : earlier.Listed) :
    readProcessMetadata earlier = some (table.listTable.valueAt earlier.pid) ∧
      (table.listTable.valueAt earlier.pid).args ≠ [] ∧
        (table.lastStatTable.valueAt earlier.pid).diskStat = earlier.diskStat := by
  have found := remembers.listing earlier shown listed
  obtain ⟨runs, listing, read, args⟩ := listed
  have value : table.listTable.valueAt earlier.pid = listing := by
    simp [UnorderedMap.valueAt, found, read]
  rw [value]
  exact ⟨read, args, remembers.lastDisk earlier shown ⟨runs, listing, read, args⟩⟩

/-- The rows of any other pid. -/
theorem Remembers.unknown (remembers : table.Remembers before) {pid : UInt32}
    (new : ¬ ∃ earlier ∈ shown before, earlier.pid = pid ∧ earlier.Listed) :
    table.listTable.valueAt pid = default ∧ table.lastStatTable.valueAt pid = default := by
  obtain ⟨pids, keys, listed⟩ := remembers.keys
  have missing : pid ∉ pids := fun member => new ((listed pid).mp member)
  exact ⟨UnorderedMap.valueAt_of_not_mem fun there => missing ((keys pid).1.mp there),
    UnorderedMap.valueAt_of_not_mem fun there => missing ((keys pid).2.2.mp there)⟩

variable (cpuShare)

/-- After a call the tables have rows for what it has completed, each made by its round. -/
theorem Snapshot.rows (snapshot : Snapshot call) {pids : List UInt32} (keys : table.KeysAre pids) :
    let after := (table.updateTable cpuShare call).2
    after.KeysAre (table.completed cpuShare call) ∧
      (∀ pid ∈ table.completed cpuShare call, ∃ reads ∈ shown call, reads.pid = pid) ∧
        ∀ reads ∈ shown call,
          (reads.pid ∈ table.completed cpuShare call ↔
            reads.Runs ∧ ((table.listTable.valueAt reads.pid).args ≠ [] ∨
              ∃ listing, readProcessMetadata reads = some listing ∧ listing.args ≠ [])) ∧
            (reads.pid ∈ table.completed cpuShare call → RowAfter reads table after) := by
  obtain ⟨read, pids, listed, distinct⟩ := snapshot
  obtain ⟨nowCpu, stat⟩ := Option.isSome_iff_exists.mp read
  have listing : shown call = pids := by simp [shown, listed]
  have after := updateTable_keys cpuShare call keys
  have returned : (table.updateTable cpuShare call).1 = true := by
    simp [updateTable, stat, listed]
  refine ⟨by simpa [returned] using after, ?_, ?_⟩
  · intro pid done
    by_contra elsewhere
    refine absurd done ?_
    simp only [completed, stat, listed]
    apply not_mem_completedRounds
    intro other member same
    exact elsewhere ⟨other, listing ▸ member, same⟩
  · intro reads member
    exact updateTable_row cpuShare read listed (listedOnce_of_nodup distinct (listing ▸ member))
      table

/-- The row that a round leaves describes its process exactly if what the call before has listed
under the pid continues in it. -/
theorem Remembers.describes_iff (remembers : table.Remembers before) (snapshot : Snapshot call)
    {reads : PidReads} (member : reads ∈ shown call)
    (done : reads.pid ∈ table.completed cpuShare call) :
    let after := (table.updateTable cpuShare call).2
    after.Describes reads ↔
      ∀ earlier ∈ shown before, earlier.pid = reads.pid → earlier.Listed →
        Continues earlier reads := by
  intro after
  obtain ⟨pids, keys, _⟩ := remembers.keys
  obtain ⟨keysAfter, _, rows⟩ := snapshot.rows cpuShare keys
  obtain ⟨completes, row⟩ := rows reads member
  have there : reads.pid ∈ after.listTable := (keysAfter reads.pid).1.mpr done
  rw [(row done).describes_iff there, (row done).listing]
  by_cases known : ∃ earlier ∈ shown before, earlier.pid = reads.pid ∧ earlier.Listed
  · have kept {earlier : PidReads} (there : earlier ∈ shown before)
        (same : earlier.pid = reads.pid) (listed : earlier.Listed) :=
      same ▸ remembers.known there listed
    constructor
    · rintro ⟨listing, diskRead, diskWrite⟩ earlier there same listed
      obtain ⟨read, args, lastDisk⟩ := kept there same listed
      rw [if_neg args] at listing
      rw [lastDisk] at diskRead diskWrite
      exact ⟨listing.symm.trans read.symm, diskRead, diskWrite⟩
    · intro continues
      obtain ⟨earlier, there, same, listed⟩ := known
      obtain ⟨read, args, lastDisk⟩ := kept there same listed
      obtain ⟨listing, diskRead, diskWrite⟩ := continues earlier there same listed
      rw [if_neg args, lastDisk]
      exact ⟨read.symm.trans listing.symm, diskRead, diskWrite⟩
  · obtain ⟨noListing, noLast⟩ := remembers.unknown known
    obtain ⟨_, shown⟩ := completes.mp done
    obtain ⟨listing, read, _⟩ := shown.resolve_left fun args => args (by rw [noListing]; rfl)
    constructor
    · intro _ earlier there same listed
      exact absurd ⟨earlier, there, same, listed⟩ known
    · intro _
      have noArgs : (default : ProcessListing).args = [] := rfl
      have noDisk : (default : ProcessLastStat).diskStat = ⟨none, none⟩ := rfl
      rw [noListing, noLast, if_pos noArgs, read, noDisk]
      exact ⟨rfl, by simp [NotBelow], by simp [NotBelow]⟩

/-- A snapshot shows one process of a pid. -/
theorem Snapshot.eq_of_pid (snapshot : Snapshot call) {one two : PidReads}
    (first : one ∈ shown call) (second : two ∈ shown call) (same : one.pid = two.pid) :
    one = two := by
  obtain ⟨_, pids, listed, distinct⟩ := snapshot
  simp only [shown, listed, Option.getD_some] at first second
  exact List.inj_on_of_nodup_map distinct first second same

/-- The rows are current after a call exactly if what the call before has listed persists. -/
theorem Remembers.current_iff (remembers : table.Remembers before) (snapshot : Snapshot call) :
    (table.updateTable cpuShare call).2.Current call ↔ Persists before call := by
  obtain ⟨pids, keys, _⟩ := remembers.keys
  obtain ⟨keysAfter, listed, rows⟩ := snapshot.rows cpuShare keys
  constructor
  · intro current earlier there now member same runs live
    have cached := remembers.known there runs
    rw [same] at cached
    have done := (rows now member).1.mpr ⟨live, Or.inl cached.2.1⟩
    obtain ⟨reads, again, samePid, describes⟩ := current now.pid ((keysAfter now.pid).1.mpr done)
    cases snapshot.eq_of_pid again member samePid
    exact (remembers.describes_iff cpuShare snapshot member done).mp describes earlier there same
      runs
  · intro persists pid there
    have done := (keysAfter pid).1.mp there
    obtain ⟨reads, member, rfl⟩ := listed pid done
    have live := ((rows reads member).1.mp done).1
    refine ⟨reads, member, rfl, ?_⟩
    apply (remembers.describes_iff cpuShare snapshot member done).mpr
    intro earlier before same runs
    exact persists earlier before reads member same runs live

/-- Rows that are current are what the next call finds. -/
theorem Remembers.updateTable (remembers : table.Remembers before) (snapshot : Snapshot call)
    (current : (table.updateTable cpuShare call).2.Current call) :
    (table.updateTable cpuShare call).2.Remembers call := by
  obtain ⟨pids, keys, _⟩ := remembers.keys
  obtain ⟨keysAfter, listed, rows⟩ := snapshot.rows cpuShare keys
  have completes {reads : PidReads} (member : reads ∈ shown call) (listing : reads.Listed) :
      reads.pid ∈ table.completed cpuShare call :=
    (rows reads member).1.mpr ⟨listing.1, Or.inr listing.2⟩
  have describes {reads : PidReads} (member : reads ∈ shown call)
      (done : reads.pid ∈ table.completed cpuShare call) :
      (table.updateTable cpuShare call).2.Describes reads := by
    obtain ⟨other, there, same, described⟩ := current reads.pid ((keysAfter reads.pid).1.mpr done)
    exact snapshot.eq_of_pid there member same ▸ described
  refine ⟨⟨_, keysAfter, ?_⟩, ?_, ?_⟩
  · intro pid
    constructor
    · intro done
      obtain ⟨reads, member, rfl⟩ := listed pid done
      have found := (describes member done).listing
      rw [UnorderedMap.lookup_eq_valueAt ((keysAfter reads.pid).1.mpr done)] at found
      obtain ⟨runs, shown⟩ := (rows reads member).1.mp done
      refine ⟨reads, member, rfl, runs, _, found.symm, ?_⟩
      rw [((rows reads member).2 done).listing]
      split
      · rename_i uncached
        obtain ⟨listing, read, args⟩ := shown.resolve_left fun cached => cached uncached
        rw [read]
        exact args
      · assumption
    · rintro ⟨reads, member, rfl, listing⟩
      exact completes member listing
  · intro reads member listing
    exact (describes member (completes member listing)).listing
  · intro reads member listing
    exact ((rows reads member).2 (completes member listing)).lastDisk

end Call

/-! ### Runs -/

/-- All rows of a run are current exactly if each call meets the processes of the call before, as
far as their pids are still there. -/
theorem Remembers.run_iff {table : ProcessTable} {before : UpdateCall}
    (remembers : table.Remembers before) {calls : List UpdateCall}
    (snapshots : ∀ call ∈ calls, Snapshot call) :
    (∀ count, ∀ call ∈ calls[count]?,
        ((calls.take (count + 1)).foldl
          (fun table call => (table.updateTable cpuShare call).2) table).Current call) ↔
      (before :: calls).IsChain Persists := by
  induction calls generalizing table before with
  | nil => simp
  | cons call later ih =>
      have snapshot := snapshots call List.mem_cons_self
      have others := fun other member => snapshots other (List.mem_cons_of_mem call member)
      have here := remembers.current_iff cpuShare snapshot
      rw [List.isChain_cons_cons]
      constructor
      · intro all
        have first := all 0 call rfl
        have after := remembers.updateTable cpuShare snapshot first
        exact ⟨here.mp first, (ih after others).mp fun count => all (count + 1)⟩
      · rintro ⟨persists, rest⟩ count
        have first := here.mpr persists
        have after := remembers.updateTable cpuShare snapshot first
        cases count with
        | zero =>
            intro other same
            cases same
            exact first
        | succ count => exact (ih after others).mpr rest count

/-- A row describes the process that has its pid now: after every call of a run, exactly if
from each call to the next no pid that was listed, and whose update does not throw, shows
another command line or lower counters. -/
theorem rows_current_iff (cpuShare : UInt64 → CpuStat → UInt32) {calls : List UpdateCall}
    (snapshots : ∀ call ∈ calls, Snapshot call) :
    (∀ count, ∀ call ∈ calls[count]?,
        (afterCalls cpuShare (calls.take (count + 1))).Current call) ↔
      calls.IsChain Persists := by
  let nothing : UpdateCall := ⟨none, none, ∅, .stored⟩
  have remembers : empty.Remembers nothing :=
    ⟨⟨[], empty_keys, by simp [shown, nothing]⟩, by simp [shown, nothing],
      by simp [shown, nothing]⟩
  have first (call : UpdateCall) : Persists nothing call := by simp [Persists, shown, nothing]
  refine (remembers.run_iff snapshots).trans ?_
  cases calls with
  | nil => simp
  | cons call later => simp [List.isChain_cons_cons, first call]

/-! ### A pid that is taken over -/

/-- What a call shows that finds one process. -/
def runningReads (command : Bytes) (counter : UInt64) : PidReads where
  pid := 7
  cmdline := some (command ++ [0])
  comm := none
  cpuMemStat := some ⟨1, 1⟩
  diskStat := ⟨some counter, some counter⟩
  outOfMemory := none

def runningCall (command : Bytes) (counter : UInt64) : UpdateCall :=
  ⟨some default, some [runningReads command counter], ∅, .stored⟩

theorem runningCall_snapshot (command : Bytes) (counter : UInt64) :
    Snapshot (runningCall command counter) := ⟨rfl, _, rfl, List.nodup_singleton _⟩

/-- The process keeps running. -/
theorem rows_current_iff_sample :
    (afterCalls (fun _ _ => 0)
      [runningCall (ascii "vim") 100, runningCall (ascii "vim") 150]).Current
        (runningCall (ascii "vim") 150) := by
  have persists : Persists (runningCall (ascii "vim") 100) (runningCall (ascii "vim") 150) := by
    intro earlier there later here _ _ _
    cases List.mem_singleton.mp there
    cases List.mem_singleton.mp here
    exact ⟨rfl, by simp [NotBelow, runningReads], by simp [NotBelow, runningReads]⟩
  have snapshots : ∀ call ∈ [runningCall (ascii "vim") 100, runningCall (ascii "vim") 150],
      Snapshot call := by simp [runningCall_snapshot]
  exact (rows_current_iff (fun _ _ => 0) snapshots).mpr (.cons_cons persists (.singleton _)) 1 _
    rfl

/-- Another process takes the pid, with lower counters: it is shown under the name of the first
and with 2^64 - 70 bytes read. -/
theorem taken_pid_not_current :
    let calls := [runningCall (ascii "vim") 100, runningCall (ascii "bash") 30]
    let after := afterCalls (fun _ _ => 0) calls
    (∀ call ∈ calls, Snapshot call) ∧
      after.listTable.lookup 7 = some ⟨ascii "vim", [ascii "vim"]⟩ ∧
        (after.statTable.valueAt 7).diskUsage.diskRead = some (0 - 70) ∧
          ¬ ∀ count, ∀ call ∈ calls[count]?,
            (afterCalls (fun _ _ => 0) (calls.take (count + 1))).Current call := by
  intro calls after
  have listing : after.listTable.lookup 7 = some ⟨ascii "vim", [ascii "vim"]⟩ := by
    decide +kernel
  refine ⟨by simp [calls, runningCall_snapshot], listing, by decide +kernel, ?_⟩
  intro current
  have there : 7 ∈ after.listTable := AList.lookup_isSome.mp (by simp [listing])
  obtain ⟨reads, member, same, describes⟩ := current 1 (runningCall (ascii "bash") 30) rfl 7 there
  cases List.mem_singleton.mp member
  have name := describes.listing.symm.trans listing
  exact absurd name (by decide)

end ProcessTable

end RemoteMonitoring
