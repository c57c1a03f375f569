/-
Module: RemoteMonitoring.Proofs.DiskUsage
Purpose: What the disk usage that is reported for a process adds up to: where its counters
  could not be read for a while, all that they showed before is reported again.
Trusted boundary: none
Main exports: reportedDeltas_eq, sum_deltasFrom, deltas_telescope_iff
-/
import Mathlib.Data.List.ReduceOption
import RemoteMonitoring.Proofs.ProcessRow

namespace RemoteMonitoring

open ByteText

namespace ProcessTable

/-! ### Deltas of a list of readings -/

/-- The deltas of some readings, each against the one before it. -/
def deltasFrom : Option UInt64 → List (Option UInt64) → List (Option UInt64)
  | _, [] => []
  | last, now :: later => delta now last :: deltasFrom now later

/-- What is counted twice: the last reading before each gap that ends. -/
def recounted : UInt64 → Bool → List (Option UInt64) → Nat
  | _, _, [] => 0
  | last, _, none :: later => recounted last true later
  | last, missed, some now :: later =>
      (if missed then last.toNat else 0) + recounted now false later

/-- Nothing is counted again exactly if the baseline is kept. -/
theorem recounted_eq_zero (last : UInt64) (missed : Bool) (readings : List (Option UInt64)) :
    recounted last missed readings = 0 ↔ BaselineKept last missed readings := by
  induction readings generalizing last missed with
  | nil => simp [recounted, BaselineKept]
  | cons reading later ih =>
      cases reading with
      | none => exact ih last true
      | some now =>
          have zero : last.toNat = 0 ↔ last = 0 := UInt64.toNat_inj (b := 0)
          cases missed with
          | false => simpa [recounted, BaselineKept] using ih now false
          | true => simp [recounted, BaselineKept, ih, zero]

/-- The total of some deltas; a delta that is not reported counts as 0. -/
def total (deltas : List (Option UInt64)) : Nat :=
  (deltas.map fun reported => (reported.getD 0).toNat).sum

theorem total_cons (reported : Option UInt64) (deltas : List (Option UInt64)) :
    total (reported :: deltas) = (reported.getD 0).toNat + total deltas := rfl

/-- The deltas telescope but for what is counted twice. -/
theorem total_deltasFrom {last : UInt64} {baseline : Option UInt64}
    {readings : List (Option UInt64)} (either : baseline = some last ∨ baseline = none)
    (ascending : (last :: readings.reduceOption).Pairwise (· ≤ ·)) :
    last.toNat + total (deltasFrom baseline readings) =
      (readings.reduceOption.getLastD last).toNat +
        recounted last baseline.isNone readings := by
  induction readings generalizing last baseline with
  | nil => simp [deltasFrom, total, recounted]
  | cons reading later ih =>
      cases reading with
      | none =>
          have rest := ih (Or.inr rfl) ascending
          simpa [deltasFrom, total, recounted, delta] using rest
      | some now =>
          simp only [List.reduceOption_cons_of_some] at ascending ⊢
          have le : last ≤ now := (List.pairwise_cons.mp ascending).1 now List.mem_cons_self
          have rest := ih (Or.inl rfl) (List.pairwise_cons.mp ascending).2
          simp only [Option.isNone_some] at rest
          rw [deltasFrom, total_cons, recounted, List.getLastD_cons]
          rcases either with kept | lost
          · have difference : ((delta (some now) baseline).getD 0).toNat =
                now.toNat - last.toNat := by
              simpa [delta, kept] using UInt64.toNat_sub_of_le now last le
            have bound := UInt64.le_iff_toNat_le.mp le
            simp only [kept, Option.isNone_some, Bool.false_eq_true, if_false] at difference ⊢
            omega
          · have all : ((delta (some now) baseline).getD 0).toNat = now.toNat := by
              simp [delta, lost]
            simp only [lost, Option.isNone_none, if_true] at all ⊢
            omega

/-! ### Runs -/

variable {cpuShare : UInt64 → CpuStat → UInt32} {pid : UInt32} {field : DiskStat → Option UInt64}

/-- A completed update reports the growth since the last reading, and keeps the new one. -/
theorem RowAfter.delta_eq {reads : PidReads} {before after : ProcessTable}
    (row : RowAfter reads before after)
    (known : field ∈ [DiskStat.diskRead, DiskStat.diskWrite]) :
    field (after.statTable.valueAt reads.pid).diskUsage =
        delta (field reads.diskStat)
          (field (before.lastStatTable.valueAt reads.pid).diskStat) ∧
      field (after.lastStatTable.valueAt reads.pid).diskStat = field reads.diskStat := by
  rw [row.diskUsage, row.lastDisk]
  simp only [List.mem_cons, List.not_mem_nil, or_false] at known
  rcases known with rfl | rfl
  · exact ⟨rfl, rfl⟩
  · exact ⟨rfl, rfl⟩

theorem Updates.row {table : ProcessTable} {call : UpdateCall} {reads : PidReads}
    (updates : table.Updates cpuShare call reads) :
    RowAfter reads table (table.updateTable cpuShare call).2 := by
  obtain ⟨pids, listed, once⟩ := updates.listed
  exact (updateTable_row cpuShare updates.read listed once table).2 updates.completed

/-- What is reported is the deltas of what is read. -/
theorem reportedDeltas_eq (known : field ∈ [DiskStat.diskRead, DiskStat.diskWrite])
    {samples : List (UpdateCall × PidReads)} {table : ProcessTable}
    (updates : table.UpdatesAll cpuShare pid samples) :
    reportedDeltas cpuShare pid field samples table =
      deltasFrom (field (table.lastStatTable.valueAt pid).diskStat)
        (samples.map fun sample => field sample.2.diskStat) := by
  induction samples generalizing table with
  | nil => rfl
  | cons sample later ih =>
      obtain ⟨same, update, rest⟩ := updates
      have row := update.row.delta_eq known
      rw [same] at row
      rw [reportedDeltas, List.map_cons, deltasFrom, ih rest, row.1, row.2]

theorem reported_isSome (baseline : Option UInt64) (readings : List (Option UInt64)) :
    (deltasFrom baseline readings).map Option.isSome = readings.map Option.isSome := by
  induction readings generalizing baseline with
  | nil => rfl
  | cons reading later ih => simp [deltasFrom, delta, ih]

/-- The disk usage that is reported for a process after a first call that reads its counter, as
long as each call updates it and its counter does not fall: a delta is reported whenever the
counter is read, and they add up to the last reading without the first exactly if the counter
was 0 before each gap in its readings. -/
theorem deltas_telescope_iff {table : ProcessTable} {first : UpdateCall × PidReads}
    {later : List (UpdateCall × PidReads)}
    (updates : table.UpdatesAll cpuShare pid (first :: later))
    (known : field ∈ [DiskStat.diskRead, DiskStat.diskWrite]) {start : UInt64}
    (readable : field first.2.diskStat = some start)
    (ascending : (start ::
      (later.map fun sample => field sample.2.diskStat).reduceOption).Pairwise (· ≤ ·)) :
    let readings := later.map fun sample => field sample.2.diskStat
    let deltas := reportedDeltas cpuShare pid field later (table.updateTable cpuShare first.1).2
    deltas.map Option.isSome = readings.map Option.isSome ∧
      ((deltas.map fun reported => (reported.getD 0).toNat).sum =
          (readings.reduceOption.getLastD start).toNat - start.toNat ↔
        BaselineKept start false readings) := by
  intro readings deltas
  obtain ⟨same, update, rest⟩ := updates
  have row := (update.row.delta_eq known).2
  rw [same, readable] at row
  have reported : deltas = deltasFrom (some start) readings := by
    rw [← row]
    exact reportedDeltas_eq known rest
  have sum : start.toNat + total (deltasFrom (some start) readings) =
      (readings.reduceOption.getLastD start).toNat + recounted start false readings :=
    total_deltasFrom (Or.inl rfl) ascending
  have le : start ≤ readings.reduceOption.getLastD start := by
    have member : readings.reduceOption.getLastD start ∈ start :: readings.reduceOption :=
      List.getLastD_mem_cons
    rcases List.mem_cons.mp member with last | last
    · rw [last]
      exact UInt64.le_refl start
    · exact (List.pairwise_cons.mp ascending).1 _ last
  have bound := UInt64.le_iff_toNat_le.mp le
  refine ⟨reported ▸ reported_isSome _ _, ?_⟩
  rw [← recounted_eq_zero, reported]
  unfold total at sum
  omega

/-! ### A process that cannot be read for a while -/

/-- A call that shows one process, with a counter that may be unreadable. -/
def sampleSample (counter : Option UInt64) : UpdateCall × PidReads :=
  let reads : PidReads :=
    { pid := 7
      cmdline := some (ascii "vim" ++ [0])
      comm := none
      cpuMemStat := some ⟨1, 1⟩
      diskStat := ⟨counter, counter⟩
      outOfMemory := none }
  (⟨some default, some [reads], ∅, .stored⟩, reads)

theorem sampleSample_updates (counter : Option UInt64) (table : ProcessTable)
    (cpuShare : UInt64 → CpuStat → UInt32) :
    table.Updates cpuShare (sampleSample counter).1 (sampleSample counter).2 := by
  have once : ListedOnce [(sampleSample counter).2] (sampleSample counter).2 :=
    ⟨[], [], rfl, by simp⟩
  have shown : ∃ listing, readProcessMetadata (sampleSample counter).2 = some listing ∧
      listing.args ≠ [] := ⟨⟨ascii "vim", [ascii "vim"]⟩, rfl, by decide⟩
  exact ⟨rfl, ⟨_, rfl, once⟩,
    (updateTable_row cpuShare rfl rfl once table).1.mpr ⟨⟨rfl, rfl⟩, Or.inr shown⟩⟩

theorem sampleSamples_updates (counters : List (Option UInt64)) (table : ProcessTable)
    (cpuShare : UInt64 → CpuStat → UInt32) :
    table.UpdatesAll cpuShare 7 (counters.map sampleSample) := by
  induction counters generalizing table with
  | nil => trivial
  | cons counter later ih => exact ⟨rfl, sampleSample_updates counter table cpuShare, ih _⟩

theorem deltas_telescope_iff_sample :
    let deltas := reportedDeltas (fun _ _ => 0) 7 DiskStat.diskRead
      ([some 150, some 250, none].map sampleSample)
      (empty.updateTable (fun _ _ => 0) (sampleSample (some 100)).1).2
    (deltas.map fun reported => (reported.getD 0).toNat).sum = 250 - 100 := by
  have updates := sampleSamples_updates [some 100, some 150, some 250, none] empty fun _ _ => 0
  have known : DiskStat.diskRead ∈ [DiskStat.diskRead, DiskStat.diskWrite] := List.mem_cons_self
  have readable : DiskStat.diskRead (sampleSample (some 100)).2.diskStat = some 100 := rfl
  exact (deltas_telescope_iff updates known readable (by decide)).2.mpr
    (by simp [sampleSample, BaselineKept])

/-- The counter goes from 100 to 250, and is missed once on the way.  The next delta is all of
the 250. -/
theorem missed_reading_recounts :
    empty.UpdatesAll (fun _ _ => 0) 7 ([some 100, none, some 250].map sampleSample) ∧
      reportedDeltas (fun _ _ => 0) 7 DiskStat.diskRead ([none, some 250].map sampleSample)
        (empty.updateTable (fun _ _ => 0) (sampleSample (some 100)).1).2 = [none, some 250] ∧
      ([none, some 250].map fun reported : Option UInt64 => (reported.getD 0).toNat).sum ≠
        250 - 100 := by
  refine ⟨sampleSamples_updates _ empty _, ?_, by decide⟩
  decide +kernel

end ProcessTable

end RemoteMonitoring
