/-
Module: RemoteMonitoring.System.Sorting
Purpose: What the rows at the top of a process table are, and what it means that they do not
  depend on the order of the hash map.
Trusted boundary: none
Main exports: ProcessTable.IsTop, ProcessTable.SameFront,
  ProcessTable.SameTotal
-/
import RemoteMonitoring.Client.ProcessTable
import RemoteMonitoring.Lib.PartialSort

namespace RemoteMonitoring

namespace ProcessTable

def IsRow (table : ProcessTable) (row : ProcessFullStat) : Prop :=
  table.listTable.lookup row.pid = some row.listing ∧
    table.statTable.lookup row.pid = some row.stat

/-- The number of rows. -/
def size (table : ProcessTable) : Nat := table.listTable.entries.length

/-- As many of the rows as the limit asks for, each of another process, in order, and none
left out that goes before one of them. -/
structure IsTop (table : ProcessTable) (type : ProcessSortType) (limit : UInt32)
    (ret : List ProcessFullStat) : Prop where
  count : ret.length = if limit = 0 then table.size else min limit.toNat table.size
  rows : ∀ row ∈ ret, table.IsRow row
  distinct : (ret.map ProcessFullStat.pid).Nodup
  ordered : ret.Pairwise fun left right => getComparator type right left = false
  complete : ∀ row, table.IsRow row → row ∉ ret → ∀ returned ∈ ret,
    getComparator type row returned = false

/-- An algorithm that sorts returns the same pids for any two orders of the hash map. -/
def SameFront (table : ProcessTable) (type : ProcessSortType) (limit : UInt32) : Prop :=
  ∀ partialSort, SortsPartially partialSort → ∀ order otherOrder, ∃ ret other,
    table.getSorted partialSort order type limit = some ret ∧
      table.getSorted partialSort otherOrder type limit = some other ∧
        ret.map ProcessFullStat.pid = other.map ProcessFullStat.pid

/-- The rows of both tables. -/
def fullRows (table : ProcessTable) : List ProcessFullStat :=
  table.listTable.entries.map fun row => ⟨row.1, row.2, table.statTable.valueAt row.1⟩

/-- How many rows the comparator puts before one. -/
def ahead (table : ProcessTable) (type : ProcessSortType) (row : ProcessFullStat) : Nat :=
  PartialSort.rank (getComparator type) table.fullRows row

/-- The length of the sorted front, as the code computes it. -/
def frontLength (table : ProcessTable) (limit : UInt32) : Nat :=
  let size := UInt32.ofNat table.size
  (if limit = 0 then size else min limit size).toNat

/-- Two readings each, of which at least one is there, with the same sum. -/
def SameSum (left right : Option UInt64 × Option UInt64) : Prop :=
  (left.1.isSome ∨ left.2.isSome) ∧ (right.1.isSome ∨ right.2.isSome) ∧
    left.1.getD 0 + left.2.getD 0 = right.1.getD 0 + right.2.getD 0

/-- The rows have the same total, and the order is by totals. -/
def SameTotal (type : ProcessSortType) (one two : ProcessStat) : Prop :=
  match type with
  | .diskTotal =>
      SameSum (one.diskUsage.diskRead, one.diskUsage.diskWrite)
        (two.diskUsage.diskRead, two.diskUsage.diskWrite)
  | .networkTotal =>
      SameSum (one.networkUsage.networkRecv, one.networkUsage.networkSend)
        (two.networkUsage.networkRecv, two.networkUsage.networkSend)
  | _ => False

end ProcessTable

end RemoteMonitoring
