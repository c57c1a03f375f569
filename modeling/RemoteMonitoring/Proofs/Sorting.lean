/-
Module: RemoteMonitoring.Proofs.Sorting
Purpose: The eight comparators are strict weak orders, so `get_sorted` returns the rows at the
  top; and which of them leave rows tied, whose order is then that of the hash map.
Trusted boundary: none
Main exports: getComparator_iff, comparator_strictWeakOrder, ties_iff, getSorted_top_iff,
  sameFront_iff
-/
import Mathlib.Data.Prod.Lex
import RemoteMonitoring.Proofs.ProcessTable
import RemoteMonitoring.System.Sorting

namespace RemoteMonitoring

open PartialSort

namespace ProcessTable

/-! ### The comparators -/

/-- Small for a large reading, and largest for none. -/
def readingKey : Option UInt64 → Nat
  | none => 2 ^ 64
  | some value => 2 ^ 64 - 1 - value.toNat

def totalKey (pid : UInt32) (readings : Option UInt64 × Option UInt64) : Nat ×ₗ Nat :=
  if readings.1.isSome || readings.2.isSome then
    toLex (readingKey (some (readings.1.getD 0 + readings.2.getD 0)), 0)
  else toLex (readingKey none, 2 ^ 32 - 1 - pid.toNat)

/-- What a comparator compares: the smaller key goes first. -/
def sortKey (type : ProcessSortType) (row : ProcessFullStat) : Nat ×ₗ Nat :=
  let disk := row.stat.diskUsage
  let network := row.stat.networkUsage
  let byReading (reading : Option UInt64) : Nat ×ₗ Nat := toLex (readingKey reading, row.pid.toNat)
  match type with
  | .cpu => byReading (some row.stat.cpuUsagePercent.toUInt64)
  | .mem => byReading (some row.stat.memUsage)
  | .diskRead => byReading disk.diskRead
  | .diskWrite => byReading disk.diskWrite
  | .diskTotal => totalKey row.pid (disk.diskRead, disk.diskWrite)
  | .networkRecv => byReading network.networkRecv
  | .networkSend => byReading network.networkSend
  | .networkTotal => totalKey row.pid (network.networkRecv, network.networkSend)

/-- A reading goes before a smaller one, any before none, and equal ones by pid. -/
theorem compareReading_iff (left right : Option UInt64) (leftPid rightPid : UInt32) :
    (compareReading left right).getD (decide (leftPid < rightPid)) = true ↔
      toLex (readingKey left, leftPid.toNat) < toLex (readingKey right, rightPid.toNat) := by
  rw [Prod.Lex.toLex_lt_toLex]
  cases left with
  | none =>
      cases right with
      | none => simp [compareReading, UInt32.lt_iff_toNat_lt]
      | some right =>
          have bound := right.toNat_lt
          simp [compareReading, readingKey]
          omega
  | some left =>
      cases right with
      | none =>
          have bound := left.toNat_lt
          simp [compareReading, readingKey]
          omega
      | some right =>
          have leftBound := left.toNat_lt
          have rightBound := right.toNat_lt
          by_cases same : left = right
          · simp [compareReading, readingKey, same, UInt32.lt_iff_toNat_lt]
          · have different : left.toNat ≠ right.toNat := fun equal => same (UInt64.toNat.inj equal)
            simp [compareReading, readingKey, same, UInt64.lt_iff_toNat_lt]
            omega

/-- The comparison of the totals is that of their keys. -/
theorem compareTotal_iff (left right : Option UInt64 × Option UInt64)
    (leftPid rightPid : UInt32) :
    compareTotal leftPid rightPid left right = true ↔
      totalKey leftPid left < totalKey rightPid right := by
  have leftBound := leftPid.toNat_lt
  have rightBound := rightPid.toNat_lt
  have leftSum := (left.1.getD 0 + left.2.getD 0).toNat_lt
  have rightSum := (right.1.getD 0 + right.2.getD 0).toNat_lt
  unfold compareTotal totalKey
  generalize left.1.getD 0 + left.2.getD 0 = leftTotal at leftSum ⊢
  generalize right.1.getD 0 + right.2.getD 0 = rightTotal at rightSum ⊢
  cases left.1.isSome || left.2.isSome with
  | false =>
      cases right.1.isSome || right.2.isSome with
      | false =>
          simp [Prod.Lex.toLex_lt_toLex, UInt32.lt_iff_toNat_lt]
          omega
      | true =>
          simp [Prod.Lex.toLex_lt_toLex, readingKey]
          omega
  | true =>
      cases right.1.isSome || right.2.isSome with
      | false =>
          simp [Prod.Lex.toLex_lt_toLex, readingKey]
          omega
      | true =>
          simp [Prod.Lex.toLex_lt_toLex, readingKey, UInt64.lt_iff_toNat_lt]
          omega

/-- And so it is for every sort type. -/
theorem getComparator_iff (type : ProcessSortType) (left right : ProcessFullStat) :
    getComparator type left right = true ↔ sortKey type left < sortKey type right := by
  have decided (one two : UInt64) :
      (if one ≠ two then decide (one > two) else decide (left.pid < right.pid)) = true ↔
        toLex (readingKey (some one), left.pid.toNat) <
          toLex (readingKey (some two), right.pid.toNat) := by
    rw [← compareReading_iff]
    by_cases same : one = two <;> simp [compareReading, same]
  cases type with
  | cpu =>
      have wide := decided left.stat.cpuUsagePercent.toUInt64 right.stat.cpuUsagePercent.toUInt64
      simpa [getComparator, sortKey, UInt32.lt_iff_toNat_lt, UInt64.lt_iff_toNat_lt,
        ← UInt32.toNat_inj, ← UInt64.toNat_inj] using wide
  | mem => exact decided _ _
  | diskTotal | networkTotal => exact compareTotal_iff _ _ _ _
  | _ => exact compareReading_iff _ _ _ _

/-- Every comparator is a strict weak order. -/
theorem comparator_strictWeakOrder (type : ProcessSortType) :
    IsStrictWeakOrder ProcessFullStat
      (fun left right => getComparator type left right = true) := by
  have byKey : (fun left right => getComparator type left right = true) =
      Order.Preimage (sortKey type) (· < ·) := by
    funext left right
    exact propext (getComparator_iff type left right)
  have keys : IsStrictWeakOrder (Nat ×ₗ Nat) (· < ·) := isStrictWeakOrder_of_isOrderConnected
  rw [byKey]
  infer_instance

/-- Rows tie if the comparator cannot tell their keys apart. -/
theorem ties_iff_sortKey (type : ProcessSortType) (one two : ProcessFullStat) :
    Ties (getComparator type) one two ↔ sortKey type one = sortKey type two := by
  have first := getComparator_iff type one two
  have second := getComparator_iff type two one
  unfold Ties
  rw [← Bool.not_eq_true, ← Bool.not_eq_true, first, second, not_lt, not_lt]
  exact ⟨fun both => le_antisymm both.2 both.1, fun same => ⟨same.ge, same.le⟩⟩

/-- Two processes have the same key exactly if their totals are the same number. -/
theorem totalKey_eq_iff {onePid twoPid : UInt32} (different : onePid ≠ twoPid)
    (one two : Option UInt64 × Option UInt64) :
    totalKey onePid one = totalKey twoPid two ↔ SameSum one two := by
  have oneBound := onePid.toNat_lt
  have twoBound := twoPid.toNat_lt
  have pids : onePid.toNat ≠ twoPid.toNat := fun same => different (UInt32.toNat.inj same)
  have oneSum := (one.1.getD 0 + one.2.getD 0).toNat_lt
  have twoSum := (two.1.getD 0 + two.2.getD 0).toNat_lt
  simp only [SameSum, ← Bool.or_eq_true]
  unfold totalKey
  rw [← UInt64.toNat_inj]
  generalize one.1.getD 0 + one.2.getD 0 = oneTotal at oneSum ⊢
  generalize two.1.getD 0 + two.2.getD 0 = twoTotal at twoSum ⊢
  cases one.1.isSome || one.2.isSome with
  | false =>
      cases two.1.isSome || two.2.isSome with
      | false =>
          simp
          omega
      | true =>
          simp [readingKey]
          omega
  | true =>
      cases two.1.isSome || two.2.isSome with
      | false =>
          simp [readingKey]
          omega
      | true =>
          simp [readingKey]
          omega

/-- Rows of different processes tie only where totals are compared: where the others look at
the pids, the totals do not. -/
theorem ties_iff (type : ProcessSortType) {one two : ProcessFullStat}
    (different : one.pid ≠ two.pid) :
    Ties (getComparator type) one two ↔ SameTotal type one.stat two.stat := by
  have pids : one.pid.toNat ≠ two.pid.toNat := fun same => different (UInt32.toNat.inj same)
  rw [ties_iff_sortKey]
  cases type with
  | diskTotal | networkTotal => exact totalKey_eq_iff different _ _
  | _ => simp [sortKey, SameTotal, pids]

/-! ### The rows -/

section Rows

variable {table : ProcessTable} {pids : List UInt32}

/-- The row of a listing whose statistics are there. -/
def fullRow (table : ProcessTable) (row : (_ : UInt32) × ProcessListing) : ProcessFullStat :=
  ⟨row.1, row.2, table.statTable.valueAt row.1⟩

/-- With statistics for all pids, the full rows are put together. -/
theorem mapM_fullStat_eq {rows : List ((_ : UInt32) × ProcessListing)}
    (found : ∀ row ∈ rows, (table.statTable.lookup row.1).isSome) :
    rows.mapM table.fullStat = some (rows.map table.fullRow) := by
  induction rows with
  | nil => rfl
  | cons row rows ih =>
      obtain ⟨stat, here⟩ := Option.isSome_iff_exists.mp (found row List.mem_cons_self)
      have rest := ih fun other member => found other (List.mem_cons_of_mem row member)
      simp [List.mapM_cons, fullStat, fullRow, here, rest, UnorderedMap.valueAt]

/-- So `get_sorted` returns the front of what the algorithm makes of them. -/
theorem KeysAre.getSorted_eq (keys : table.KeysAre pids)
    (partialSort : (ProcessFullStat → ProcessFullStat → Bool) → Nat → List ProcessFullStat →
      List ProcessFullStat)
    (order : ListingOrder) (type : ProcessSortType) (limit : UInt32) :
    table.getSorted partialSort order type limit = some
      ((partialSort (getComparator type) (table.frontLength limit)
        ((order.visit table.listTable.entries).map table.fullRow)).take
          (table.frontLength limit)) := by
  have rows := mapM_fullStat_eq fun row visited =>
    @KeysAre.lookup_isSome table pids keys order row visited
  simp [getSorted, rows, frontLength, size, (order.perm table.listTable.entries).length_eq]

theorem visited_perm (table : ProcessTable) (order : ListingOrder) :
    ((order.visit table.listTable.entries).map table.fullRow).Perm table.fullRows :=
  (order.perm table.listTable.entries).map _

/-- The rows that are sorted are those of the table. -/
theorem KeysAre.mem_fullRows (keys : table.KeysAre pids) {row : ProcessFullStat} :
    row ∈ table.fullRows ↔ table.IsRow row := by
  unfold fullRows IsRow
  rw [List.mem_map]
  constructor
  · rintro ⟨entry, stored, rfl⟩
    have listed : table.listTable.lookup entry.1 = some entry.2 := AList.mem_lookup_iff.mpr stored
    obtain ⟨stat, found⟩ := Option.isSome_iff_exists.mp
      (@KeysAre.lookup_isSome table pids keys .stored entry stored)
    simp [listed, found, UnorderedMap.valueAt]
  · rintro ⟨listed, found⟩
    refine ⟨⟨row.pid, row.listing⟩, AList.mem_lookup_iff.mp listed, ?_⟩
    simp [found, UnorderedMap.valueAt]

theorem fullRows_pids : table.fullRows.map ProcessFullStat.pid = table.listTable.keys := by
  simp [fullRows, AList.keys, List.keys]

theorem fullRows_distinct : (table.fullRows.map ProcessFullStat.pid).Nodup :=
  fullRows_pids ▸ table.listTable.nodupKeys

/-- There are no more pids than that. -/
theorem size_le : table.size ≤ 2 ^ 32 := by
  have distinct : (table.listTable.keys.map UInt32.toNat).Nodup :=
    List.Nodup.map (fun _ _ => UInt32.toNat.inj) table.listTable.nodupKeys
  have bounded : table.listTable.keys.map UInt32.toNat ⊆ List.range (2 ^ 32) := by
    intro number member
    obtain ⟨pid, _, rfl⟩ := List.mem_map.mp member
    exact List.mem_range.mpr pid.toNat_lt
  have fits := (List.subperm_of_subset distinct bounded).length_le
  simpa [size, AList.keys, List.keys] using fits

/-- The size is narrowed to 32 bits before it is compared. -/
theorem frontLength_eq (table : ProcessTable) (limit : UInt32) :
    table.frontLength limit =
      if limit = 0 then table.size % 2 ^ 32 else min limit.toNat (table.size % 2 ^ 32) := by
  have smaller (one two : UInt32) : (min one two).toNat = min one.toNat two.toNat := by
    have choice : min one two = if one ≤ two then one else two := rfl
    rw [choice]
    split
    · rename_i le
      exact (Nat.min_eq_left (UInt32.le_iff_toNat_le.mp le)).symm
    · rename_i gt
      have ge : two.toNat ≤ one.toNat :=
        Nat.le_of_not_le fun le => gt (UInt32.le_iff_toNat_le.mpr le)
      exact (Nat.min_eq_right ge).symm
  unfold frontLength
  split
  · simp
  · simp [smaller]

theorem frontLength_of_lt (fits : table.size < 2 ^ 32) (limit : UInt32) :
    table.frontLength limit = if limit = 0 then table.size else min limit.toNat table.size := by
  rw [frontLength_eq, Nat.mod_eq_of_lt fits]

theorem frontLength_of_ge (full : 2 ^ 32 ≤ table.size) (limit : UInt32) :
    table.frontLength limit = 0 := by
  have all : table.size = 2 ^ 32 := Nat.le_antisymm size_le full
  simp [frontLength_eq, all]

/-- It is no longer than the table. -/
theorem frontLength_le (table : ProcessTable) (limit : UInt32) :
    table.frontLength limit ≤ table.size := by
  have le : table.size % 2 ^ 32 ≤ table.size := Nat.mod_le _ _
  rw [frontLength_eq]
  split
  · exact le
  · exact (min_le_right _ _).trans le

end Rows

/-! ### The top -/

section Top

variable {table : ProcessTable} {pids : List UInt32}
  {partialSort : (ProcessFullStat → ProcessFullStat → Bool) → Nat → List ProcessFullStat →
    List ProcessFullStat}

/-- What is returned is the sorted front of the rows. -/
theorem KeysAre.getSorted_front (keys : table.KeysAre pids) (sorts : SortsPartially partialSort)
    (order : ListingOrder) (type : ProcessSortType) (limit : UInt32) :
    ∃ result, table.getSorted partialSort order type limit = some
        (result.take (table.frontLength limit)) ∧
      IsPartialSort (getComparator type) (table.frontLength limit) table.fullRows result := by
  have perm := visited_perm table order
  have le : table.frontLength limit ≤
      ((order.visit table.listTable.entries).map table.fullRow).length := by
    rw [perm.length_eq, fullRows, List.length_map]
    exact table.frontLength_le limit
  have sorted := sorts (getComparator type) (comparator_strictWeakOrder type) _ _ le
  exact ⟨_, keys.getSorted_eq partialSort order type limit, sorted.perm.trans perm,
    sorted.sorted, sorted.least⟩

/-- Every comparator is a strict weak order, so with an algorithm that sorts by such orders
`get_sorted` returns the rows at the top, exactly if the table does not have a row for each of
the 2^32 pids: their number is 0 in 32 bits, and no row is returned. -/
theorem getSorted_top_iff (keys : table.KeysAre pids) (sorts : SortsPartially partialSort)
    (order : ListingOrder) (type : ProcessSortType) (limit : UInt32) :
    IsStrictWeakOrder ProcessFullStat
        (fun left right => getComparator type left right = true) ∧
      ((∃ ret, table.getSorted partialSort order type limit = some ret ∧
        table.IsTop type limit ret) ↔ table.size < 2 ^ 32) := by
  refine ⟨comparator_strictWeakOrder type, ?_⟩
  obtain ⟨result, returned, front⟩ := keys.getSorted_front sorts order type limit
  have member {row : ProcessFullStat} : row ∈ result ↔ table.IsRow row :=
    front.perm.mem_iff.trans keys.mem_fullRows
  constructor
  · rintro ⟨ret, found, top⟩
    apply Nat.lt_of_not_le
    intro full
    have count := top.count
    rw [returned, frontLength_of_ge full, List.take_zero, Option.some.injEq] at found
    rw [← found, List.length_nil] at count
    split at count
    · omega
    · rename_i nonzero
      have positive : limit.toNat ≠ 0 := fun zero => nonzero (UInt32.toNat.inj zero)
      omega
  · intro fits
    refine ⟨_, returned, ?_, ?_, ?_, front.sorted, ?_⟩
    · rw [List.length_take, front.perm.length_eq, ← frontLength_of_lt fits, fullRows,
        List.length_map]
      exact Nat.min_eq_left (table.frontLength_le limit)
    · intro row here
      exact member.mp (List.mem_of_mem_take here)
    · have distinct := (front.perm.map ProcessFullStat.pid).nodup_iff.mpr fullRows_distinct
      exact distinct.sublist ((List.take_sublist _ _).map _)
    · intro row isRow omitted returned here
      have either := List.mem_append.mp
        ((List.take_append_drop (table.frontLength limit) result).symm ▸ member.mpr isRow)
      exact front.least returned here row (either.resolve_left omitted)

/-! ### Ties -/

/-- A pid has one row. -/
theorem IsRow.eq_of_pid {one two : ProcessFullStat} (first : table.IsRow one)
    (second : table.IsRow two) (same : one.pid = two.pid) : one = two := by
  obtain ⟨onePid, oneListing, oneStat⟩ := one
  obtain ⟨twoPid, twoListing, twoStat⟩ := two
  cases same
  have listing : oneListing = twoListing := Option.some.inj (first.1.symm.trans second.1)
  have stat : oneStat = twoStat := Option.some.inj (first.2.symm.trans second.2)
  rw [listing, stat]

/-- The stable sort returns a row right behind those ahead of it if it is visited first. -/
theorem KeysAre.stable_position (keys : table.KeysAre pids) (type : ProcessSortType)
    (limit : UInt32) {row : ProcessFullStat} (isRow : table.IsRow row)
    (inFront : table.ahead type row < table.frontLength limit) :
    ∃ ret, table.getSorted stableSort (.beginning ⟨row.pid, row.listing⟩) type limit = some ret ∧
      ret[table.ahead type row]? = some row := by
  have order := comparator_strictWeakOrder type
  have stored : ⟨row.pid, row.listing⟩ ∈ table.listTable.entries :=
    AList.mem_lookup_iff.mp isRow.1
  have first : table.fullRow ⟨row.pid, row.listing⟩ = row := by
    simp [fullRow, UnorderedMap.valueAt, isRow.2]
  have perm := visited_perm table (.beginning ⟨row.pid, row.listing⟩)
  refine ⟨_, keys.getSorted_eq _ _ type limit, ?_⟩
  rw [List.getElem?_take_of_lt inFront, ahead, ← rank_perm perm,
    IterationOrder.visit_beginning stored, List.map_cons, first]
  exact getElem?_mergeSort row _

/-- Two rows that tie with so few ahead of them that one is returned: the one that the hash map
shows first. -/
theorem KeysAre.not_sameFront (keys : table.KeysAre pids) {type : ProcessSortType}
    {limit : UInt32} {one two : ProcessFullStat} (oneRow : table.IsRow one)
    (twoRow : table.IsRow two) (different : one.pid ≠ two.pid)
    (total : SameTotal type one.stat two.stat)
    (inFront : table.ahead type one < table.frontLength limit) :
    ¬ table.SameFront type limit := by
  intro same
  have order := comparator_strictWeakOrder type
  have ties := (ties_iff type different).mpr total
  have together : table.ahead type one = table.ahead type two := rank_congr ties table.fullRows
  obtain ⟨oneRet, oneFound, oneAt⟩ := keys.stable_position type limit oneRow inFront
  obtain ⟨twoRet, twoFound, twoAt⟩ :=
    keys.stable_position type limit twoRow (together ▸ inFront)
  obtain ⟨ret, other, found, otherFound, equal⟩ :=
    same _ sortsPartially_stableSort (.beginning ⟨one.pid, one.listing⟩)
      (.beginning ⟨two.pid, two.listing⟩)
  cases Option.some.inj (oneFound.symm.trans found)
  cases Option.some.inj (twoFound.symm.trans otherFound)
  rw [together] at oneAt
  have here := congrArg (fun list => list[table.ahead type two]?) equal
  simp only [List.getElem?_map, oneAt, twoAt, Option.map_some, Option.some.injEq] at here
  exact different here

/-- `get_sorted` returns the same pids for any two orders of the hash map exactly if no two
processes with a reading have the same total with so few rows ahead of them that one of the
two is returned. -/
theorem sameFront_iff (keys : table.KeysAre pids) (type : ProcessSortType) (limit : UInt32) :
    table.SameFront type limit ↔
      ∀ one two, table.IsRow one → table.IsRow two → one.pid ≠ two.pid →
        SameTotal type one.stat two.stat → table.frontLength limit ≤ table.ahead type one := by
  constructor
  · intro same one two oneRow twoRow different total
    apply Nat.le_of_not_lt
    intro inFront
    exact keys.not_sameFront oneRow twoRow different total inFront same
  · intro apart partialSort sorts one other
    have order := comparator_strictWeakOrder type
    obtain ⟨result, found, front⟩ := keys.getSorted_front sorts one type limit
    obtain ⟨otherResult, otherFound, otherFront⟩ := keys.getSorted_front sorts other type limit
    have untied : ∀ one ∈ table.fullRows,
        rank (getComparator type) table.fullRows one < table.frontLength limit →
          ∀ two ∈ table.fullRows, Ties (getComparator type) one two → one = two := by
      intro one oneMember inFront two twoMember ties
      have oneRow := keys.mem_fullRows.mp oneMember
      have twoRow := keys.mem_fullRows.mp twoMember
      by_cases same : one.pid = two.pid
      · exact oneRow.eq_of_pid twoRow same
      · have total := (ties_iff type same).mp ties
        exact absurd (apart one two oneRow twoRow same total) (Nat.not_le_of_lt inFront)
    have unique := take_unique front otherFront untied (List.Nodup.of_map _ fullRows_distinct)
    exact ⟨_, _, found, otherFound, congrArg _ unique⟩

end Top

/-! ### Tables -/

/-- Two processes that move 15 bytes each. -/
def sampleTotals : ProcessTable where
  listTable := UnorderedMap.assign (UnorderedMap.assign ∅ 1 default) 2 default
  statTable := UnorderedMap.assign
    (UnorderedMap.assign ∅ 1 ⟨30, 100, ⟨some 10, some 5⟩, ⟨none, none⟩⟩) 2
    ⟨40, 100, ⟨some 5, some 10⟩, ⟨none, none⟩⟩
  lastStatTable := UnorderedMap.assign (UnorderedMap.assign ∅ 1 default) 2 default
  lastCpu := default

theorem sampleTotals_keys : sampleTotals.KeysAre [1, 2] := by
  intro pid
  simp [sampleTotals, or_comm]

theorem getSorted_top_iff_sample :
    ∃ ret, sampleTotals.getSorted stableSort .stored .diskTotal 1 = some ret ∧
      sampleTotals.IsTop .diskTotal 1 ret :=
  (getSorted_top_iff sampleTotals_keys sortsPartially_stableSort .stored .diskTotal 1).2.mpr
    (by decide)

/-- No two totals are compared where the order is by CPU usage. -/
theorem sameFront_iff_sample : sampleTotals.SameFront .cpu 1 :=
  (sameFront_iff sampleTotals_keys .cpu 1).mpr fun _ _ _ _ _ total => total.elim

/-- Which of the two processes is shown is up to the hash map. -/
theorem hash_order_shows :
    sampleTotals.KeysAre [1, 2] ∧ ¬ sampleTotals.SameFront .diskTotal 1 := by
  let one : ProcessFullStat := ⟨1, default, ⟨30, 100, ⟨some 10, some 5⟩, ⟨none, none⟩⟩⟩
  let two : ProcessFullStat := ⟨2, default, ⟨40, 100, ⟨some 5, some 10⟩, ⟨none, none⟩⟩⟩
  have oneRow : sampleTotals.IsRow one := ⟨rfl, rfl⟩
  have twoRow : sampleTotals.IsRow two := ⟨rfl, rfl⟩
  have total : SameTotal .diskTotal one.stat two.stat := ⟨Or.inl rfl, Or.inl rfl, rfl⟩
  exact ⟨sampleTotals_keys,
    sampleTotals_keys.not_sameFront oneRow twoRow (by decide) total (by decide)⟩

def everyPid : List UInt32 := (List.range (2 ^ 32)).map UInt32.ofNat

theorem everyPid_distinct : everyPid.Nodup := by
  apply List.Nodup.map_on _ List.nodup_range
  intro one oneIn two twoIn same
  have numbers := congrArg UInt32.toNat same
  rw [UInt32.toNat_ofNat', UInt32.toNat_ofNat', Nat.mod_eq_of_lt (List.mem_range.mp oneIn),
    Nat.mod_eq_of_lt (List.mem_range.mp twoIn)] at numbers
  exact numbers

/-- A process for every pid. -/
def everyProcess : ProcessTable where
  listTable := UnorderedMap.constant everyPid everyPid_distinct default
  statTable := UnorderedMap.constant everyPid everyPid_distinct default
  lastStatTable := UnorderedMap.constant everyPid everyPid_distinct default
  lastCpu := default

theorem everyProcess_keys : everyProcess.KeysAre everyPid :=
  fun _ => ⟨UnorderedMap.mem_constant everyPid_distinct, UnorderedMap.mem_constant everyPid_distinct,
    UnorderedMap.mem_constant everyPid_distinct⟩

theorem everyProcess_size : everyProcess.size = 2 ^ 32 := by
  simp [size, everyProcess, UnorderedMap.constant, everyPid]

/-- Of the 2^32 rows that a limit of 0 asks for none is returned. -/
theorem full_table_shows_none :
    everyProcess.KeysAre everyPid ∧
      SortsPartially (@stableSort ProcessFullStat) ∧
      ¬ ∃ ret, everyProcess.getSorted stableSort .stored .cpu 0 = some ret ∧
        everyProcess.IsTop .cpu 0 ret := by
  refine ⟨everyProcess_keys, sortsPartially_stableSort, ?_⟩
  rintro ⟨ret, found, top⟩
  have returned := everyProcess_keys.getSorted_eq stableSort .stored .cpu 0
  rw [frontLength_of_ge everyProcess_size.ge, List.take_zero] at returned
  have none : ret = [] := Option.some.inj (found.symm.trans returned)
  have count := top.count
  rw [none, everyProcess_size] at count
  simp at count

end ProcessTable

end RemoteMonitoring
