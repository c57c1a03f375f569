/-
Module: RemoteMonitoring.Proofs.Alerts
Purpose: `generate_log` logs the alerts of the process table, whatever order its hash map is
  visited in; and when a reading that grows can take an alert away.
Trusted boundary: none
Main exports: getMapProgramNameResource_total, checkUsage_eq, generateLog_eq,
  generateLog_alerts, alerts_monotone_iff
-/
import Mathlib.Data.Nat.ModEq
import RemoteMonitoring.Proofs.ProcessTable
import RemoteMonitoring.System.Alerts

namespace RemoteMonitoring

open ByteText

/-! ### The totals -/

namespace Resource

theorem mem_all {resource : Resource} :
    resource ∈ all ↔ resource = cpu ∨ resource = mem ∨ resource = disk ∨ resource = net := by
  simp [all]

/-- Each field wraps on its own, and so does the sum of two fields. -/
theorem reading_addUsage {resource : Resource} (known : resource ∈ all)
    (one two : ProcessStat) :
    resource.reading (ProcessTable.addUsage one two) ≡
      resource.reading one + resource.reading two [MOD 2 ^ resource.width] := by
  rcases mem_all.mp known with rfl | rfl | rfl | rfl
  · simp [cpu, ProcessTable.addUsage, Nat.ModEq]
  · simp [mem, ProcessTable.addUsage, Nat.ModEq]
  · simp [disk, ProcessTable.addUsage, Nat.ModEq, add_add_add_comm]
  · simp [net, ProcessTable.addUsage, Nat.ModEq, add_add_add_comm]

theorem reading_default {resource : Resource} (known : resource ∈ all) :
    resource.reading default = 0 := by
  rcases mem_all.mp known with rfl | rfl | rfl | rfl <;> rfl

theorem logType_cpu : cpu.logType = LogType.cpu := rfl
theorem logType_mem : mem.logType = LogType.mem := rfl
theorem logType_disk : disk.logType = LogType.disk := rfl
theorem logType_net : net.logType = LogType.net := rfl

end Resource

namespace ProcessTable

/-- What some rows with a name use. -/
def usedBy (table : ProcessTable) (resource : Resource) (name : Bytes)
    (rows : List ((_ : UInt32) × ProcessListing)) : Nat :=
  ((rows.filter fun row => row.2.processName = name).map
    fun row => resource.reading (table.statTable.valueAt row.1)).sum

/-- What the processes of a name use, row by row. -/
theorem usedBy_cons (table : ProcessTable) (resource : Resource) (name : Bytes)
    (row : (_ : UInt32) × ProcessListing) (rows : List ((_ : UInt32) × ProcessListing)) :
    table.usedBy resource name (row :: rows) =
      (if row.2.processName = name then resource.reading (table.statTable.valueAt row.1) else 0) +
        table.usedBy resource name rows := by
  by_cases same : row.2.processName = name
  · simp [usedBy, same]
  · simp [usedBy, same]

theorem usedBy_perm (table : ProcessTable) (resource : Resource) (name : Bytes)
    {one two : List ((_ : UInt32) × ProcessListing)} (perm : one.Perm two) :
    table.usedBy resource name one = table.usedBy resource name two :=
  ((perm.filter _).map _).sum_eq

/-- A row is added to the total of its name. -/
theorem addRow_eq {table : ProcessTable} {row : (_ : UInt32) × ProcessListing}
    {totals after : UnorderedMap Bytes ProcessStat} (added : table.addRow totals row = some after) :
    after = totals.assign row.2.processName
      (addUsage (totals.valueAt row.2.processName) (table.statTable.valueAt row.1)) := by
  unfold addRow at added
  cases found : table.statTable.lookup row.1 with
  | none => simp [found] at added
  | some stat =>
      have value : table.statTable.valueAt row.1 = stat := by
        simp [UnorderedMap.valueAt, found]
      simpa [found, value] using added.symm

/-- One round adds what the process uses to the total of its name, and to no other. -/
theorem addRow_total {table : ProcessTable} {row : (_ : UInt32) × ProcessListing}
    {totals after : UnorderedMap Bytes ProcessStat} (added : table.addRow totals row = some after)
    {resource : Resource} (known : resource ∈ Resource.all) (name : Bytes) :
    resource.reading (after.valueAt name) ≡ resource.reading (totals.valueAt name) +
        (if row.2.processName = name then
          resource.reading (table.statTable.valueAt row.1) else 0)
      [MOD 2 ^ resource.width] := by
  rw [addRow_eq added, UnorderedMap.valueAt_assign]
  by_cases same : row.2.processName = name
  · simpa [same] using Resource.reading_addUsage known _ _
  · have other : name ≠ row.2.processName := fun equal => same equal.symm
    simp [same, other, Nat.ModEq.rfl]

/-- Up to the width of the counter, adding rows adds what the processes of the name use. -/
theorem foldlM_addRow_total {table : ProcessTable}
    {rows : List ((_ : UInt32) × ProcessListing)} {totals after : UnorderedMap Bytes ProcessStat}
    (added : rows.foldlM table.addRow totals = some after)
    {resource : Resource} (known : resource ∈ Resource.all) (name : Bytes) :
    resource.reading (after.valueAt name) ≡
      resource.reading (totals.valueAt name) + table.usedBy resource name rows
        [MOD 2 ^ resource.width] := by
  induction rows generalizing totals with
  | nil =>
      cases added
      exact Nat.ModEq.refl _
  | cons row rows ih =>
      cases round : table.addRow totals row with
      | none => simp [round] at added
      | some between =>
          rw [List.foldlM_cons, round] at added
          have step := (addRow_total round known name).add_right (table.usedBy resource name rows)
          rw [usedBy_cons, ← Nat.add_assoc]
          exact (ih added).trans step

/-- The map holds the total of every name, modulo the width of the field. -/
theorem getMapProgramNameResource_total {table : ProcessTable} {order : ListingOrder}
    {map : UnorderedMap Bytes ProcessStat}
    (grouped : table.getMapProgramNameResource order = some map)
    {resource : Resource} (known : resource ∈ Resource.all) (name : Bytes) :
    resource.reading (map.valueAt name) % 2 ^ resource.width = resource.total table name := by
  have total := foldlM_addRow_total grouped known name
  rw [UnorderedMap.valueAt_empty, Resource.reading_default known, Nat.zero_add,
    usedBy_perm table resource name (order.perm table.listTable.entries)] at total
  exact total

end ProcessTable

/-! ### The checks -/

namespace ClientLogger

/-- The queue after some alerts, each under a new id. -/
def logAlerts (nowMs : UInt64) (logged : List Alert) (logQueue : LogQueue) : LogQueue :=
  logged.foldl
    (fun queue alert =>
      (queue.addNewLog alert.name nowMs alert.logType (UInt64.ofNat alert.value)).2) logQueue

theorem logAlerts_append (nowMs : UInt64) (one two : List Alert) (logQueue : LogQueue) :
    logAlerts nowMs (one ++ two) logQueue = logAlerts nowMs two (logAlerts nowMs one logQueue) :=
  List.foldl_append

/-- Alerts are appended to the queue and to its file, with the next ids. -/
theorem logAlerts_eq (nowMs : UInt64) (logged : List Alert) (logQueue : LogQueue) :
    let logEntries := numberAlerts nowMs logQueue.newId logged
    logAlerts nowMs logged logQueue =
      { logQueue with
        logFile := logEntries.foldl (fun file entry => file.append entry.serializeStr)
          logQueue.logFile
        logEntries := logQueue.logEntries ++ logEntries
        newId := logQueue.newId + UInt64.ofNat logEntries.length } := by
  induction logged generalizing logQueue with
  | nil => simp [logAlerts, numberAlerts]
  | cons alert later ih =>
      have rest := ih (logQueue.addNewLog alert.name nowMs alert.logType
        (UInt64.ofNat alert.value)).2
      rw [logAlerts, List.foldl_cons]
      rw [logAlerts] at rest
      rw [rest]
      simp [LogQueue.addNewLog, LogQueue.getNewId, LogQueue.addLog, numberAlerts,
        UInt64.ofNat_add, UInt64.add_assoc, UInt64.add_comm]

theorem logIf_eq (exceeds : Bool) (nowMs : UInt64) (alert : Alert) (logQueue : LogQueue) :
    logIf exceeds alert.name nowMs alert.logType (UInt64.ofNat alert.value) logQueue =
      logAlerts nowMs (if exceeds then [alert] else []) logQueue := by
  cases exceeds <;> rfl

/-- The alerts for what has been measured of each resource. -/
def measuredAlerts (measured : Resource → Nat) (entry : ConfigEntry) : List Alert :=
  (Resource.all.filter fun resource => resource.threshold entry < measured resource).map
    fun resource => ⟨entry.processName, resource.logType, measured resource⟩

/-- The four checks are one check, at each of the four resources. -/
theorem measuredAlerts_eq (measured : Resource → Nat) (entry : ConfigEntry) :
    measuredAlerts measured entry = Resource.all.flatMap fun resource =>
      if resource.threshold entry < measured resource then
        [⟨entry.processName, resource.logType, measured resource⟩]
      else [] := by
  unfold measuredAlerts
  induction Resource.all with
  | nil => rfl
  | cons resource others ih =>
      by_cases exceeds : resource.threshold entry < measured resource
      · simp [exceeds, ih]
      · simp [exceeds, ih]

/-- The alerts depend on the four measurements only. -/
theorem measuredAlerts_congr {one two : Resource → Nat}
    (same : ∀ resource ∈ Resource.all, one resource = two resource) (entry : ConfigEntry) :
    measuredAlerts one entry = measuredAlerts two entry := by
  rw [measuredAlerts_eq, measuredAlerts_eq]
  apply List.flatMap_congr
  intro resource known
  simp [same resource known]

/-- `check_usage` logs the alerts of what is measured in the width of each counter. -/
theorem checkUsage_eq (nowMs : UInt64) (entry : ConfigEntry) (stat : ProcessStat)
    (logQueue : LogQueue) :
    checkUsage nowMs entry stat logQueue =
      logAlerts nowMs
        (measuredAlerts (fun resource => resource.reading stat % 2 ^ resource.width) entry)
        logQueue := by
  have check (exceeds : Bool) (logType : LogType) (value : UInt64) (queue : LogQueue) :
      logIf exceeds entry.processName nowMs logType value queue =
        logAlerts nowMs (if exceeds then [⟨entry.processName, logType, value.toNat⟩] else [])
          queue := by
    have known := logIf_eq exceeds nowMs ⟨entry.processName, logType, value.toNat⟩ queue
    rwa [UInt64.ofNat_toNat] at known
  simp only [checkUsage, check, ← logAlerts_append, measuredAlerts_eq]
  congr 1
  simp [Resource.all, Resource.cpu, Resource.mem, Resource.disk, Resource.net,
    UInt32.lt_iff_toNat_lt, UInt64.lt_iff_toNat_lt]

/-- The loop over the configuration logs the alerts of all entries, one after another. -/
theorem checkEntries_eq (nowMs : UInt64) (configEntries : List ConfigEntry)
    (map : UnorderedMap Bytes ProcessStat) (logQueue : LogQueue) :
    checkEntries nowMs configEntries map logQueue =
      logAlerts nowMs
        (configEntries.flatMap fun entry =>
          measuredAlerts
            (fun resource =>
              resource.reading (map.valueAt entry.processName) % 2 ^ resource.width) entry)
        logQueue := by
  induction configEntries generalizing map logQueue with
  | nil => rfl
  | cons entry later ih =>
      rw [checkEntries, ih, List.flatMap_cons, logAlerts_append, checkUsage_eq]
      simp only [UnorderedMap.valueAt_touch]

/-- What `generate_log` measures is the totals of the table. -/
theorem measured_eq_alerts {table : ProcessTable} {order : ListingOrder}
    {map : UnorderedMap Bytes ProcessStat}
    (grouped : table.getMapProgramNameResource order = some map)
    (configEntries : List ConfigEntry) :
    (configEntries.flatMap fun entry =>
        measuredAlerts
          (fun resource =>
            resource.reading (map.valueAt entry.processName) % 2 ^ resource.width) entry) =
      alerts table configEntries := by
  apply List.flatMap_congr
  intro entry _
  apply measuredAlerts_congr
  intro resource known
  exact ProcessTable.getMapProgramNameResource_total grouped known entry.processName

/-- `generate_log` logs the alerts of the table. -/
theorem generateLog_eq {table : ProcessTable} {pids : List UInt32} (keys : table.KeysAre pids)
    (order : ListingOrder) (nowMs : UInt64) (logger : ClientLogger) :
    logger.generateLog order nowMs table = some
      { logger with
        logQueue := logAlerts nowMs (alerts table logger.config.configEntries)
          logger.logQueue } := by
  obtain ⟨map, grouped⟩ := Option.isSome_iff_exists.mp
    (keys.getMapProgramNameResource_isSome order)
  simp [generateLog, grouped, checkEntries_eq, measured_eq_alerts grouped]

end ClientLogger

/-- For every table whose lookups find their rows, in whatever order they are visited,
`generate_log` appends the alerts of the table to the queue and its file, under consecutive
ids, and changes nothing else. -/
theorem generateLog_alerts {table : ProcessTable} {pids : List UInt32}
    (keys : table.KeysAre pids) (order : ListingOrder) (nowMs : UInt64) (logger : ClientLogger) :
    let queue := logger.logQueue
    let logged := numberAlerts nowMs queue.newId (alerts table logger.config.configEntries)
    logger.generateLog order nowMs table = some
      { logger with
        logQueue :=
          { queue with
            logFile := logged.foldl (fun file entry => file.append entry.serializeStr)
              queue.logFile
            logEntries := queue.logEntries ++ logged
            newId := queue.newId + UInt64.ofNat logged.length } } := by
  simp only [ClientLogger.generateLog_eq keys, ClientLogger.logAlerts_eq]

/-- Two processes of one program, which both lack readings. -/
def sampleUsage : ProcessTable where
  listTable := UnorderedMap.assign (UnorderedMap.assign ∅ 1 ⟨ascii "chrome", [ascii "chrome"]⟩) 2
    ⟨ascii "chrome", [ascii "chrome"]⟩
  statTable := UnorderedMap.assign
    (UnorderedMap.assign ∅ 1 ⟨30, 100, ⟨some 20, none⟩, ⟨none, none⟩⟩) 2
    ⟨40, 100, ⟨some 10, some 5⟩, ⟨none, none⟩⟩
  lastStatTable := UnorderedMap.assign (UnorderedMap.assign ∅ 1 default) 2 default
  lastCpu := default

theorem sampleUsage_keys : sampleUsage.KeysAre [1, 2] := by
  intro pid
  simp [sampleUsage, or_comm]

/-- One name twice, and one of which no process runs. -/
def sampleThresholds : List ConfigEntry :=
  [⟨ascii "chrome", 60, 1000, 30, 0⟩, ⟨ascii "vim", 0, 0, 0, 0⟩,
    ⟨ascii "chrome", 100, 150, 1000, 1000⟩]

def sampleLogger : ClientLogger where
  config := ⟨sampleThresholds⟩
  logQueue := ⟨File.absent, File.absent, 0, [], 8⟩

theorem generateLog_alerts_sample :
    ∃ after, sampleLogger.generateLog .stored 5 sampleUsage = some after ∧
      after.logQueue.logEntries =
        [⟨8, ascii "chrome", 5, LogType.cpu, 70⟩, ⟨9, ascii "chrome", 5, LogType.disk, 35⟩,
          ⟨10, ascii "chrome", 5, LogType.mem, 200⟩] :=
  ⟨_, generateLog_alerts sampleUsage_keys .stored 5 sampleLogger, by decide +kernel⟩

/-! ### One reading -/

namespace Reading

theorem resource_mem_all (reading : Reading) : reading.resource ∈ Resource.all := by
  cases reading <;> simp [resource, Resource.all]

/-- A reading that is replaced counts with its new value. -/
theorem reading_replace (reading : Reading) (stat : ProcessStat) {value : Nat}
    (fits : value < 2 ^ reading.resource.width) :
    reading.resource.reading (reading.replace value stat) =
      reading.resource.reading (reading.replace 0 stat) + value := by
  cases reading with
  | cpu => simpa [resource, replace, Resource.cpu] using fits
  | mem => simpa [resource, replace, Resource.mem] using fits
  | _ => simpa [resource, replace, Resource.disk, Resource.net, Nat.add_comm] using fits

/-- A resource is the sum of the reading and of what the other readings of it give. -/
theorem reading_current (reading : Reading) (stat : ProcessStat) :
    reading.resource.reading stat =
      reading.resource.reading (reading.replace 0 stat) + (reading.current stat).getD 0 := by
  have value (field : Option UInt64) : (field.map UInt64.toNat).getD 0 = (field.getD 0).toNat := by
    cases field <;> rfl
  cases reading with
  | cpu => simp [resource, replace, current, Resource.cpu]
  | mem => simp [resource, replace, current, Resource.mem]
  | diskRead | diskWrite =>
      simp [resource, replace, current, Resource.disk, value, Nat.add_comm]
  | networkRecv | networkSend =>
      simp [resource, replace, current, Resource.net, value, Nat.add_comm]

theorem current_lt (reading : Reading) (stat : ProcessStat) :
    (reading.current stat).getD 0 < 2 ^ reading.resource.width := by
  have value (field : Option UInt64) : (field.map UInt64.toNat).getD 0 < 2 ^ 64 := by
    cases field with
    | none => exact Nat.two_pow_pos 64
    | some number => exact number.toNat_lt
  cases reading with
  | cpu => exact stat.cpuUsagePercent.toNat_lt
  | mem => exact stat.memUsage.toNat_lt
  | _ => exact value _

end Reading

namespace ProcessTable

variable {one two : ProcessTable} {pid : UInt32} {resource : Resource} {more : Nat}

/-- Processes of which nothing has changed. -/
theorem usedBy_congr (name : Bytes) {rows : List ((_ : UInt32) × ProcessListing)}
    (same : ∀ row ∈ rows, resource.reading (two.statTable.valueAt row.1) =
      resource.reading (one.statTable.valueAt row.1)) :
    two.usedBy resource name rows = one.usedBy resource name rows := by
  induction rows with
  | nil => rfl
  | cons row rows ih =>
      rw [usedBy_cons, usedBy_cons, same row List.mem_cons_self,
        ih fun other member => same other (List.mem_cons_of_mem row member)]

/-- One of the processes uses more. -/
theorem usedBy_grown {listing : ProcessListing} {rows : List ((_ : UInt32) × ProcessListing)}
    (same : ∀ other, other ≠ pid → resource.reading (two.statTable.valueAt other) =
      resource.reading (one.statTable.valueAt other))
    (grown : resource.reading (two.statTable.valueAt pid) =
      resource.reading (one.statTable.valueAt pid) + more)
    (once : rows.NodupKeys) (member : ⟨pid, listing⟩ ∈ rows) :
    two.usedBy resource listing.processName rows =
      one.usedBy resource listing.processName rows + more := by
  induction rows with
  | nil => cases member
  | cons row rows ih =>
      have keys := List.nodupKeys_cons.mp once
      rw [usedBy_cons, usedBy_cons]
      cases List.mem_cons.mp member with
      | inl here =>
          subst here
          have others : two.usedBy resource listing.processName rows =
              one.usedBy resource listing.processName rows := by
            apply usedBy_congr
            intro other later
            apply same
            intro equal
            have again : other.1 ∈ rows.keys := List.mem_map_of_mem later
            exact keys.1 (equal ▸ again)
          simp [grown, others, Nat.add_right_comm]
      | inr later =>
          have different : row.1 ≠ pid := by
            intro equal
            have again : pid ∈ rows.keys := List.mem_map_of_mem later
            exact keys.1 (equal ▸ again)
          rw [same row.1 different, ih keys.2 later, Nat.add_assoc]

/-- When only one process has grown, the total of its name has grown by as much, in the width of
the counter. -/
theorem total_grown (one two : ProcessTable) {listing : ProcessListing}
    (listings : two.listTable = one.listTable)
    (running : one.listTable.lookup pid = some listing)
    (same : ∀ other, other ≠ pid → resource.reading (two.statTable.valueAt other) =
      resource.reading (one.statTable.valueAt other))
    (grown : resource.reading (two.statTable.valueAt pid) =
      resource.reading (one.statTable.valueAt pid) + more) :
    resource.total two listing.processName =
      (resource.total one listing.processName + more) % 2 ^ resource.width := by
  have sum := usedBy_grown same grown one.listTable.nodupKeys (AList.mem_lookup_iff.mp running)
  unfold Resource.total
  unfold usedBy at sum
  rw [listings, sum, Nat.mod_add_mod]

variable {table : ProcessTable} {listing : ProcessListing}

/-- The total after a reading is replaced. -/
theorem total_withReading (running : table.listTable.lookup pid = some listing)
    (reading : Reading) {value : Nat} (fits : value < 2 ^ reading.resource.width) :
    reading.resource.total (table.withReading pid reading value) listing.processName =
      (table.usedByOthers pid reading listing.processName + value) %
        2 ^ reading.resource.width := by
  apply total_grown (table.withReading pid reading 0) (table.withReading pid reading value) rfl
    running
  · intro other different
    simp [withReading, UnorderedMap.valueAt_assign, different]
  · simpa [withReading, UnorderedMap.valueAt_assign] using
      reading.reading_replace (table.statTable.valueAt pid) fits

/-- The total as it is. -/
theorem total_eq (running : table.listTable.lookup pid = some listing) (reading : Reading) :
    reading.resource.total table listing.processName =
      (table.usedByOthers pid reading listing.processName +
        (reading.current (table.statTable.valueAt pid)).getD 0) %
          2 ^ reading.resource.width := by
  apply total_grown (table.withReading pid reading 0) table rfl running
  · intro other different
    simp [withReading, UnorderedMap.valueAt_assign, different]
  · simpa [withReading, UnorderedMap.valueAt_assign] using
      reading.reading_current (table.statTable.valueAt pid)

/-- Another reading of a running process adds no row. -/
theorem KeysAre.withReading {pids : List UInt32} (keys : table.KeysAre pids)
    (running : table.listTable.lookup pid = some listing) (reading : Reading) (value : Nat) :
    (table.withReading pid reading value).KeysAre pids := by
  have there : pid ∈ pids := (keys pid).1.mp (AList.lookup_isSome.mp (by simp [running]))
  intro other
  refine ⟨(keys other).1, ?_, (keys other).2.2⟩
  simp only [ProcessTable.withReading, UnorderedMap.mem_assign, (keys other).2.1]
  constructor
  · intro either
    cases either with
    | inl same => exact same ▸ there
    | inr before => exact before
  · exact Or.inr

end ProcessTable

/-! ### Counting alerts -/

/-- Numbering changes neither the names nor the kinds. -/
theorem countP_numberAlerts (nowMs newId : UInt64) (logged : List Alert) (name : Bytes)
    (logType : LogType) :
    (numberAlerts nowMs newId logged).countP
        (fun entry => entry.processName = name ∧ entry.logType = logType) =
      logged.countP fun alert => alert.name = name ∧ alert.logType = logType := by
  induction logged generalizing newId with
  | nil => rfl
  | cons alert later ih => simp only [numberAlerts, List.countP_cons, ih]

/-- An entry of the configuration makes at most one alert of a resource. -/
theorem countP_entryAlerts {resource : Resource} (known : resource ∈ Resource.all)
    (table : ProcessTable) (entry : ConfigEntry) (name : Bytes) :
    (entryAlerts table entry).countP
        (fun alert => alert.name = name ∧ alert.logType = resource.logType) =
      if entry.processName = name ∧ resource.threshold entry < resource.total table name then 1
      else 0 := by
  have each : entryAlerts table entry = ClientLogger.measuredAlerts
      (fun resource => resource.total table entry.processName) entry := rfl
  have single (exceeds : Prop) [Decidable exceeds] (alert : Alert) :
      (if exceeds then [alert] else []).countP
          (fun alert => alert.name = name ∧ alert.logType = resource.logType) =
        if alert.name = name ∧ alert.logType = resource.logType ∧ exceeds then 1 else 0 := by
    by_cases exceeded : exceeds <;> simp [exceeded, List.countP_cons]
  rw [each, ClientLogger.measuredAlerts_eq]
  simp only [Resource.all, List.flatMap_cons, List.flatMap_nil, List.append_nil,
    List.countP_append, single]
  by_cases same : entry.processName = name
  · subst same
    rcases Resource.mem_all.mp known with rfl | rfl | rfl | rfl <;>
      simp [Resource.logType_cpu, Resource.logType_mem, Resource.logType_disk,
        Resource.logType_net, LogType.cpu, LogType.mem, LogType.disk, LogType.net]
  · simp [same]

/-- The entries of the configuration whose threshold a total exceeds. -/
def exceeded (resource : Resource) (name : Bytes) (total : Nat)
    (configEntries : List ConfigEntry) : Nat :=
  configEntries.countP fun entry =>
    entry.processName = name ∧ resource.threshold entry < total

/-- A name has one alert of a kind for each entry whose threshold its total exceeds. -/
theorem countP_alerts {resource : Resource} (known : resource ∈ Resource.all)
    (table : ProcessTable) (configEntries : List ConfigEntry) (name : Bytes) :
    (alerts table configEntries).countP
        (fun alert => alert.name = name ∧ alert.logType = resource.logType) =
      exceeded resource name (resource.total table name) configEntries := by
  induction configEntries with
  | nil => rfl
  | cons entry later ih =>
      have here := countP_entryAlerts known table entry name
      simp only [alerts, exceeded] at ih here ⊢
      rw [List.flatMap_cons, List.countP_append, ih, here, List.countP_cons, Nat.add_comm]
      simp

/-- A round adds one alert of a kind for each entry whose threshold the total exceeds. -/
theorem newAlerts_eq {table : ProcessTable} {pids : List UInt32} (keys : table.KeysAre pids)
    (logger : ClientLogger) (order : ListingOrder) (nowMs : UInt64) {resource : Resource}
    (known : resource ∈ Resource.all) (name : Bytes) :
    logger.newAlerts order nowMs table name resource.logType =
      some (exceeded resource name (resource.total table name) logger.config.configEntries) := by
  have count := countP_numberAlerts nowMs logger.logQueue.newId
    (alerts table logger.config.configEntries) name resource.logType
  rw [countP_alerts known] at count
  simp only [ClientLogger.newAlerts, ClientLogger.generateLog_eq keys, ClientLogger.logAlerts_eq,
    Option.bind_eq_bind, Option.bind_some, List.drop_left, count, Option.pure_def]

/-- More usage exceeds no fewer thresholds. -/
theorem exceeded_mono (resource : Resource) (name : Bytes) {less more : Nat} (le : less ≤ more)
    (configEntries : List ConfigEntry) :
    exceeded resource name less configEntries ≤ exceeded resource name more configEntries := by
  apply List.countP_mono_left
  intro entry _
  simp only [decide_eq_true_eq]
  exact fun exceeds => ⟨exceeds.1, Nat.lt_of_lt_of_le exceeds.2 le⟩

theorem exceeded_eq_zero {resource : Resource} {name : Bytes} {total : Nat}
    {configEntries : List ConfigEntry} :
    exceeded resource name total configEntries = 0 ↔
      ∀ entry ∈ configEntries, entry.processName = name → total ≤ resource.threshold entry := by
  simp [exceeded, List.countP_eq_zero]

/-- A sum that has wrapped already, or has nothing to be added to, grows with what is added. -/
theorem wrapped_mono {modulus used less more : Nat} (usedLt : used < modulus)
    (lessLt : less < modulus) (moreLt : more < modulus) (le : less ≤ more)
    (grows : used = 0 ∨ modulus ≤ used + less) :
    (used + less) % modulus ≤ (used + more) % modulus := by
  cases grows with
  | inl alone =>
      subst alone
      simpa [Nat.mod_eq_of_lt lessLt, Nat.mod_eq_of_lt moreLt] using le
  | inr wrapped =>
      have further : modulus ≤ used + more := Nat.le_trans wrapped (Nat.add_le_add_left le used)
      have once {value : Nat} (small : value < modulus) (passed : modulus ≤ used + value) :
          (used + value) % modulus = used + value - modulus := by
        rw [Nat.mod_eq_sub_mod passed]
        exact Nat.mod_eq_of_lt (by omega)
      rw [once lessLt wrapped, once moreLt further]
      exact Nat.sub_le_sub_right (Nat.add_le_add_left le used) modulus

section Growing

variable {table : ProcessTable} {pids : List UInt32} {pid : UInt32} {listing : ProcessListing}

/-- In terms of the totals before and after. -/
theorem keepsAlerts_iff_exceeded (keys : table.KeysAre pids)
    (running : table.listTable.lookup pid = some listing) (reading : Reading)
    (logger : ClientLogger) :
    let name := listing.processName
    let used := table.usedByOthers pid reading name
    let now := reading.current (table.statTable.valueAt pid)
    logger.KeepsAlerts table pid reading name ↔
      ∀ larger < 2 ^ reading.resource.width, (∀ value ∈ now, value < larger) →
        exceeded reading.resource name ((used + now.getD 0) % 2 ^ reading.resource.width)
            logger.config.configEntries ≤
          exceeded reading.resource name ((used + larger) % 2 ^ reading.resource.width)
            logger.config.configEntries := by
  intro name used now
  have known := reading.resource_mem_all
  have total : reading.resource.total table name =
      (used + now.getD 0) % 2 ^ reading.resource.width := ProcessTable.total_eq running reading
  have totalAfter {larger : Nat} (fits : larger < 2 ^ reading.resource.width) :
      reading.resource.total (table.withReading pid reading larger) name =
        (used + larger) % 2 ^ reading.resource.width :=
    ProcessTable.total_withReading running reading fits
  have logged (order : ListingOrder) (nowMs : UInt64) :=
    newAlerts_eq keys logger order nowMs known name
  have loggedAfter (larger : Nat) (order : ListingOrder) (nowMs : UInt64) :=
    newAlerts_eq (keys.withReading running reading larger) logger order nowMs known name
  rw [total] at logged
  constructor
  · intro keeps larger fits grows
    obtain ⟨before, after, one, two, le⟩ := keeps larger fits grows .stored .stored 0
    rw [logged, Option.some.injEq] at one
    rw [loggedAfter, totalAfter fits, Option.some.injEq] at two
    rw [one, two]
    exact le
  · intro le larger fits grows order otherOrder nowMs
    refine ⟨_, _, logged order nowMs, loggedAfter larger otherOrder nowMs, ?_⟩
    rw [totalAfter fits]
    exact le larger fits grows

/-- A larger reading keeps the alerts of its name exactly if the total cannot wrap on the way:
nothing else is counted for it, or it has wrapped before, or no threshold was exceeded. -/
theorem keepsAlerts_iff (keys : table.KeysAre pids)
    (running : table.listTable.lookup pid = some listing) (reading : Reading)
    (logger : ClientLogger) :
    let name := listing.processName
    let used := table.usedByOthers pid reading name
    let now := (reading.current (table.statTable.valueAt pid)).getD 0
    logger.KeepsAlerts table pid reading name ↔
      used = 0 ∨ 2 ^ reading.resource.width ≤ used + now ∨
        ∀ entry ∈ logger.config.configEntries, entry.processName = name →
          used + now ≤ reading.resource.threshold entry := by
  intro name used now
  have usedLt : used < 2 ^ reading.resource.width := Nat.mod_lt _ (Nat.two_pow_pos _)
  have nowLt : now < 2 ^ reading.resource.width :=
    reading.current_lt (table.statTable.valueAt pid)
  have noneExceeded {total : Nat} (below : ∀ entry ∈ logger.config.configEntries,
      entry.processName = name → total ≤ reading.resource.threshold entry) :=
    exceeded_eq_zero.mpr below
  refine (keepsAlerts_iff_exceeded keys running reading logger).trans ?_
  constructor
  · intro keeps
    by_cases alone : used = 0
    · exact Or.inl alone
    · by_cases wrapped : 2 ^ reading.resource.width ≤ used + now
      · exact Or.inr (Or.inl wrapped)
      · -- the value that brings the total to 0 takes every alert away
        have room : used + now < 2 ^ reading.resource.width := Nat.lt_of_not_le wrapped
        have taken := keeps (2 ^ reading.resource.width - used) (by omega) (by
          intro value current
          have same : now = value := by simp [now, Option.mem_def.mp current]
          omega)
        rw [Nat.add_sub_cancel' usedLt.le, Nat.mod_self, Nat.mod_eq_of_lt room,
          noneExceeded fun entry _ _ => Nat.zero_le _] at taken
        exact Or.inr (Or.inr (exceeded_eq_zero.mp (Nat.le_zero.mp taken)))
  · intro condition larger fits grows
    have le : now ≤ larger := by
      cases current : reading.current (table.statTable.valueAt pid) with
      | none => simp [now, current]
      | some value => simpa [now, current] using (grows value current).le
    cases or_assoc.mpr condition with
    | inl free => exact exceeded_mono _ _ (wrapped_mono usedLt nowLt fits le free) _
    | inr below =>
        rw [noneExceeded fun entry member same =>
          Nat.le_trans (Nat.mod_le _ _) (below entry member same)]
        exact Nat.zero_le _

end Growing

/-- Neither process has received anything, so no sum of what is received wraps. -/
theorem keepsAlerts_iff_sample :
    sampleLogger.KeepsAlerts sampleUsage 1 .networkRecv (ascii "chrome") :=
  (@keepsAlerts_iff sampleUsage [1, 2] 1 ⟨ascii "chrome", [ascii "chrome"]⟩ sampleUsage_keys
    (by decide) .networkRecv sampleLogger).mpr (Or.inl (by decide +kernel))

/-- The two processes read 30 bytes and write 5, which exceeds a threshold of 30.  After one of
them has read 2^64 - 15 the total is 0. -/
theorem larger_reading_silences :
    sampleUsage.KeysAre [1, 2] ∧
      sampleUsage.listTable.lookup 1 = some ⟨ascii "chrome", [ascii "chrome"]⟩ ∧
        ¬ sampleLogger.KeepsAlerts sampleUsage 1 .diskRead (ascii "chrome") := by
  refine ⟨sampleUsage_keys, by decide, ?_⟩
  intro keeps
  obtain ⟨before, after, one, two, le⟩ := keeps (2 ^ 64 - 15) (by decide)
    (by
      intro now current
      cases current
      decide)
    .stored .stored 5
  have first : sampleLogger.newAlerts .stored 5 sampleUsage (ascii "chrome") LogType.disk =
      some 1 := by decide +kernel
  have second : sampleLogger.newAlerts .stored 5
      (sampleUsage.withReading 1 .diskRead (2 ^ 64 - 15)) (ascii "chrome") LogType.disk =
      some 0 := by decide +kernel
  have more : 1 = before := Option.some.inj (first.symm.trans one)
  have none : 0 = after := Option.some.inj (second.symm.trans two)
  exact absurd (more ▸ none ▸ le) (by decide)

end RemoteMonitoring
