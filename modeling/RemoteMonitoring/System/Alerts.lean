/-
Module: RemoteMonitoring.System.Alerts
Purpose: What the alerts of a process table are: the total of each resource over the processes
  of one name against the thresholds of the configuration.
Trusted boundary: none
Main exports: Resource, Resource.total, Reading, ProcessTable.withReading, alerts,
  numberAlerts, ClientLogger.newAlerts
-/
import RemoteMonitoring.Client.ClientLogger

namespace RemoteMonitoring

open ByteText

/-- A resource: what of it a process uses, and the threshold for it. -/
structure Resource where
  logType : LogType
  reading : ProcessStat → Nat
  threshold : ConfigEntry → Nat
  width : Nat

namespace Resource

def cpu : Resource where
  logType := LogType.cpu
  reading stat := stat.cpuUsagePercent.toNat
  threshold entry := entry.cpuUsage.toNat
  width := 32

def mem : Resource where
  logType := LogType.mem
  reading stat := stat.memUsage.toNat
  threshold entry := entry.memUsage.toNat
  width := 64

/-- A reading that is missing counts as 0. -/
def disk : Resource where
  logType := LogType.disk
  reading stat :=
    (stat.diskUsage.diskRead.getD 0).toNat + (stat.diskUsage.diskWrite.getD 0).toNat
  threshold entry := entry.diskUsage.toNat
  width := 64

def net : Resource where
  logType := LogType.net
  reading stat :=
    (stat.networkUsage.networkRecv.getD 0).toNat + (stat.networkUsage.networkSend.getD 0).toNat
  threshold entry := entry.networkUsage.toNat
  width := 64

/-- In the order of the checks. -/
def all : List Resource := [cpu, mem, disk, net]

/-- What all processes with this name use, as far as the width of the field goes. -/
def total (resource : Resource) (table : ProcessTable) (name : Bytes) : Nat :=
  ((table.listTable.entries.filter fun row => row.2.processName = name).map
    fun row => resource.reading (table.statTable.valueAt row.1)).sum % 2 ^ resource.width

end Resource

/-! ### One reading -/

/-- The readings of a process. -/
inductive Reading where
  | cpu
  | mem
  | diskRead
  | diskWrite
  | networkRecv
  | networkSend
deriving DecidableEq, Repr

namespace Reading

/-- The resource that a reading is counted for. -/
def resource : Reading → Resource
  | cpu => Resource.cpu
  | mem => Resource.mem
  | diskRead | diskWrite => Resource.disk
  | networkRecv | networkSend => Resource.net

/-- Nothing if the reading is missing. -/
def current (stat : ProcessStat) : Reading → Option Nat
  | cpu => some stat.cpuUsagePercent.toNat
  | mem => some stat.memUsage.toNat
  | diskRead => stat.diskUsage.diskRead.map UInt64.toNat
  | diskWrite => stat.diskUsage.diskWrite.map UInt64.toNat
  | networkRecv => stat.networkUsage.networkRecv.map UInt64.toNat
  | networkSend => stat.networkUsage.networkSend.map UInt64.toNat

def replace (value : Nat) (stat : ProcessStat) : Reading → ProcessStat
  | cpu => { stat with cpuUsagePercent := UInt32.ofNat value }
  | mem => { stat with memUsage := UInt64.ofNat value }
  | diskRead =>
      { stat with diskUsage := { stat.diskUsage with diskRead := some (UInt64.ofNat value) } }
  | diskWrite =>
      { stat with diskUsage := { stat.diskUsage with diskWrite := some (UInt64.ofNat value) } }
  | networkRecv =>
      { stat with
        networkUsage := { stat.networkUsage with networkRecv := some (UInt64.ofNat value) } }
  | networkSend =>
      { stat with
        networkUsage := { stat.networkUsage with networkSend := some (UInt64.ofNat value) } }

end Reading

namespace ProcessTable

/-- The table with another value for one reading of one process. -/
def withReading (table : ProcessTable) (pid : UInt32) (reading : Reading) (value : Nat) :
    ProcessTable :=
  { table with
    statTable :=
      table.statTable.assign pid (reading.replace value (table.statTable.valueAt pid)) }

/-- What the other readings add to the total that a reading is counted for. -/
def usedByOthers (table : ProcessTable) (pid : UInt32) (reading : Reading) (name : Bytes) : Nat :=
  reading.resource.total (table.withReading pid reading 0) name

end ProcessTable

/-! ### Alerts -/

/-- An alert before it has an id. -/
structure Alert where
  name : Bytes
  logType : LogType
  value : Nat
deriving DecidableEq, Repr

/-- The resources that exceed their thresholds in an entry of the configuration. -/
def entryAlerts (table : ProcessTable) (entry : ConfigEntry) : List Alert :=
  (Resource.all.filter fun resource =>
      resource.threshold entry < resource.total table entry.processName).map
    fun resource =>
      ⟨entry.processName, resource.logType, resource.total table entry.processName⟩

def alerts (table : ProcessTable) (configEntries : List ConfigEntry) : List Alert :=
  configEntries.flatMap (entryAlerts table)

/-- The entries for some alerts, with ids that count up. -/
def numberAlerts (nowMs : UInt64) : UInt64 → List Alert → List LogEntry
  | _, [] => []
  | newId, alert :: later =>
      ⟨newId, alert.name, nowMs, alert.logType, UInt64.ofNat alert.value⟩ ::
        numberAlerts nowMs (newId + 1) later

namespace ClientLogger

/-- How many of the entries that `generate_log` appends are about a name and a resource.
Nothing if it throws. -/
def newAlerts (logger : ClientLogger) (order : ListingOrder) (nowMs : UInt64)
    (table : ProcessTable) (name : Bytes) (logType : LogType) : Option Nat := do
  let after ← logger.generateLog order nowMs table
  let appended := after.logQueue.logEntries.drop logger.logQueue.logEntries.length
  return appended.countP fun entry => entry.processName = name ∧ entry.logType = logType

/-- A larger value of this reading never makes fewer alerts for the name, whatever orders the
processes are visited in before and after. -/
def KeepsAlerts (logger : ClientLogger) (table : ProcessTable) (pid : UInt32) (reading : Reading)
    (name : Bytes) : Prop :=
  ∀ larger < 2 ^ reading.resource.width,
    (∀ now ∈ reading.current (table.statTable.valueAt pid), now < larger) →
      ∀ (order otherOrder : ListingOrder) (nowMs : UInt64), ∃ before after,
        logger.newAlerts order nowMs table name reading.resource.logType = some before ∧
          logger.newAlerts otherOrder nowMs (table.withReading pid reading larger) name
            reading.resource.logType = some after ∧
          before ≤ after

end ClientLogger

end RemoteMonitoring
