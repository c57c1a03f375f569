/-
Module: RemoteMonitoring.Client.ClientLogger
Purpose: `ClientLogger` (client/client_logger.hpp and .cpp): the configuration in force, the log
  queue, the subscriber that hands acks to the queue, and the check of the process table
  against the configuration.
Trusted boundary: none
Main exports: ClientLogger, ClientLogger.onNetworkRecv, ClientLogger.generateLog,
  ClientLogger.setConfig, ackSubscriber
-/
import RemoteMonitoring.Client.LogQueue
import RemoteMonitoring.Client.ProcessTable
import RemoteMonitoring.Common.Config
import RemoteMonitoring.Common.NetworkEvent

namespace RemoteMonitoring

open ByteText

/-- The ack subscriber on the queue it works on.  `id` is not initialised before
`std::from_chars`, so it starts as `junkId`. -/
def ackSubscriber (junkId : UInt64) (payload : Bytes) (queue : LogQueue) :
    Except RuntimeError LogQueue := do
  let (message, _) ← readString (.ofBytes payload)
  if (ascii "ack ").isPrefixOf message then
    let idStr := message.drop (ascii "ack ").length
    return queue.ackLog (fromCharsUInt64 junkId idStr)
  else return queue

structure ClientLogger where
  config : Config
  logQueue : LogQueue
deriving Repr

namespace ClientLogger

def onNetworkRecv (logger : ClientLogger) (junkId : UInt64) (event : NetworkRecvEvent) :
    Except RuntimeError ClientLogger := do
  let logQueue ← ackSubscriber junkId event.payload logger.logQueue
  return { logger with logQueue }

/-- One of the checks: what exceeds its threshold is logged under a new id. -/
def logIf (exceeds : Bool) (name : Bytes) (nowMs : UInt64) (logType : LogType) (value : UInt64)
    (logQueue : LogQueue) : LogQueue :=
  if exceeds then (logQueue.addNewLog name nowMs logType value).2 else logQueue

/-- The four checks for an entry of the configuration. -/
def checkUsage (nowMs : UInt64) (entry : ConfigEntry) (stat : ProcessStat) (logQueue : LogQueue) :
    LogQueue :=
  let name := entry.processName
  let disk := stat.diskUsage.diskRead.getD 0 + stat.diskUsage.diskWrite.getD 0
  let network := stat.networkUsage.networkRecv.getD 0 + stat.networkUsage.networkSend.getD 0
  let logQueue := logIf (stat.cpuUsagePercent > entry.cpuUsage) name nowMs LogType.cpu
    stat.cpuUsagePercent.toUInt64 logQueue
  let logQueue := logIf (stat.memUsage > entry.memUsage) name nowMs LogType.mem stat.memUsage
    logQueue
  let logQueue := logIf (disk > entry.diskUsage) name nowMs LogType.disk disk logQueue
  logIf (network > entry.networkUsage) name nowMs LogType.net network logQueue

/-- The loop over the configuration.  `map[name]` adds a row for a name that has none. -/
def checkEntries (nowMs : UInt64) :
    List ConfigEntry → UnorderedMap Bytes ProcessStat → LogQueue → LogQueue
  | [], _, logQueue => logQueue
  | entry :: later, map, logQueue =>
      let map := map.touch entry.processName
      let stat := map.valueAt entry.processName
      checkEntries nowMs later map (checkUsage nowMs entry stat logQueue)

/-- Nothing if a lookup in the process table throws. -/
def generateLog (order : ListingOrder) (nowMs : UInt64) (processTable : ProcessTable)
    (logger : ClientLogger) : Option ClientLogger := do
  let map ← processTable.getMapProgramNameResource order
  return { logger with
    logQueue := checkEntries nowMs logger.config.configEntries map logger.logQueue }

def getBatchLog (logger : ClientLogger) (batchSize : UInt32) : List LogEntry :=
  logger.logQueue.getBatchLog batchSize

/-- "write config immediately after setting because why not"; the parameter is
destroyed on return and writes once more. -/
def setConfig (json : JsonLibrary) (logger : ClientLogger) (config : Config) (file : File) :
    ClientLogger × File :=
  let file := (config.writeConfig json file).2
  ({ logger with config }, config.destroy json file)

end ClientLogger

end RemoteMonitoring
