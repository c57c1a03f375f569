/-
Module: RemoteMonitoring.Server.RecvLogSteps
Purpose: `ClientHandler::handle_recv_log` (server/client_handler.cpp) one step at a time: the
  reading of the last line, the decoding, every write to the log stream, the ack, and the
  closing of the stream when the function returns.
Trusted boundary: a step is atomic; the outcome of every write is arbitrary
Main exports: RecvLogCall, RecvLog, RecvLog.step
-/
import RemoteMonitoring.Server.ClientHandler
import RemoteMonitoring.Lib.OFStream

namespace RemoteMonitoring

open ByteText

/-- The arguments of a call, with the values that its uninitialised variables hold. -/
structure RecvLogCall where
  info : ClientInfo
  junk : Indeterminate
  netCount : UInt32
  is : IStream

/-- What a call does next. -/
inductive RecvLogPhase where
  | readLastLine
  | decode
  | openFile
  | loop
  | publish
  | close
  | returned
deriving DecidableEq, Repr

/-- The local state of a call: `logEntries` is what the loop has not reached yet. -/
structure RecvLog where
  phase : RecvLogPhase
  lastAckedId : UInt64
  logEntries : List LogEntry
  stream : OFStream
  published : List NetworkSendEvent
deriving DecidableEq, Repr

namespace RecvLog

def start : RecvLog := ⟨.readLastLine, 0, [], .opened, []⟩

/-- The next step on the client's log file.  `outcome` is that of the write, if the
step makes one.  The ack is published while the stream is still open. -/
def step (call : RecvLogCall) (outcome : WriteOutcome) (handler : RecvLog) (file : File) :
    RecvLog × File :=
  match handler.phase with
  | .readLastLine =>
      ({ handler with phase := .decode, lastAckedId := RemoteMonitoring.lastAckedId call.junk file },
        file)
  | .decode =>
      match readVectorSerializeable LogEntry.deserialize call.netCount call.is with
      | .error _ => ({ handler with phase := .returned }, file)
      | .ok (logEntries, _) => ({ handler with phase := .openFile, logEntries }, file)
  | .openFile =>
      if file.writable then ({ handler with phase := .loop }, file.append [])
      else ({ handler with phase := .returned }, file)
  | .loop =>
      match handler.logEntries with
      | [] => ({ handler with phase := .publish }, file)
      | logEntry :: rest =>
          if logEntry.id = handler.lastAckedId + 1 then
            let (stream, file) := handler.stream.write outcome logEntry.serializeStr file
            ({ handler with
                logEntries := rest
                stream
                lastAckedId := handler.lastAckedId + 1 }, file)
          else ({ handler with logEntries := rest }, file)
  | .publish =>
      match writeString (ackMessage handler.lastAckedId) with
      | .error _ => ({ handler with phase := .returned }, file)
      | .ok payload =>
          ({ handler with
              phase := .close
              published := [⟨call.info.clientIp, call.info.clientPort, payload⟩] }, file)
  | .close => ({ handler with phase := .returned }, handler.stream.close outcome file)
  | .returned => (handler, file)

end RecvLog

end RemoteMonitoring
