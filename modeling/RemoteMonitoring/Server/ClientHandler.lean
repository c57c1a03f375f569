/-
Module: RemoteMonitoring.Server.ClientHandler
Purpose: `ClientHandler` (server/client_handler.hpp and .cpp): the subscriber that dispatches a
  client's messages and `handle_recv_log`, which stores a batch and publishes the ack.
Trusted boundary: a write that follows a successful open succeeds, and the whole call is one
  step; the steps inside the call are in Server.RecvLogSteps
Main exports: ClientInfo, Disk, lastAckedId, acceptLoop, handleRecvLog,
  ClientHandler.onNetworkRecv
-/
import RemoteMonitoring.Common.LogEntry
import RemoteMonitoring.Common.NetworkEvent
import RemoteMonitoring.Common.Util

namespace RemoteMonitoring

open ByteText

structure ClientInfo where
  clientId : Nat
  clientSocket : Nat
  clientIp : Bytes
  clientPort : UInt16
deriving DecidableEq, Repr

/-- The server's file system, by file name. -/
abbrev Disk := Bytes → File

/-- `"client-log-" + client_ip + ".txt"`. -/
def clientLogFile (clientIp : Bytes) : Bytes :=
  ascii "client-log-" ++ clientIp ++ ascii ".txt"

/-- The id on the last line of a client's log file, 0 when there is no last line.
The entry it is parsed into is uninitialised before. -/
def lastAckedId (junk : Indeterminate) (file : File) : UInt64 :=
  let lastLine := getLastLineOfFile file
  if lastLine ≠ [] then
    let (_, logEntry, _) :=
      (LogEntry.ofIndeterminate junk).deserializeStr junk.tempNumber (.ofBytes lastLine)
    logEntry.id
  else 0

/-- The loop over a batch: only the entry that follows the last acknowledged one
is taken.  Returns the last acknowledged id and the entries written. -/
def acceptLoop (lastAckedId : UInt64) : List LogEntry → UInt64 × List LogEntry
  | [] => (lastAckedId, [])
  | logEntry :: rest =>
      if logEntry.id = lastAckedId + 1 then
        let (last, accepted) := acceptLoop (lastAckedId + 1) rest
        (last, logEntry :: accepted)
      else acceptLoop lastAckedId rest

def ackMessage (id : UInt64) : Bytes := ascii "ack " ++ decimal id.toNat

/-- `handle_recv_log`, with `is` behind the word "log" of the payload.  The batch
is decoded before the file is opened, so a decoding error leaves the disk alone. -/
def handleRecvLog (info : ClientInfo) (junk : Indeterminate) (netCount : UInt32)
    (is : IStream) (disk : Disk) : Except RuntimeError (Disk × List NetworkSendEvent) := do
  let name := clientLogFile info.clientIp
  let last := lastAckedId junk (disk name)
  let (logEntries, _) ← readVectorSerializeable LogEntry.deserialize netCount is
  if !(disk name).writable then return (disk, [])
  let (last, accepted) := acceptLoop last logEntries
  let file := (disk name).append (accepted.flatMap LogEntry.serializeStr)
  let payload ← writeString (ackMessage last)
  return (Function.update disk name file, [⟨info.clientIp, info.clientPort, payload⟩])

namespace ClientHandler

/-- The handler's subscriber: messages of other connections are left alone, and of
the known messages only "log" has an effect. -/
def onNetworkRecv (info : ClientInfo) (junk : Indeterminate) (netCount : UInt32)
    (event : NetworkRecvEvent) (disk : Disk) :
    Except RuntimeError (Disk × List NetworkSendEvent) :=
  if event.ip ≠ info.clientIp then .ok (disk, [])
  else if event.port ≠ info.clientPort then .ok (disk, [])
  else do
    let (response, is) ← readString (.ofBytes event.payload)
    if response = ascii "log" then handleRecvLog info junk netCount is disk
    else if response = ascii "config ok" then return (disk, [])
    else return (disk, [])

end ClientHandler

/-! ### Reading the last id back -/

theorem clientLogFile_injective {one two : Bytes}
    (same : clientLogFile one = clientLogFile two) : one = two := by
  simpa [clientLogFile] using same

@[simp] theorem dropReturns_append (one two : Bytes) :
    dropReturns (one ++ two) = dropReturns one ++ dropReturns two := by
  simp [dropReturns]

theorem dropReturns_of_not_mem {line : Bytes} (free : carriageReturn ∉ line) :
    dropReturns line = line := by
  rw [dropReturns, List.filter_eq_self]
  intro byte member
  simp only [bne_iff_ne, ne_eq]
  rintro rfl
  exact free member

@[simp] theorem dropReturns_decimal (n : Nat) : dropReturns (decimal n) = decimal n :=
  dropReturns_of_not_mem (not_mem_decimal (by decide))

/-- The id that a line of its own would be read back with: carriage returns are
dropped and what stands in front of the first separator is parsed. -/
def lineId (junk : Indeterminate) (line : Bytes) : UInt64 :=
  ((LogEntry.ofIndeterminate junk).ofLine junk.tempNumber (dropReturns line)).id

theorem newline_not_mem_lastLine (text : Bytes) : newline ∉ lastLine text := by
  intro member
  rw [lastLine, List.mem_reverse] at member
  have kept := List.mem_takeWhile_imp member
  simp at kept

theorem newline_not_mem_dropReturns {line : Bytes} (single : newline ∉ line) :
    newline ∉ dropReturns line := fun member => single (List.mem_filter.mp member).1

/-- The last acknowledged id is read off the last line. -/
theorem lastAckedId_eq (junk : Indeterminate) (file : File) :
    lastAckedId junk file =
      if dropReturns (lastLine file.bytes) = [] then 0
      else lineId junk (lastLine file.bytes) := by
  have single : newline ∉ dropReturns (lastLine file.bytes) :=
    newline_not_mem_dropReturns (newline_not_mem_lastLine _)
  unfold lastAckedId
  rw [getLastLineOfFile_eq]
  by_cases empty : dropReturns (lastLine file.bytes) = []
  · simp [empty]
  · simp [empty, LogEntry.deserializeStr, IStream.getline_end [] single, lineId]

theorem dropReturns_line (entry : LogEntry) :
    ∃ rest, dropReturns entry.line = decimal entry.id.toNat ++ pipe :: rest := by
  have visible : dropReturns [pipe] = [pipe] := rfl
  rw [LogEntry.line, ← List.singleton_append, dropReturns_append, dropReturns_append,
    dropReturns_decimal, visible]
  exact ⟨_, rfl⟩

/-- Whatever its name contains, the line of an entry starts with the entry's id. -/
theorem lineId_line (junk : Indeterminate) (entry : LogEntry) :
    lineId junk entry.line = entry.id := by
  obtain ⟨rest, same⟩ := dropReturns_line entry
  rw [lineId, same, LogEntry.ofLine_id]

theorem isLineBreak_of_isDigit {byte : UInt8} (digit : isDigit byte = true) :
    isLineBreak byte = false := by
  simp only [isLineBreak, Bool.or_eq_false_iff, beq_eq_false_iff_ne, ne_eq]
  constructor
  · rintro rfl
    cases digit
  · rintro rfl
    cases digit

/-- The id that is recovered from a file to which `entry` was appended last. -/
def LogEntry.readBack (junk : Indeterminate) (entry : LogEntry) : UInt64 :=
  lineId junk (lastLine entry.serializeStr)

/-- A name without a newline leaves the line whole, so the id is the entry's. -/
theorem readBack_of_single {entry : LogEntry} (single : newline ∉ entry.processName)
    (junk : Indeterminate) : entry.readBack junk = entry.id := by
  obtain ⟨front, last, same, digit⟩ := entry.line_eq_concat
  have whole := LogEntry.newline_not_mem_line single
  rw [same] at whole
  have line : lastLine entry.serializeStr = entry.line := by
    rw [LogEntry.serializeStr, same]
    exact lastLine_single whole (isLineBreak_of_isDigit digit)
  rw [LogEntry.readBack, line, lineId_line]

/-- The last visible byte of a line is on its last line. -/
theorem dropReturns_lastLine_ne_nil (entry : LogEntry) :
    dropReturns (lastLine entry.serializeStr) ≠ [] := by
  obtain ⟨front, last, same, digit⟩ := entry.line_eq_concat
  have visible := isLineBreak_of_isDigit digit
  have member : last ∈ lastLine entry.serializeStr := by
    rw [LogEntry.serializeStr, same]
    exact mem_lastLine visible
  apply List.ne_nil_of_mem
  apply List.mem_filter.mpr
  refine ⟨member, ?_⟩
  simp only [isLineBreak, Bool.or_eq_false_iff] at visible
  simp [bne, visible.2]

/-- After an entry was appended, its id is recovered as it reads back. -/
theorem lastAckedId_append_entry {file : File} {front : Bytes} {entry : LogEntry}
    (content : file.bytes = front ++ entry.serializeStr) (ends : Terminated front)
    (junk : Indeterminate) : lastAckedId junk file = entry.readBack junk := by
  obtain ⟨before, last, same, digit⟩ := entry.line_eq_concat
  have line : lastLine file.bytes = lastLine entry.serializeStr := by
    rw [content, LogEntry.serializeStr, same]
    exact lastLine_append ends (isLineBreak_of_isDigit digit)
  rw [lastAckedId_eq, line, if_neg (dropReturns_lastLine_ne_nil entry), LogEntry.readBack]

/-- After an entry whose name has no newline was appended, its id is the one that
is recovered. -/
theorem lastAckedId_append {file : File} {front : Bytes} {entry : LogEntry}
    (content : file.bytes = front ++ entry.serializeStr) (ends : Terminated front)
    (single : newline ∉ entry.processName) (junk : Indeterminate) :
    lastAckedId junk file = entry.id := by
  rw [lastAckedId_append_entry content ends, readBack_of_single single]

theorem lastAckedId_of_empty {file : File} (empty : file.bytes = []) (junk : Indeterminate) :
    lastAckedId junk file = 0 := by
  rw [lastAckedId_eq, empty]
  rfl

/-! ### What a batch does -/

theorem acceptLoop_next {last : UInt64} {entry : LogEntry} (rest : List LogEntry)
    (follows : entry.id = last + 1) :
    acceptLoop last (entry :: rest) =
      ((acceptLoop (last + 1) rest).1, entry :: (acceptLoop (last + 1) rest).2) := by
  simp [acceptLoop, follows]

theorem acceptLoop_skip {last : UInt64} {entry : LogEntry} (rest : List LogEntry)
    (skips : entry.id ≠ last + 1) :
    acceptLoop last (entry :: rest) = acceptLoop last rest := by
  simp [acceptLoop, skips]

/-- On consecutive ids that start at or before the last acknowledged one, the
loop takes exactly the entries behind it. -/
theorem acceptLoop_numbered {start : Nat} {batch : List LogEntry} {last : UInt64}
    (numbered : LogEntry.Numbered start batch) (reaches : start ≤ last.toNat)
    (fits : start + batch.length < 2 ^ 64) :
    (acceptLoop last batch).1.toNat = max last.toNat (start + batch.length) ∧
      (acceptLoop last batch).2 = batch.drop (last.toNat - start) := by
  induction batch generalizing start last with
  | nil => simpa [acceptLoop] using reaches
  | cons entry rest ih =>
      obtain ⟨id, later⟩ := numbered
      simp only [List.length_cons] at fits ⊢
      have small := last.toNat_lt
      by_cases next : start = last.toNat
      · have succ : (last + 1).toNat = start + 1 := by
          rw [UInt64.toNat_add, UInt64.toNat_one, ← next, Nat.mod_eq_of_lt (by omega)]
        have follows : entry.id = last + 1 := UInt64.toNat_inj.mp (id.trans succ.symm)
        obtain ⟨reached, taken⟩ := @ih (start + 1) (last + 1) later succ.ge (by omega)
        rw [acceptLoop_next rest follows]
        constructor
        · rw [reached, succ]
          omega
        · rw [taken, succ, next]
          simp
      · have skips : entry.id ≠ last + 1 := by
          rintro same
          rw [same, UInt64.toNat_add, UInt64.toNat_one] at id
          omega
        obtain ⟨reached, taken⟩ := @ih (start + 1) last later (by omega) (by omega)
        have count : last.toNat - start = last.toNat - (start + 1) + 1 := by omega
        rw [acceptLoop_skip rest skips]
        constructor
        · rw [reached]
          omega
        · rw [taken, count, List.drop_succ_cons]

/-- A batch that starts behind a gap is skipped as a whole. -/
theorem acceptLoop_ahead {start : Nat} {batch : List LogEntry} {last : UInt64}
    (numbered : LogEntry.Numbered start batch) (ahead : last.toNat < start) :
    acceptLoop last batch = (last, []) := by
  induction batch generalizing start with
  | nil => rfl
  | cons entry rest ih =>
      obtain ⟨id, later⟩ := numbered
      have skips : entry.id ≠ last + 1 := by
        intro same
        rw [same, UInt64.toNat_add, UInt64.toNat_one] at id
        have wraps := Nat.mod_le (last.toNat + 1) (2 ^ 64)
        omega
      rw [acceptLoop_skip rest skips]
      exact ih later (Nat.lt_succ_of_lt ahead)

/-- Every entry that is taken adds one to the last acknowledged id, which wraps. -/
theorem acceptLoop_reached (last : UInt64) (batch : List LogEntry) :
    (acceptLoop last batch).1 = last + UInt64.ofNat (acceptLoop last batch).2.length := by
  induction batch generalizing last with
  | nil => simp [acceptLoop]
  | cons entry rest ih =>
      by_cases follows : entry.id = last + 1
      · have reached := ih (last + 1)
        rw [acceptLoop_next rest follows]
        simp only [List.length_cons, UInt64.ofNat_add]
        rw [reached, UInt64.add_assoc, UInt64.add_comm 1]
        rfl
      · rw [acceptLoop_skip rest follows]
        exact ih last

/-- The last entry that is taken has the id that is acknowledged. -/
theorem acceptLoop_last {last : UInt64} {batch front : List LogEntry} {newest : LogEntry}
    (taken : (acceptLoop last batch).2 = front ++ [newest]) :
    newest.id = (acceptLoop last batch).1 := by
  induction batch generalizing last front with
  | nil => simp [acceptLoop] at taken
  | cons entry rest ih =>
      by_cases follows : entry.id = last + 1
      · rw [acceptLoop_next rest follows] at taken ⊢
        cases front with
        | nil =>
            rw [List.nil_append, List.cons.injEq] at taken
            have reached := acceptLoop_reached (last + 1) rest
            rw [taken.2] at reached
            rw [← taken.1, follows, reached]
            simp
        | cons first front =>
            rw [List.cons_append, List.cons.injEq] at taken
            exact ih taken.2
      · rw [acceptLoop_skip rest follows] at taken ⊢
        exact ih taken

/-- The message that carries an ack, behind its length. -/
def ackPayload (id : UInt64) : Bytes :=
  writeUint32 (UInt32.ofNat (ackMessage id).length) ++ ackMessage id

theorem writeString_ackMessage (id : UInt64) :
    writeString (ackMessage id) = .ok (ackPayload id) := by
  have digits : (decimal id.toNat).length ≤ 20 :=
    decimal_length_le (by decide) (Nat.lt_trans id.toNat_lt (by decide))
  have tag : (ascii "ack ").length = 4 := rfl
  refine writeString_eq_ok.mpr ⟨?_, rfl⟩
  rw [ackMessage, List.length_append, tag]
  omega

/-- Acks of different ids are different messages. -/
theorem ackPayload_injective {one two : UInt64} (same : ackPayload one = ackPayload two) :
    one = two := by
  have readsOne := readString_writeString (writeString_ackMessage one) []
  have readsTwo := readString_writeString (writeString_ackMessage two) []
  rw [same, readsTwo] at readsOne
  have messages : ackMessage two = ackMessage one := by
    simpa using readsOne
  have digits : decimal two.toNat = decimal one.toNat := by
    simpa [ackMessage] using messages
  exact UInt64.toNat_inj.mp (decimal_injective digits.symm)

/-- A batch that decodes is run through the loop from the id on the last line;
what the loop takes is appended and its last id goes out as the ack. -/
theorem handleRecvLog_ok {info : ClientInfo} {junk : Indeterminate} {netCount : UInt32}
    {is rest : IStream} {disk : Disk} {batch : List LogEntry}
    (decodes : readVectorSerializeable LogEntry.deserialize netCount is = .ok (batch, rest))
    (opens : (disk (clientLogFile info.clientIp)).writable = true) :
    handleRecvLog info junk netCount is disk =
      let file := disk (clientLogFile info.clientIp)
      let outcome := acceptLoop (lastAckedId junk file) batch
      .ok (Function.update disk (clientLogFile info.clientIp)
          (file.append (outcome.2.flatMap LogEntry.serializeStr)),
        [⟨info.clientIp, info.clientPort, ackPayload outcome.1⟩]) := by
  simp [handleRecvLog, decodes, opens, writeString_ackMessage, bind, Except.bind, pure,
    Except.pure]

end RemoteMonitoring
