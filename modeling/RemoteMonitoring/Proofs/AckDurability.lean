/-
Module: RemoteMonitoring.Proofs.AckDurability
Purpose: One call of `handle_recv_log` that may crash between any two steps, with writes that go
  through, fail or stay in the buffer: when is what it acknowledges on the disk?
Trusted boundary: none
Main exports: runRecvLog, Progress, progress_run, run_handleRecvLog, AckDurable,
  ack_durable_iff
-/
import RemoteMonitoring.Server.RecvLogSteps

namespace RemoteMonitoring

open ByteText
open RecvLog
open OFStream (writes writes_complete_iff close_complete)

/-- What the environment decides about a call: the outcome of the write of each
entry, and of the flush at the end.  Accepted entries have different ids, so there is
one outcome for each write. -/
structure RecvLogOutcomes where
  entry : LogEntry → WriteOutcome
  closing : WriteOutcome

/-- The outcome that the next step meets. -/
def RecvLogOutcomes.next (outcomes : RecvLogOutcomes) (handler : RecvLog) : WriteOutcome :=
  match handler.phase, handler.logEntries with
  | .loop, logEntry :: _ => outcomes.entry logEntry
  | _, _ => outcomes.closing

/-- The call and the file after so many steps; a crash leaves the file behind. -/
def runRecvLog (call : RecvLogCall) (outcomes : RecvLogOutcomes) (file : File) :
    Nat → RecvLog × File
  | 0 => (RecvLog.start, file)
  | count + 1 =>
      let (handler, file) := runRecvLog call outcomes file count
      handler.step call (outcomes.next handler) file

section Progress

variable (call : RecvLogCall) (outcomes : RecvLogOutcomes) (file : File) (batch : List LogEntry)

/-- The id and the entries that the call ends up with. -/
def accepting : UInt64 × List LogEntry := acceptLoop (lastAckedId call.junk file) batch

/-- Stream and file after the writes of some entries. -/
def writing (entries : List LogEntry) : OFStream × File :=
  writes outcomes.entry LogEntry.serializeStr entries (file.append [])

/-- Where a call is, and what it has done so far. -/
def Progress (handler : RecvLog) (after : File) : Prop :=
  match handler.phase with
  | .readLastLine => handler = RecvLog.start ∧ after = file
  | .decode =>
      handler = { RecvLog.start with
        phase := .decode, lastAckedId := lastAckedId call.junk file } ∧ after = file
  | .openFile =>
      handler = ⟨.openFile, lastAckedId call.junk file, batch, .opened, []⟩ ∧ after = file
  | .loop => handler.published = [] ∧ ∃ taken,
      (handler.stream, after) = writing outcomes file taken ∧
        accepting call file batch =
          ((acceptLoop handler.lastAckedId handler.logEntries).1,
            taken ++ (acceptLoop handler.lastAckedId handler.logEntries).2)
  | .publish => handler.published = [] ∧
      handler.lastAckedId = (accepting call file batch).1 ∧
        (handler.stream, after) = writing outcomes file (accepting call file batch).2
  | .close =>
      handler.published = [⟨call.info.clientIp, call.info.clientPort,
        ackPayload (accepting call file batch).1⟩] ∧
        (handler.stream, after) = writing outcomes file (accepting call file batch).2
  | .returned =>
      handler.published = [⟨call.info.clientIp, call.info.clientPort,
        ackPayload (accepting call file batch).1⟩] ∧
        after = (writing outcomes file (accepting call file batch).2).1.close outcomes.closing
          (writing outcomes file (accepting call file batch).2).2

variable {call outcomes file batch}

/-- One more step of the handler, whatever it fails with: the phases follow one another, and the
file has the bytes of the writes so far. -/
theorem progress_step {rest : IStream} (opens : file.writable = true)
    (decodes : readVectorSerializeable LogEntry.deserialize call.netCount call.is =
      .ok (batch, rest)) {handler : RecvLog} {after : File}
    (progress : Progress call outcomes file batch handler after) :
    Progress call outcomes file batch (handler.step call (outcomes.next handler) after).1
      (handler.step call (outcomes.next handler) after).2 := by
  cases phase : handler.phase with
  | readLastLine =>
      simp only [Progress, phase] at progress
      obtain ⟨rfl, rfl⟩ := progress
      exact ⟨rfl, rfl⟩
  | decode =>
      simp only [Progress, phase] at progress
      obtain ⟨rfl, rfl⟩ := progress
      simp only [step, decodes]
      exact ⟨rfl, rfl⟩
  | openFile =>
      simp only [Progress, phase] at progress
      obtain ⟨rfl, rfl⟩ := progress
      simp only [step, opens, if_true]
      exact ⟨rfl, [], rfl, rfl⟩
  | loop =>
      simp only [Progress, phase] at progress
      obtain ⟨silent, taken, account, accepts⟩ := progress
      cases entries : handler.logEntries with
      | nil =>
          rw [entries, acceptLoop, List.append_nil] at accepts
          simp only [step, phase, entries]
          refine ⟨silent, ?_, ?_⟩
          · rw [accepts]
          · rw [accepts]
            exact account
      | cons logEntry later =>
          rw [entries] at accepts
          by_cases follows : logEntry.id = handler.lastAckedId + 1
          · -- the entry is taken and its line is written
            rw [acceptLoop_next later follows] at accepts
            simp only [step, phase, entries, follows, if_true, RecvLogOutcomes.next]
            refine ⟨silent, taken ++ [logEntry], ?_, ?_⟩
            · rw [writing, OFStream.writes_concat, ← writing, ← account]
            · rw [accepts, List.append_assoc, List.singleton_append]
          · rw [acceptLoop_skip later follows] at accepts
            simp only [step, phase, entries, follows, if_false]
            exact ⟨silent, taken, account, accepts⟩
  | publish =>
      simp only [Progress, phase] at progress
      obtain ⟨silent, last, account⟩ := progress
      simp only [step, phase, writeString_ackMessage]
      refine ⟨?_, account⟩
      rw [last]
  | close =>
      simp only [Progress, phase] at progress
      obtain ⟨published, account⟩ := progress
      simp only [step, phase, RecvLogOutcomes.next]
      refine ⟨published, ?_⟩
      rw [← account]
  | returned =>
      simp only [step, phase]
      exact progress

/-- So it is after any number of steps. -/
theorem progress_run {rest : IStream} (opens : file.writable = true)
    (decodes : readVectorSerializeable LogEntry.deserialize call.netCount call.is =
      .ok (batch, rest)) (count : Nat) :
    Progress call outcomes file batch (runRecvLog call outcomes file count).1
      (runRecvLog call outcomes file count).2 := by
  induction count with
  | zero => exact ⟨rfl, rfl⟩
  | succ count ih => exact progress_step opens decodes ih

/-- The loop visits every entry, and then the ack goes out. -/
theorem publishes_from_loop {count : Nat} {handler : RecvLog} {after : File}
    (here : runRecvLog call outcomes file count = (handler, after))
    (phase : handler.phase = .loop) :
    ∃ later, (runRecvLog call outcomes file later).1.phase = .close := by
  cases handler with
  | mk phase' last logEntries stream published =>
      cases phase
      induction logEntries generalizing count last stream after with
      | nil =>
          refine ⟨count + 2, ?_⟩
          simp [runRecvLog, here, step, writeString_ackMessage]
      | cons logEntry later ih =>
          have next : runRecvLog call outcomes file (count + 1) =
              RecvLog.step call (outcomes.entry logEntry)
                ⟨.loop, last, logEntry :: later, stream, published⟩ after := by
            simp only [runRecvLog, here, RecvLogOutcomes.next]
          by_cases follows : logEntry.id = last + 1
          · simp only [step, follows, if_true] at next
            exact ih _ _ next
          · simp only [step, follows, if_false] at next
            exact ih _ _ next

/-- Every call on a file that opens, with a batch that decodes, publishes an ack. -/
theorem run_publishes {rest : IStream} (opens : file.writable = true)
    (decodes : readVectorSerializeable LogEntry.deserialize call.netCount call.is =
      .ok (batch, rest)) :
    ∃ count, (runRecvLog call outcomes file count).1.phase = .close := by
  have entered : runRecvLog call outcomes file 3 =
      (⟨.loop, lastAckedId call.junk file, batch, .opened, []⟩, file.append []) := by
    simp [runRecvLog, step, RecvLog.start, decodes, opens]
  exact publishes_from_loop entered rfl

/-- When every write goes through, the steps end where the call as a whole ends. -/
theorem run_handleRecvLog {rest : IStream} (disk : Disk)
    (opens : (disk (clientLogFile call.info.clientIp)).writable = true)
    (decodes : readVectorSerializeable LogEntry.deserialize call.netCount call.is =
      .ok (batch, rest)) :
    ∃ count,
      let (handler, after) := runRecvLog call ⟨fun _ => .written, .written⟩
        (disk (clientLogFile call.info.clientIp)) count
      handler.phase = .returned ∧
        handleRecvLog call.info call.junk call.netCount call.is disk =
          .ok (Function.update disk (clientLogFile call.info.clientIp) after,
            handler.published) := by
  generalize same : disk (clientLogFile call.info.clientIp) = file at opens
  obtain ⟨count, closing⟩ :
      ∃ count, (runRecvLog call ⟨fun _ => .written, .written⟩ file count).1.phase = .close :=
    run_publishes opens decodes
  have returned :
      (runRecvLog call ⟨fun _ => .written, .written⟩ file (count + 1)).1.phase = .returned := by
    simp only [runRecvLog, step, closing]
  have progress : Progress call ⟨fun _ => .written, .written⟩ file batch
      (runRecvLog call ⟨fun _ => .written, .written⟩ file (count + 1)).1
      (runRecvLog call ⟨fun _ => .written, .written⟩ file (count + 1)).2 :=
    progress_run opens decodes (count + 1)
  generalize reached : runRecvLog call ⟨fun _ => .written, .written⟩ file (count + 1) = last
    at returned progress
  simp only [Progress, returned] at progress
  obtain ⟨published, after⟩ := progress
  refine ⟨count + 1, ?_⟩
  rw [reached]
  refine ⟨returned, ?_⟩
  rw [handleRecvLog_ok decodes (same ▸ opens), published, after, same]
  simp only [writing, accepting, OFStream.writes_written, OFStream.close_opened]

end Progress

/-- A call on a file that cannot be opened returns without an ack. -/
theorem silent_of_not_writable {call : RecvLogCall} {outcomes : RecvLogOutcomes} {file : File}
    (closed : file.writable = false) (count : Nat) :
    (runRecvLog call outcomes file count).1.published = [] := by
  -- such a call never gets to the loop
  have early : (runRecvLog call outcomes file count).2 = file ∧
      (runRecvLog call outcomes file count).1.published = [] ∧
      (runRecvLog call outcomes file count).1.phase ∈
        [RecvLogPhase.readLastLine, .decode, .openFile, .returned] := by
    induction count with
    | zero => exact ⟨rfl, rfl, by simp [runRecvLog, RecvLog.start]⟩
    | succ count ih =>
        obtain ⟨same, silent, phase⟩ := ih
        simp only [runRecvLog, same]
        simp only [List.mem_cons, List.not_mem_nil, or_false] at phase
        rcases phase with phase | phase | phase | phase
        · simp [step, phase, silent]
        · simp only [step, phase]
          cases readVectorSerializeable LogEntry.deserialize call.netCount call.is with
          | error thrown => simp [silent]
          | ok outcome => simp [silent]
        · simp [step, phase, silent, closed]
        · simp [step, phase, silent]
  exact early.2.1

/-! ### What an ack promises -/

/-- A file from which no restart recovers an id below `id`. -/
def Recovers (id : UInt64) (file : File) : Prop := ∀ junk, id ≤ lastAckedId junk file

/-- The last visible line of a text starts with a number that is `id` at least; only
the id 0 needs no number. -/
def LastLineReaches (id : UInt64) (text : Bytes) : Prop :=
  match fromChars (2 ^ 64) (dropReturns (lastLine text)) with
  | some number => id.toNat ≤ number
  | none => id = 0

/-- Without a number the recovered id is whatever the variable held. -/
theorem recovers_iff {id : UInt64} {file : File} :
    Recovers id file ↔ LastLineReaches id file.bytes := by
  have zero : id ≤ 0 ↔ id = 0 := by
    rw [UInt64.le_iff_toNat_le, ← UInt64.toNat_inj, UInt64.toNat_zero, Nat.le_zero]
  unfold Recovers LastLineReaches
  simp only [lastAckedId_eq]
  by_cases blank : dropReturns (lastLine file.bytes) = []
  · have none : fromChars (2 ^ 64) [] = none := rfl
    simp only [blank, if_true, none, zero, forall_const]
  · simp only [blank, if_false, lineId, LogEntry.ofLine_id_eq, fromCharsUInt64]
    cases reads : fromChars (2 ^ 64) (dropReturns (lastLine file.bytes)) with
    | none =>
        simp only [Option.map_none, Option.getD_none]
        constructor
        · intro below
          exact zero.mp (below ⟨0, 0, 0, 0, 0⟩)
        · rintro rfl junk
          exact UInt64.le_iff_toNat_le.mpr (Nat.zero_le _)
    | some number =>
        simp only [Option.map_some, Option.getD_some, UInt64.le_iff_toNat_le,
          UInt64.toNat_ofNat', Nat.mod_eq_of_lt (lt_of_fromChars reads), forall_const]

/-- Behind whole lines, the line of a name without a newline reaches its own id. -/
theorem lastLineReaches_append {file : File} {front : Bytes} {entry : LogEntry}
    (content : file.bytes = front ++ entry.serializeStr) (ends : Terminated front)
    (single : newline ∉ entry.processName) : LastLineReaches entry.id file.bytes := by
  apply recovers_iff.mp
  intro junk
  rw [lastAckedId_append content ends single]
  exact UInt64.le_refl _

/-- Whenever an ack has been published, what this call accepted is on the disk, and
a server that starts again from there does not fall behind the ack. -/
def AckDurable (call : RecvLogCall) (outcomes : RecvLogOutcomes) (file : File)
    (batch : List LogEntry) : Prop :=
  ∀ count id,
    ⟨call.info.clientIp, call.info.clientPort, ackPayload id⟩ ∈
        (runRecvLog call outcomes file count).1.published →
      (runRecvLog call outcomes file count).2.bytes =
          file.bytes ++ (accepting call file batch).2.flatMap LogEntry.serializeStr ∧
        Recovers id (runRecvLog call outcomes file count).2

section Durable

variable {call : RecvLogCall} {outcomes : RecvLogOutcomes} {file : File}
  {batch : List LogEntry} {rest : IStream}

/-- Nothing is published before the loop is done; afterwards the file is that of the
writes, or what the closing makes of it. -/
theorem published_of_progress {handler : RecvLog} {after : File}
    (progress : Progress call outcomes file batch handler after) :
    handler.published = [] ∨
      handler.published = [⟨call.info.clientIp, call.info.clientPort,
          ackPayload (accepting call file batch).1⟩] ∧
        (after = (writing outcomes file (accepting call file batch).2).2 ∨
          after = (writing outcomes file (accepting call file batch).2).1.close outcomes.closing
            (writing outcomes file (accepting call file batch).2).2) := by
  cases phase : handler.phase with
  | readLastLine =>
      simp only [Progress, phase] at progress
      exact Or.inl (congrArg RecvLog.published progress.1)
  | decode =>
      simp only [Progress, phase] at progress
      exact Or.inl (congrArg RecvLog.published progress.1)
  | openFile =>
      simp only [Progress, phase] at progress
      exact Or.inl (congrArg RecvLog.published progress.1)
  | loop =>
      simp only [Progress, phase] at progress
      exact Or.inl progress.1
  | publish =>
      simp only [Progress, phase] at progress
      exact Or.inl progress.1
  | close =>
      simp only [Progress, phase] at progress
      refine Or.inr ⟨progress.1, Or.inl ?_⟩
      exact congrArg Prod.snd progress.2
  | returned =>
      simp only [Progress, phase] at progress
      exact Or.inr ⟨progress.1, Or.inr progress.2⟩

/-- What an ack that was published says, and the file behind it. -/
theorem published_cases (opens : file.writable = true)
    (decodes : readVectorSerializeable LogEntry.deserialize call.netCount call.is =
      .ok (batch, rest)) {count : Nat} {id : UInt64}
    (published : ⟨call.info.clientIp, call.info.clientPort, ackPayload id⟩ ∈
      (runRecvLog call outcomes file count).1.published) :
    id = (accepting call file batch).1 ∧
      ((runRecvLog call outcomes file count).2 =
          (writing outcomes file (accepting call file batch).2).2 ∨
        (runRecvLog call outcomes file count).2 =
          (writing outcomes file (accepting call file batch).2).1.close outcomes.closing
            (writing outcomes file (accepting call file batch).2).2) := by
  have progress : Progress call outcomes file batch (runRecvLog call outcomes file count).1
      (runRecvLog call outcomes file count).2 := progress_run opens decodes count
  rcases published_of_progress progress with silent | ⟨answered, after⟩
  · rw [silent] at published
    cases published
  · rw [answered, List.mem_singleton, NetworkSendEvent.mk.injEq] at published
    exact ⟨ackPayload_injective published.2.2, after⟩

end Durable

/-- Durability of acks.  For every prior file, batch, outcome of the writes and crash
point: what is acknowledged is on the disk exactly when the file could not even be
opened, or no accepted line failed, the last of them went through at once, and the
last line of the file with all of them carries the acknowledged id or a higher one. -/
theorem ack_durable_iff {call : RecvLogCall} {outcomes : RecvLogOutcomes} {file : File}
    {batch : List LogEntry} {rest : IStream}
    (decodes : readVectorSerializeable LogEntry.deserialize call.netCount call.is =
      .ok (batch, rest)) :
    AckDurable call outcomes file batch ↔
      file.writable = false ∨
        (∀ entry ∈ (accepting call file batch).2, (outcomes.entry entry).isFailed = false) ∧
          (∀ entry ∈ (accepting call file batch).2.getLast?, outcomes.entry entry = .written) ∧
          LastLineReaches (accepting call file batch).1
            (file.bytes ++ (accepting call file batch).2.flatMap LogEntry.serializeStr) := by
  cases opens : file.writable with
  | false =>
      simp only [true_or, iff_true]
      intro count id published
      rw [silent_of_not_writable opens] at published
      cases published
  | true =>
      simp only [Bool.true_eq_false, false_or]
      have opens' : (file.append []).writable = true := by
        rw [File.writable_append, opens]
      have start : (file.append []).bytes = file.bytes := by
        rw [File.bytes_append opens, List.append_nil]
      have complete := writes_complete_iff outcomes.entry LogEntry.serializeStr opens'
        LogEntry.serializeStr_ne_nil (accepting call file batch).2
      rw [start, ← writing] at complete
      constructor
      · intro durable
        -- the ack is out while the stream is still open
        obtain ⟨count, phase⟩ : ∃ count, (runRecvLog call outcomes file count).1.phase = .close :=
          run_publishes opens decodes
        have progress : Progress call outcomes file batch (runRecvLog call outcomes file count).1
            (runRecvLog call outcomes file count).2 := progress_run opens decodes count
        simp only [Progress, phase] at progress
        have promised := durable count (accepting call file batch).1 (by rw [progress.1]; simp)
        have after := congrArg Prod.snd progress.2
        dsimp only at after
        rw [after] at promised
        obtain ⟨unfailed, through⟩ := complete.mp promised.1
        refine ⟨unfailed, through, ?_⟩
        rw [← promised.1]
        exact recovers_iff.mp promised.2
      · rintro ⟨unfailed, through, reaches⟩ count id published
        have onDisk := complete.mpr ⟨unfailed, through⟩
        obtain ⟨rfl, same | same⟩ := published_cases opens decodes published
        · rw [same]
          exact ⟨onDisk, recovers_iff.mpr (onDisk ▸ reaches)⟩
        · have closed := close_complete outcomes.entry LogEntry.serializeStr opens'
            LogEntry.serializeStr_ne_nil (start.symm ▸ onDisk) outcomes.closing
          rw [start, ← writing, ← same] at closed
          exact ⟨closed, recovers_iff.mpr (closed ▸ reaches)⟩

/-- The only entry of the batch of `sampleCall`. -/
private def sampleEntry : LogEntry := ⟨1, ascii "chrome.exe", 5, LogType.cpu, 9⟩

/-- A batch of one entry as its bytes arrive behind the word "log". -/
private def sampleCall : RecvLogCall where
  info := ⟨0, 0, ascii "10.0.0.7", 50000⟩
  junk := default
  netCount := 0
  is := .ofBytes (writeUint32 1 ++ (writeUint64 1 ++ (writeUint32 10 ++ ascii "chrome.exe") ++
    writeUint64 5 ++ writeUint32 LogType.cpu ++ writeUint64 9))

private theorem sampleCall_decodes :
    readVectorSerializeable LogEntry.deserialize sampleCall.netCount sampleCall.is =
      .ok ([sampleEntry], .ofBytes []) := by
  decide +kernel

/-- A new log file, and a line that is still in the buffer when the ack goes out. -/
theorem ack_durable_iff_sample :
    let outcomes : RecvLogOutcomes := ⟨fun _ => .buffered 0, .written⟩
    AckDurable sampleCall outcomes File.absent [sampleEntry] ↔
      File.absent.writable = false ∨
        (∀ entry ∈ (accepting sampleCall File.absent [sampleEntry]).2,
            (outcomes.entry entry).isFailed = false) ∧
          (∀ entry ∈ (accepting sampleCall File.absent [sampleEntry]).2.getLast?,
            outcomes.entry entry = .written) ∧
          LastLineReaches (accepting sampleCall File.absent [sampleEntry]).1
            (File.absent.bytes ++ (accepting sampleCall File.absent [sampleEntry]).2.flatMap
              LogEntry.serializeStr) :=
  ack_durable_iff sampleCall_decodes

/-- After six steps the ack of entry 1 is out and the disk has nothing of it; a
crash at this point loses the entry on both sides. -/
theorem acked_before_written :
    let outcomes : RecvLogOutcomes := ⟨fun _ => .buffered 0, .written⟩
    let (handler, after) := runRecvLog sampleCall outcomes File.absent 6
    readVectorSerializeable LogEntry.deserialize sampleCall.netCount sampleCall.is =
        .ok ([sampleEntry], .ofBytes []) ∧
      handler.published = [⟨ascii "10.0.0.7", 50000, ackPayload 1⟩] ∧
      after.bytes = [] ∧ lastAckedId default after = 0 ∧
      ¬ AckDurable sampleCall outcomes File.absent [sampleEntry] := by
  refine ⟨sampleCall_decodes, by decide +kernel, by decide +kernel, by decide +kernel, ?_⟩
  intro durable
  have stored := (durable 6 1 (by decide +kernel)).1
  revert stored
  decide +kernel

end RemoteMonitoring
