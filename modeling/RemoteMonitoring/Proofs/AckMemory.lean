/-
Module: RemoteMonitoring.Proofs.AckMemory
Purpose: When the server remembers what it acknowledged: exactly when the last entry of every
  batch that adds one is recovered from its own text.
Trusted boundary: calls are atomic, and writes succeed
Main exports: readBack_eq_iff, handle_remembers_iff, remembers_iff
-/
import RemoteMonitoring.System.AckMemory
import RemoteMonitoring.Proofs.Messages

namespace RemoteMonitoring

open ByteText
open AckRun

/-! ### Entries that are recovered -/

/-- The id is read back, whatever the uninitialised entry holds, exactly when it stands
in front of the last line. -/
theorem readBack_eq_iff {entry : LogEntry} :
    (∀ junk, entry.readBack junk = entry.id) ↔ entry.Recovered := by
  have value (junk : Indeterminate) : entry.readBack junk =
      fromCharsUInt64 junk.id (dropReturns (lastLine entry.serializeStr)) := by
    rw [LogEntry.readBack, lineId, LogEntry.ofLine_id_eq]
    rfl
  have every : (∀ junk : Indeterminate,
        fromCharsUInt64 junk.id (dropReturns (lastLine entry.serializeStr)) = entry.id) ↔
      ∀ target, fromCharsUInt64 target (dropReturns (lastLine entry.serializeStr)) = entry.id :=
    ⟨fun all target => all ⟨target, 0, 0, 0, 0⟩, fun all junk => all junk.id⟩
  simp only [value, every, forall_fromCharsUInt64_iff]
  rfl

/-- Names without a newline are always recovered. -/
theorem recovered_of_single {entry : LogEntry} (single : newline ∉ entry.processName) :
    entry.Recovered :=
  readBack_eq_iff.mp (readBack_of_single single)

/-! ### One batch -/

/-- The log file of `ip` can be appended to, `last` is recovered from it, was
acknowledged, and is the number of entries accepted. -/
structure Knows (ip : Bytes) (s : AckRun) (last : UInt64) : Prop where
  opens : (s.disk (clientLogFile ip)).writable = true
  ends : Terminated (s.disk (clientLogFile ip)).bytes
  recovers : ∀ junk, lastAckedId junk (s.disk (clientLogFile ip)) = last
  acked : s.LastAck last
  counts : last.toNat = s.accepted

theorem Knows.remembers {ip : Bytes} {s : AckRun} {last : UInt64} (knows : Knows ip s last) :
    s.Remembers ip := by
  intro junk
  rw [knows.recovers]
  exact ⟨knows.acked, knows.counts⟩

section Batch

variable {ip : Bytes} {s : AckRun} {last : UInt64} {batch : LogBatch}

/-- A batch is handled in one step: what is accepted is appended, and the last id of it is
published. -/
theorem handle_batch (knows : Knows ip s last) (same : batch.info.clientIp = ip) :
    s.handle batch =
      let outcome := acceptLoop last batch.entries
      ⟨Function.update s.disk (clientLogFile ip)
          ((s.disk (clientLogFile ip)).append (outcome.2.flatMap LogEntry.serializeStr)),
        s.published ++ [⟨ip, batch.info.clientPort, ackPayload outcome.1⟩],
        s.accepted + outcome.2.length⟩ := by
  subst same
  obtain ⟨payload, built⟩ := logPayload_isOk batch.sendable
  have handles := onNetworkRecv_logPayload built batch.fits knows.opens batch.junk batch.netCount
  simp only [handle, built, handles, knows.recovers]

/-- What the file has after a batch. -/
theorem handle_bytes (knows : Knows ip s last) (same : batch.info.clientIp = ip) :
    ((s.handle batch).disk (clientLogFile ip)).bytes =
      (s.disk (clientLogFile ip)).bytes ++
        (acceptLoop last batch.entries).2.flatMap LogEntry.serializeStr := by
  simp only [handle_batch knows same, Function.update_self]
  exact File.bytes_append knows.opens _

/-- The ack of the call is the one that the loop ends on. -/
theorem handle_lastAck (knows : Knows ip s last) (same : batch.info.clientIp = ip)
    (id : UInt64) : (s.handle batch).LastAck id ↔ id = (acceptLoop last batch.entries).1 := by
  simp only [handle_batch knows same, LastAck, List.getLast?_append, List.getLast?_singleton,
    Option.some_or]
  constructor
  · intro published
    exact (ackPayload_injective published).symm
  · rintro rfl
    rfl

/-- The next call recovers the id that was acknowledged, if the last entry added is
recovered from its text. -/
theorem handle_recovers_iff (knows : Knows ip s last) (same : batch.info.clientIp = ip) :
    (∀ junk, lastAckedId junk ((s.handle batch).disk (clientLogFile ip)) =
        (acceptLoop last batch.entries).1) ↔
      ∀ entry ∈ (acceptLoop last batch.entries).2.getLast?, entry.Recovered := by
  have content := handle_bytes knows same
  cases List.eq_nil_or_concat (acceptLoop last batch.entries).2 with
  | inl none =>
      have reached := acceptLoop_reached last batch.entries
      rw [none, List.flatMap_nil, List.append_nil] at content
      simp [none] at reached
      have kept (junk : Indeterminate) :
          lastAckedId junk ((s.handle batch).disk (clientLogFile ip)) = last := by
        rw [lastAckedId_eq, content, ← lastAckedId_eq, knows.recovers]
      simp [kept, reached, none]
  | inr some =>
      obtain ⟨front, newest, taken⟩ := some
      rw [List.concat_eq_append] at taken
      have id := acceptLoop_last taken
      rw [taken, List.flatMap_append, List.flatMap_singleton, ← List.append_assoc] at content
      have recovered (junk : Indeterminate) :
          lastAckedId junk ((s.handle batch).disk (clientLogFile ip)) = newest.readBack junk :=
        lastAckedId_append_entry content (knows.ends.append (LogEntry.terminated_flatMap front))
          junk
      simp [recovered, ← id, readBack_eq_iff, taken]

/-- The last id goes up by the number of accepted entries exactly if it does not wrap. -/
theorem handle_counts_iff (knows : Knows ip s last) (same : batch.info.clientIp = ip) :
    (acceptLoop last batch.entries).1.toNat = (s.handle batch).accepted ↔
      last.toNat + (acceptLoop last batch.entries).2.length < 2 ^ 64 := by
  have reached := congrArg UInt64.toNat (acceptLoop_reached last batch.entries)
  rw [UInt64.toNat_add, UInt64.toNat_ofNat', Nat.add_mod_mod] at reached
  have accepted : (s.handle batch).accepted =
      last.toNat + (acceptLoop last batch.entries).2.length := by
    simp only [handle_batch knows same, knows.counts]
  rw [accepted, reached]
  constructor
  · intro whole
    rw [← whole]
    exact Nat.mod_lt _ (by decide)
  · intro bounded
    exact Nat.mod_eq_of_lt bounded

/-- One batch is remembered exactly when its last new entry is recovered and the ids do
not run over. -/
theorem handle_remembers_iff (knows : Knows ip s last) (same : batch.info.clientIp = ip) :
    (s.handle batch).Remembers ip ↔
      (∀ entry ∈ (acceptLoop last batch.entries).2.getLast?, entry.Recovered) ∧
        last.toNat + (acceptLoop last batch.entries).2.length < 2 ^ 64 := by
  rw [← handle_recovers_iff knows same, ← handle_counts_iff knows same]
  simp only [Remembers, handle_lastAck knows same]
  constructor
  · intro remembers
    have id := (remembers default).1
    exact ⟨fun junk => (remembers junk).1, id ▸ (remembers default).2⟩
  · rintro ⟨recovers, counts⟩ junk
    rw [recovers]
    exact ⟨rfl, counts⟩

/-- If the server still knows the last id after a batch, it goes on from that id. -/
theorem handle_knows (knows : Knows ip s last) (same : batch.info.clientIp = ip)
    (remembers : (s.handle batch).Remembers ip) :
    Knows ip (s.handle batch) (acceptLoop last batch.entries).1 where
  opens := by simp [handle_batch knows same, knows.opens]
  ends := by
    rw [handle_bytes knows same]
    exact knows.ends.append (LogEntry.terminated_flatMap _)
  recovers junk := (handle_lastAck knows same _).mp (remembers junk).1
  acked := (handle_lastAck knows same _).mpr rfl
  counts := by
    have conditions := (handle_remembers_iff knows same).mp remembers
    exact (handle_counts_iff knows same).mpr conditions.2

end Batch

/-! ### Runs -/

/-- Without a file the last id is 0. -/
theorem knows_start {ip : Bytes} {disk : Disk} (absent : disk (clientLogFile ip) = File.absent) :
    Knows ip (start disk) 0 where
  opens := by simp [start, absent]
  ends := by simp [start, absent]
  recovers := lastAckedId_of_empty (by simp [start, absent])
  acked := rfl
  counts := rfl

/-- The last id is known after every batch of a run exactly if each last line that was accepted
reads back as its id. -/
theorem run_remembers_iff {ip : Bytes} {s : AckRun} {last : UInt64} (knows : Knows ip s last)
    {batches : List LogBatch} (same : ∀ batch ∈ batches, batch.info.clientIp = ip) :
    (∀ count, (s.run (batches.take count)).Remembers ip) ↔ ReadsBack last batches := by
  induction batches generalizing s last with
  | nil =>
      simp only [List.take_nil, ReadsBack, iff_true, forall_const]
      exact knows.remembers
  | cons batch later ih =>
      have here := same batch List.mem_cons_self
      have others := fun other member => same other (List.mem_cons_of_mem batch member)
      have first : (∀ count, (s.run ((batch :: later).take count)).Remembers ip) ↔
          ∀ count, ((s.handle batch).run (later.take count)).Remembers ip := by
        constructor
        · intro all count
          exact all (count + 1)
        · intro all count
          cases count with
          | zero => exact knows.remembers
          | succ count => exact all count
      simp only [first, ReadsBack, ← handle_remembers_iff knows here]
      constructor
      · intro all
        have remembers := all 0
        exact ⟨remembers, (ih (handle_knows knows here remembers) others).mp all⟩
      · rintro ⟨remembers, reads⟩
        exact (ih (handle_knows knows here remembers) others).mpr reads

/-- The server's memory of what it acked cannot be forged.  From an absent file, after
every number of batches from one address, the id that the next call recovers is that of
the last ack and the number of entries accepted: exactly when the last entry that each
batch adds is recovered from its own text, and fewer than 2^64 entries are accepted. -/
theorem remembers_iff {ip : Bytes} {disk : Disk}
    (absent : disk (clientLogFile ip) = File.absent) {batches : List LogBatch}
    (same : ∀ batch ∈ batches, batch.info.clientIp = ip) :
    (∀ count, ((start disk).run (batches.take count)).Remembers ip) ↔ ReadsBack 0 batches :=
  run_remembers_iff (knows_start absent) same

/-- Two entries, of which the second is named `b` and a line that starts with 7. -/
def sampleBatch : LogBatch where
  info := ⟨1, 4, ascii "10.0.0.7", 50000⟩
  entries := [⟨1, ascii "a", 5, .cpu, 9⟩, ⟨2, ascii "b\n7|x", 5, .cpu, 9⟩]
  junk := default
  netCount := 0
  fits := by decide
  sendable := by decide

theorem remembers_iff_sample :
    (∀ count, ((start fun _ => File.absent).run ([sampleBatch].take count)).Remembers
        (ascii "10.0.0.7")) ↔ ReadsBack 0 [sampleBatch] :=
  remembers_iff rfl (by simp [sampleBatch])

/-- The server acknowledges 2, and at the next batch it takes 7 for what it
acknowledged. -/
theorem name_forges_ack :
    let s := (start fun _ => File.absent).run [sampleBatch]
    s.LastAck 2 ∧ s.accepted = 2 ∧
      lastAckedId default (s.disk (clientLogFile (ascii "10.0.0.7"))) = 7 ∧
      ¬ s.Remembers (ascii "10.0.0.7") := by
  intro s
  have acked : s.published.getLast?.map NetworkSendEvent.payload = some (ackPayload 2) := by
    decide +kernel
  have accepted : s.accepted = 2 := by decide +kernel
  have found : lastAckedId default (s.disk (clientLogFile (ascii "10.0.0.7"))) = 7 := by
    decide +kernel
  refine ⟨?_, accepted, found, ?_⟩
  · unfold LastAck
    cases last : s.published.getLast? with
    | none => simp [last] at acked
    | some event => simpa [last] using acked
  · intro remembers
    have counts := (remembers default).2
    rw [found, accepted] at counts
    exact absurd counts (by decide)

end RemoteMonitoring
