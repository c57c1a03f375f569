/-
Module: RemoteMonitoring.Proofs.TextFormat
Purpose: The text format of a log file: which entries a line brings back, and that the loop of
  the `LogQueue` constructor loads a file of such lines and stops.
Trusted boundary: none
Main exports: deserializeStr_eq_iff, readLogWithin_of_clean, text_format_domain
-/
import RemoteMonitoring.Client.LogQueue

namespace RemoteMonitoring

open ByteText

namespace LogEntry

/-- Whatever the name contains, the first line of the text starts with the id and what
the name and the fields behind it have in front of a newline. -/
theorem deserializeStr_front (self : LogEntry) (tempNumber : UInt32) (entry : LogEntry)
    (rest : Bytes) :
    ∃ front later, newline ∉ front ∧
      self.deserializeStr tempNumber (.ofBytes (entry.serializeStr ++ rest)) =
        (0, self.ofLine tempNumber (decimal entry.id.toNat ++ pipe :: front), .ofBytes later) := by
  let fields := entry.processName ++ pipe :: (decimal entry.timestampMs.toNat ++ pipe ::
    (decimal entry.logType.toNat ++ pipe :: decimal entry.value.toNat))
  have ends : newline ∈ fields ++ newline :: rest := by simp
  obtain ⟨front, later, split, single⟩ := List.eq_append_cons_of_mem ends
  have text : entry.serializeStr ++ rest =
      (decimal entry.id.toNat ++ pipe :: front) ++ newline :: later := by
    simp only [serializeStr, line, List.append_assoc, List.cons_append, List.nil_append]
    simpa [fields] using split
  have digits : newline ∉ decimal entry.id.toNat := not_mem_decimal (by decide)
  have whole : newline ∉ decimal entry.id.toNat ++ pipe :: front := by
    have other : newline ≠ pipe := by decide
    simp [digits, single, other]
  refine ⟨front, later, single, ?_⟩
  have taken := IStream.getline_append [] later whole
  rw [deserializeStr, text, taken]
  simp

/-- The name of a line is what stands behind the id, up to the next separator. -/
theorem ofLine_processName (self : LogEntry) (tempNumber : UInt32) (id : UInt64)
    (front : Bytes) :
    (self.ofLine tempNumber (decimal id.toNat ++ pipe :: front)).processName =
      front.takeWhile (· != pipe) := by
  have digits : pipe ∉ decimal id.toNat := not_mem_decimal (by decide)
  simp [ofLine, IStream.getline_append [] front digits, IStream.getline_ofBytes]

/-- An entry comes back from its text, with exactly what follows left, when its name has
no separator and no newline, and only then. -/
theorem deserializeStr_eq_iff (self : LogEntry) (tempNumber : UInt32) (entry : LogEntry)
    (rest : Bytes) :
    self.deserializeStr tempNumber (.ofBytes (entry.serializeStr ++ rest)) =
        (0, entry, .ofBytes rest) ↔ CleanName entry.processName := by
  constructor
  · intro back
    obtain ⟨front, later, single, reads⟩ := self.deserializeStr_front tempNumber entry rest
    have same : self.ofLine tempNumber (decimal entry.id.toNat ++ pipe :: front) = entry := by
      rw [reads] at back
      simpa using congrArg (fun outcome => outcome.2.1) back
    have name : entry.processName = front.takeWhile (· != pipe) := by
      rw [← self.ofLine_processName tempNumber entry.id front, same]
    constructor
    · intro member
      rw [name] at member
      simpa using List.mem_takeWhile_imp member
    · intro member
      rw [name] at member
      exact single ((List.takeWhile_sublist _).mem member)
  · rintro ⟨clean, single⟩
    rw [deserializeStr_serializeStr self tempNumber single rest, ofLine_line self tempNumber clean]

end LogEntry

namespace LogQueue

/-- A file of clean entries is loaded up to its end. -/
theorem readLogWithin_of_clean {logEntries : List LogEntry}
    (clean : ∀ entry ∈ logEntries, LogEntry.CleanName entry.processName) (ackId : UInt64)
    (junk : Nat → Indeterminate) {rounds : Nat}
    (enough : (logEntries.flatMap LogEntry.serializeStr).length < rounds) :
    readLogWithin ackId junk rounds (.ofBytes (logEntries.flatMap LogEntry.serializeStr)) =
      some (logEntries.filter fun entry => entry.id > ackId) := by
  rw [readLogWithin_eq_loadLines ackId _ enough, loadLines_of_clean clean]

end LogQueue

/-- The exact domain of the text format.  An entry comes back from its text, and what
follows is left, exactly when its name has neither separator nor newline; and from the
lines of such entries the loop of the constructor loads those above the ack, in order,
within one round more than the file has bytes. -/
theorem text_format_domain :
    (∀ (self : LogEntry) (tempNumber : UInt32) (entry : LogEntry) (rest : Bytes),
      self.deserializeStr tempNumber (.ofBytes (entry.serializeStr ++ rest)) =
          (0, entry, .ofBytes rest) ↔
        pipe ∉ entry.processName ∧ newline ∉ entry.processName) ∧
      ∀ logEntries : List LogEntry,
        (∀ entry ∈ logEntries, pipe ∉ entry.processName ∧ newline ∉ entry.processName) →
        let text := logEntries.flatMap LogEntry.serializeStr
        ∀ (ackId : UInt64) (junk : Nat → Indeterminate) (logFile : File),
          logFile.content = some text →
          LogQueue.readLogWithin ackId junk (text.length + 1) (.ofBytes text) =
              some (logEntries.filter fun entry => entry.id > ackId) ∧
            LogQueue.loadLog ackId junk logFile =
              (logFile, logEntries.filter fun entry => entry.id > ackId) := by
  refine ⟨LogEntry.deserializeStr_eq_iff, ?_⟩
  intro logEntries clean text ackId junk logFile present
  have stops := LogQueue.readLogWithin_of_clean clean ackId junk (Nat.lt_add_one text.length)
  have loads := LogQueue.readLog_of_within stops
  refine ⟨stops, ?_⟩
  simp only [LogQueue.loadLog, present]
  exact congrArg (Prod.mk logFile) loads

/-- Three entries, one of them without a name, of which the first is acked. -/
theorem text_format_domain_sample :
    let logEntries : List LogEntry :=
      [⟨1, ascii "a", 5, LogType.cpu, 9⟩, ⟨2, [], 6, LogType.mem, 0⟩, ⟨3, [13, 0], 7, 9, 8⟩]
    let text := logEntries.flatMap LogEntry.serializeStr
    LogQueue.readLogWithin 1 (fun _ => default) (text.length + 1) (.ofBytes text) =
        some (logEntries.filter fun entry => entry.id > 1) ∧
      LogQueue.loadLog 1 (fun _ => default) ⟨some text, true⟩ =
        (⟨some text, true⟩, logEntries.filter fun entry => entry.id > 1) :=
  text_format_domain.2 _ (by decide) 1 (fun _ => default) ⟨some _, true⟩ rfl

end RemoteMonitoring
