/-
Module: RemoteMonitoring.Proofs.CrashRecovery
Purpose: What a new `LogQueue` makes of the files that a killed process left, for every list of
  calls and every point of the kill, and exactly when nothing is lost or made up.
Trusted boundary: none
Main exports: Stored, stored_performAll, Skipped, Kill.Recovered, Kill.Recoverable,
  recovered_iff
-/
import RemoteMonitoring.System.Crash

namespace RemoteMonitoring

open ByteText
open LogQueue (loadLine loadLines)
open LogEntry (CleanName)

/-! ### The files while the process runs -/

/-- Between two calls the log file holds exactly the entries added so far, and the
ack file the current ack. -/
structure Stored (queue : LogQueue) (entries : List LogEntry) : Prop where
  logContent : queue.logFile.content = some (entries.flatMap LogEntry.serializeStr)
  logOpens : queue.logFile.writable = true
  ackContent : queue.ackFile.content = some (decimal queue.ackId.toNat)
  ackOpens : queue.ackFile.writable = true

theorem stored_fresh (junkAckId : UInt64) (junk : Nat → Indeterminate) :
    Stored (freshQueue junkAckId junk) [] := ⟨rfl, rfl, rfl, rfl⟩

theorem Stored.bytes {queue : LogQueue} {entries : List LogEntry}
    (stored : Stored queue entries) :
    queue.logFile.bytes = entries.flatMap LogEntry.serializeStr := by
  rw [File.bytes, stored.logContent, Option.getD_some]

/-- A call of the owner that is completed keeps file and queue in step. -/
theorem Stored.perform {queue : LogQueue} {entries : List LogEntry}
    (stored : Stored queue entries) (call : OwnerCall) :
    Stored (queue.perform call) (entries ++ Kill.added [call]) := by
  cases call with
  | addLog logEntry =>
      refine ⟨?_, ?_, stored.ackContent, stored.ackOpens⟩
      · simp only [LogQueue.perform, LogQueue.addLog]
        rw [File.content_append stored.logOpens, stored.bytes]
        simp [Kill.added]
      · simp only [LogQueue.perform, LogQueue.addLog]
        rw [File.writable_append]
        exact stored.logOpens
  | ackLog id =>
      have nothing : Kill.added [.ackLog id] = [] := rfl
      rw [nothing, List.append_nil]
      by_cases same : id = queue.ackId
      · rw [LogQueue.perform, same, LogQueue.ackLog_self]
        exact stored
      · rw [LogQueue.perform, LogQueue.ackLog_of_ne same]
        refine ⟨stored.logContent, stored.logOpens, ?_, ?_⟩
        · exact File.content_overwrite stored.ackOpens _
        · rw [File.writable_overwrite]
          exact stored.ackOpens

/-- And so do any completed calls. -/
theorem stored_performAll {queue : LogQueue} {entries : List LogEntry}
    (stored : Stored queue entries) (calls : List OwnerCall) :
    Stored (calls.foldl LogQueue.perform queue) (entries ++ Kill.added calls) := by
  induction calls generalizing queue entries with
  | nil =>
      have nothing : Kill.added [] = [] := rfl
      rw [nothing, List.append_nil]
      exact stored
  | cons call calls ih =>
      have split : Kill.added (call :: calls) = Kill.added [call] ++ Kill.added calls := by
        rw [Kill.added, Kill.added, Kill.added, ← List.filterMap_append, List.singleton_append]
      rw [List.foldl_cons, split, ← List.append_assoc]
      exact ih (stored.perform call)

/-! ### The files after the kill -/

section Killed

variable {start : LogQueue} {kill : Kill}

/-- A kill in `add_log` leaves the line or the front of it. -/
theorem files_addLog {logEntry : LogEntry} (interrupted : kill.interrupted = .addLog logEntry) :
    kill.files start =
      ⟨(kill.queue start).logFile.append
          (if kill.Whole logEntry then logEntry.serializeStr
            else logEntry.serializeStr.take kill.cut),
        (kill.queue start).ackFile⟩ := by
  simp only [Kill.files, interrupted, LogQueue.effects]
  cases count : kill.count with
  | zero =>
      by_cases long : logEntry.serializeStr.length ≤ kill.cut
      · simp [LogQueue.files, DiskEffect.apply, Kill.Whole, count, long,
          List.take_of_length_le long]
      · simp [LogQueue.files, DiskEffect.apply, Kill.Whole, count, long]
  | succ count => simp [LogQueue.files, DiskEffect.apply, Kill.Whole, *]

/-- A kill in `ack_log` leaves the ack file as it was, empty, or with the new ack. -/
theorem files_ackLog {id : UInt64} (interrupted : kill.interrupted = .ackLog id) :
    kill.files start =
      ⟨(kill.queue start).logFile,
        if id = (kill.queue start).ackId ∨ kill.count = 0 then (kill.queue start).ackFile
        else if kill.count = 1 then (kill.queue start).ackFile.overwrite []
        else (kill.queue start).ackFile.overwrite (decimal id.toNat)⟩ := by
  simp only [Kill.files, interrupted, LogQueue.effects]
  by_cases same : id = (kill.queue start).ackId
  · simp [same, LogQueue.files]
  · cases count : kill.count with
    | zero => simp [same, LogQueue.files]
    | succ more =>
        cases more with
        | zero => simp [same, LogQueue.files, DiskEffect.apply]
        | succ more => simp [same, LogQueue.files, DiskEffect.apply, File.overwrite_append]

/-- The log file holds the written entries and the torn line behind them. -/
theorem logContent_files (stored : Stored (kill.queue start) (Kill.added kill.finished)) :
    (kill.files start).logFile.content =
      some (kill.written.flatMap LogEntry.serializeStr ++ kill.torn) := by
  cases interrupted : kill.interrupted with
  | addLog logEntry =>
      rw [files_addLog interrupted]
      simp only [Kill.written, Kill.torn, interrupted]
      rw [File.content_append stored.logOpens, stored.bytes]
      by_cases whole : kill.Whole logEntry
      · simp [whole]
      · simp [whole]
  | ackLog id =>
      rw [files_ackLog interrupted]
      simp only [Kill.written, Kill.torn, interrupted, List.append_nil]
      exact stored.logContent

/-- Killed between the truncation and the write, the ack file is empty. -/
theorem ackContent_between (stored : Stored (kill.queue start) (Kill.added kill.finished))
    (between : kill.BetweenTruncateAndWrite start) :
    (kill.files start).ackFile.content = some [] := by
  obtain ⟨count, id, interrupted, different⟩ := between
  rw [files_ackLog interrupted]
  simp only [count, different, Nat.one_ne_zero, or_self, if_false, if_true]
  exact File.content_overwrite stored.ackOpens _

/-- Unless the kill came between the truncation and the write, the ack file has the last ack in
decimal. -/
theorem ackContent_files (stored : Stored (kill.queue start) (Kill.added kill.finished))
    (outside : ¬ kill.BetweenTruncateAndWrite start) :
    (kill.files start).ackFile.content = some (decimal (kill.ackOnDisk start).toNat) := by
  cases interrupted : kill.interrupted with
  | addLog logEntry =>
      rw [files_addLog interrupted]
      simp only [Kill.ackOnDisk, interrupted]
      exact stored.ackContent
  | ackLog id =>
      rw [files_ackLog interrupted]
      simp only [Kill.ackOnDisk, interrupted]
      by_cases early : id = (kill.queue start).ackId ∨ kill.count = 0
      · rw [if_pos early, stored.ackContent]
        rcases early with same | none
        · simp [same]
        · simp [none]
      · obtain ⟨different, begun⟩ := not_or.mp early
        have complete : kill.count ≠ 1 := fun one => outside ⟨one, id, interrupted, different⟩
        rw [if_neg early, if_neg complete, if_pos (by omega),
          File.content_overwrite stored.ackOpens]

end Killed

/-! ### Lines that are not loaded -/

/-- No constructor with this ack loads the line: it is empty or its number is not
above the ack.  A line without a number takes an indeterminate one. -/
def Skipped (ackId : UInt64) (line : Bytes) : Prop :=
  line = [] ∨
    match fromChars (2 ^ 64) line with
    | some number => number ≤ ackId.toNat
    | none => ackId.toNat = 2 ^ 64 - 1

/-- Uninitialised variables with the highest id. -/
private def highest : Indeterminate := ⟨UInt64.ofNat (2 ^ 64 - 1), 0, 0, 0, 0⟩

/-- Lines of the one kind are passed over. -/
theorem loadLine_eq_none {ackId : UInt64} {line : Bytes} (skipped : Skipped ackId line)
    (junk : Indeterminate) : loadLine ackId junk line = none := by
  unfold loadLine
  rcases skipped with empty | low
  · rw [if_pos empty]
  · by_cases empty : line = []
    · rw [if_pos empty]
    · have behind : ¬ ((LogEntry.ofIndeterminate junk).ofLine junk.tempNumber line).id > ackId := by
        rw [LogEntry.ofLine_id_eq, fromCharsUInt64, gt_iff_lt, UInt64.lt_iff_toNat_lt]
        cases reads : fromChars (2 ^ 64) line with
        | some number =>
            rw [reads] at low
            simp only [Option.map_some, Option.getD_some, UInt64.toNat_ofNat']
            have smaller := Nat.mod_le number (2 ^ 64)
            omega
        | none =>
            rw [reads] at low
            have bound := (LogEntry.ofIndeterminate junk).id.toNat_lt
            simp only [Option.map_none, Option.getD_none]
            omega
      simp only [empty, if_false, behind]

/-- A line that is not loaded with the highest values is never loaded. -/
theorem skipped_of_highest {ackId : UInt64} {line : Bytes}
    (unloaded : loadLine ackId highest line = none) : Skipped ackId line := by
  by_cases empty : line = []
  · exact Or.inl empty
  · right
    have behind :
        ¬ ackId < ((LogEntry.ofIndeterminate highest).ofLine highest.tempNumber line).id := by
      intro above
      simp [loadLine, empty, above] at unloaded
    rw [LogEntry.ofLine_id_eq, fromCharsUInt64, UInt64.lt_iff_toNat_lt] at behind
    cases reads : fromChars (2 ^ 64) line with
    | some number =>
        simp only [reads, Option.map_some, Option.getD_some, UInt64.toNat_ofNat',
          Nat.mod_eq_of_lt (lt_of_fromChars reads)] at behind
        exact Nat.le_of_not_lt behind
    | none =>
        have bound := ackId.toNat_lt
        have top : (LogEntry.ofIndeterminate highest).id.toNat = 2 ^ 64 - 1 := rfl
        simp only [reads, Option.map_none, Option.getD_none, top] at behind
        show ackId.toNat = 2 ^ 64 - 1
        omega

/-- With the same values in every round the lines are loaded one by one. -/
theorem loadLines_const (ackId : UInt64) (junk : Indeterminate) (texts : List Bytes) :
    loadLines ackId (fun _ => junk) texts = texts.filterMap (loadLine ackId junk) := by
  induction texts with
  | nil => rfl
  | cons line rest ih =>
      rw [loadLines, ih, List.filterMap_cons]
      cases loadLine ackId junk line with
      | none => rfl
      | some entry => rfl

/-- Of such lines nothing is loaded. -/
theorem loadLines_skipped {ackId : UInt64} {texts : List Bytes}
    (skipped : ∀ line ∈ texts, Skipped ackId line) (junk : Nat → Indeterminate) :
    loadLines ackId junk texts = [] := by
  induction texts generalizing junk with
  | nil => rfl
  | cons line rest ih =>
      rw [loadLines, loadLine_eq_none (skipped line (by simp)),
        ih fun other member => skipped other (by simp [member])]
      rfl

/-! ### Blocks of lines

Every entry has its block of lines, and every block of a pending entry loads
something.  So when as many entries are loaded as are pending, no block loads more
than its own entry. -/

section Blocks

variable {α : Type} {block : α → List α} {kept : α → Bool}

private theorem filter_length_le {items : List α}
    (visible : ∀ item ∈ items, kept item = true → block item ≠ []) :
    (items.filter kept).length ≤ (items.flatMap block).length := by
  induction items with
  | nil => exact Nat.le_refl 0
  | cons item items ih =>
      have later := ih fun other member => visible other (by simp [member])
      rw [List.flatMap_cons, List.length_append]
      cases keep : kept item with
      | true =>
          have some := List.length_pos_iff.mpr (visible item (by simp) keep)
          rw [List.filter_cons_of_pos keep, List.length_cons]
          omega
      | false =>
          rw [List.filter_cons_of_neg (by simp [keep])]
          omega

private theorem blocks_eq_filter {items rest : List α}
    (visible : ∀ item ∈ items, kept item = true → block item ≠ [])
    (same : items.flatMap block ++ rest = items.filter kept) :
    (∀ item ∈ items, block item = if kept item then [item] else []) ∧ rest = [] := by
  induction items with
  | nil => exact ⟨by simp, same⟩
  | cons item items ih =>
      have later : ∀ other ∈ items, kept other = true → block other ≠ [] :=
        fun other member => visible other (by simp [member])
      have enough := filter_length_le later
      rw [List.flatMap_cons, List.append_assoc] at same
      cases keep : kept item with
      | true =>
          obtain ⟨first, others, split⟩ :=
            List.exists_cons_of_ne_nil (visible item (by simp) keep)
          rw [List.filter_cons_of_pos keep, split, List.cons_append, List.cons.injEq] at same
          obtain ⟨rfl, same⟩ := same
          have lengths := congrArg List.length same
          simp only [List.length_append] at lengths
          have alone : others = [] := List.eq_nil_of_length_eq_zero (by omega)
          rw [alone, List.nil_append] at same
          obtain ⟨blocks, nothing⟩ := ih later same
          refine ⟨?_, nothing⟩
          intro other member
          rcases List.mem_cons.mp member with rfl | member
          · rw [split, alone, if_pos keep]
          · exact blocks other member
      | false =>
          rw [List.filter_cons_of_neg (by simp [keep])] at same
          have lengths := congrArg List.length same
          simp only [List.length_append] at lengths
          have empty : block item = [] := List.eq_nil_of_length_eq_zero (by omega)
          rw [empty, List.nil_append] at same
          obtain ⟨blocks, nothing⟩ := ih later same
          refine ⟨?_, nothing⟩
          intro other member
          rcases List.mem_cons.mp member with rfl | member
          · rw [empty, if_neg (by simp [keep])]
          · exact blocks other member

end Blocks

/-- The first line of an entry carries its id, so it is loaded when it is pending. -/
theorem loads_of_pending {ackId : UInt64} {entry : LogEntry} (pending : entry.id > ackId)
    (junk : Indeterminate) :
    (lines entry.serializeStr).filterMap (loadLine ackId junk) ≠ [] := by
  obtain ⟨rest, text⟩ : ∃ rest,
      entry.serializeStr = decimal entry.id.toNat ++ [pipe] ++ rest := by
    refine ⟨entry.processName ++ pipe :: (decimal entry.timestampMs.toNat ++ pipe ::
      (decimal entry.logType.toNat ++ pipe :: decimal entry.value.toNat)) ++ [newline], ?_⟩
    simp [LogEntry.serializeStr, LogEntry.line]
  have single : newline ∉ decimal entry.id.toNat ++ [pipe] := by
    have digits : newline ∉ decimal entry.id.toNat := not_mem_decimal rfl
    have other : newline ≠ pipe := by decide
    simp [digits, other]
  obtain ⟨end', first⟩ := lines_of_front single (by simp) rest
  rw [← text, List.append_assoc, List.singleton_append] at first
  have loaded : (loadLine ackId junk (decimal entry.id.toNat ++ pipe :: end')).isSome := by
    simp [loadLine, LogEntry.ofLine_id, pending]
  obtain ⟨entry', taken⟩ := Option.isSome_iff_exists.mp loaded
  exact List.ne_nil_of_mem (List.mem_filterMap.mpr ⟨_, first, taken⟩)

/-- Whatever is loaded has a clean name. -/
theorem cleanName_of_loaded {ackId : UInt64} {junk : Indeterminate} {text : Bytes}
    {entry : LogEntry} (loaded : entry ∈ (lines text).filterMap (loadLine ackId junk)) :
    CleanName entry.processName := by
  obtain ⟨line, member, taken⟩ := List.mem_filterMap.mp loaded
  have single := newline_not_mem_of_mem_lines member
  unfold loadLine at taken
  split at taken
  · cases taken
  · dsimp only at taken
    split at taken
    · cases taken
      exact LogEntry.cleanName_ofLine junk single
    · cases taken

/-! ### What a restart promises -/

namespace Kill

variable (start : LogQueue) (kill : Kill)

/-- The ack is the old or the new one, and the pending entries are exactly the
completely written ones above it, in order and with all their fields. -/
def Recovered (reloaded : LogQueue) : Prop :=
  (reloaded.ackId = (kill.queue start).ackId ∨ kill.interrupted = .ackLog reloaded.ackId) ∧
    reloaded.logEntries = kill.written.filter fun entry => entry.id > reloaded.ackId

/-- The ack file is not empty, written entries above the ack have clean names, and
neither a torn line nor a name with newlines makes up an entry above the ack. -/
def Recoverable : Prop :=
  ¬ kill.BetweenTruncateAndWrite start ∧
    (∀ entry ∈ kill.written,
      if entry.id > kill.ackOnDisk start then CleanName entry.processName
      else ∀ line ∈ lines entry.serializeStr, Skipped (kill.ackOnDisk start) line) ∧
    ∀ line ∈ lines kill.torn, Skipped (kill.ackOnDisk start) line

end Kill

section Reload

variable {start : LogQueue} {kill : Kill}

/-- On the disk is the last ack, or that of the call which was interrupted. -/
theorem ackOnDisk_cases : kill.ackOnDisk start = (kill.queue start).ackId ∨
    kill.interrupted = .ackLog (kill.ackOnDisk start) := by
  cases interrupted : kill.interrupted with
  | addLog logEntry =>
      left
      simp only [Kill.ackOnDisk, interrupted]
  | ackLog id =>
      simp only [Kill.ackOnDisk, interrupted]
      split
      · exact Or.inr rfl
      · exact Or.inl rfl

/-- What the constructor makes of the files when the ack file is not empty. -/
theorem reload_killed (stored : Stored (kill.queue start) (Kill.added kill.finished))
    (outside : ¬ kill.BetweenTruncateAndWrite start) (junkAckId : UInt64)
    (junk : Nat → Indeterminate) :
    let reloaded :=
      LogQueue.ofFiles junkAckId junk (kill.files start).logFile (kill.files start).ackFile
    reloaded.ackId = kill.ackOnDisk start ∧
      reloaded.logEntries = loadLines (kill.ackOnDisk start) junk
        ((kill.written.flatMap fun entry => lines entry.serializeStr) ++ lines kill.torn) := by
  have ack : LogQueue.readAck junkAckId (kill.files start).ackFile =
      ((kill.files start).ackFile, kill.ackOnDisk start) :=
    LogQueue.readAck_decimal (ackContent_files stored outside) junkAckId
  have content : lines (kill.written.flatMap LogEntry.serializeStr ++ kill.torn) =
      (kill.written.flatMap fun entry => lines entry.serializeStr) ++ lines kill.torn := by
    rw [lines_append (LogEntry.terminated_flatMap _), lines_flatMap fun entry _ => entry.terminated_serializeStr]
  simp only [LogQueue.ofFiles, ack, LogQueue.loadLog_content (logContent_files stored), content,
    and_self]

/-- Loading block after block, when every block loads its own entry or nothing. -/
theorem loadLines_blocks {ackId : UInt64} {entries : List LogEntry}
    (blocks : ∀ entry ∈ entries,
      if entry.id > ackId then CleanName entry.processName
      else ∀ line ∈ lines entry.serializeStr, Skipped ackId line)
    (junk : Nat → Indeterminate) :
    loadLines ackId junk (entries.flatMap fun entry => lines entry.serializeStr) =
      entries.filter fun entry => entry.id > ackId := by
  induction entries generalizing junk with
  | nil => rfl
  | cons entry rest ih =>
      have here := blocks entry (by simp)
      rw [List.flatMap_cons, LogQueue.loadLines_append,
        ih fun other member => blocks other (by simp [member])]
      by_cases pending : entry.id > ackId
      · rw [if_pos pending] at here
        have whole : loadLines ackId junk (lines ([entry].flatMap LogEntry.serializeStr)) =
            [entry].filter fun entry => entry.id > ackId :=
          LogQueue.loadLines_of_clean (by simpa using here) ackId junk
        rw [List.flatMap_singleton] at whole
        rw [whole, ← List.filter_append, List.singleton_append]
      · rw [if_neg pending] at here
        rw [loadLines_skipped here, List.nil_append, List.filter_cons_of_neg (by simpa using pending)]

end Reload

/-- Crash recovery.  For every list of calls and every point of the kill, a new queue
is right whatever its uninitialised variables hold exactly when the kill did not
empty the ack file and no line on the disk makes up an entry above the ack. -/
theorem recovered_iff (firstJunkAckId : UInt64) (firstJunk : Nat → Indeterminate)
    (kill : Kill) :
    let start := freshQueue firstJunkAckId firstJunk
    (∀ junkAckId junk, kill.Recovered start
        (LogQueue.ofFiles junkAckId junk (kill.files start).logFile
          (kill.files start).ackFile)) ↔
      kill.Recoverable start := by
  intro start
  have stored : Stored (kill.queue start) (Kill.added kill.finished) := by
    have every := stored_performAll (stored_fresh firstJunkAckId firstJunk) kill.finished
    rwa [List.nil_append] at every
  constructor
  · intro recovered
    have outside : ¬ kill.BetweenTruncateAndWrite start := by
      intro between
      -- the ack is the value that the variable happened to have
      have taken : ∀ junkAckId, junkAckId = (kill.queue start).ackId ∨
          kill.interrupted = .ackLog junkAckId := by
        intro junkAckId
        have ack := (recovered junkAckId fun _ => highest).1
        simpa only [LogQueue.ofFiles, LogQueue.readAck, ackContent_between stored between,
          IStream.extractUInt64_nil] using ack
      obtain ⟨_, id, interrupted, _⟩ := between
      simp only [interrupted, OwnerCall.ackLog.injEq] at taken
      have zero := taken 0
      have one := taken 1
      have two := taken 2
      grind
    obtain ⟨ack, loaded⟩ := reload_killed stored outside 0 (fun _ => highest)
    have pending := (recovered 0 fun _ => highest).2
    rw [loaded, ack, loadLines_const, List.filterMap_append, List.filterMap_flatMap] at pending
    obtain ⟨blocks, nothing⟩ := blocks_eq_filter
      (fun entry _ above => loads_of_pending (by simpa using above) highest) pending
    refine ⟨outside, ?_, ?_⟩
    · intro entry member
      have block := blocks entry member
      split
      · rename_i above
        rw [if_pos (by simpa using above)] at block
        exact cleanName_of_loaded (block ▸ List.mem_singleton.mpr rfl)
      · rename_i below
        rw [if_neg (by simpa using below)] at block
        intro line inside
        exact skipped_of_highest (List.filterMap_eq_nil_iff.mp block line inside)
    · intro line inside
      exact skipped_of_highest (List.filterMap_eq_nil_iff.mp nothing line inside)
  · rintro ⟨outside, blocks, torn⟩ junkAckId junk
    obtain ⟨ack, loaded⟩ := reload_killed stored outside junkAckId junk
    refine ⟨?_, ?_⟩
    · rw [ack]
      exact ackOnDisk_cases
    · rw [loaded, ack, LogQueue.loadLines_append, loadLines_blocks blocks,
        loadLines_skipped torn, List.append_nil]

/-- Two kills that are not recovered from: behind the truncation of the ack file, where
the ack is whatever the variable held, and behind the name in a line, where an entry
is made up whose other fields are whatever the variables held. -/
theorem kills_not_recovered :
    let start := freshQueue 0 fun _ => default
    let entry : LogEntry := ⟨1, ascii "chrome.exe", 5, LogType.cpu, 9⟩
    let emptied : Kill := ⟨[.addLog entry], .ackLog 1, 1, 0⟩
    let torn : Kill := ⟨[], .addLog entry, 0, 13⟩
    let afterEmptied :=
      LogQueue.ofFiles 7 (fun _ => default) (emptied.files start).logFile (emptied.files start).ackFile
    let afterTorn :=
      LogQueue.ofFiles 0 (fun _ => ⟨0, 3, 2, 8, 4⟩) (torn.files start).logFile
        (torn.files start).ackFile
    afterEmptied.ackId = 7 ∧ afterEmptied.logEntries = [] ∧
      ¬ emptied.Recovered start afterEmptied ∧
      torn.written = [] ∧ afterTorn.logEntries = [⟨1, ascii "chrome.exe", 3, 4, 8⟩] ∧
      ¬ torn.Recovered start afterTorn := by
  refine ⟨by decide +kernel, by decide +kernel, ?_, by decide +kernel, by decide +kernel, ?_⟩
  · rintro ⟨ack, _⟩
    revert ack
    decide +kernel
  · rintro ⟨_, pending⟩
    revert pending
    decide +kernel

end RemoteMonitoring
