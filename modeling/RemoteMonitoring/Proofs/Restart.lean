/-
Module: RemoteMonitoring.Proofs.Restart
Purpose: What a new `LogQueue` makes of the files that an old one leaves behind, after any run
  of calls, and exactly when the two agree.
Trusted boundary: none
Main exports: Tracks, tracks_run, reload_eq, reload_eq_self_iff
-/
import RemoteMonitoring.System.QueueRun

namespace RemoteMonitoring

open ByteText
open LogEntry (Numbered)
open QueueCall (issuedCount lastAck maxAck Valid)

/-- The queue after a run: `issued` are all entries ever added, `last` is the last
ack and `high` the highest one.  Memory is behind the highest ack, while the ack
file holds the last one. -/
structure Tracks (queue : LogQueue) (issued : List LogEntry) (last high : Nat) : Prop where
  numbered : Numbered 0 issued
  clean : ∀ entry ∈ issued, LogEntry.CleanName entry.processName
  last_le : last ≤ high
  high_le : high ≤ issued.length
  logContent : queue.logFile.content = some (issued.flatMap LogEntry.serializeStr)
  logOpens : queue.logFile.writable = true
  ackContent : queue.ackFile.content = some (decimal queue.ackId.toNat)
  ackOpens : queue.ackFile.writable = true
  ackId : queue.ackId.toNat = last
  pending : queue.logEntries = issued.drop high
  newId : queue.newId.toNat = issued.length + 1

/-- A first start tracks nothing. -/
theorem tracks_fresh (junkAckId : UInt64) (junk : Nat → Indeterminate) :
    Tracks (freshQueue junkAckId junk) [] 0 0 where
  numbered := trivial
  clean := by simp
  last_le := Nat.le_refl 0
  high_le := Nat.le_refl 0
  logContent := rfl
  logOpens := rfl
  ackContent := rfl
  ackOpens := rfl
  ackId := rfl
  pending := rfl
  newId := rfl

section Steps

variable {queue : LogQueue} {issued : List LogEntry} {last high : Nat}

/-- A new entry has the next id, in the queue and in the file. -/
theorem Tracks.addNewLog (tracks : Tracks queue issued last high) {processName : Bytes}
    (clean : LogEntry.CleanName processName) (room : issued.length + 2 < 2 ^ 64)
    (timestampMs : UInt64) (logType : LogType) (value : UInt64) :
    Tracks (queue.addNewLog processName timestampMs logType value).2
      (issued ++ [⟨queue.newId, processName, timestampMs, logType, value⟩]) last high where
  numbered := by
    apply LogEntry.numbered_append.mpr
    refine ⟨tracks.numbered, ?_, trivial⟩
    rw [Nat.zero_add]
    exact tracks.newId
  clean := by
    intro entry member
    rcases List.mem_append.mp member with older | new
    · exact tracks.clean entry older
    · cases List.mem_singleton.mp new
      exact clean
  last_le := tracks.last_le
  high_le := by
    apply Nat.le_trans tracks.high_le
    simp
  logContent := by
    have content : queue.logFile.bytes = issued.flatMap LogEntry.serializeStr := by
      simp [File.bytes, tracks.logContent]
    simp only [LogQueue.addNewLog, LogQueue.getNewId, LogQueue.addLog]
    rw [File.content_append tracks.logOpens, content]
    simp
  logOpens := by
    simp only [LogQueue.addNewLog, LogQueue.getNewId, LogQueue.addLog, File.writable_append]
    exact tracks.logOpens
  ackContent := tracks.ackContent
  ackOpens := tracks.ackOpens
  ackId := tracks.ackId
  pending := by
    rw [List.drop_append_of_le_length tracks.high_le, ← tracks.pending]
    rfl
  newId := by
    change (queue.newId + 1).toNat = _
    rw [UInt64.toNat_add, tracks.newId, UInt64.toNat_one, List.length_append,
      List.length_singleton]
    exact Nat.mod_eq_of_lt room

/-- An ack of anything that was issued becomes the last one, and takes off what it covers. -/
theorem Tracks.ackLog (tracks : Tracks queue issued last high) {id : UInt64}
    (inside : id.toNat ≤ issued.length) :
    Tracks (queue.ackLog id) issued id.toNat (max high id.toNat) := by
  by_cases same : id = queue.ackId
  · have lower : id.toNat ≤ high := by
      rw [same, tracks.ackId]
      exact tracks.last_le
    rw [Nat.max_eq_left lower, same, LogQueue.ackLog_self]
    exact { tracks with
      last_le := same ▸ lower
      ackId := rfl }
  · rw [LogQueue.ackLog_of_ne same]
    exact
      { tracks with
        last_le := Nat.le_max_right _ _
        high_le := Nat.max_le.mpr ⟨tracks.high_le, inside⟩
        ackContent := File.content_overwrite tracks.ackOpens _
        ackOpens := by
          rw [File.writable_overwrite]
          exact tracks.ackOpens
        ackId := rfl
        pending := by
          have numbered := tracks.numbered.drop tracks.high_le
          simp only
          rw [tracks.pending, LogQueue.popAcked_numbered numbered, List.drop_drop]
          congr 1
          omega }

end Steps

/-- Every run of valid calls is tracked by what the calls say. -/
theorem tracks_run (junkAckId : UInt64) (junk : Nat → Indeterminate) (calls : List QueueCall)
    (valid : Valid 0 calls) (room : issuedCount calls + 1 < 2 ^ 64) :
    ∃ issued, issued.length = issuedCount calls ∧
      Tracks ((freshQueue junkAckId junk).run calls) issued (lastAck calls) (maxAck calls) := by
  induction calls using List.reverseRecOn with
  | nil => exact ⟨[], rfl, tracks_fresh junkAckId junk⟩
  | append_singleton calls last ih =>
      obtain ⟨earlier, now⟩ := QueueCall.valid_append.mp valid
      rw [Nat.zero_add] at now
      rw [LogQueue.run_concat]
      cases last with
      | addNewLog processName timestampMs logType value =>
          rw [QueueCall.issuedCount_addNewLog] at room
          obtain ⟨issued, count, tracks⟩ := ih earlier (Nat.lt_of_succ_lt room)
          have next := tracks.addNewLog now.1 (by rw [count]; exact room) timestampMs logType value
          refine ⟨_, ?_, by simpa [LogQueue.call] using next⟩
          simp [count]
      | ackLog id =>
          rw [QueueCall.issuedCount_ackLog] at room
          obtain ⟨issued, count, tracks⟩ := ih earlier room
          have inside : id.toNat ≤ issued.length := count ▸ now.1
          have next := tracks.ackLog inside
          exact ⟨issued, by simp [count], by simpa [LogQueue.call] using next⟩

/-! ### The reloaded queue -/

/-- Of consecutive ids, those above a bound are what follows it. -/
theorem filter_above {start : Nat} {issued : List LogEntry} (numbered : Numbered start issued)
    (ackId : UInt64) :
    issued.filter (fun entry => entry.id > ackId) = issued.drop (ackId.toNat - start) := by
  induction issued generalizing start with
  | nil => simp
  | cons entry rest ih =>
      obtain ⟨id, later⟩ := numbered
      by_cases above : entry.id > ackId
      · have behind : ackId.toNat < start + 1 := id ▸ UInt64.lt_iff_toNat_lt.mp above
        have count : ackId.toNat - start = 0 := by omega
        have others : ackId.toNat - (start + 1) = 0 := by omega
        rw [List.filter_cons_of_pos (by simpa using above), ih later, count, others]
        rfl
      · have front : start + 1 ≤ ackId.toNat := by
          rw [← id]
          exact Nat.le_of_not_lt fun less => above (UInt64.lt_iff_toNat_lt.mpr less)
        have count : ackId.toNat - start = ackId.toNat - (start + 1) + 1 := by omega
        rw [List.filter_cons_of_neg (by simpa using above), ih later, count,
          List.drop_succ_cons]

/-- What a new queue makes of the files: it keeps the last ack and loads every
entry behind it, and guesses the next id from the last of these. -/
theorem reload_eq {queue : LogQueue} {issued : List LogEntry} {last high : Nat}
    (tracks : Tracks queue issued last high) (junkAckId : UInt64)
    (junk : Nat → Indeterminate) :
    LogQueue.ofFiles junkAckId junk queue.logFile queue.ackFile =
      { queue with
        logEntries := issued.drop last
        newId := LogQueue.firstNewId (issued.drop last) } := by
  have pending : issued.filter (fun entry => entry.id > queue.ackId) = issued.drop last := by
    rw [filter_above tracks.numbered, tracks.ackId, Nat.sub_zero]
  rw [LogQueue.ofFiles_logged tracks.clean tracks.logContent tracks.ackContent, pending]

/-- The next id that is guessed from pending entries continues them. -/
theorem firstNewId_numbered {start : Nat} {pending : List LogEntry}
    (numbered : Numbered start pending) (nonempty : pending ≠ [])
    (room : start + pending.length + 1 < 2 ^ 64) :
    (LogQueue.firstNewId pending).toNat = start + pending.length + 1 := by
  obtain ⟨front, entry, split⟩ := (List.eq_nil_or_concat pending).resolve_left nonempty
  rw [List.concat_eq_append] at split
  subst split
  obtain ⟨_, id, _⟩ := LogEntry.numbered_append.mp numbered
  rw [List.length_append, List.length_singleton] at room ⊢
  have last : (front ++ [entry]).getLast? = some entry := by simp
  simp only [LogQueue.firstNewId, last]
  rw [UInt64.toNat_add, id, UInt64.toNat_one]
  exact Nat.mod_eq_of_lt room

/-- Restart transparency.  After any run of valid calls a reloaded queue equals
the live one exactly when the last ack is the highest and something is still
unacked, or nothing was ever added. -/
theorem reload_eq_self_iff (junkAckId : UInt64) (junk : Nat → Indeterminate)
    (calls : List QueueCall) (valid : Valid 0 calls)
    (room : issuedCount calls + 1 < 2 ^ 64) :
    (∀ newJunkAckId newJunk,
        let queue := (freshQueue junkAckId junk).run calls
        LogQueue.ofFiles newJunkAckId newJunk queue.logFile queue.ackFile = queue) ↔
      lastAck calls = maxAck calls ∧
        (issuedCount calls = 0 ∨ lastAck calls < issuedCount calls) := by
  obtain ⟨issued, count, tracks⟩ := tracks_run junkAckId junk calls valid room
  have ordered := tracks.last_le
  have inside := tracks.high_le
  simp only [reload_eq tracks]
  generalize (freshQueue junkAckId junk).run calls = queue at tracks ⊢
  rw [← count] at room ⊢
  constructor
  · intro same
    have whole := same 0 (fun _ => default)
    have pending : issued.drop (lastAck calls) = issued.drop (maxAck calls) := by
      rw [← tracks.pending]
      exact congrArg LogQueue.logEntries whole
    have newId : (LogQueue.firstNewId (issued.drop (lastAck calls))).toNat =
        issued.length + 1 := by
      rw [← tracks.newId]
      exact congrArg (fun queue => queue.newId.toNat) whole
    constructor
    · have lengths := congrArg List.length pending
      simp only [List.length_drop] at lengths
      omega
    · rcases Nat.lt_or_ge (lastAck calls) issued.length with below | reached
      · exact Or.inr below
      · rw [List.drop_of_length_le reached] at newId
        have guessed : (LogQueue.firstNewId []).toNat = 1 := rfl
        omega
  · rintro ⟨highest, left⟩ _ _
    have newId : LogQueue.firstNewId (issued.drop (lastAck calls)) = queue.newId := by
      apply UInt64.toNat_inj.mp
      rw [tracks.newId]
      rcases left with none | below
      · rw [List.eq_nil_of_length_eq_zero none, List.drop_nil]
        rfl
      · have rest : (issued.drop (lastAck calls)).length = issued.length - lastAck calls :=
          List.length_drop
        have nonempty : issued.drop (lastAck calls) ≠ [] := by
          apply List.ne_nil_of_length_pos
          omega
        rw [firstNewId_numbered (tracks.numbered.drop (Nat.le_of_lt below)) nonempty
          (by rw [rest]; omega), rest]
        omega
    have pending : issued.drop (lastAck calls) = queue.logEntries := by
      rw [tracks.pending, highest]
    rw [newId, pending]

/-- A restart in the middle of a run, with one of two entries acked. -/
theorem reload_eq_self_iff_sample :
    let calls : List QueueCall :=
      [.addNewLog (ascii "a") 5 LogType.cpu 9, .addNewLog (ascii "b") 6 LogType.mem 8, .ackLog 1]
    (∀ newJunkAckId newJunk,
        let queue := (freshQueue 7 fun _ => default).run calls
        LogQueue.ofFiles newJunkAckId newJunk queue.logFile queue.ackFile = queue) ↔
      lastAck calls = maxAck calls ∧
        (issuedCount calls = 0 ∨ lastAck calls < issuedCount calls) :=
  reload_eq_self_iff 7 (fun _ => default) _
    ⟨by decide, by decide, by decide, trivial⟩ (by decide)

/-- Once the only entry is acked, a restart hands out its id again. -/
theorem reload_reissues_id :
    let calls : List QueueCall := [.addNewLog (ascii "a") 5 LogType.cpu 9, .ackLog 1]
    let queue := (freshQueue 0 fun _ => default).run calls
    let reloaded := LogQueue.ofFiles 0 (fun _ => default) queue.logFile queue.ackFile
    Valid 0 calls ∧ queue.getNewId.1 = 2 ∧ reloaded.getNewId.1 = 1 ∧ reloaded ≠ queue :=
  ⟨⟨by decide, by decide, trivial⟩, by decide +kernel⟩

end RemoteMonitoring
