/-
Module: RemoteMonitoring.Proofs.Overlap
Purpose: Two calls of `handle_recv_log` on one log file, for every schedule of their steps:
  exactly when the ids in the file still increase from line to line.
Trusted boundary: none
Main exports: HoldsLog, Carries, Owes, owes_step, overlap_run, ascending_iff
-/
import RemoteMonitoring.System.Overlap
import RemoteMonitoring.Lib.Interleave

namespace RemoteMonitoring

open ByteText

/-! ### A file of entries -/

/-- The id of the last entry, 0 when there is none. -/
def lastId (entries : List LogEntry) : UInt64 := (entries.getLast?.map LogEntry.id).getD 0

@[simp] theorem lastId_nil : lastId [] = 0 := rfl

@[simp] theorem lastId_concat (entries : List LogEntry) (entry : LogEntry) :
    lastId (entries ++ [entry]) = entry.id := by
  simp [lastId]

/-- The ids increase strictly. -/
def Ascending (entries : List LogEntry) : Prop :=
  (entries.map LogEntry.id).Pairwise (· < ·)

/-- A name with a newline would not stand on one line. -/
def SingleNames (entries : List LogEntry) : Prop :=
  ∀ entry ∈ entries, newline ∉ entry.processName

theorem SingleNames.append {first second : List LogEntry} (one : SingleNames first)
    (two : SingleNames second) : SingleNames (first ++ second) := by
  intro entry member
  rcases List.mem_append.mp member with here | there
  · exact one entry here
  · exact two entry there

/-- The id read off the last line is that of the last entry. -/
theorem lastAckedId_entries {file : File} {entries : List LogEntry}
    (content : file.bytes = entries.flatMap LogEntry.serializeStr)
    (single : SingleNames entries) (junk : Indeterminate) :
    lastAckedId junk file = lastId entries := by
  rcases List.eq_nil_or_concat entries with rfl | ⟨front, entry, rfl⟩
  · rw [lastAckedId_of_empty content, lastId_nil]
  · rw [List.concat_eq_append] at content single ⊢
    rw [List.flatMap_append, List.flatMap_singleton] at content
    rw [lastAckedId_append content (LogEntry.terminated_flatMap front) (single entry (by simp)),
      lastId_concat]

/-- Line by line the file shows the ids of its entries. -/
theorem lineIds_entries {file : File} {entries : List LogEntry}
    (content : file.bytes = entries.flatMap LogEntry.serializeStr)
    (single : SingleNames entries) (junk : Indeterminate) :
    (lines file.bytes).map (lineId junk) = entries.map LogEntry.id := by
  rw [content]
  clear content
  induction entries with
  | nil => rfl
  | cons entry rest ih =>
      rw [List.flatMap_cons, LogEntry.serializeStr, List.append_assoc, List.singleton_append,
        lines_append_newline (LogEntry.newline_not_mem_line (single entry (by simp))),
        List.map_cons, lineId_line, List.map_cons,
        ih fun other member => single other (by simp [member])]

theorem storesAscending_iff {file : File} {entries : List LogEntry}
    (content : file.bytes = entries.flatMap LogEntry.serializeStr)
    (single : SingleNames entries) (junk : Indeterminate) :
    StoresAscending junk file ↔ Ascending entries := by
  rw [StoresAscending, lineIds_entries content single, Ascending]

/-! ### What one call adds -/

/-- Nothing is accepted exactly if no entry has the next id. -/
theorem acceptLoop_eq_nil {last : UInt64} {batch : List LogEntry} :
    (acceptLoop last batch).2 = [] ↔ ∀ entry ∈ batch, entry.id ≠ last + 1 := by
  induction batch with
  | nil => simp [acceptLoop]
  | cons entry rest ih =>
      by_cases follows : entry.id = last + 1
      · rw [acceptLoop_next rest follows]
        simp [follows]
      · rw [acceptLoop_skip rest follows, ih]
        simp [follows]

/-- Only entries of the batch are accepted. -/
theorem acceptLoop_subset {last : UInt64} {batch : List LogEntry} {entry : LogEntry}
    (taken : entry ∈ (acceptLoop last batch).2) : entry ∈ batch := by
  induction batch generalizing last with
  | nil => cases taken
  | cons first rest ih =>
      by_cases follows : first.id = last + 1
      · rw [acceptLoop_next rest follows] at taken
        rcases List.mem_cons.mp taken with rfl | later
        · exact List.mem_cons_self
        · exact List.mem_cons_of_mem _ (ih later)
      · rw [acceptLoop_skip rest follows] at taken
        exact List.mem_cons_of_mem _ (ih taken)

/-- What is still to come follows what has been taken. -/
theorem acceptLoop_head {prior batch taken left : List LogEntry} {entry : LogEntry}
    (accepts : (acceptLoop (lastId prior) batch).2 = taken ++ entry :: left) :
    entry.id = lastId (prior ++ taken) + 1 := by
  induction batch generalizing prior taken with
  | nil => simp [acceptLoop] at accepts
  | cons first rest ih =>
      by_cases follows : first.id = lastId prior + 1
      · rw [acceptLoop_next rest follows] at accepts
        cases taken with
        | nil =>
            obtain ⟨rfl, _⟩ := List.cons.inj accepts
            rw [follows, List.append_nil]
        | cons other taken =>
            obtain ⟨rfl, later⟩ := List.cons.inj accepts
            rw [← follows, ← lastId_concat prior first] at later
            rw [ih later, List.append_assoc, List.singleton_append]
      · rw [acceptLoop_skip rest follows] at accepts
        exact ih accepts

/-- In an ascending file the last id is the largest. -/
theorem Ascending.le_lastId {entries : List LogEntry} (ascending : Ascending entries)
    {entry : LogEntry} (member : entry ∈ entries) : entry.id ≤ lastId entries := by
  rcases List.eq_nil_or_concat entries with rfl | ⟨front, last, rfl⟩
  · cases member
  · rw [List.concat_eq_append] at ascending member ⊢
    rw [lastId_concat]
    rcases List.mem_append.mp member with older | final'
    · rw [Ascending, List.map_append, List.pairwise_append] at ascending
      apply UInt64.le_of_lt
      exact ascending.2.2 _ (List.mem_map_of_mem older) _ (by simp)
    · rw [List.mem_singleton.mp final']
      exact UInt64.le_refl _

/-- One more entry that follows the last one, unless the id has wrapped around. -/
theorem Ascending.concat {entries : List LogEntry} (ascending : Ascending entries)
    {entry : LogEntry} (follows : entry.id = lastId entries + 1) (positive : entry.id ≠ 0) :
    Ascending (entries ++ [entry]) := by
  rw [Ascending, List.map_append, List.pairwise_append]
  refine ⟨ascending, List.pairwise_singleton _ _, ?_⟩
  intro id member other last
  obtain ⟨older, inside, rfl⟩ := List.mem_map.mp member
  rw [List.map_singleton, List.mem_singleton] at last
  have below := UInt64.le_iff_toNat_le.mp (ascending.le_lastId inside)
  have wraps : (lastId entries + 1).toNat = ((lastId entries).toNat + 1) % 2 ^ 64 := by
    rw [UInt64.toNat_add, UInt64.toNat_one]
  have bound := (lastId entries).toNat_lt
  have above : entry.id.toNat ≠ 0 := fun zero => positive (UInt64.toNat_inj.mp zero)
  rw [last, UInt64.lt_iff_toNat_lt, follows]
  rw [follows] at above
  omega

/-- A call alone keeps a file ascending. -/
theorem Ascending.accept {entries batch : List LogEntry} (ascending : Ascending entries)
    (positive : ∀ entry ∈ batch, entry.id ≠ 0) :
    Ascending (entries ++ (acceptLoop (lastId entries) batch).2) := by
  induction batch generalizing entries with
  | nil =>
      rw [acceptLoop, List.append_nil]
      exact ascending
  | cons entry rest ih =>
      have later : ∀ other ∈ rest, other.id ≠ 0 :=
        fun other member => positive other (by simp [member])
      by_cases follows : entry.id = lastId entries + 1
      · have longer := ascending.concat follows (positive entry (by simp))
        have whole := ih longer later
        rw [lastId_concat, follows, List.append_assoc, List.singleton_append] at whole
        rw [acceptLoop_next rest follows]
        exact whole
      · rw [acceptLoop_skip rest follows]
        exact ih ascending later

/-! ### What a call still has to append -/

/-- The message that the call decodes carries this batch, under names of one line and
ids that `get_new_id` can return first. -/
structure Carries (call : RecvLogCall) (batch : List LogEntry) : Prop where
  decodes : ∃ rest,
    readVectorSerializeable LogEntry.deserialize call.netCount call.is = .ok (batch, rest)
  single : SingleNames batch
  positive : ∀ entry ∈ batch, entry.id ≠ 0

/-- After its reading of the last line the call is going to append these entries: first
those in the buffer, then those that the loop will take. -/
def Owes (batch : List LogEntry) (handler : RecvLog) (left : List LogEntry) : Prop :=
  match handler.phase with
  | .readLastLine => False
  | .decode =>
      handler.stream = .opened ∧ left = (acceptLoop handler.lastAckedId batch).2
  | .openFile =>
      handler.stream = .opened ∧ handler.logEntries = batch ∧
        left = (acceptLoop handler.lastAckedId batch).2
  | .loop => ∃ held,
      handler.stream = ⟨held.flatMap LogEntry.serializeStr, false⟩ ∧
        left = held ++ (acceptLoop handler.lastAckedId handler.logEntries).2
  | .publish | .close => handler.stream = ⟨left.flatMap LogEntry.serializeStr, false⟩
  | .returned => left = []

section Steps

variable {call : RecvLogCall} {batch : List LogEntry} {handler : RecvLog} {left : List LogEntry}
  {file : File}

/-- Reading the last line settles what the call is going to append. -/
theorem owes_read (call : RecvLogCall) (batch : List LogEntry) (turn : Turn) (file : File) :
    Owes batch (RecvLog.start.step call turn.outcome file).1
        (acceptLoop (lastAckedId call.junk file) batch).2 ∧
      (RecvLog.start.step call turn.outcome file).2 = file :=
  ⟨⟨rfl, rfl⟩, rfl⟩

/-- Writing a line flushes it with everything before, or keeps it in the buffer. -/
theorem write_cases (turn : Turn) {held : List LogEntry} (entry : LogEntry)
    (opens : file.writable = true) :
    ∃ put held', held ++ [entry] = put ++ held' ∧
      (OFStream.write ⟨held.flatMap LogEntry.serializeStr, false⟩ turn.outcome
          entry.serializeStr file).1 = ⟨held'.flatMap LogEntry.serializeStr, false⟩ ∧
      (OFStream.write ⟨held.flatMap LogEntry.serializeStr, false⟩ turn.outcome
          entry.serializeStr file).2.bytes = file.bytes ++ put.flatMap LogEntry.serializeStr := by
  have text : held.flatMap LogEntry.serializeStr ++ entry.serializeStr =
      (held ++ [entry]).flatMap LogEntry.serializeStr := by simp
  cases flushes : turn.flushes with
  | true =>
      refine ⟨held ++ [entry], [], (List.append_nil _).symm, ?_, ?_⟩
      · simp [Turn.outcome, flushes, OFStream.write]
      · simp only [Turn.outcome, flushes, OFStream.write, text, if_true]
        exact File.bytes_append opens _
  | false =>
      refine ⟨[], held ++ [entry], rfl, ?_, ?_⟩
      · simp [Turn.outcome, flushes, OFStream.write]
      · simp [Turn.outcome, flushes, OFStream.write, File.bytes_append opens]

/-- A step appends the front of what the call still owes. -/
theorem owes_step (carries : Carries call batch) (opens : file.writable = true) (turn : Turn)
    (owes : Owes batch handler left) :
    ∃ put left', left = put ++ left' ∧
      Owes batch (handler.step call turn.outcome file).1 left' ∧
      (handler.step call turn.outcome file).2.bytes =
        file.bytes ++ put.flatMap LogEntry.serializeStr ∧
      (handler.step call turn.outcome file).2.writable = true := by
  obtain ⟨rest, decodes⟩ := carries.decodes
  cases phase : handler.phase with
  | readLastLine => simp only [Owes, phase] at owes
  | decode =>
      simp only [Owes, phase] at owes
      obtain ⟨empty, same⟩ := owes
      simp only [RecvLog.step, phase, decodes]
      exact ⟨[], left, rfl, ⟨empty, rfl, same⟩, (List.append_nil _).symm, opens⟩
  | openFile =>
      simp only [Owes, phase] at owes
      obtain ⟨empty, entries, same⟩ := owes
      simp only [RecvLog.step, phase, opens, if_true]
      refine ⟨[], left, rfl, ⟨[], empty, ?_⟩, ?_, ?_⟩
      · rw [same, entries]
        rfl
      · rw [File.bytes_append opens]
        rfl
      · rw [File.writable_append, opens]
  | loop =>
      simp only [Owes, phase] at owes
      obtain ⟨held, buffer, same⟩ := owes
      cases entries : handler.logEntries with
      | nil =>
          rw [entries, acceptLoop, List.append_nil] at same
          simp only [RecvLog.step, phase, entries]
          refine ⟨[], left, rfl, ?_, (List.append_nil _).symm, opens⟩
          rw [same]
          exact buffer
      | cons entry later =>
          rw [entries] at same
          by_cases follows : entry.id = handler.lastAckedId + 1
          · obtain ⟨put, held', split, stream, bytes⟩ := write_cases turn entry opens
            rw [acceptLoop_next later follows] at same
            simp only [RecvLog.step, phase, entries, follows, if_true, buffer]
            refine ⟨put, held' ++ (acceptLoop (handler.lastAckedId + 1) later).2, ?_,
              ⟨held', stream, rfl⟩, bytes, ?_⟩
            · rw [same, ← List.append_assoc, ← split, List.append_assoc, List.singleton_append]
            · rw [OFStream.writable_write, opens]
          · rw [acceptLoop_skip later follows] at same
            simp only [RecvLog.step, phase, entries, follows, if_false]
            exact ⟨[], left, rfl, ⟨held, buffer, same⟩, (List.append_nil _).symm, opens⟩
  | publish =>
      simp only [Owes, phase] at owes
      simp only [RecvLog.step, phase, writeString_ackMessage]
      exact ⟨[], left, rfl, owes, (List.append_nil _).symm, opens⟩
  | close =>
      simp only [Owes, phase] at owes
      simp only [RecvLog.step, phase, owes]
      refine ⟨left, [], (List.append_nil _).symm, rfl, ?_, ?_⟩
      · cases flushes : turn.flushes with
        | true => simp [Turn.outcome, flushes, OFStream.close, File.bytes_append opens]
        | false => simp [Turn.outcome, flushes, OFStream.close, File.bytes_append opens]
      · cases flushes : turn.flushes with
        | true => simp [Turn.outcome, flushes, OFStream.close, opens]
        | false => simp [Turn.outcome, flushes, OFStream.close, opens]
  | returned =>
      simp only [RecvLog.step, phase]
      exact ⟨[], left, rfl, owes, (List.append_nil _).symm, opens⟩

/-- A call is quiet exactly when it owes nothing. -/
theorem quiet_iff (owes : Owes batch handler left) : handler.Quiet batch ↔ left = [] := by
  cases phase : handler.phase with
  | readLastLine => simp only [Owes, phase] at owes
  | decode =>
      simp only [Owes, phase] at owes
      simp only [RecvLog.Quiet, phase, owes.2, acceptLoop_eq_nil]
  | openFile =>
      simp only [Owes, phase] at owes
      simp only [RecvLog.Quiet, phase, owes.2.2, acceptLoop_eq_nil]
  | loop =>
      simp only [Owes, phase] at owes
      obtain ⟨held, buffer, same⟩ := owes
      simp only [RecvLog.Quiet, phase, buffer, same, List.append_eq_nil_iff, acceptLoop_eq_nil,
        LogEntry.flatMap_serializeStr_eq_nil]
  | publish =>
      simp only [Owes, phase] at owes
      simp only [RecvLog.Quiet, phase, owes, LogEntry.flatMap_serializeStr_eq_nil]
  | close =>
      simp only [Owes, phase] at owes
      simp only [RecvLog.Quiet, phase, owes, LogEntry.flatMap_serializeStr_eq_nil]
  | returned =>
      simp only [Owes, phase] at owes
      simp only [RecvLog.Quiet, phase, owes]

end Steps

/-! ### Runs -/

theorem Party.eq_other_of_ne {one two : Party} (different : one ≠ two) : one = two.other := by
  cases one with
  | old =>
      cases two with
      | old => exact absurd rfl different
      | new => rfl
  | new =>
      cases two with
      | old => rfl
      | new => exact absurd rfl different

@[simp] theorem Party.other_ne (party : Party) : party.other ≠ party := by
  cases party with
  | old => exact nofun
  | new => exact nofun

section Runs

variable {calls : Party → RecvLogCall} {batch : Party → List LogEntry}

theorem handler_step_other (s : Overlap) (turn : Turn) {party : Party}
    (different : party ≠ turn.party) : (s.step calls turn).handler party = s.handler party := by
  simp [Overlap.step, different]

/-- While one thread moves alone, it appends the front of what it owes. -/
theorem alone_run (carries : ∀ party, Carries (calls party) (batch party)) {turns : List Turn}
    {s : Overlap} {party : Party} {left : List LogEntry}
    (alone : ∀ turn ∈ turns, turn.party = party) (opens : s.file.writable = true)
    (owes : Owes (batch party) (s.handler party) left) :
    ∃ put left', left = put ++ left' ∧
      Owes (batch party) ((s.run calls turns).handler party) left' ∧
      (s.run calls turns).file.bytes = s.file.bytes ++ put.flatMap LogEntry.serializeStr ∧
      (s.run calls turns).file.writable = true := by
  induction turns generalizing s left with
  | nil => exact ⟨[], left, rfl, owes, (List.append_nil _).symm, opens⟩
  | cons turn turns ih =>
      have mine : turn.party = party := alone turn (by simp)
      subst mine
      obtain ⟨put, left', rfl, next, bytes, opens'⟩ :=
        owes_step (carries turn.party) opens turn owes
      have moved : Owes (batch turn.party) ((s.step calls turn).handler turn.party) left' := by
        simpa [Overlap.step] using next
      obtain ⟨more, left'', rfl, last, bytes', opens''⟩ :=
        ih (fun other member => alone other (by simp [member])) opens' moved
      refine ⟨put ++ more, left'', (List.append_assoc _ _ _).symm, last, ?_, opens''⟩
      rw [Overlap.run, List.foldl_cons, ← Overlap.run, bytes', List.flatMap_append,
        ← List.append_assoc, ← bytes]
      rfl

/-- The other handler rests while only one takes its turns. -/
theorem alone_other {turns : List Turn} {s : Overlap} {party : Party}
    (alone : ∀ turn ∈ turns, turn.party = party) :
    (s.run calls turns).handler party.other = s.handler party.other := by
  induction turns generalizing s with
  | nil => rfl
  | cons turn turns ih =>
      have mine : turn.party = party := alone turn (by simp)
      rw [Overlap.run, List.foldl_cons, ← Overlap.run,
        ih fun other member => alone other (by simp [member])]
      apply handler_step_other
      rw [mine]
      exact party.other_ne

/-- Both calls together append some interleaving of what they owe. -/
theorem overlap_run (carries : ∀ party, Carries (calls party) (batch party))
    {schedule : List Turn} {s : Overlap} {left : Party → List LogEntry}
    (opens : s.file.writable = true)
    (owes : ∀ party, Owes (batch party) (s.handler party) (left party))
    (finished : (s.run calls schedule).Finished) :
    ∃ appended, Interleaves [left .old, left .new] appended ∧
      (s.run calls schedule).file.bytes =
        s.file.bytes ++ appended.flatMap LogEntry.serializeStr := by
  induction schedule generalizing s left with
  | nil =>
      have nothing : ∀ party, left party = [] := by
        intro party
        have returned := owes party
        have phase : (s.handler party).phase = .returned := finished party
        simpa only [Owes, phase] using returned
      exact ⟨[], .nil (by simp [nothing]), (List.append_nil _).symm⟩
  | cons turn schedule ih =>
      obtain ⟨put, left', split, next, bytes, opens'⟩ :=
        owes_step (carries turn.party) opens turn (owes turn.party)
      have moved : ∀ party, Owes (batch party) ((s.step calls turn).handler party)
          (Function.update left turn.party left' party) := by
        intro party
        by_cases mine : party = turn.party
        · subst mine
          simpa [Overlap.step] using next
        · rw [handler_step_other s turn mine, Function.update_of_ne mine]
          exact owes party
      obtain ⟨appended, interleaves, bytes'⟩ := ih opens' moved finished
      refine ⟨put ++ appended, ?_, ?_⟩
      · cases mine : turn.party with
        | old =>
            rw [mine] at split interleaves
            rw [split]
            exact interleaves.prepend put
        | new =>
            rw [mine] at split interleaves
            rw [split]
            exact .of_perm (List.Perm.swap _ _ _)
              (Interleaves.prepend put (.of_perm (List.Perm.swap _ _ _) interleaves))
      · rw [Overlap.run, List.foldl_cons, ← Overlap.run, bytes', List.flatMap_append,
          ← List.append_assoc, ← bytes]
        rfl

end Runs

/-! ### When the ids still increase -/

/-- A log file that earlier calls left behind. -/
structure HoldsLog (file : File) (entries : List LogEntry) : Prop where
  opens : file.writable = true
  content : file.bytes = entries.flatMap LogEntry.serializeStr
  single : SingleNames entries
  ascending : Ascending entries

/-- Two calls that both still append something take the same next id. -/
theorem not_ascending_of_both {prior taken batch other left others appended : List LogEntry}
    {first second : LogEntry}
    (accepts : (acceptLoop (lastId prior) batch).2 = taken ++ first :: left)
    (accepts' : (acceptLoop (lastId (prior ++ taken)) other).2 = second :: others)
    (interleaves : Interleaves [first :: left, second :: others] appended) :
    ¬ Ascending (prior ++ taken ++ appended) := by
  intro ascending
  have next : first.id = lastId (prior ++ taken) + 1 := acceptLoop_head accepts
  have next' : second.id = lastId (prior ++ taken) + 1 := by
    have head := @acceptLoop_head (prior ++ taken) other [] others second accepts'
    rwa [List.append_nil] at head
  have distinct : (appended.map LogEntry.id).Nodup := by
    rw [Ascending, List.map_append, List.pairwise_append] at ascending
    apply ascending.2.1.imp
    intro one two less same
    exact UInt64.lt_irrefl _ (same ▸ less)
  have order := interleaves.perm.map LogEntry.id
  rw [order.nodup_iff] at distinct
  simp [next, next'] at distinct

/-- A merge of two such batches keeps the ids increasing exactly when one is empty. -/
theorem ascending_merge_iff {prior taken batch other left others appended : List LogEntry}
    (ascending : Ascending prior) (positive : ∀ entry ∈ batch, entry.id ≠ 0)
    (positive' : ∀ entry ∈ other, entry.id ≠ 0)
    (accepts : (acceptLoop (lastId prior) batch).2 = taken ++ left)
    (accepts' : (acceptLoop (lastId (prior ++ taken)) other).2 = others)
    (interleaves : Interleaves [left, others] appended) :
    Ascending (prior ++ taken ++ appended) ↔ left = [] ∨ others = [] := by
  constructor
  · intro kept
    cases left with
    | nil => exact Or.inl rfl
    | cons first left =>
        cases others with
        | nil => exact Or.inr rfl
        | cons second others =>
            exact absurd kept (not_ascending_of_both accepts accepts' interleaves)
  · intro settled
    have one := ascending.accept positive
    rw [accepts] at one
    rcases settled with rfl | rfl
    · -- the second call started from everything that the first one appends
      have order : appended = others := interleaves.eq_of_flatten (by simp) (by simp)
      rw [List.append_nil] at one
      rw [order, ← accepts']
      exact one.accept positive'
    · have order : appended = left := interleaves.eq_of_flatten (by simp) (by simp)
      rw [order, List.append_assoc]
      exact one

/-- The turns behind the lead begin with the first turn of the other thread. -/
theorem schedule_split {calls : Party → RecvLogCall} {file : File} {schedule : List Turn}
    (finished : ((Overlap.start file).run calls schedule).Finished) :
    ∃ leader lead turn later,
      schedule = leader :: lead ++ turn :: later ∧
        Schedule.lead schedule = leader :: lead ∧ Schedule.first schedule = leader.party ∧
        turn.party = leader.party.other ∧ ∀ mine ∈ lead, mine.party = leader.party := by
  cases schedule with
  | nil => cases finished .old
  | cons leader rest =>
      have split : rest.takeWhile (fun turn => turn.party = leader.party) ++
          rest.dropWhile (fun turn => turn.party = leader.party) = rest :=
        List.takeWhile_append_dropWhile
      have mine : ∀ turn ∈ rest.takeWhile (fun turn => turn.party = leader.party),
          turn.party = leader.party := by
        intro turn member
        simpa using List.mem_takeWhile_imp member
      cases behind : rest.dropWhile (fun turn => turn.party = leader.party) with
      | nil =>
          -- the other thread would never have moved
          rw [behind, List.append_nil] at split
          rw [split] at mine
          have alone : ∀ turn ∈ leader :: rest, turn.party = leader.party := by
            intro turn member
            rcases List.mem_cons.mp member with rfl | member
            · rfl
            · exact mine turn member
          have idle := finished leader.party.other
          rw [alone_other alone] at idle
          cases idle
      | cons turn later =>
          have other : turn.party ≠ leader.party := by
            have head := List.head?_dropWhile_not (fun turn : Turn => turn.party = leader.party) rest
            simpa [behind] using head
          refine ⟨leader, rest.takeWhile fun turn => turn.party = leader.party, turn, later, ?_, ?_,
            rfl, Party.eq_other_of_ne other, mine⟩
          · rw [List.cons_append, ← behind, split]
          · rw [Schedule.lead, Schedule.first, List.takeWhile_cons_of_pos (by simp)]

section Halves

variable {calls : Party → RecvLogCall} {batch : Party → List LogEntry}

/-- Up to the reading of the second thread: the first one has read the last line of the
prior log and has appended the front of what it takes. -/
theorem lead_run (carries : ∀ party, Carries (calls party) (batch party)) {file : File}
    {prior : List LogEntry} (holds : HoldsLog file prior) {leader : Turn} {lead : List Turn}
    (mine : ∀ turn ∈ lead, turn.party = leader.party) :
    let early := (Overlap.start file).run calls (leader :: lead)
    early.handler leader.party.other = .start ∧ early.file.writable = true ∧
      ∃ taken left, (acceptLoop (lastId prior) (batch leader.party)).2 = taken ++ left ∧
        Owes (batch leader.party) (early.handler leader.party) left ∧
        early.file.bytes = (prior ++ taken).flatMap LogEntry.serializeStr := by
  have read := owes_read (calls leader.party) (batch leader.party) leader file
  rw [lastAckedId_entries holds.content holds.single] at read
  have started : Owes (batch leader.party)
      (((Overlap.start file).step calls leader).handler leader.party)
      (acceptLoop (lastId prior) (batch leader.party)).2 := by
    simpa [Overlap.step, Overlap.start] using read.1
  have same : ((Overlap.start file).step calls leader).file = file := by
    simpa [Overlap.step, Overlap.start] using read.2
  obtain ⟨taken, left, accepts, owes, bytes, opens⟩ :=
    alone_run carries mine (same.symm ▸ holds.opens) started
  rw [same, holds.content, ← List.flatMap_append] at bytes
  refine ⟨?_, opens, taken, left, accepts, owes, bytes⟩
  apply alone_other
  intro other member
  rcases List.mem_cons.mp member with rfl | member
  · rfl
  · exact mine other member

/-- From the reading of the second thread on: what it takes and what the first one
still owes are merged behind the file that it reads. -/
theorem later_run (carries : ∀ party, Carries (calls party) (batch party)) {s : Overlap}
    {first : Party} {left : List LogEntry} (opens : s.file.writable = true)
    (owes : Owes (batch first) (s.handler first) left) (idle : s.handler first.other = .start)
    {turn : Turn} (second : turn.party = first.other) {later : List Turn}
    (finished : (s.run calls (turn :: later)).Finished) :
    ∃ appended, Interleaves
        [left, (acceptLoop (lastAckedId (calls first.other).junk s.file) (batch first.other)).2]
        appended ∧
      (s.run calls (turn :: later)).file.bytes =
        s.file.bytes ++ appended.flatMap LogEntry.serializeStr := by
  have read := owes_read (calls first.other) (batch first.other) turn s.file
  have same : (s.step calls turn).file = s.file := by
    simpa [Overlap.step, second, idle] using read.2
  have both : ∀ party, Owes (batch party) ((s.step calls turn).handler party)
      (if party = first then left
        else (acceptLoop (lastAckedId (calls first.other).junk s.file) (batch first.other)).2) := by
    intro party
    by_cases mine : party = first
    · rw [if_pos mine, mine, handler_step_other s turn (second ▸ (Party.other_ne _).symm)]
      exact owes
    · rw [if_neg mine, Party.eq_other_of_ne mine]
      simpa [Overlap.step, second, idle] using read.1
  obtain ⟨appended, interleaves, content⟩ := overlap_run carries (same.symm ▸ opens) both finished
  rw [same] at content
  refine ⟨appended, ?_, content⟩
  cases first with
  | old => exact interleaves
  | new => exact .of_perm (List.Perm.swap _ _ _) interleaves

end Halves

/-- Overlapping handlers.  For every prior log, pair of batches and complete schedule:
the ids in the file increase strictly from line to line exactly when, at the moment
the second thread reads the last line, the first one has nothing more to put into
the file, or the second one's batch lacks the id that follows that line. -/
theorem ascending_iff {calls : Party → RecvLogCall} {batch : Party → List LogEntry} {file : File}
    {prior : List LogEntry} {schedule : List Turn} (holds : HoldsLog file prior)
    (carries : ∀ party, Carries (calls party) (batch party))
    (finished : ((Overlap.start file).run calls schedule).Finished) :
    (∀ junk, StoresAscending junk ((Overlap.start file).run calls schedule).file) ↔
      let early := (Overlap.start file).run calls (Schedule.lead schedule)
      let first := Schedule.first schedule
      (early.handler first).Quiet (batch first) ∨
        ∀ entry ∈ batch first.other,
          entry.id ≠ lastAckedId (calls first.other).junk early.file + 1 := by
  obtain ⟨leader, lead, turn, later, split, same, first, second, mine⟩ := schedule_split finished
  obtain ⟨idle, opens, taken, left, accepts, owes, bytes⟩ := lead_run carries holds mine
  have halves : (Overlap.start file).run calls schedule =
      ((Overlap.start file).run calls (leader :: lead)).run calls (turn :: later) := by
    rw [split]
    exact List.foldl_append
  rw [halves] at finished ⊢
  simp only [same, first]
  generalize (Overlap.start file).run calls (leader :: lead) = early at *
  obtain ⟨appended, interleaves, content⟩ := later_run carries opens owes idle second finished
  have singleAccepted : SingleNames (taken ++ left) := by
    intro entry member
    exact (carries leader.party).single entry (acceptLoop_subset (accepts ▸ member))
  have single : SingleNames (prior ++ taken) := holds.single.append fun entry member =>
    singleAccepted entry (List.mem_append_left _ member)
  have singleAppended : SingleNames appended := by
    intro entry member
    have origin := interleaves.perm.mem_iff.mp member
    simp only [List.flatten_cons, List.flatten_nil, List.append_nil, List.mem_append] at origin
    rcases origin with mine | others
    · exact singleAccepted entry (List.mem_append_right _ mine)
    · exact (carries leader.party.other).single entry (acceptLoop_subset others)
  rw [bytes, ← List.flatMap_append] at content
  rw [lastAckedId_entries bytes single] at interleaves
  simp only [storesAscending_iff content (single.append singleAppended), forall_const,
    quiet_iff owes, lastAckedId_entries bytes single, ← acceptLoop_eq_nil]
  exact ascending_merge_iff holds.ascending (carries leader.party).positive
    (carries leader.party.other).positive accepts rfl interleaves

/-- An entry that the client sends over its old connection and resends over the new. -/
private def resentEntry : LogEntry := ⟨1, ascii "chrome.exe", 5, LogType.cpu, 9⟩

private def resentCalls (party : Party) : RecvLogCall where
  info := ⟨0, 0, ascii "10.0.0.7", if party = .old then 50000 else 50001⟩
  junk := default
  netCount := 0
  is := .ofBytes (writeUint32 1 ++ (writeUint64 1 ++ (writeUint32 10 ++ ascii "chrome.exe") ++
    writeUint64 5 ++ writeUint32 LogType.cpu ++ writeUint64 9))

private theorem resentCalls_decodes (party : Party) :
    readVectorSerializeable LogEntry.deserialize (resentCalls party).netCount
      (resentCalls party).is = .ok ([resentEntry], .ofBytes []) := by
  cases party with
  | old => decide +kernel
  | new => decide +kernel

private theorem resentCalls_carries (party : Party) :
    Carries (resentCalls party) [resentEntry] where
  decodes := ⟨_, resentCalls_decodes party⟩
  single := by
    intro entry member
    rw [List.mem_singleton.mp member]
    decide
  positive := by
    intro entry member
    rw [List.mem_singleton.mp member]
    decide

/-- A thread takes so many steps in a row and flushes every line. -/
private def steps (party : Party) (count : Nat) : List Turn := List.replicate count ⟨party, true⟩

/-- The new connection's thread reads after the old one's is done with the file. -/
theorem ascending_iff_sample :
    let schedule := steps .old 7 ++ steps .new 7
    (∀ junk, StoresAscending junk ((Overlap.start .absent).run resentCalls schedule).file) ↔
      let early := (Overlap.start .absent).run resentCalls (Schedule.lead schedule)
      let first := Schedule.first schedule
      (early.handler first).Quiet [resentEntry] ∨
        ∀ entry ∈ [resentEntry],
          entry.id ≠ lastAckedId (resentCalls first.other).junk early.file + 1 := by
  have empty : HoldsLog .absent [] := ⟨rfl, rfl, by simp [SingleNames], List.Pairwise.nil⟩
  refine @ascending_iff resentCalls (fun _ => [resentEntry]) _ _ _ empty resentCalls_carries ?_
  intro party
  cases party with
  | old => decide +kernel
  | new => decide +kernel

/-- Both threads read the last line before either of them appends: the entry is
stored twice, and both acknowledge it. -/
theorem stored_twice :
    let schedule := steps .old 1 ++ steps .new 1 ++ steps .old 6 ++ steps .new 6
    let s := (Overlap.start .absent).run resentCalls schedule
    (∀ party, readVectorSerializeable LogEntry.deserialize (resentCalls party).netCount
        (resentCalls party).is = .ok ([resentEntry], .ofBytes [])) ∧
      s.Finished ∧ (lines s.file.bytes).map (lineId default) = [1, 1] ∧
      ¬ StoresAscending default s.file := by
  refine ⟨resentCalls_decodes, ?_, by decide +kernel, by decide +kernel⟩
  intro party
  cases party with
  | old => decide +kernel
  | new => decide +kernel

end RemoteMonitoring
