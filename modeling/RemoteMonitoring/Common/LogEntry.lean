/-
Module: RemoteMonitoring.Common.LogEntry
Purpose: `LogEntry` (common/log_entry.hpp and .cpp) with its binary form, sent over the
  network, and its text form, one line of a log file.
Trusted boundary: none
Main exports: LogEntry, LogEntry.serialize, LogEntry.deserialize, LogEntry.serializeStr,
  LogEntry.deserializeStr, CleanName
-/
import RemoteMonitoring.Common.Serializable

namespace RemoteMonitoring

open ByteText

/-- `enum LogType`.  Any 32-bit value can arrive through the `static_cast`s. -/
abbrev LogType := UInt32

namespace LogType

def cpu : LogType := 1
def mem : LogType := 2
def disk : LogType := 3
def net : LogType := 4

end LogType

structure LogEntry where
  id : UInt64
  processName : Bytes
  timestampMs : UInt64
  logType : LogType
  value : UInt64
deriving DecidableEq, Repr, Inhabited

/-- The values that the uninitialised variables of one read happen to hold: the
fields that `LogEntry()` leaves alone and the local `temp_number`. -/
structure Indeterminate where
  id : UInt64
  timestampMs : UInt64
  logType : LogType
  value : UInt64
  tempNumber : UInt32
deriving DecidableEq, Repr, Inhabited

namespace LogEntry

/-- `LogEntry()`. -/
def ofIndeterminate (junk : Indeterminate) : LogEntry :=
  { id := junk.id
    processName := []
    timestampMs := junk.timestampMs
    logType := junk.logType
    value := junk.value }

/-! ### Binary form -/

def serialize (entry : LogEntry) : Except RuntimeError Bytes := do
  let name ← writeString entry.processName
  return writeUint64 entry.id ++ name ++ writeUint64 entry.timestampMs ++
    writeUint32 entry.logType ++ writeUint64 entry.value

def deserialize : Decoder LogEntry := do
  let id ← readUint64
  let processName ← readString
  let timestampMs ← readUint64
  let logType ← readUint32
  let value ← readUint64
  return { id, processName, timestampMs, logType, value }

theorem serialize_eq_ok {entry : LogEntry} {out : Bytes} :
    entry.serialize = .ok out ↔
      ∃ name, writeString entry.processName = .ok name ∧
        out = writeUint64 entry.id ++ (name ++ (writeUint64 entry.timestampMs ++
          (writeUint32 entry.logType ++ writeUint64 entry.value))) := by
  unfold serialize
  cases writeString entry.processName with
  | error e => simp [bind, Except.bind]
  | ok name => simp [bind, Except.bind, pure, Except.pure, eq_comm]

/-- An entry is serialized unless its name is too long for the length field. -/
theorem serialize_isOk {entry : LogEntry} (short : entry.processName.length < 2 ^ 32) :
    ∃ out, entry.serialize = .ok out :=
  ⟨_, serialize_eq_ok.mpr ⟨_, writeString_eq_ok.mpr ⟨short, rfl⟩, rfl⟩⟩

theorem serialize_roundTrips : RoundTrips serialize deserialize := by
  intro entry out written rest
  obtain ⟨name, named, rfl⟩ := serialize_eq_ok.mp written
  simp only [List.append_assoc]
  rw [deserialize, Decoder.bind_ok (readUint64_writeUint64 _ _),
    Decoder.bind_ok (readString_writeString named _),
    Decoder.bind_ok (readUint64_writeUint64 _ _),
    Decoder.bind_ok (readUint32_writeUint32 _ _),
    Decoder.bind_ok (readUint64_writeUint64 _ _), Decoder.pure_apply]

/-! ### Text form -/

/-- The line that `serialize_str` writes, without its newline. -/
def line (entry : LogEntry) : Bytes :=
  decimal entry.id.toNat ++ pipe :: (entry.processName ++ pipe ::
    (decimal entry.timestampMs.toNat ++ pipe ::
      (decimal entry.logType.toNat ++ pipe :: decimal entry.value.toNat)))

def serializeStr (entry : LogEntry) : Bytes := entry.line ++ [newline]

/-- The part of `deserialize_str` that works on a line: five fields are taken
one after another.  `temp` keeps its value when the line has ended before. -/
def ofLine (self : LogEntry) (tempNumber : UInt32) (line : Bytes) : LogEntry :=
  let ss := IStream.ofBytes line
  let (temp, ss) := ss.getline pipe []
  let id := fromCharsUInt64 self.id temp
  let (processName, ss) := ss.getline pipe self.processName
  let (temp, ss) := ss.getline pipe temp
  let timestampMs := fromCharsUInt64 self.timestampMs temp
  let (temp, ss) := ss.getline pipe temp
  let logType := fromCharsUInt32 tempNumber temp
  let (temp, _) := ss.getline pipe temp
  let value := fromCharsUInt64 self.value temp
  { id, processName, timestampMs, logType, value }

/-- The return code, the entry afterwards and the advanced stream. -/
def deserializeStr (self : LogEntry) (tempNumber : UInt32) (is : IStream) :
    Nat × LogEntry × IStream :=
  let (line, is) := is.getline newline []
  if is.fail then (1, self, is)
  else if line = [] then (1, self, is)
  else (0, self.ofLine tempNumber line, is)

/-- Names that the text form can represent. -/
def CleanName (name : Bytes) : Prop := pipe ∉ name ∧ newline ∉ name

instance (name : Bytes) : Decidable (CleanName name) := by
  unfold CleanName
  infer_instance

theorem terminated_serializeStr (entry : LogEntry) : Terminated entry.serializeStr :=
  terminated_append_newline _

theorem terminated_flatMap (entries : List LogEntry) :
    Terminated (entries.flatMap serializeStr) :=
  Terminated.flatMap fun entry _ => entry.terminated_serializeStr

theorem serializeStr_ne_nil (entry : LogEntry) : entry.serializeStr ≠ [] := by
  simp [serializeStr]

theorem flatMap_serializeStr_eq_nil {entries : List LogEntry} :
    entries.flatMap serializeStr = [] ↔ entries = [] := by
  cases entries with
  | nil => simp
  | cons entry rest => simp [serializeStr_ne_nil]

theorem line_ne_nil (entry : LogEntry) : entry.line ≠ [] := by
  simp [line]

/-- A line ends in the last digit of the value. -/
theorem line_eq_concat (entry : LogEntry) :
    ∃ front last, entry.line = front ++ [last] ∧ isDigit last = true := by
  obtain ⟨front, last, same⟩ :=
    List.eq_nil_or_concat (decimal entry.value.toNat) |>.resolve_left (decimal_ne_nil _)
  refine ⟨decimal entry.id.toNat ++ pipe :: (entry.processName ++ pipe ::
    (decimal entry.timestampMs.toNat ++ pipe ::
      (decimal entry.logType.toNat ++ pipe :: front))), last, ?_, ?_⟩
  · rw [line, same]
    simp
  · exact isDigit_of_mem_decimal (n := entry.value.toNat) (by rw [same]; simp)

private theorem newline_not_mem_decimal (n : Nat) : newline ∉ decimal n :=
  not_mem_decimal (by decide)

private theorem pipe_not_mem_decimal (n : Nat) : pipe ∉ decimal n :=
  not_mem_decimal (by decide)

theorem newline_not_mem_line {entry : LogEntry} (single : newline ∉ entry.processName) :
    newline ∉ entry.line := by
  have other : newline ≠ pipe := by decide
  simp [line, newline_not_mem_decimal, single, other]

/-- The id of a line is the number in front of its first separator, whatever
the name contains. -/
theorem ofLine_id (self : LogEntry) (tempNumber : UInt32) (id : UInt64) (rest : Bytes) :
    (self.ofLine tempNumber (decimal id.toNat ++ pipe :: rest)).id = id := by
  simp only [ofLine, IStream.getline_append [] rest (pipe_not_mem_decimal id.toNat)]
  exact fromCharsUInt64_decimal self.id id

/-- Any line gives the id that its leading numeral says, if it says one. -/
theorem ofLine_id_eq (self : LogEntry) (tempNumber : UInt32) (line : Bytes) :
    (self.ofLine tempNumber line).id = fromCharsUInt64 self.id line := by
  simp only [ofLine, IStream.getline_ofBytes]
  exact fromCharsUInt64_congr (leadingNumeral_takeWhile rfl line)

/-- No entry that is read from a line has a name that would not survive a file. -/
theorem cleanName_ofLine (junk : Indeterminate) {line : Bytes} (single : newline ∉ line) :
    CleanName ((ofIndeterminate junk).ofLine junk.tempNumber line).processName := by
  constructor
  · intro member
    exact (IStream.mem_getline member).1 rfl
  · intro member
    have behind : newline ∈ ((IStream.ofBytes line).getline pipe []).2.rest :=
      (IStream.mem_getline member).2
    exact single (IStream.mem_rest_getline behind)

/-- A line with a clean name is read back whole: no field keeps its old value. -/
theorem ofLine_line (self : LogEntry) (tempNumber : UInt32) {entry : LogEntry}
    (clean : pipe ∉ entry.processName) : self.ofLine tempNumber entry.line = entry := by
  have last : pipe ∉ decimal entry.value.toNat := pipe_not_mem_decimal _
  simp only [ofLine, line, IStream.getline_append _ _ (pipe_not_mem_decimal _),
    IStream.getline_append _ _ clean, IStream.getline_end _ last,
    fromCharsUInt64_decimal, fromCharsUInt32_decimal]

/-- Reading one line of a stream, when the name does not break it. -/
theorem deserializeStr_serializeStr (self : LogEntry) (tempNumber : UInt32)
    {entry : LogEntry} (single : newline ∉ entry.processName) (rest : Bytes) :
    self.deserializeStr tempNumber (.ofBytes (entry.serializeStr ++ rest)) =
      (0, self.ofLine tempNumber entry.line, .ofBytes rest) := by
  rw [deserializeStr, serializeStr, List.append_assoc, List.singleton_append,
    IStream.getline_append [] rest (newline_not_mem_line single)]
  simp [line_ne_nil]

/-! ### Consecutive ids -/

/-- The entries carry the ids `start + 1`, `start + 2` and so on, in order. -/
def Numbered : Nat → List LogEntry → Prop
  | _, [] => True
  | start, entry :: rest => entry.id.toNat = start + 1 ∧ Numbered (start + 1) rest

instance decidableNumbered : (start : Nat) → (entries : List LogEntry) →
    Decidable (Numbered start entries)
  | _, [] => isTrue trivial
  | start, entry :: rest =>
      have := decidableNumbered (start + 1) rest
      inferInstanceAs (Decidable (entry.id.toNat = start + 1 ∧ Numbered (start + 1) rest))

theorem numbered_append {start : Nat} {first second : List LogEntry} :
    Numbered start (first ++ second) ↔
      Numbered start first ∧ Numbered (start + first.length) second := by
  induction first generalizing start with
  | nil => simp [Numbered]
  | cons entry first ih =>
      have shift : start + 1 + first.length = start + (first.length + 1) := by omega
      simp [Numbered, ih, and_assoc, shift]

theorem Numbered.take {start : Nat} {entries : List LogEntry}
    (numbered : Numbered start entries) (count : Nat) : Numbered start (entries.take count) := by
  rw [← List.take_append_drop count entries] at numbered
  exact (numbered_append.mp numbered).1

theorem Numbered.drop {start : Nat} {entries : List LogEntry}
    (numbered : Numbered start entries) {count : Nat} (inside : count ≤ entries.length) :
    Numbered (start + count) (entries.drop count) := by
  rw [← List.take_append_drop count entries] at numbered
  have tail := (numbered_append.mp numbered).2
  rwa [List.length_take, Nat.min_eq_left inside] at tail

/-- The last of the first `count` entries carries the id `start + count`. -/
theorem Numbered.take_succ {start count : Nat} {entries : List LogEntry}
    (numbered : Numbered start entries) (inside : count < entries.length) :
    ∃ entry ∈ entries, entries.take (count + 1) = entries.take count ++ [entry] ∧
      entry.id.toNat = start + count + 1 := by
  refine ⟨entries[count], List.getElem_mem inside, ?_, ?_⟩
  · rw [List.take_add_one, List.getElem?_eq_getElem inside, Option.toList_some]
  · have tail := numbered.drop (Nat.le_of_lt inside)
    rw [List.drop_eq_getElem_cons inside] at tail
    exact tail.1

/-- The entries of a window. -/
def slice (issued : List LogEntry) (window : Nat × Nat) : List LogEntry :=
  (issued.take window.2).drop window.1

theorem slice_append {issued : List LogEntry} {window : Nat × Nat}
    (inside : window.2 ≤ issued.length) (more : List LogEntry) :
    slice (issued ++ more) window = slice issued window := by
  rw [slice, List.take_append_of_le_length inside, slice]

theorem slice_length {issued : List LogEntry} {window : Nat × Nat}
    (inside : window.2 ≤ issued.length) : (slice issued window).length = window.2 - window.1 := by
  simp [slice, Nat.min_eq_left inside]

theorem slice_numbered {issued : List LogEntry} (numbered : Numbered 0 issued)
    {window : Nat × Nat} (ordered : window.1 ≤ window.2) (inside : window.2 ≤ issued.length) :
    Numbered window.1 (slice issued window) := by
  have front : window.1 ≤ (issued.take window.2).length := by
    rwa [List.length_take, Nat.min_eq_left inside]
  have cut := (numbered.take window.2).drop front
  rwa [Nat.zero_add] at cut

/-- A prefix followed by the rest of a window that reaches it. -/
theorem take_append_slice (issued : List LogEntry) {stored : Nat} {window : Nat × Nat}
    (reaches : window.1 ≤ stored) :
    issued.take stored ++ (slice issued window).drop (stored - window.1) =
      issued.take (max stored window.2) := by
  rw [slice, List.drop_drop, Nat.add_sub_cancel' reaches]
  rcases Nat.le_total stored window.2 with shorter | longer
  · rw [Nat.max_eq_right shorter]
    have front : issued.take stored = (issued.take window.2).take stored := by
      rw [List.take_take, Nat.min_eq_left shorter]
    rw [front, List.take_append_drop]
  · rw [Nat.max_eq_left longer, List.drop_of_length_le (by simp; omega), List.append_nil]

/-- The first `count` of consecutive entries are those with the lowest ids. -/
theorem Numbered.mem_take_iff {start count : Nat} {entries : List LogEntry}
    (numbered : Numbered start entries) {entry : LogEntry} :
    entry ∈ entries.take count ↔ entry ∈ entries ∧ entry.id.toNat ≤ start + count := by
  induction entries generalizing start count with
  | nil => simp
  | cons first rest ih =>
      obtain ⟨id, later⟩ := numbered
      have above : entry ∈ rest → start + 1 < entry.id.toNat := by
        intro member
        have outside : entry ∉ rest.take 0 := by simp
        rw [ih later] at outside
        simp only [member, true_and] at outside
        omega
      cases count with
      | zero =>
          simp only [List.take_zero, List.not_mem_nil, List.mem_cons, false_iff, not_and]
          rintro (rfl | member)
          · omega
          · have behind := above member
            omega
      | succ count =>
          have shift : start + 1 + count = start + (count + 1) := by omega
          simp only [List.take_succ_cons, List.mem_cons, ih later, shift]
          constructor
          · rintro (rfl | ⟨member, low⟩)
            · exact ⟨Or.inl rfl, by omega⟩
            · exact ⟨Or.inr member, low⟩
          · rintro ⟨rfl | member, low⟩
            · exact Or.inl rfl
            · exact Or.inr ⟨member, low⟩

theorem Numbered.lt_id {start : Nat} {entries : List LogEntry}
    (numbered : Numbered start entries) {entry : LogEntry} (member : entry ∈ entries) :
    start < entry.id.toNat := by
  have outside : entry ∉ entries.take 0 := by simp
  rw [numbered.mem_take_iff] at outside
  exact Nat.lt_of_not_le fun low => outside ⟨member, low⟩

end LogEntry

end RemoteMonitoring
