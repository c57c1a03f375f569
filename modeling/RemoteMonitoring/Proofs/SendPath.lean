/-
Module: RemoteMonitoring.Proofs.SendPath
Purpose: Which payloads reach the peer as they were built: the strings check their length, and
  the message in front of them does not.
Trusted boundary: none
Main exports: Part.write_length, Part.write_isOk_iff, Part.read_write, sentIntact_iff
-/
import RemoteMonitoring.Proofs.WireFormat
import RemoteMonitoring.System.SendPath

namespace RemoteMonitoring

open ByteText

/-! ### One part -/

section Vectors

variable {α : Type} {serialize : α → Except RuntimeError Bytes} {size : α → Nat}

/-- Items take the bytes that each of them takes. -/
theorem mapM_length (each : ∀ item out, serialize item = .ok out → out.length = size item)
    {items : List α} {outs : List Bytes} (written : items.mapM serialize = .ok outs) :
    outs.flatten.length = (items.map size).sum := by
  induction items generalizing outs with
  | nil =>
      cases written
      rfl
  | cons item items ih =>
      obtain ⟨out, tail, rfl, first, others⟩ := mapM_cons_eq_ok written
      rw [List.flatten_cons, List.length_append, each item out first, ih others, List.map_cons,
        List.sum_cons]

theorem vector_length (each : ∀ item out, serialize item = .ok out → out.length = size item)
    {vec : List α} {out : Bytes} (written : writeVectorSerializeable serialize vec = .ok out) :
    out.length = 4 + (vec.map size).sum := by
  obtain ⟨outs, items, rfl⟩ := writeVectorSerializeable_eq_ok.mp written
  rw [List.length_append, writeUint32_length, mapM_length each items]

/-- A list is written exactly if each item is. -/
theorem mapM_isOk_iff {vec : List α} :
    (∃ outs, vec.mapM serialize = .ok outs) ↔ ∀ item ∈ vec, ∃ out, serialize item = .ok out := by
  constructor
  · intro written
    obtain ⟨outs, written⟩ := written
    induction vec generalizing outs with
    | nil => simp
    | cons item vec ih =>
        obtain ⟨out, tail, _, first, others⟩ := mapM_cons_eq_ok written
        exact List.forall_mem_cons.mpr ⟨⟨out, first⟩, ih tail others⟩
  · exact mapM_isOk

/-- And so is a vector: nothing looks at its count. -/
theorem vector_isOk_iff {vec : List α} :
    (∃ out, writeVectorSerializeable serialize vec = .ok out) ↔
      ∀ item ∈ vec, ∃ out, serialize item = .ok out := by
  rw [← mapM_isOk_iff]
  constructor
  · rintro ⟨out, written⟩
    obtain ⟨outs, items, _⟩ := writeVectorSerializeable_eq_ok.mp written
    exact ⟨outs, items⟩
  · rintro ⟨outs, items⟩
    exact ⟨_, writeVectorSerializeable_eq_ok.mpr ⟨outs, items, rfl⟩⟩

/-- Elements of at least one byte are not more than bytes. -/
theorem length_le_sum {vec : List α} (positive : ∀ item, 1 ≤ size item) :
    vec.length ≤ (vec.map size).sum := by
  induction vec with
  | nil => exact Nat.le_refl 0
  | cons item vec ih =>
      rw [List.length_cons, List.map_cons, List.sum_cons, Nat.add_comm]
      exact Nat.add_le_add (positive item) ih

/-- Neither the number of elements nor the length of one of their texts is larger than the
vector. -/
theorem vector_fields_le {text : α → Bytes} {least : Nat} (positive : 1 ≤ least) {vec : List α}
    {length : Nat} (field : length ∈ vec.length :: vec.map fun item => (text item).length) :
    length ≤ (vec.map fun item => least + (text item).length).sum := by
  cases List.mem_cons.mp field with
  | inl count =>
      rw [count]
      exact length_le_sum fun item => Nat.le_add_right_of_le positive
  | inr inside =>
      obtain ⟨item, member, rfl⟩ := List.mem_map.mp inside
      have part := List.single_le_sum (fun _ _ => Nat.zero_le _) _
        (List.mem_map_of_mem (f := fun item => least + (text item).length) member)
      exact Nat.le_trans (Nat.le_add_left _ _) part

end Vectors

/-- A string is written exactly if its length fits. -/
theorem writeString_isOk_iff {str : Bytes} :
    (∃ out, writeString str = .ok out) ↔ str.length < 2 ^ 32 := by
  constructor
  · rintro ⟨out, written⟩
    exact (writeString_eq_ok.mp written).1
  · intro short
    exact ⟨_, writeString_eq_ok.mpr ⟨short, rfl⟩⟩

theorem writeString_length {str out : Bytes} (written : writeString str = .ok out) :
    out.length = 4 + str.length := by
  obtain ⟨_, rfl⟩ := writeString_eq_ok.mp written
  rw [List.length_append, writeUint32_length]

theorem LogEntry.serialize_length {entry : LogEntry} {out : Bytes}
    (written : entry.serialize = .ok out) : out.length = 32 + entry.processName.length := by
  obtain ⟨name, named, rfl⟩ := LogEntry.serialize_eq_ok.mp written
  simp only [List.length_append, writeUint64_length, writeUint32_length, writeString_length named]
  omega

/-- An entry is written exactly if its name is. -/
theorem LogEntry.serialize_isOk_iff {entry : LogEntry} :
    (∃ out, entry.serialize = .ok out) ↔ entry.processName.length < 2 ^ 32 := by
  constructor
  · rintro ⟨out, written⟩
    obtain ⟨name, named, _⟩ := LogEntry.serialize_eq_ok.mp written
    exact writeString_isOk_iff.mp ⟨name, named⟩
  · exact LogEntry.serialize_isOk

theorem ConfigEntry.serialize_length {entry : ConfigEntry} {out : Bytes}
    (written : entry.serialize = .ok out) : out.length = 32 + entry.processName.length := by
  obtain ⟨name, named, rfl⟩ := ConfigEntry.serialize_eq_ok.mp written
  simp only [List.length_append, writeUint64_length, writeUint32_length, writeString_length named]
  omega

/-- The same for a configuration entry. -/
theorem ConfigEntry.serialize_isOk_iff {entry : ConfigEntry} :
    (∃ out, entry.serialize = .ok out) ↔ entry.processName.length < 2 ^ 32 := by
  constructor
  · rintro ⟨out, written⟩
    obtain ⟨name, named, _⟩ := ConfigEntry.serialize_eq_ok.mp written
    exact writeString_isOk_iff.mp ⟨name, named⟩
  · exact ConfigEntry.serialize_isOk

namespace Part

/-- A part takes the bytes of its size. -/
theorem write_length {part : Part} {out : Bytes} (written : part.write = .ok out) :
    out.length = part.size := by
  cases part with
  | string str => exact writeString_length written
  | strings vec => exact vector_length (fun _ _ => writeString_length) written
  | logEntries vec => exact vector_length (fun _ _ => LogEntry.serialize_length) written
  | configEntries vec => exact vector_length (fun _ _ => ConfigEntry.serialize_length) written

/-- A part is written unless one of its strings is too long for a length field. -/
theorem write_isOk_iff {part : Part} :
    (∃ out, part.write = .ok out) ↔ ∀ text ∈ part.texts, text.length < 2 ^ 32 := by
  cases part with
  | string str => simpa [texts, write] using writeString_isOk_iff
  | strings vec =>
      have written := @vector_isOk_iff _ writeString vec
      simp only [writeString_isOk_iff] at written
      exact written
  | logEntries vec =>
      have written := @vector_isOk_iff _ LogEntry.serialize vec
      simp only [LogEntry.serialize_isOk_iff] at written
      rw [write, written, texts, List.forall_mem_map]
  | configEntries vec =>
      have written := @vector_isOk_iff _ ConfigEntry.serialize vec
      simp only [ConfigEntry.serialize_isOk_iff] at written
      rw [write, written, texts, List.forall_mem_map]

/-- No count and no length is larger than the part. -/
theorem fields_le_size {part : Part} {length : Nat}
    (field : length ∈ part.counts ++ part.texts.map List.length) : length ≤ part.size := by
  cases part with
  | string str =>
      rw [List.mem_singleton.mp field]
      exact Nat.le_add_left _ 4
  | strings vec =>
      have le := @vector_fields_le _ id 4 (by decide) vec _ field
      exact Nat.le_trans le (Nat.le_add_left _ 4)
  | logEntries vec =>
      rw [texts, List.map_map] at field
      have le := @vector_fields_le _ LogEntry.processName 32 (by decide) vec _ field
      exact Nat.le_trans le (Nat.le_add_left _ 4)
  | configEntries vec =>
      rw [texts, List.map_map] at field
      have le := @vector_fields_le _ ConfigEntry.processName 32 (by decide) vec _ field
      exact Nat.le_trans le (Nat.le_add_left _ 4)

/-- What is written in a part that is not too large is read back. -/
theorem read_write {part : Part} {out : Bytes} (written : part.write = .ok out)
    (fits : part.size < 2 ^ 32) (netCount : UInt32) (rest : Bytes) :
    part.kind.read netCount (.ofBytes (out ++ rest)) = .ok (part, .ofBytes rest) := by
  have few : ∀ count ∈ part.counts, count < 2 ^ 32 := fun count member =>
    Nat.lt_of_le_of_lt (fields_le_size (List.mem_append_left _ member)) fits
  cases part with
  | string str =>
      rw [kind, PartKind.read, Decoder.bind_ok (readString_writeString written rest)]
      rfl
  | strings vec =>
      have reads := readVectorSerializeable_write readString_roundTrips
        (few vec.length List.mem_cons_self) written netCount rest
      rw [kind, PartKind.read, readVectorString, Decoder.bind_ok reads]
      rfl
  | logEntries vec =>
      have reads := readVectorSerializeable_write LogEntry.serialize_roundTrips
        (few vec.length List.mem_cons_self) written netCount rest
      rw [kind, PartKind.read, Decoder.bind_ok reads]
      rfl
  | configEntries vec =>
      have reads := readVectorSerializeable_write ConfigEntry.serialize_roundTrips
        (few vec.length List.mem_cons_self) written netCount rest
      rw [kind, PartKind.read, Decoder.bind_ok reads]
      rfl

end Part

/-! ### The payload -/

/-- A payload is its parts, one after another. -/
theorem buildPayload_eq_ok {parts : List Part} {payload : Bytes} :
    buildPayload parts = .ok payload ↔
      ∃ outs, parts.mapM Part.write = .ok outs ∧ payload = outs.flatten := by
  unfold buildPayload
  cases parts.mapM Part.write with
  | error e => simp [bind, Except.bind]
  | ok outs => simp [bind, Except.bind, pure, Except.pure, eq_comm]

/-- It can be built exactly if each string fits its own length field. -/
theorem buildPayload_isOk_iff {parts : List Part} :
    (∃ payload, buildPayload parts = .ok payload) ↔
      ∀ part ∈ parts, ∀ text ∈ part.texts, text.length < 2 ^ 32 := by
  simp only [← Part.write_isOk_iff, ← mapM_isOk_iff, buildPayload_eq_ok]
  constructor
  · rintro ⟨_, outs, written, _⟩
    exact ⟨outs, written⟩
  · rintro ⟨outs, written⟩
    exact ⟨_, outs, written, rfl⟩

theorem buildPayload_length {parts : List Part} {payload : Bytes}
    (built : buildPayload parts = .ok payload) :
    payload.length = (parts.map Part.size).sum := by
  obtain ⟨outs, written, rfl⟩ := buildPayload_eq_ok.mp built
  exact mapM_length (fun _ _ => Part.write_length) written

/-- Parts that fit their length fields are read back as they were written. -/
theorem readParts_write {parts : List Part} {outs : List Bytes}
    (written : parts.mapM Part.write = .ok outs) (fits : ∀ part ∈ parts, part.size < 2 ^ 32)
    (netCount : Nat → UInt32) (rest : Bytes) :
    readParts netCount (parts.map Part.kind) (.ofBytes (outs.flatten ++ rest)) =
      .ok (parts, .ofBytes rest) := by
  induction parts generalizing outs netCount with
  | nil =>
      cases written
      rfl
  | cons part parts ih =>
      obtain ⟨out, tail, rfl, first, others⟩ := mapM_cons_eq_ok written
      have later := ih others (fun other member => fits other (List.mem_cons_of_mem part member))
        (fun index => netCount (index + 1))
      rw [List.flatten_cons, List.append_assoc, List.map_cons, readParts,
        Decoder.bind_ok (Part.read_write first (fits part List.mem_cons_self) _ _),
        Decoder.bind_ok later, Decoder.pure_apply]

theorem part_size_le {parts : List Part} {part : Part} (member : part ∈ parts) :
    part.size ≤ (parts.map Part.size).sum :=
  List.single_le_sum (fun _ _ => Nat.zero_le _) _ (List.mem_map_of_mem member)

/-- A payload that fits the length of a message arrives as it was built. -/
theorem arrivesIntact_of_fits {parts : List Part} {payload : Bytes}
    (built : buildPayload parts = .ok payload) (fits : (parts.map Part.size).sum < 2 ^ 32) :
    ArrivesIntact parts payload where
  whole := by
    intro length field
    rw [UInt32.toNat_ofNat']
    apply Nat.mod_eq_of_lt
    cases List.mem_cons.mp field with
    | inl message =>
        rw [message, buildPayload_length built]
        exact fits
    | inr inside =>
        obtain ⟨part, member, field⟩ := List.mem_flatMap.mp inside
        exact Nat.lt_of_le_of_lt
          (Nat.le_trans (Part.fields_le_size field) (part_size_le member)) fits
  sent := fun _ moves => congrArg Prod.fst (sendMessage_complete moves payload [])
  received := by
    intro accepts done available rest
    rw [(sendMessage_puts accepts payload []).all done, List.nil_append]
    exact recvMessage_frame available (by rwa [buildPayload_length built]) rest
  read := by
    intro netCount
    obtain ⟨outs, written, rfl⟩ := buildPayload_eq_ok.mp built
    have reads := readParts_write written
      (fun part member => Nat.lt_of_le_of_lt (part_size_le member) fits) netCount []
    rwa [List.append_nil] at reads

/-- A payload is sent as it was built, or not built at all, exactly if its parts take less than
2^32 bytes or one of their strings alone is too long. -/
theorem sentIntact_iff (parts : List Part) :
    SentIntact parts ↔
      (∃ part ∈ parts, ∃ text ∈ part.texts, 2 ^ 32 ≤ text.length) ∨
        (parts.map Part.size).sum < 2 ^ 32 := by
  by_cases builds : ∃ payload, buildPayload parts = .ok payload
  · have short := buildPayload_isOk_iff.mp builds
    have noneLong : ¬ ∃ part ∈ parts, ∃ text ∈ part.texts, 2 ^ 32 ≤ text.length := by
      rintro ⟨part, member, text, inside, long⟩
      exact absurd (short part member text inside) (Nat.not_lt.mpr long)
    simp only [noneLong, false_or]
    constructor
    · intro sent
      obtain ⟨payload, built⟩ := builds
      have whole := (sent payload built).whole payload.length List.mem_cons_self
      rw [← buildPayload_length built, ← whole]
      exact UInt32.toNat_lt _
    · intro fits payload built
      exact arrivesIntact_of_fits built fits
  · have someLong : ∃ part ∈ parts, ∃ text ∈ part.texts, 2 ^ 32 ≤ text.length := by
      rw [buildPayload_isOk_iff] at builds
      push Not at builds
      exact builds
    constructor
    · exact fun _ => Or.inl someLong
    · intro _ payload built
      exact absurd ⟨payload, built⟩ builds

/-- A string of 2^32 - 4 bytes, which `write_string` accepts, makes a message whose length is
written as 0: the peer receives an empty one, and has the payload still before it. -/
theorem long_string_arrives_empty :
    let str : Bytes := List.replicate (2 ^ 32 - 4) 0
    ∃ payload, buildPayload [.string str] = .ok payload ∧
      (∀ available, recvMessage available (frame payload) = some ([], payload)) ∧
      ¬ SentIntact [.string str] := by
  intro str
  have length : str.length = 2 ^ 32 - 4 := List.length_replicate
  have texts : ∀ part ∈ [Part.string str], ∀ text ∈ part.texts, text.length < 2 ^ 32 := by
    intro part member text inside
    rw [List.mem_singleton.mp member] at inside
    rw [List.mem_singleton.mp inside, length]
    omega
  obtain ⟨payload, built⟩ := buildPayload_isOk_iff.mpr texts
  have size : payload.length = 2 ^ 32 := by
    rw [buildPayload_length built, List.map_singleton, List.sum_singleton, Part.size, length]
    omega
  have zero : UInt32.ofNat payload.length = 0 := by
    rw [size]
    rfl
  refine ⟨payload, built, fun available => ?_, fun sent => ?_⟩
  · rw [frame_eq, zero, recvMessage, recvExact_append available payload (toMemory32_length _)]
    simp only [fromMemory32_toMemory32, swapEndian32_swapEndian32]
    exact @recvExact_append available 0 [] payload rfl
  · have whole := (sent payload built).whole payload.length List.mem_cons_self
    rw [zero, size] at whole
    exact absurd whole (by decide)

end RemoteMonitoring
