/-
Module: RemoteMonitoring.Proofs.WireFormat
Purpose: The binary format of lists: what is written is read back, what is read is what was
  written, and exactly which truncations of a list are noticed.
Trusted boundary: none
Main exports: DecodesBack, Reencodes, wire_format_bijective, CutNoticed, truncated_rejected_iff
-/
import RemoteMonitoring.Common.Canonical
import RemoteMonitoring.Lib.PrefixCode
import RemoteMonitoring.Proofs.Messages

namespace RemoteMonitoring

open ByteText

/-! ### Records -/

namespace LogEntry

theorem serialize_canonical : Canonical serialize deserialize := by
  intro content entry after reads
  rw [deserialize] at reads
  obtain ⟨id, _, readId, reads⟩ := Decoder.bind_eq_ok.mp reads
  obtain ⟨_, _, ⟨⟩, rfl, rfl⟩ := readUint64_canonical readId
  obtain ⟨name, _, readName, reads⟩ := Decoder.bind_eq_ok.mp reads
  obtain ⟨_, _, named, rfl, rfl⟩ := readString_canonical readName
  obtain ⟨timestampMs, _, readTimestamp, reads⟩ := Decoder.bind_eq_ok.mp reads
  obtain ⟨_, _, ⟨⟩, rfl, rfl⟩ := readUint64_canonical readTimestamp
  obtain ⟨logType, _, readType, reads⟩ := Decoder.bind_eq_ok.mp reads
  obtain ⟨_, _, ⟨⟩, rfl, rfl⟩ := readUint32_canonical readType
  obtain ⟨value, _, readValue, reads⟩ := Decoder.bind_eq_ok.mp reads
  obtain ⟨_, rest, ⟨⟩, rfl, rfl⟩ := readUint64_canonical readValue
  cases reads
  exact ⟨_, rest, serialize_eq_ok.mpr ⟨_, named, rfl⟩, by simp, rfl⟩

theorem deserialize_strict : Strict deserialize := readUint64_strict.bind _

end LogEntry

namespace ConfigEntry

theorem serialize_canonical : Canonical serialize deserialize := by
  intro content entry after reads
  rw [deserialize] at reads
  obtain ⟨name, _, readName, reads⟩ := Decoder.bind_eq_ok.mp reads
  obtain ⟨_, _, named, rfl, rfl⟩ := readString_canonical readName
  obtain ⟨cpuUsage, _, readCpu, reads⟩ := Decoder.bind_eq_ok.mp reads
  obtain ⟨_, _, ⟨⟩, rfl, rfl⟩ := readUint32_canonical readCpu
  obtain ⟨memUsage, _, readMem, reads⟩ := Decoder.bind_eq_ok.mp reads
  obtain ⟨_, _, ⟨⟩, rfl, rfl⟩ := readUint64_canonical readMem
  obtain ⟨diskUsage, _, readDisk, reads⟩ := Decoder.bind_eq_ok.mp reads
  obtain ⟨_, _, ⟨⟩, rfl, rfl⟩ := readUint64_canonical readDisk
  obtain ⟨networkUsage, _, readNetwork, reads⟩ := Decoder.bind_eq_ok.mp reads
  obtain ⟨_, rest, ⟨⟩, rfl, rfl⟩ := readUint64_canonical readNetwork
  cases reads
  exact ⟨_, rest, serialize_eq_ok.mpr ⟨_, named, rfl⟩, by simp, rfl⟩

theorem deserialize_strict : Strict deserialize := readString_strict.bind _

end ConfigEntry

theorem readString_roundTrips : RoundTrips writeString readString :=
  fun written rest => readString_writeString written rest

/-! ### Lists -/

section Lists

variable {α : Type} {serialize : α → Except RuntimeError Bytes} {deserialize : Decoder α}

/-- A value is written, and read back from the front of any stream that goes on after
it, whatever the uninitialised count held. -/
def DecodesBack (write : α → Except RuntimeError Bytes) (read : UInt32 → Decoder α)
    (value : α) : Prop :=
  ∃ out, write value = .ok out ∧
    ∀ netCount rest, read netCount (.ofBytes (out ++ rest)) = .ok (value, .ofBytes rest)

/-- What a reader took off the front of a stream, the count field at least, is what the
writer makes of the value that it returned. -/
def Reencodes (write : α → Except RuntimeError Bytes) (read : UInt32 → Decoder α) : Prop :=
  ∀ {netCount content value after front},
    read netCount (.ofBytes content) = .ok (value, after) →
      content = front ++ after.rest → 4 ≤ front.length → write value = .ok front

/-- A list is written if each item is. -/
theorem mapM_isOk {vec : List α} (each : ∀ item ∈ vec, ∃ out, serialize item = .ok out) :
    ∃ outs, vec.mapM serialize = .ok outs := by
  induction vec with
  | nil => exact ⟨[], rfl⟩
  | cons item vec ih =>
      obtain ⟨out, first⟩ := each item (by simp)
      obtain ⟨outs, others⟩ := ih fun other member => each other (by simp [member])
      exact ⟨out :: outs, by simp [first, others, bind, Except.bind, pure, Except.pure]⟩

/-- A vector is read back whose count fits its field. -/
theorem decodesBack_vector (inverse : RoundTrips serialize deserialize) {vec : List α}
    (fits : vec.length < 2 ^ 32) (each : ∀ item ∈ vec, ∃ out, serialize item = .ok out) :
    DecodesBack (writeVectorSerializeable serialize) (readVectorSerializeable deserialize)
      vec := by
  obtain ⟨outs, items⟩ := mapM_isOk each
  have written := writeVectorSerializeable_eq_ok.mpr ⟨outs, items, rfl⟩
  exact ⟨_, written, fun netCount rest =>
    readVectorSerializeable_write inverse fits written netCount rest⟩

/-- A list that was read from a stream with a whole count field was written there. -/
theorem readVectorSerializeable_eq_ok (canonical : Canonical serialize deserialize)
    {netCount : UInt32} {content : Bytes} {vec : List α} {after : IStream}
    (reads : readVectorSerializeable deserialize netCount (.ofBytes content) = .ok (vec, after))
    (enough : 4 ≤ content.length) :
    ∃ out rest, vec.length < 2 ^ 32 ∧ writeVectorSerializeable serialize vec = .ok out ∧
      content = out ++ rest ∧ after = .ofBytes rest := by
  rw [readVectorSerializeable_ofBytes, if_pos enough, countField_eq enough] at reads
  obtain ⟨outs, rest, length, items, behind, same⟩ := readItems_canonical canonical reads
  have width : (content.take 4).length = 4 := by simpa using enough
  have header : writeUint32 (UInt32.ofNat vec.length) = content.take 4 := by
    simp [length, writeUint32, lengthField, toMemory32_fromMemory32 width]
  refine ⟨_, rest, length ▸ UInt32.toNat_lt _,
    writeVectorSerializeable_eq_ok.mpr ⟨outs, items, rfl⟩, ?_, same⟩
  rw [header, List.append_assoc, ← behind, List.take_append_drop]

/-- A vector that is read is written as the same bytes. -/
theorem reencodes_vector (canonical : Canonical serialize deserialize) :
    Reencodes (writeVectorSerializeable serialize) (readVectorSerializeable deserialize) := by
  intro netCount content vec after front reads split consumed
  have enough : 4 ≤ content.length := by
    rw [split, List.length_append]
    omega
  obtain ⟨out, rest, _, written, whole, rfl⟩ :=
    readVectorSerializeable_eq_ok canonical reads enough
  rw [written, List.append_cancel_right (whole.symm.trans split)]

end Lists

/-! ### The log payload -/

/-- The server's dispatcher takes `payload` for a log message and hands the batch
`logEntries` to `handle_recv_log`, leaving `rest` in the stream. -/
def DispatchedAsLog (payload : Bytes) (logEntries : List LogEntry) (rest : Bytes) : Prop :=
  ∃ is, readString (.ofBytes payload) = .ok (ascii "log", is) ∧
    (∀ netCount, readVectorSerializeable LogEntry.deserialize netCount is =
      .ok (logEntries, .ofBytes rest)) ∧
    ∀ info junk netCount disk,
      ClientHandler.onNetworkRecv info junk netCount
          ⟨info.clientIp, info.clientPort, payload⟩ disk =
        handleRecvLog info junk netCount is disk

/-- The word "log" leads to the handler of the batch. -/
theorem onNetworkRecv_log {payload : Bytes} {is : IStream}
    (reads : readString (.ofBytes payload) = .ok (ascii "log", is)) (info : ClientInfo)
    (junk : Indeterminate) (netCount : UInt32) (disk : Disk) :
    ClientHandler.onNetworkRecv info junk netCount ⟨info.clientIp, info.clientPort, payload⟩ disk =
      handleRecvLog info junk netCount is disk := by
  simp [ClientHandler.onNetworkRecv, reads, bind, Except.bind]

/-- So the payload of a batch is dispatched as this batch. -/
theorem dispatchedAsLog_logPayload {logEntries : List LogEntry} {payload : Bytes}
    (fits : logEntries.length < 2 ^ 32) (built : logPayload logEntries = .ok payload)
    (rest : Bytes) : DispatchedAsLog (payload ++ rest) logEntries rest := by
  obtain ⟨tag, batch, tagged, written, rfl⟩ := logPayload_eq_ok built
  have reads := readString_writeString tagged (batch ++ rest)
  rw [← List.append_assoc] at reads
  refine ⟨_, reads, fun netCount => ?_, onNetworkRecv_log reads⟩
  exact readVectorSerializeable_write LogEntry.serialize_roundTrips fits written netCount rest

/-- What the dispatcher takes for a batch is the payload of that batch. -/
theorem logPayload_of_dispatched {content : Bytes} {is after : IStream} {netCount : UInt32}
    {logEntries : List LogEntry}
    (tagged : readString (.ofBytes content) = .ok (ascii "log", is))
    (reads : readVectorSerializeable LogEntry.deserialize netCount is = .ok (logEntries, after))
    (enough : 4 ≤ is.rest.length) :
    ∃ front, logPayload logEntries = .ok front ∧ content = front ++ after.rest := by
  obtain ⟨tag, behind, tagWritten, rfl, rfl⟩ := readString_canonical tagged
  obtain ⟨batch, rest, _, written, rfl, rfl⟩ :=
    readVectorSerializeable_eq_ok LogEntry.serialize_canonical reads enough
  exact ⟨tag ++ batch, by simp [logPayload, tagWritten, written, bind, Except.bind, pure,
    Except.pure], by simp⟩

/-! ### Both directions -/

/-- Entries with names that fit are read back. -/
theorem decodesBack_logEntries {logEntries : List LogEntry} (fits : logEntries.length < 2 ^ 32)
    (short : ∀ entry ∈ logEntries, entry.processName.length < 2 ^ 32) :
    DecodesBack (writeVectorSerializeable LogEntry.serialize)
      (readVectorSerializeable LogEntry.deserialize) logEntries :=
  decodesBack_vector LogEntry.serialize_roundTrips fits fun entry member =>
    LogEntry.serialize_isOk (short entry member)

theorem decodesBack_strings {strings : List Bytes} (fits : strings.length < 2 ^ 32)
    (short : ∀ str ∈ strings, str.length < 2 ^ 32) :
    DecodesBack writeVectorString readVectorString strings :=
  decodesBack_vector readString_roundTrips fits fun str member =>
    ⟨_, writeString_eq_ok.mpr ⟨short str member, rfl⟩⟩

/-- And so is a configuration. -/
theorem decodesBack_config {config : Config} (fits : config.configEntries.length < 2 ^ 32)
    (short : ∀ entry ∈ config.configEntries, entry.processName.length < 2 ^ 32) :
    DecodesBack Config.serialize Config.deserialize config := by
  obtain ⟨out, written, reads⟩ := decodesBack_vector ConfigEntry.serialize_roundTrips fits
    fun entry member => ConfigEntry.serialize_isOk (short entry member)
  refine ⟨out, written, fun netCount rest => ?_⟩
  rw [Config.deserialize, Decoder.bind_ok (reads netCount rest), Decoder.pure_apply]

theorem reencodes_config : Reencodes Config.serialize Config.deserialize := by
  intro netCount content config after front reads split consumed
  obtain ⟨configEntries, _, entriesRead, reads⟩ := Decoder.bind_eq_ok.mp reads
  cases reads
  exact reencodes_vector ConfigEntry.serialize_canonical entriesRead split consumed

/-- The wire format is a bijection onto its image: whatever a list contains and
whatever follows it, it is read back, and a reader accepts nothing but what the writer
makes of the value it returns. -/
theorem wire_format_bijective :
    (∀ logEntries : List LogEntry, logEntries.length < 2 ^ 32 →
        (∀ entry ∈ logEntries, entry.processName.length < 2 ^ 32) →
        DecodesBack (writeVectorSerializeable LogEntry.serialize)
            (readVectorSerializeable LogEntry.deserialize) logEntries ∧
          ∃ payload, logPayload logEntries = .ok payload ∧
            ∀ rest, DispatchedAsLog (payload ++ rest) logEntries rest) ∧
      (∀ config : Config, config.configEntries.length < 2 ^ 32 →
        (∀ entry ∈ config.configEntries, entry.processName.length < 2 ^ 32) →
        DecodesBack Config.serialize Config.deserialize config) ∧
      (∀ strings : List Bytes, strings.length < 2 ^ 32 →
        (∀ str ∈ strings, str.length < 2 ^ 32) →
        DecodesBack writeVectorString readVectorString strings) ∧
      Reencodes (writeVectorSerializeable LogEntry.serialize)
        (readVectorSerializeable LogEntry.deserialize) ∧
      Reencodes Config.serialize Config.deserialize ∧
      Reencodes writeVectorString readVectorString ∧
      (∀ content is after netCount logEntries,
        readString (.ofBytes content) = .ok (ascii "log", is) →
        readVectorSerializeable LogEntry.deserialize netCount is = .ok (logEntries, after) →
        4 ≤ is.rest.length →
        ∃ front, logPayload logEntries = .ok front ∧ content = front ++ after.rest) := by
  refine ⟨fun logEntries fits short => ⟨decodesBack_logEntries fits short, ?_⟩,
    fun config fits short => decodesBack_config fits short,
    fun strings fits short => decodesBack_strings fits short,
    reencodes_vector LogEntry.serialize_canonical, reencodes_config,
    reencodes_vector readString_canonical, fun _ _ _ _ _ => logPayload_of_dispatched⟩
  obtain ⟨payload, built⟩ := logPayload_isOk short
  exact ⟨payload, built, dispatchedAsLog_logPayload fits built⟩

/-- A batch with an empty name and one with every kind of separator in it. -/
theorem wire_format_bijective_sample :
    let logEntries : List LogEntry :=
      [⟨1, [], 1700000000000, LogType.cpu, 9⟩,
        ⟨2, [0, 10, 13, 124, 255], 0, 4294967295, 18446744073709551615⟩]
    DecodesBack (writeVectorSerializeable LogEntry.serialize)
        (readVectorSerializeable LogEntry.deserialize) logEntries ∧
      ∃ payload, logPayload logEntries = .ok payload ∧
        ∀ rest, DispatchedAsLog (payload ++ rest) logEntries rest :=
  wire_format_bijective.1 _ (by decide) (by decide)

/-! ### Truncated lists -/

section Cuts

variable {α : Type} {serialize : α → Except RuntimeError Bytes} {deserialize : Decoder α}

/-- The reader throws, whatever the uninitialised count holds. -/
def Rejects (read : UInt32 → Decoder α) (content : Bytes) : Prop :=
  ∀ netCount, ∃ e, read netCount (.ofBytes content) = .error e

/-- There is a whole count field or a byte of it that is not 0, and some element that the
count field announces is missing.  The field announces the length modulo 2^32. -/
def CutNoticed (write : List α → Except RuntimeError Bytes) (vec : List α) (cut : Bytes) : Prop :=
  (4 ≤ cut.length ∨ ∃ byte ∈ cut, byte ≠ 0) ∧
    ∀ announced, write (vec.take (vec.length % 2 ^ 32)) = .ok announced →
      cut.length < announced.length

/-- The first items are written as the first parts. -/
theorem mapM_take {vec : List α} {outs : List Bytes} (items : vec.mapM serialize = .ok outs)
    (count : Nat) : (vec.take count).mapM serialize = .ok (outs.take count) := by
  induction vec generalizing outs count with
  | nil =>
      cases items
      simp [pure, Except.pure]
  | cons item vec ih =>
      obtain ⟨out, tail, rfl, first, others⟩ := mapM_cons_eq_ok items
      cases count with
      | zero => rfl
      | succ count => simp [first, ih others count, bind, Except.bind, pure, Except.pure]

/-- The elements that the count field announces stand at the front of the list's code. -/
theorem announced_prefix {vec : List α} {out : Bytes}
    (written : writeVectorSerializeable serialize vec = .ok out) :
    ∃ announced, announced <+: out ∧ 4 ≤ announced.length ∧
      writeVectorSerializeable serialize (vec.take (vec.length % 2 ^ 32)) = .ok announced := by
  obtain ⟨outs, items, rfl⟩ := writeVectorSerializeable_eq_ok.mp written
  have count : (vec.take (vec.length % 2 ^ 32)).length = vec.length % 2 ^ 32 :=
    List.length_take_of_le (Nat.mod_le _ _)
  have header : UInt32.ofNat (vec.length % 2 ^ 32) = UInt32.ofNat vec.length := by
    apply UInt32.toNat_inj.mp
    simp
  refine ⟨writeUint32 (UInt32.ofNat vec.length) ++ (outs.take (vec.length % 2 ^ 32)).flatten,
    ?_, by simp, ?_⟩
  · refine (List.prefix_append_right_inj _).mpr ⟨(outs.drop (vec.length % 2 ^ 32)).flatten, ?_⟩
    rw [← List.flatten_append, List.take_append_drop]
  · exact writeVectorSerializeable_eq_ok.mpr ⟨_, mapM_take items _, by rw [count, header]⟩

/-- The vector reader takes exactly the codes of lists whose length fits the count field. -/
theorem vector_exact (inverse : RoundTrips serialize deserialize)
    (canonical : Canonical serialize deserialize) (netCount : UInt32) :
    PrefixCode.Exact
      (fun vec out => vec.length < 2 ^ 32 ∧ writeVectorSerializeable serialize vec = .ok out)
      (fun content vec rest => 4 ≤ content.length ∧
        readVectorSerializeable deserialize netCount (.ofBytes content) =
          .ok (vec, .ofBytes rest)) := by
  intro content vec rest
  constructor
  · rintro ⟨enough, reads⟩
    obtain ⟨out, behind, fits, written, whole, same⟩ :=
      readVectorSerializeable_eq_ok canonical reads enough
    have rests : rest = behind := congrArg IStream.rest same
    exact ⟨out, ⟨fits, written⟩, rests ▸ whole⟩
  · rintro ⟨out, ⟨fits, written⟩, rfl⟩
    obtain ⟨outs, _, rfl⟩ := writeVectorSerializeable_eq_ok.mp written
    exact ⟨by simp, readVectorSerializeable_write inverse fits written netCount rest⟩

/-- No vector is written as the beginning of another one. -/
theorem vector_prefixFree (inverse : RoundTrips serialize deserialize)
    (canonical : Canonical serialize deserialize) :
    PrefixCode.PrefixFree fun vec out =>
      vec.length < 2 ^ 32 ∧ writeVectorSerializeable serialize vec = .ok out := by
  apply (vector_exact inverse canonical 0).prefixFree
  rintro content one two behindOne behindTwo ⟨_, readsOne⟩ ⟨_, readsTwo⟩
  rw [readsOne] at readsTwo
  cases readsTwo
  exact ⟨rfl, rfl⟩

/-- Less than the announced elements is never taken for a list. -/
theorem rejects_of_short (inverse : RoundTrips serialize deserialize)
    (canonical : Canonical serialize deserialize) {vec : List α} {out cut : Bytes}
    (fits : vec.length < 2 ^ 32) (written : writeVectorSerializeable serialize vec = .ok out)
    (front : cut <+: out) (short : cut.length < out.length) (enough : 4 ≤ cut.length) :
    Rejects (readVectorSerializeable deserialize) cut := by
  intro netCount
  cases reads : readVectorSerializeable deserialize netCount (.ofBytes cut) with
  | error e => exact ⟨e, rfl⟩
  | ok outcome =>
      obtain ⟨other, after⟩ := outcome
      obtain ⟨_, rest, _, _, _, rfl⟩ := readVectorSerializeable_eq_ok canonical reads enough
      exact absurd ⟨enough, reads⟩ ((vector_exact inverse canonical netCount).refuses_cut
        (vector_prefixFree inverse canonical) ⟨fits, written⟩ front short other rest)

/-- With a part of the count field only, the uninitialised variable decides, unless a
byte that is there says that the list is not empty. -/
theorem rejects_iff_of_partial_count (strict : Strict deserialize) {cut : Bytes}
    (short : cut.length < 4) :
    Rejects (readVectorSerializeable deserialize) cut ↔ ∃ byte ∈ cut, byte ≠ 0 := by
  have whole : cut.take 4 = cut := List.take_of_length_le (by omega)
  constructor
  · intro rejects
    by_contra zeros
    obtain ⟨e, throws⟩ := rejects 0
    have count : countField 0 cut = 0 := by
      refine countField_eq_zero.mpr ⟨?_, fun byte member => ?_⟩
      · simpa [whole] using zeros
      · exact WordBytes.littleValue_eq_zero.mp (by decide) byte (List.mem_of_mem_drop member)
    rw [readVectorSerializeable_ofBytes, count] at throws
    cases throws
  · rintro ⟨byte, member, visible⟩ netCount
    obtain ⟨count, more⟩ : ∃ count, countField netCount cut = count + 1 := by
      refine Nat.exists_eq_succ_of_ne_zero fun zero => visible ?_
      exact (countField_eq_zero.mp zero).1 byte (by rwa [whole])
    rw [readVectorSerializeable_ofBytes, if_neg (by omega), more]
    exact strict.bind _ _ rfl

/-- Exactly which truncations of a list the reader rejects. -/
theorem rejects_cut_iff (inverse : RoundTrips serialize deserialize)
    (canonical : Canonical serialize deserialize) (strict : Strict deserialize) {vec : List α}
    {out cut : Bytes} (written : writeVectorSerializeable serialize vec = .ok out)
    (front : cut <+: out) :
    Rejects (readVectorSerializeable deserialize) cut ↔
      CutNoticed (writeVectorSerializeable serialize) vec cut := by
  obtain ⟨announced, begins, header, announces⟩ := announced_prefix written
  have fits : (vec.take (vec.length % 2 ^ 32)).length < 2 ^ 32 :=
    Nat.lt_of_le_of_lt (List.length_take_le _ _) (Nat.mod_lt _ (by decide))
  have missing : (∀ announced, writeVectorSerializeable serialize
      (vec.take (vec.length % 2 ^ 32)) = .ok announced → cut.length < announced.length) ↔
      cut.length < announced.length := by simp only [announces, Except.ok.injEq, forall_eq']
  rw [CutNoticed, missing]
  rcases Nat.lt_or_ge cut.length 4 with short | enough
  · rw [rejects_iff_of_partial_count strict short]
    have below : cut.length < announced.length := Nat.lt_of_lt_of_le short header
    simp [Nat.not_le.mpr short, below]
  · simp only [enough, true_or, true_and]
    rcases Nat.lt_or_ge cut.length announced.length with less | covers
    · have inside : cut <+: announced := List.prefix_of_prefix_length_le front begins less.le
      simp [less, rejects_of_short inverse canonical fits announces inside less enough]
    · obtain ⟨rest, rfl⟩ := List.prefix_of_prefix_length_le begins front covers
      have reads := readVectorSerializeable_write inverse fits announces 0 rest
      refine iff_of_false (fun rejects => ?_) (Nat.not_lt.mpr covers)
      obtain ⟨e, throws⟩ := rejects 0
      rw [reads] at throws
      cases throws

end Cuts

/-- A list that was cut short is rejected exactly when the count field is there, or a byte
of it that is not 0, and an element that it announces is missing. -/
theorem truncated_rejected_iff (cut : Bytes) :
    (∀ (logEntries : List LogEntry) (out : Bytes),
        writeVectorSerializeable LogEntry.serialize logEntries = .ok out → cut <+: out → cut ≠ out →
        (Rejects (readVectorSerializeable LogEntry.deserialize) cut ↔
          CutNoticed (writeVectorSerializeable LogEntry.serialize) logEntries cut)) ∧
      (∀ (configEntries : List ConfigEntry) (out : Bytes),
        writeVectorSerializeable ConfigEntry.serialize configEntries = .ok out → cut <+: out →
        cut ≠ out →
        (Rejects (readVectorSerializeable ConfigEntry.deserialize) cut ↔
          CutNoticed (writeVectorSerializeable ConfigEntry.serialize) configEntries cut)) ∧
      ∀ (strings : List Bytes) (out : Bytes),
        writeVectorString strings = .ok out → cut <+: out → cut ≠ out →
        (Rejects readVectorString cut ↔ CutNoticed writeVectorString strings cut) :=
  ⟨fun _ _ written front _ => rejects_cut_iff LogEntry.serialize_roundTrips
      LogEntry.serialize_canonical LogEntry.deserialize_strict written front,
    fun _ _ written front _ => rejects_cut_iff ConfigEntry.serialize_roundTrips
      ConfigEntry.serialize_canonical ConfigEntry.deserialize_strict written front,
    fun _ _ written front _ => rejects_cut_iff readString_roundTrips readString_canonical
      readString_strict written front⟩

/-- One entry of which the value is missing. -/
theorem truncated_rejected_iff_sample :
    let logEntries : List LogEntry := [⟨1, ascii "a", 5, LogType.cpu, 9⟩]
    let out := writeUint32 1 ++ (writeUint64 1 ++ (writeUint32 1 ++ ascii "a" ++
      (writeUint64 5 ++ (writeUint32 1 ++ writeUint64 9))))
    Rejects (readVectorSerializeable LogEntry.deserialize) (out.take 29) ↔
      CutNoticed (writeVectorSerializeable LogEntry.serialize) logEntries (out.take 29) :=
  (truncated_rejected_iff _).1 _ _ (by decide +kernel) (List.take_prefix _ _) (by decide +kernel)

/-- Cut inside the count field, a list of one entry is taken for the empty list when the
uninitialised count happens to be 0. -/
theorem empty_prefix_accepted :
    let logEntries : List LogEntry := [⟨1, ascii "a", 5, LogType.cpu, 9⟩]
    ∃ out, writeVectorSerializeable LogEntry.serialize logEntries = .ok out ∧
      out.take 3 <+: out ∧ out.take 3 ≠ out ∧
      readVectorSerializeable LogEntry.deserialize 0 (.ofBytes (out.take 3)) =
        .ok ([], ⟨[], true, true⟩) ∧
      ¬ Rejects (readVectorSerializeable LogEntry.deserialize) (out.take 3) := by
  refine ⟨_, rfl, List.take_prefix _ _, by decide +kernel, by rfl, fun rejects => ?_⟩
  obtain ⟨e, throws⟩ := rejects 0
  cases throws

end RemoteMonitoring
