/-
Module: RemoteMonitoring.Proofs.Registry
Purpose: The configuration in the registry: what is written is read back, over whatever was there
  before, and what any other program left there is read exactly when it is complete.
Trusted boundary: none
Main exports: ConfigEntry.Shown, Config.Complete, Config.complete_writeRegistry,
  Config.keys_writeRegistry, registry_read, registry_roundTrip
-/
import RemoteMonitoring.Common.Registry

namespace RemoteMonitoring

open ByteText
open WordBytes (littleEndian littleValue littleValue_littleEndian littleEndian_length)
open KeyTree (Within)

/-! ### Values -/

/-- A byte that is made wide is narrowed back. -/
theorem toUInt8_toWChar (char : UInt8) : (toWChar char).toUInt8 = char := by
  apply UInt8.toNat_inj.mp
  have small := char.toNat_lt
  unfold toWChar
  split
  · simp
  · simp only [UInt16.toNat_toUInt8, UInt16.toNat_add, UInt8.toNat_toUInt16, UInt16.reduceToNat]
    omega

/-- The loss of data undoes the extension. -/
@[simp] theorem toString_toWstring (str : Bytes) : (toWstring str).toString = str := by
  unfold WString.toString toWstring
  rw [List.map_map]
  exact (List.map_congr_left fun char _ => toUInt8_toWChar char).trans (List.map_id str)

namespace RegValue

def IsDword (value : RegValue) (number : UInt32) : Prop :=
  value.type = regDword ∧ value.data = littleEndian 4 number.toNat

def IsQword (value : RegValue) (number : UInt64) : Prop :=
  value.type = regQword ∧ value.data = littleEndian 8 number.toNat

/-- The data of these characters, with or without a terminator, and possibly half of another
character; of each character the low byte is one of the text. -/
structure IsString (value : RegValue) (text : Bytes) : Prop where
  type : value.type = regSz ∨ value.type = regExpandSz
  data : ∃ (wstr : WString) (terminator : WString) (half : Bytes),
    value.data = ((wstr ++ terminator).flatMap fun (char : UInt16) => littleEndian 2 char.toNat) ++
      half ∧ half.length < 2 ∧
      (terminator = [0] ∨ terminator = [] ∧ wstr.getLast? ≠ some 0) ∧
      wstr.map UInt16.toUInt8 = text

end RegValue

namespace RegKey

/-- Half a character at the end is left out. -/
theorem characters_flatMap (text : WString) {half : Bytes} (short : half.length < 2) :
    characters ((text.flatMap fun (char : UInt16) => littleEndian 2 char.toNat) ++ half) =
      text := by
  induction text with
  | nil =>
      match half with
      | [] => rfl
      | [_] => rfl
  | cons char later ih =>
      have value := littleValue_littleEndian 2 char.toNat
      have small := char.toNat_lt
      have whole : littleEndian 2 char.toNat =
        [UInt8.ofNat char.toNat, UInt8.ofNat (char.toNat / 256)] := rfl
      rw [whole] at value
      rw [List.flatMap_cons, whole, List.append_assoc, List.cons_append, List.cons_append,
        List.nil_append, characters, ih, value, Nat.mod_eq_of_lt (by omega), UInt16.ofNat_toNat]

/-- Data are characters of two bytes each, and perhaps half of one. -/
theorem flatMap_characters (data : Bytes) :
    ∃ half : Bytes, half.length < 2 ∧
      data = ((characters data).flatMap fun (char : UInt16) => littleEndian 2 char.toNat) ++
        half := by
  match data with
  | [] => exact ⟨[], by simp, rfl⟩
  | [byte] => exact ⟨[byte], by simp, rfl⟩
  | low :: high :: rest =>
      obtain ⟨half, short, same⟩ := flatMap_characters rest
      have small := WordBytes.littleValue_lt [low, high]
      rw [show [low, high].length = 2 from rfl] at small
      have number : (UInt16.ofNat (littleValue [low, high])).toNat = littleValue [low, high] := by
        rw [UInt16.toNat_ofNat', Nat.mod_eq_of_lt (by omega)]
      have back : littleEndian 2 (littleValue [low, high]) = [low, high] :=
        WordBytes.littleEndian_littleValue [low, high]
      refine ⟨half, short, ?_⟩
      rw [characters, List.flatMap_cons, number, back, List.append_assoc, ← same]
      rfl

/-- A string whose size in bytes fits the size argument is stored with its terminator. -/
theorem stringData_eq {value : WString} (short : value.length < 2 ^ 31 - 1) :
    stringData value =
      (value ++ [0]).flatMap fun (char : UInt16) => littleEndian 2 char.toNat := by
  have length : ((value ++ [0]).flatMap fun (char : UInt16) => littleEndian 2 char.toNat).length =
      (value.length + 1) * 2 := by
    simp only [List.length_flatMap, littleEndian_length, List.map_const', List.sum_replicate,
      List.length_append, List.length_singleton]
    rfl
  have size : (UInt32.ofNat ((value.length + 1) * 2)).toNat = (value.length + 1) * 2 := by
    rw [UInt32.toNat_ofNat', Nat.mod_eq_of_lt]
    omega
  simp only [stringData, size]
  rw [← length, List.take_length]

theorem dropTerminator_concat (value : WString) : dropTerminator (value ++ [0]) = value := by
  unfold dropTerminator
  rw [List.getLast?_concat, if_pos rfl, List.dropLast_concat]

/-- What is left of the characters of some data, and the terminator that is dropped. -/
theorem dropTerminator_iff {data wstr : WString} :
    dropTerminator data = wstr ↔
      ∃ terminator, data = wstr ++ terminator ∧
        (terminator = [0] ∨ terminator = [] ∧ wstr.getLast? ≠ some 0) := by
  unfold dropTerminator
  constructor
  · rintro rfl
    split
    · rename_i ends
      exact ⟨[0], (List.dropLast_append_getLast? 0 ends).symm, Or.inl rfl⟩
    · rename_i other
      exact ⟨[], (List.append_nil data).symm, Or.inr ⟨rfl, other⟩⟩
  · rintro ⟨terminator, rfl, rfl | ⟨rfl, other⟩⟩
    · exact dropTerminator_concat wstr
    · rw [List.append_nil, if_neg other]

section Get

variable {path name : WString} {registry : Registry}

/-- A text is read exactly if there is a value that is this text. -/
theorem getWstring_iff {text : Bytes} :
    (∃ wstr, getWstring (some path) name registry = some wstr ∧ wstr.toString = text) ↔
      ∃ value, registry.tree.query path name = some value ∧ value.IsString text := by
  unfold getWstring
  cases there : queryRaw (some path) name registry with
  | none =>
      have nothing : registry.tree.query path name = none := there
      simp [nothing]
  | some value =>
      have same : registry.tree.query path name = some value := there
      simp only [same, Option.some.injEq, exists_eq_left']
      by_cases other : value.type ≠ regSz ∧ value.type ≠ regExpandSz
      · simp only [other, ne_eq, not_false_eq_true, and_self, if_true, reduceCtorEq, false_and,
          exists_false, false_iff]
        intro string
        exact string.type.elim other.1 other.2
      · have type : value.type = regSz ∨ value.type = regExpandSz := by tauto
        simp only [other, if_false, Option.some.injEq, exists_eq_left']
        constructor
        · rintro rfl
          obtain ⟨half, short, data⟩ := flatMap_characters value.data
          obtain ⟨terminator, whole, ends⟩ :=
            dropTerminator_iff.mp (rfl : dropTerminator (characters value.data) = _)
          exact ⟨type, _, terminator, half, by rw [← whole]; exact data, short, ends, rfl⟩
        · rintro ⟨_, wstr, terminator, half, data, short, ends, rfl⟩
          have chars : characters value.data = wstr ++ terminator := by
            rw [data, characters_flatMap _ short]
          rw [dropTerminator_iff.mpr ⟨terminator, chars, ends⟩]
          rfl

/-- A number is read exactly if there is a value of its type and size that is this number. -/
theorem getDword_iff {number : UInt32} :
    getDword (some path) name registry = some number ↔
      ∃ value, registry.tree.query path name = some value ∧ value.IsDword number := by
  unfold getDword RegValue.IsDword
  cases there : queryRaw (some path) name registry with
  | none =>
      have nothing : registry.tree.query path name = none := there
      simp [nothing]
  | some value =>
      have same : registry.tree.query path name = some value := there
      have decoded (length : value.data.length = 4) :
          UInt32.ofNat (littleValue value.data) = number ↔
            littleValue value.data = number.toNat := by
        have small : littleValue value.data < 2 ^ 32 := by
          have bound := WordBytes.littleValue_lt value.data
          rwa [length] at bound
        rw [← UInt32.toNat_inj, UInt32.toNat_ofNat', Nat.mod_eq_of_lt small]
      have bound : number.toNat < 256 ^ 4 := number.toNat_lt
      simp only [same, Option.some.injEq, exists_eq_left', WordBytes.eq_littleEndian_iff bound]
      by_cases fits : value.type = regDword ∧ value.data.length = 4
      · simp [fits, decoded fits.2]
      · rw [if_pos (by tauto)]
        constructor
        · intro impossible
          cases impossible
        · exact fun whole => absurd ⟨whole.1, whole.2.1⟩ fits

/-- The same with 64 bits. -/
theorem getQword_iff {number : UInt64} :
    getQword (some path) name registry = some number ↔
      ∃ value, registry.tree.query path name = some value ∧ value.IsQword number := by
  unfold getQword RegValue.IsQword
  cases there : queryRaw (some path) name registry with
  | none =>
      have nothing : registry.tree.query path name = none := there
      simp [nothing]
  | some value =>
      have same : registry.tree.query path name = some value := there
      have decoded (length : value.data.length = 8) :
          UInt64.ofNat (littleValue value.data) = number ↔
            littleValue value.data = number.toNat := by
        have small : littleValue value.data < 2 ^ 64 := by
          have bound := WordBytes.littleValue_lt value.data
          rwa [length] at bound
        rw [← UInt64.toNat_inj, UInt64.toNat_ofNat', Nat.mod_eq_of_lt small]
      have bound : number.toNat < 256 ^ 8 := number.toNat_lt
      simp only [same, Option.some.injEq, exists_eq_left', WordBytes.eq_littleEndian_iff bound]
      by_cases fits : value.type = regQword ∧ value.data.length = 8
      · simp [fits, decoded fits.2]
      · rw [if_pos (by tauto)]
        constructor
        · intro impossible
          cases impossible
        · exact fun whole => absurd ⟨whole.1, whole.2.1⟩ fits

end Get

/-- The values of a key are all that is read of it. -/
theorem queryRaw_congr {path : WString} {one two : Registry}
    (same : ∀ name, two.tree.query path name = one.tree.query path name) (name : WString) :
    queryRaw (some path) name two = queryRaw (some path) name one := same name

end RegKey

/-! ### One entry -/

/-- The key holds the five values of an entry. -/
structure ConfigEntry.Shown (registry : Registry) (path : WString) (entry : ConfigEntry) :
    Prop where
  processName : ∃ value, registry.tree.query path (wide "process_name") = some value ∧
    value.IsString entry.processName
  cpuUsage : ∃ value, registry.tree.query path (wide "cpu_usage") = some value ∧
    value.IsDword entry.cpuUsage
  memUsage : ∃ value, registry.tree.query path (wide "mem_usage") = some value ∧
    value.IsQword entry.memUsage
  diskUsage : ∃ value, registry.tree.query path (wide "disk_usage") = some value ∧
    value.IsQword entry.diskUsage
  networkUsage : ∃ value, registry.tree.query path (wide "network_usage") = some value ∧
    value.IsQword entry.networkUsage

namespace ConfigEntry

/-- An entry is shown by the values of its key alone. -/
theorem Shown.of_query {one two : Registry} {path : WString} {entry : ConfigEntry}
    (shown : entry.Shown one path)
    (same : ∀ name, two.tree.query path name = one.tree.query path name) :
    entry.Shown two path := by
  obtain ⟨processName, cpuUsage, memUsage, diskUsage, networkUsage⟩ := shown
  simp only [← same] at processName cpuUsage memUsage diskUsage networkUsage
  exact ⟨processName, cpuUsage, memUsage, diskUsage, networkUsage⟩

/-- Reading such a key gives the entry, whatever was there before. -/
theorem deserializeRegistry_of_shown {registry : Registry} {path : WString} {entry : ConfigEntry}
    (shown : entry.Shown registry path) (before : ConfigEntry) :
    before.deserializeRegistry (some path) registry = (0, entry) := by
  obtain ⟨wstr, processName, name⟩ := RegKey.getWstring_iff.mpr shown.processName
  have cpuUsage := RegKey.getDword_iff.mpr shown.cpuUsage
  have memUsage := RegKey.getQword_iff.mpr shown.memUsage
  have diskUsage := RegKey.getQword_iff.mpr shown.diskUsage
  have networkUsage := RegKey.getQword_iff.mpr shown.networkUsage
  simp [deserializeRegistry, processName, name, cpuUsage, memUsage, diskUsage, networkUsage]

/-- And the return code 0 says that it is such a key. -/
theorem shown_of_deserializeRegistry {registry : Registry} {path : WString}
    {before entry : ConfigEntry}
    (reads : before.deserializeRegistry (some path) registry = (0, entry)) :
    entry.Shown registry path := by
  unfold deserializeRegistry at reads
  cases processName : RegKey.getWstring (some path) (wide "process_name") registry with
  | none => simp [processName] at reads
  | some wstr =>
      cases cpuUsage : RegKey.getDword (some path) (wide "cpu_usage") registry with
      | none => simp [cpuUsage] at reads
      | some cpu =>
          cases memUsage : RegKey.getQword (some path) (wide "mem_usage") registry with
          | none => simp [memUsage] at reads
          | some mem =>
              cases diskUsage : RegKey.getQword (some path) (wide "disk_usage") registry with
              | none => simp [diskUsage] at reads
              | some disk =>
                  cases networkUsage :
                    RegKey.getQword (some path) (wide "network_usage") registry with
                  | none => simp [networkUsage] at reads
                  | some network =>
                      simp only [processName, cpuUsage, memUsage, diskUsage, networkUsage,
                        Prod.mk.injEq, Option.map_some, Option.getD_some] at reads
                      rw [← reads.2]
                      exact ⟨RegKey.getWstring_iff.mp ⟨wstr, processName, rfl⟩,
                        RegKey.getDword_iff.mp cpuUsage, RegKey.getQword_iff.mp memUsage,
                        RegKey.getQword_iff.mp diskUsage, RegKey.getQword_iff.mp networkUsage⟩

theorem shown_iff {registry : Registry} {path : WString} (before entry : ConfigEntry) :
    entry.Shown registry path ↔ before.deserializeRegistry (some path) registry = (0, entry) :=
  ⟨fun shown => deserializeRegistry_of_shown shown before, shown_of_deserializeRegistry⟩

/-- A name is stored as the text that it is. -/
theorem isString_stringData {name : Bytes} (short : name.length < 2 ^ 31 - 1) :
    (⟨regSz, RegKey.stringData (toWstring name)⟩ : RegValue).IsString name := by
  have length : (toWstring name).length = name.length := List.length_map _
  refine ⟨Or.inl rfl, toWstring name, [0], [], ?_, by simp, Or.inl rfl, toString_toWstring name⟩
  rw [List.append_nil]
  exact RegKey.stringData_eq (length ▸ short)

/-- The five values are written to the key that is open. -/
theorem shown_serializeRegistry {entry : ConfigEntry}
    (short : entry.processName.length < 2 ^ 31 - 1) {registry : Registry} {path : WString}
    (present : (registry.tree.keys path).isSome) :
    entry.Shown (entry.serializeRegistry (some path) registry) path := by
  simp only [serializeRegistry, RegKey.setWstring, RegKey.setDword, RegKey.setQword, RegKey.setRaw]
  constructor
  · refine ⟨_, ?_, isString_stringData short⟩
    rw [KeyTree.query_set_of_ne (Or.inr (by decide)), KeyTree.query_set_of_ne (Or.inr (by decide)),
      KeyTree.query_set_of_ne (Or.inr (by decide)), KeyTree.query_set_of_ne (Or.inr (by decide)),
      KeyTree.query_set_same present]
  · refine ⟨⟨regDword, littleEndian 4 entry.cpuUsage.toNat⟩, ?_, rfl, rfl⟩
    rw [KeyTree.query_set_of_ne (Or.inr (by decide)), KeyTree.query_set_of_ne (Or.inr (by decide)),
      KeyTree.query_set_of_ne (Or.inr (by decide)), KeyTree.query_set_same (by simpa)]
  · refine ⟨⟨regQword, littleEndian 8 entry.memUsage.toNat⟩, ?_, rfl, rfl⟩
    rw [KeyTree.query_set_of_ne (Or.inr (by decide)), KeyTree.query_set_of_ne (Or.inr (by decide)),
      KeyTree.query_set_same (by simpa)]
  · refine ⟨⟨regQword, littleEndian 8 entry.diskUsage.toNat⟩, ?_, rfl, rfl⟩
    rw [KeyTree.query_set_of_ne (Or.inr (by decide)), KeyTree.query_set_same (by simpa)]
  · refine ⟨⟨regQword, littleEndian 8 entry.networkUsage.toNat⟩, ?_, rfl, rfl⟩
    rw [KeyTree.query_set_same (by simpa)]

/-- Nothing else is written. -/
theorem query_serializeRegistry {entry : ConfigEntry} {registry : Registry} {path key : WString}
    (differs : key ≠ path) (name : WString) :
    (entry.serializeRegistry (some path) registry).tree.query key name =
      registry.tree.query key name := by
  simp only [serializeRegistry, RegKey.setWstring, RegKey.setDword, RegKey.setQword,
    RegKey.setRaw, KeyTree.query_set_of_ne (Or.inl differs)]

@[simp] theorem opens_serializeRegistry (entry : ConfigEntry) (registry : Registry)
    (key : RegKey) : (entry.serializeRegistry key registry).opens = registry.opens := by
  cases key with
  | none => rfl
  | some path => rfl

@[simp] theorem isSome_serializeRegistry {entry : ConfigEntry} {registry : Registry}
    {path key : WString} : ((entry.serializeRegistry (some path) registry).tree.keys key).isSome ↔
      (registry.tree.keys key).isSome := by
  simp only [serializeRegistry, RegKey.setWstring, RegKey.setDword, RegKey.setQword,
    RegKey.setRaw, KeyTree.isSome_set]

end ConfigEntry

/-! ### Keys of entries -/

namespace Config

/-- An index is one part of a path. -/
theorem backslash_not_mem_decimal (index : Nat) : backslash ∉ toWstring (decimal index) := by
  intro member
  obtain ⟨char, digit, same⟩ := List.mem_map.mp member
  have back : char = backslash.toUInt8 := by rw [← same, toUInt8_toWChar]
  rw [back] at digit
  exact not_mem_decimal (by decide) digit

theorem toWstring_injective {one two : Bytes} (same : toWstring one = toWstring two) :
    one = two := by
  rw [← toString_toWstring one, same, toString_toWstring]

theorem entryKey_injective {one two : Nat} (same : entryKey one = entryKey two) : one = two := by
  unfold entryKey at same
  have names := List.append_cancel_left same
  rw [List.cons.injEq] at names
  exact decimal_injective (toWstring_injective names.2)

/-- The keys of entries are below the prefix, and none is within another. -/
theorem entryKey_within (index : Nat) : Within backslash registryPrefix (entryKey index) :=
  KeyTree.within_append registryPrefix _

theorem entryKey_ne_prefix (index : Nat) : entryKey index ≠ registryPrefix := by
  intro same
  have lengths := congrArg List.length same
  rw [entryKey, List.length_append, List.length_cons] at lengths
  omega

/-! ### Writing -/

theorem openOrCreate_eq {registry : Registry} (opens : registry.opens = true) (path : WString) :
    RegKey.openOrCreate path registry =
      (some path, { registry with tree := registry.tree.create backslash path }) := by
  rw [RegKey.openOrCreate, if_pos opens]

/-- What the loop leaves: the key of each entry with its values, and everything else as it was. -/
structure Written (before after : Registry) (index : Nat) (entries : List ConfigEntry) : Prop where
  opens : after.opens = before.opens
  shown : ∀ offset (inside : offset < entries.length),
    entries[offset].Shown after (entryKey (index + offset))
  others : ∀ path, (∀ offset < entries.length, path ≠ entryKey (index + offset)) → ∀ name,
    after.tree.query path name = before.tree.query path name
  keys : ∀ path, (after.tree.keys path).isSome ↔ (before.tree.keys path).isSome ∨
    ∃ offset < entries.length, Within backslash path (entryKey (index + offset))

/-- The entries are written below their indices, each on a key of its own, which the later ones
leave alone. -/
theorem writeEntries_written {entries : List ConfigEntry}
    (short : ∀ entry ∈ entries, entry.processName.length < 2 ^ 31 - 1) (index : Nat)
    {registry : Registry} (opens : registry.opens = true) :
    Written registry (writeEntries index entries registry) index entries := by
  induction entries generalizing index registry with
  | nil =>
      refine ⟨rfl, ?_, fun path _ name => rfl, ?_⟩
      · intro offset impossible
        cases impossible
      · intro path
        simp [writeEntries]
  | cons entry later ih =>
      have short' : ∀ other ∈ later, other.processName.length < 2 ^ 31 - 1 :=
        fun other member => short other (List.mem_cons_of_mem entry member)
      rw [writeEntries, openOrCreate_eq opens]
      let one : Registry :=
        { registry with tree := registry.tree.create backslash (entryKey index) }
      let two := entry.serializeRegistry (some (entryKey index)) one
      have present : (one.tree.keys (entryKey index)).isSome :=
        KeyTree.isSome_create.mpr (Or.inr (Within.refl backslash _))
      have first := ConfigEntry.shown_serializeRegistry (short entry List.mem_cons_self) present
      have rest : Written two (writeEntries (index + 1) later two) (index + 1) later :=
        ih short' (index + 1) (by simp [two, one, opens])
      have next (offset : Nat) : entryKey (index + (offset + 1)) = entryKey (index + 1 + offset) := by
        rw [Nat.add_assoc, Nat.add_comm 1]
      constructor
      · rw [rest.opens]
        simp [two, one]
      · intro offset inside
        cases offset with
        | zero =>
            apply first.of_query
            apply rest.others
            intro offset _ same
            have equal := entryKey_injective same
            omega
        | succ offset =>
            rw [next]
            exact rest.shown offset (Nat.lt_of_succ_lt_succ inside)
      · intro path differs name
        have behind : ∀ offset < later.length, path ≠ entryKey (index + 1 + offset) := by
          intro offset inside
          rw [← next]
          exact differs (offset + 1) (Nat.succ_lt_succ inside)
        have here : path ≠ entryKey index := differs 0 (Nat.succ_pos _)
        rw [rest.others path behind name, ConfigEntry.query_serializeRegistry here,
          KeyTree.query_create]
      · intro path
        rw [rest.keys, ConfigEntry.isSome_serializeRegistry, KeyTree.isSome_create]
        constructor
        · rintro ((before | here) | ⟨offset, inside, within⟩)
          · exact Or.inl before
          · exact Or.inr ⟨0, Nat.succ_pos _, here⟩
          · refine Or.inr ⟨offset + 1, Nat.succ_lt_succ inside, ?_⟩
            rw [next]
            exact within
        · rintro (before | ⟨offset, inside, within⟩)
          · exact Or.inl (Or.inl before)
          · cases offset with
            | zero => exact Or.inl (Or.inr within)
            | succ offset =>
                rw [next] at within
                exact Or.inr ⟨offset, Nat.lt_of_succ_lt_succ inside, within⟩

/-- The registry holds a whole configuration: its entries, in the units of the file. -/
structure Complete (registry : Registry) (entries : List ConfigEntry) : Prop where
  opens : registry.opens = true
  count : ∃ value count, registry.tree.query registryPrefix countName = some value ∧
    value.IsDword count ∧ count.toNat = entries.length
  int : entries.length < 2 ^ 31
  shown : ∀ index (inside : index < entries.length),
    entries[index].Shown registry (entryKey index)

section Write

variable {config : Config} {registry : Registry}

/-- The registry in the middle of `write_config`. -/
def cleared (config : Config) (registry : Registry) : Registry :=
  { registry with
    tree := (((registry.tree.deleteTree backslash registryPrefix).create backslash
      registryPrefix).set registryPrefix countName
        ⟨regDword, littleEndian 4 (UInt32.ofNat config.configEntries.length).toNat⟩) }

/-- The prefix is deleted and created with the count, and then the entries are written. -/
theorem writeRegistry_eq (opens : registry.opens = true) :
    config.writeRegistry registry =
      writeEntries 0 (config.configEntries.map ConfigEntry.convertBeforeWrite)
        (cleared config registry) := by
  rw [writeRegistry, if_pos opens, openOrCreate_eq (by exact opens)]
  rfl

/-- So all entries are there afterwards. -/
theorem written_writeRegistry (opens : registry.opens = true) (storable : config.Storable) :
    Written (cleared config registry) (config.writeRegistry registry) 0
      (config.configEntries.map ConfigEntry.convertBeforeWrite) := by
  have opens' : (cleared config registry).opens = true := opens
  rw [writeRegistry_eq opens]
  refine writeEntries_written ?_ 0 opens'
  intro entry member
  obtain ⟨other, inside, rfl⟩ := List.mem_map.mp member
  exact storable.2 other inside

@[simp] theorem opens_writeRegistry (opens : registry.opens = true) (storable : config.Storable) :
    (config.writeRegistry registry).opens = true := by
  rw [(written_writeRegistry opens storable).opens]
  exact opens

/-- What is written is a whole configuration. -/
theorem complete_writeRegistry (opens : registry.opens = true) (storable : config.Storable) :
    Complete (config.writeRegistry registry)
      (config.configEntries.map ConfigEntry.convertBeforeWrite) := by
  have written := written_writeRegistry opens storable
  have small := storable.1
  have keeps : (config.writeRegistry registry).tree.query registryPrefix countName =
      some ⟨regDword, littleEndian 4 (UInt32.ofNat config.configEntries.length).toNat⟩ := by
    rw [written.others registryPrefix (fun offset _ same => entryKey_ne_prefix _ same.symm)]
    apply KeyTree.query_set_same
    exact KeyTree.isSome_create.mpr (Or.inr (Within.refl backslash _))
  constructor
  · exact opens_writeRegistry opens storable
  · refine ⟨_, _, keeps, ⟨rfl, rfl⟩, ?_⟩
    rw [UInt32.toNat_ofNat', Nat.mod_eq_of_lt (by omega), List.length_map]
  · rw [List.length_map]
    exact small
  · intro index inside
    have shown := written.shown index inside
    rw [Nat.zero_add] at shown
    exact shown

/-- Below the prefix there are the keys of the entries and no others, whatever was there before. -/
theorem keys_writeRegistry (opens : registry.opens = true) (storable : config.Storable)
    {path : WString} (within : Within backslash registryPrefix path) :
    ((config.writeRegistry registry).tree.keys path).isSome ↔
      path = registryPrefix ∨ ∃ index < config.configEntries.length, path = entryKey index := by
  have middle : ((cleared config registry).tree.keys path).isSome ↔ path = registryPrefix := by
    rw [cleared, KeyTree.isSome_set, KeyTree.isSome_create, KeyTree.isSome_deleteTree]
    constructor
    · rintro (before | above)
      · exact absurd within before.2
      · exact within.antisymm above
    · rintro rfl
      exact Or.inr (Within.refl backslash _)
  rw [(written_writeRegistry opens storable).keys, middle, List.length_map]
  constructor
  · rintro (here | ⟨index, inside, above⟩)
    · exact Or.inl here
    · rw [Nat.zero_add] at above
      rcases within.between (backslash_not_mem_decimal index) above with here | same
      · exact Or.inl here
      · exact Or.inr ⟨index, inside, same⟩
  · rintro (here | ⟨index, inside, rfl⟩)
    · exact Or.inl here
    · refine Or.inr ⟨index, inside, ?_⟩
      rw [Nat.zero_add]
      exact Within.refl backslash _

/-- And elsewhere no value changes. -/
theorem query_writeRegistry (opens : registry.opens = true) (storable : config.Storable)
    {path : WString} (elsewhere : ¬ Within backslash registryPrefix path) (name : WString) :
    (config.writeRegistry registry).tree.query path name = registry.tree.query path name := by
  have written := written_writeRegistry opens storable
  have differs : path ≠ registryPrefix := by
    rintro rfl
    exact elsewhere (Within.refl backslash _)
  rw [written.others path]
  · rw [cleared, KeyTree.query_set_of_ne (Or.inl differs), KeyTree.query_create,
      KeyTree.query_deleteTree, if_neg elsewhere]
  · rintro offset _ rfl
    exact elsewhere (entryKey_within _)

end Write

/-! ### Reading -/

/-- Opening a key changes no value. -/
structure Unchanged (before after : Registry) : Prop where
  opens : after.opens = before.opens
  query : ∀ path name, after.tree.query path name = before.tree.query path name

theorem Unchanged.refl (registry : Registry) : Unchanged registry registry :=
  ⟨rfl, fun _ _ => rfl⟩

theorem Unchanged.trans {one two three : Registry} (first : Unchanged one two)
    (second : Unchanged two three) : Unchanged one three :=
  ⟨second.opens.trans first.opens,
    fun path name => (second.query path name).trans (first.query path name)⟩

theorem Unchanged.shown {before after : Registry} (unchanged : Unchanged before after)
    {path : WString} {entry : ConfigEntry} :
    entry.Shown after path ↔ entry.Shown before path :=
  ⟨fun shown => shown.of_query fun name => (unchanged.query path name).symm,
    fun shown => shown.of_query fun name => unchanged.query path name⟩

/-- Opening a key creates it without values. -/
theorem unchanged_openOrCreate (path : WString) (registry : Registry) :
    Unchanged registry (RegKey.openOrCreate path registry).2 := by
  unfold RegKey.openOrCreate
  split
  · exact ⟨rfl, fun _ _ => KeyTree.query_create⟩
  · exact Unchanged.refl registry

theorem unchanged_readEntries (index : Nat) (entries : List ConfigEntry) (registry : Registry) :
    Unchanged registry (readEntries index entries registry).2.2 := by
  induction entries generalizing index registry with
  | nil => exact Unchanged.refl registry
  | cons entry later ih => exact (unchanged_openOrCreate _ registry).trans (ih _ _)

/-- The loop returns 0 exactly when every key holds an entry, and then these are the entries. -/
theorem readEntries_iff {registry : Registry} (opens : registry.opens = true) (index : Nat)
    (before entries : List ConfigEntry) :
    (readEntries index before registry).1 = 0 ∧ (readEntries index before registry).2.1 = entries ↔
      entries.length = before.length ∧
        ∀ offset (inside : offset < entries.length),
          entries[offset].Shown registry (entryKey (index + offset)) := by
  induction before generalizing index registry entries with
  | nil =>
      rw [readEntries]
      constructor
      · rintro ⟨_, rfl⟩
        exact ⟨rfl, fun offset impossible => absurd impossible (Nat.not_lt_zero _)⟩
      · rintro ⟨empty, _⟩
        exact ⟨rfl, (List.length_eq_zero_iff.mp empty).symm⟩
  | cons old later ih =>
      let one : Registry :=
        { registry with tree := registry.tree.create backslash (entryKey index) }
      have unchanged : Unchanged registry one := by
        have opened := unchanged_openOrCreate (entryKey index) registry
        rw [openOrCreate_eq opens] at opened
        exact opened
      rw [readEntries, openOrCreate_eq opens]
      rcases reads : old.deserializeRegistry (some (entryKey index)) one with ⟨code, read⟩
      rcases readsLater : readEntries (index + 1) later one with ⟨code', read', after⟩
      have next (offset : Nat) : entryKey (index + (offset + 1)) = entryKey (index + 1 + offset) := by
        rw [Nat.add_assoc, Nat.add_comm 1]
      cases entries with
      | nil =>
          simp [one, reads, readsLater]
      | cons entry tail =>
          have first : entry.Shown registry (entryKey index) ↔ code = 0 ∧ read = entry := by
            rw [← unchanged.shown, ConfigEntry.shown_iff old, reads, Prod.mk.injEq]
          have rest : code' = 0 ∧ read' = tail ↔ tail.length = later.length ∧
              ∀ offset (inside : offset < tail.length),
                tail[offset].Shown registry (entryKey (index + 1 + offset)) := by
            have others := @ih one opens (index + 1) tail
            rw [readsLater] at others
            simpa only [unchanged.shown] using others
          have both : ((if code ≠ 0 then 1 else code') = 0 ∧ read :: read' = entry :: tail) ↔
              (code = 0 ∧ read = entry) ∧ code' = 0 ∧ read' = tail := by
            by_cases failed : code = 0
            · simp [failed]
              tauto
            · simp [failed]
          simp only [reads, readsLater, one]
          rw [both, ← first, rest]
          constructor
          · rintro ⟨shown, lengths, others⟩
            refine ⟨congrArg Nat.succ lengths, ?_⟩
            intro offset inside
            cases offset with
            | zero => exact shown
            | succ offset =>
                rw [next]
                exact others offset (Nat.lt_of_succ_lt_succ inside)
          · rintro ⟨lengths, shown⟩
            refine ⟨shown 0 (Nat.succ_pos _), Nat.succ.inj lengths, ?_⟩
            intro offset inside
            have later := shown (offset + 1) (Nat.succ_lt_succ inside)
            rw [next] at later
            exact later

theorem length_resize (unset : Nat → Unset) (count : Nat) (entries : List ConfigEntry) :
    (resize unset count entries).length = count := by
  simp only [resize, List.length_append, List.length_take, List.length_map, List.length_range']
  omega

/-- Reading may create the prefix, and changes nothing else. -/
theorem unchanged_readRegistry {unset : Nat → Unset} {config read : Config} {code : Nat}
    {registry after : Registry}
    (reads : config.readRegistry unset registry = .ok (code, read, after)) :
    Unchanged registry after := by
  have opened := unchanged_openOrCreate registryPrefix registry
  unfold readRegistry at reads
  rcases opens : RegKey.openOrCreate registryPrefix registry with ⟨key, one⟩
  rw [opens] at opened
  rw [opens] at reads
  simp only at reads
  cases there : key.getDword countName one with
  | none =>
      simp only [there, Except.ok.injEq, Prod.mk.injEq] at reads
      rw [← reads.2.2]
      exact opened
  | some count =>
      simp only [there] at reads
      split at reads
      · cases reads
      · simp only [Except.ok.injEq, Prod.mk.injEq] at reads
        rw [← reads.2.2]
        exact opened.trans (unchanged_readEntries 0 _ one)

/-- The key of the prefix, opened. -/
def opened (registry : Registry) : Registry :=
  { registry with tree := registry.tree.create backslash registryPrefix }

theorem unchanged_opened {registry : Registry} (opens : registry.opens = true) :
    Unchanged registry (opened registry) := by
  have all := unchanged_openOrCreate registryPrefix registry
  rw [openOrCreate_eq opens] at all
  exact all

/-- Where the key opens, the count decides how many entries are read. -/
theorem readRegistry_of_opens {registry : Registry} (opens : registry.opens = true)
    (unset : Nat → Unset) (config : Config) :
    config.readRegistry unset registry =
      match RegKey.getDword (some registryPrefix) countName registry with
      | none => .ok (1, config, opened registry)
      | some count =>
          if 2 ^ 31 ≤ count.toNat then .error .lengthError
          else
            let result := readEntries 0 (resize unset count.toNat config.configEntries)
              (opened registry)
            .ok (result.1, ⟨result.2.1.map ConfigEntry.convertAfterRead⟩, result.2.2) := by
  have query := (unchanged_opened opens).query registryPrefix
  have same : RegKey.getDword (some registryPrefix) countName (opened registry) =
      RegKey.getDword (some registryPrefix) countName registry := by
    simp only [RegKey.getDword, RegKey.queryRaw_congr query]
  rw [readRegistry, openOrCreate_eq opens, ← same]
  rfl

theorem readRegistry_of_closed {registry : Registry} (closed : ¬ registry.opens = true)
    (unset : Nat → Unset) (config : Config) :
    config.readRegistry unset registry = .ok (1, config, registry) := by
  rw [readRegistry, RegKey.openOrCreate, if_neg closed]
  rfl

/-- The start ends in an exception exactly when the count is no `int`. -/
theorem readRegistry_error_iff {unset : Nat → Unset} {config : Config} {registry : Registry}
    {e : VectorError} : config.readRegistry unset registry = .error e ↔
      registry.opens = true ∧ ∃ value count,
        registry.tree.query registryPrefix countName = some value ∧ value.IsDword count ∧
          2 ^ 31 ≤ count.toNat := by
  cases e
  have read : (∃ value count, registry.tree.query registryPrefix countName = some value ∧
      value.IsDword count ∧ 2 ^ 31 ≤ count.toNat) ↔
        ∃ count, RegKey.getDword (some registryPrefix) countName registry = some count ∧
          2 ^ 31 ≤ count.toNat := by
    simp only [RegKey.getDword_iff]
    grind
  rw [read]
  by_cases opens : registry.opens = true
  · rw [readRegistry_of_opens opens]
    cases there : RegKey.getDword (some registryPrefix) countName registry with
    | none => simp
    | some count => simp [opens]
  · rw [readRegistry_of_closed opens]
    simp [opens]

/-- Its return code is 0 exactly when the registry holds a whole configuration, and then it reads
this one in its units, whatever was in force before and in the memory. -/
theorem readRegistry_ok_iff {unset : Nat → Unset} {config read : Config} {registry : Registry} :
    (∃ after, config.readRegistry unset registry = .ok (0, read, after)) ↔
      ∃ entries, Complete registry entries ∧
        read = ⟨entries.map ConfigEntry.convertAfterRead⟩ := by
  by_cases opens : registry.opens = true
  · rw [readRegistry_of_opens opens]
    cases there : RegKey.getDword (some registryPrefix) countName registry with
    | none =>
        constructor
        · rintro ⟨after, impossible⟩
          cases impossible
        · rintro ⟨entries, complete, _⟩
          obtain ⟨value, count, present, dword, _⟩ := complete.count
          rw [RegKey.getDword_iff.mpr ⟨value, present, dword⟩] at there
          cases there
    | some count =>
        have known : ∀ {entries}, Complete registry entries → count.toNat = entries.length := by
          intro entries complete
          obtain ⟨value, count', present, dword, length⟩ := complete.count
          rw [RegKey.getDword_iff.mpr ⟨value, present, dword⟩, Option.some.injEq] at there
          rw [← there, length]
        by_cases large : 2 ^ 31 ≤ count.toNat
        · simp only [large, if_true]
          constructor
          · rintro ⟨after, impossible⟩
            cases impossible
          · rintro ⟨entries, complete, _⟩
            have int := complete.int
            rw [← known complete] at int
            omega
        · simp only [large, if_false]
          have opens' : (opened registry).opens = true := opens
          have loop := readEntries_iff opens' 0 (resize unset count.toNat config.configEntries)
          simp only [length_resize, (unchanged_opened opens).shown, Nat.zero_add] at loop
          constructor
          · rintro ⟨after, reads⟩
            simp only [Except.ok.injEq, Prod.mk.injEq] at reads
            obtain ⟨length, shown⟩ := (loop _).mp ⟨reads.1, rfl⟩
            obtain ⟨value, present, dword⟩ := RegKey.getDword_iff.mp there
            refine ⟨_, ⟨opens, ⟨value, count, present, dword, length.symm⟩, ?_, shown⟩,
              reads.2.1.symm⟩
            rw [length]
            omega
          · rintro ⟨entries, complete, rfl⟩
            obtain ⟨code, same⟩ := (loop entries).mpr ⟨(known complete).symm, complete.shown⟩
            rw [code, same]
            exact ⟨_, rfl⟩
  · rw [readRegistry_of_closed opens]
    constructor
    · rintro ⟨after, impossible⟩
      cases impossible
    · rintro ⟨entries, complete, _⟩
      exact absurd complete.opens opens

end Config

/-- Whatever any program left in the registry: `read_config` throws exactly when the count is no
`int`, and returns 0 exactly when the registry holds a whole configuration, which it then reads
whatever was in force before and in the memory. -/
theorem registry_read (unset : Nat → Config.Unset) (config : Config) (registry : Registry) :
    (∀ e, config.readRegistry unset registry = .error e ↔
      registry.opens = true ∧ ∃ value count,
        registry.tree.query Config.registryPrefix Config.countName = some value ∧
          value.IsDword count ∧ 2 ^ 31 ≤ count.toNat) ∧
      ∀ read, (∃ after, config.readRegistry unset registry = .ok (0, read, after)) ↔
        ∃ entries, Config.Complete registry entries ∧
          read = ⟨entries.map ConfigEntry.convertAfterRead⟩ :=
  ⟨fun _ => Config.readRegistry_error_iff, fun _ => Config.readRegistry_ok_iff⟩

/-- What `write_config` puts over any registry, `read_config` reads back in whole units, whatever
was in force before and in the memory; the write leaves no key behind below the prefix but those
of the entries, and touches no value elsewhere. -/
theorem registry_roundTrip {config : Config} {registry : Registry} (opens : registry.opens = true)
    (storable : config.Storable) :
    (∀ unset before, ∃ after,
      Config.readRegistry unset before (config.writeRegistry registry) =
        .ok (0, ⟨config.configEntries.map fun entry =>
          entry.convertBeforeWrite.convertAfterRead⟩, after)) ∧
      (∀ path, Within backslash Config.registryPrefix path →
        (((config.writeRegistry registry).tree.keys path).isSome ↔
          path = Config.registryPrefix ∨
            ∃ index < config.configEntries.length, path = Config.entryKey index)) ∧
      ∀ path, ¬ Within backslash Config.registryPrefix path → ∀ name,
        (config.writeRegistry registry).tree.query path name = registry.tree.query path name := by
  refine ⟨?_, fun path within => Config.keys_writeRegistry opens storable within,
    fun path elsewhere name => Config.query_writeRegistry opens storable elsewhere name⟩
  intro unset before
  have complete := Config.complete_writeRegistry opens storable
  apply Config.readRegistry_ok_iff.mpr
  refine ⟨_, complete, ?_⟩
  rw [List.map_map]
  rfl

/-- One entry more than the default configuration has. -/
def staleRegistry : Registry :=
  (⟨List.replicate 5 ⟨ascii "old.exe", 0, 0, 0, 0⟩⟩ : Config).writeRegistry ⟨KeyTree.empty, true⟩

theorem registry_roundTrip_sample :
    (∀ unset before, ∃ after,
      Config.readRegistry unset before (Config.defaultConfig.writeRegistry staleRegistry) =
        .ok (0, ⟨Config.defaultConfig.configEntries.map fun entry =>
          entry.convertBeforeWrite.convertAfterRead⟩, after)) ∧
      ¬ ((Config.defaultConfig.writeRegistry staleRegistry).tree.keys
        (Config.entryKey 4)).isSome := by
  obtain ⟨reads, keys, _⟩ := registry_roundTrip
    (by decide +kernel : staleRegistry.opens = true)
    (by decide +kernel : Config.defaultConfig.Storable)
  refine ⟨reads, ?_⟩
  rw [keys _ (Config.entryKey_within 4)]
  rintro (same | ⟨index, inside, same⟩)
  · exact Config.entryKey_ne_prefix 4 same
  · have equal := Config.entryKey_injective same
    have four : Config.defaultConfig.configEntries.length = 4 := rfl
    omega

end RemoteMonitoring
