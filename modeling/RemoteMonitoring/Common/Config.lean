/-
Module: RemoteMonitoring.Common.Config
Purpose: `ConfigEntry` and `Config` (common/config_entry.hpp, config_entry.cpp, config.hpp,
  config.cpp, global.hpp): the thresholds, their unit conversions, and the configuration file.
  Of the two platforms the one with rmt-config.json is modelled.
Trusted boundary: the JSON library is a parameter; a write that follows a successful open
  succeeds
Main exports: ConfigEntry, ConfigEntry.convertAfterRead, ConfigEntry.convertBeforeWrite,
  JsonLibrary, Config.writeConfig, Config.readConfig, Config.defaultConfig
-/
import RemoteMonitoring.Common.Serializable
import RemoteMonitoring.Lib.File
import RemoteMonitoring.Lib.Scaling

namespace RemoteMonitoring

open ByteText
open Scaling

def KB : UInt64 := (1 : UInt64) <<< 10
def MB : UInt64 := (1 : UInt64) <<< 20

/-- "let's say it's percent but fixed point" -/
def cpuUnit : UInt32 := 1000
def memUnit : UInt64 := MB
def diskUnit : UInt64 := KB
def networkUnit : UInt64 := KB

structure ConfigEntry where
  processName : Bytes
  cpuUsage : UInt32
  memUsage : UInt64
  diskUsage : UInt64
  networkUsage : UInt64
deriving DecidableEq, Repr, Inhabited

namespace ConfigEntry

def serialize (entry : ConfigEntry) : Except RuntimeError Bytes := do
  let name ← writeString entry.processName
  return name ++ writeUint32 entry.cpuUsage ++ writeUint64 entry.memUsage ++
    writeUint64 entry.diskUsage ++ writeUint64 entry.networkUsage

def deserialize : Decoder ConfigEntry := do
  let processName ← readString
  let cpuUsage ← readUint32
  let memUsage ← readUint64
  let diskUsage ← readUint64
  let networkUsage ← readUint64
  return { processName, cpuUsage, memUsage, diskUsage, networkUsage }

/-- `X *= X_UNIT` for every threshold, in the width of its field. -/
def convertAfterRead (entry : ConfigEntry) : ConfigEntry :=
  { entry with
    cpuUsage := entry.cpuUsage * cpuUnit
    memUsage := entry.memUsage * memUnit
    diskUsage := entry.diskUsage * diskUnit
    networkUsage := entry.networkUsage * networkUnit }

/-- `X /= X_UNIT` for every threshold. -/
def convertBeforeWrite (entry : ConfigEntry) : ConfigEntry :=
  { entry with
    cpuUsage := entry.cpuUsage / cpuUnit
    memUsage := entry.memUsage / memUnit
    diskUsage := entry.diskUsage / diskUnit
    networkUsage := entry.networkUsage / networkUnit }

/-- Every threshold is a whole number of its units. -/
def Aligned (entry : ConfigEntry) : Prop :=
  entry.cpuUsage % cpuUnit = 0 ∧ entry.memUsage % memUnit = 0 ∧
    entry.diskUsage % diskUnit = 0 ∧ entry.networkUsage % networkUnit = 0

instance (entry : ConfigEntry) : Decidable (Aligned entry) := by
  unfold Aligned
  infer_instance

/-! ### The conversions on an entry -/

/-- The conversion is felt unless all thresholds are 0. -/
theorem convertAfterRead_eq_self_iff (entry : ConfigEntry) :
    entry.convertAfterRead = entry ↔
      entry.cpuUsage = 0 ∧ entry.memUsage = 0 ∧ entry.diskUsage = 0 ∧
        entry.networkUsage = 0 := by
  cases entry with
  | mk processName cpuUsage memUsage diskUsage networkUsage =>
      simp only [convertAfterRead, mk.injEq, true_and]
      have cpu := @scale32_eq_self_iff cpuUsage cpuUnit (by decide) (by decide +kernel)
      have mem := @scale64_eq_self_iff memUsage memUnit (by decide) (by decide +kernel)
      have disk := @scale64_eq_self_iff diskUsage diskUnit (by decide) (by decide +kernel)
      have network := @scale64_eq_self_iff networkUsage networkUnit (by decide)
        (by decide +kernel)
      rw [cpu, mem, disk, network]

theorem serialize_eq_ok {entry : ConfigEntry} {out : Bytes} :
    entry.serialize = .ok out ↔
      ∃ name, writeString entry.processName = .ok name ∧
        out = name ++ (writeUint32 entry.cpuUsage ++ (writeUint64 entry.memUsage ++
          (writeUint64 entry.diskUsage ++ writeUint64 entry.networkUsage))) := by
  unfold serialize
  cases writeString entry.processName with
  | error e => simp [bind, Except.bind]
  | ok name => simp [bind, Except.bind, pure, Except.pure, eq_comm]

/-- An entry is serialized unless its name is too long for the length field. -/
theorem serialize_isOk {entry : ConfigEntry} (short : entry.processName.length < 2 ^ 32) :
    ∃ out, entry.serialize = .ok out :=
  ⟨_, serialize_eq_ok.mpr ⟨_, writeString_eq_ok.mpr ⟨short, rfl⟩, rfl⟩⟩

theorem serialize_roundTrips : RoundTrips serialize deserialize := by
  intro entry out written rest
  obtain ⟨name, named, rfl⟩ := serialize_eq_ok.mp written
  simp only [List.append_assoc]
  rw [deserialize, Decoder.bind_ok (readString_writeString named _),
    Decoder.bind_ok (readUint32_writeUint32 _ _), Decoder.bind_ok (readUint64_writeUint64 _ _),
    Decoder.bind_ok (readUint64_writeUint64 _ _), Decoder.bind_ok (readUint64_writeUint64 _ _),
    Decoder.pure_apply]

/-- Writing loses the remainders. -/
theorem convertBeforeWrite_convertAfterRead_iff (entry : ConfigEntry) :
    entry.convertBeforeWrite.convertAfterRead = entry ↔ entry.Aligned := by
  cases entry with
  | mk processName cpuUsage memUsage diskUsage networkUsage =>
      simp only [convertAfterRead, convertBeforeWrite, Aligned, mk.injEq, true_and]
      simp only [unscale32_scale_iff, unscale64_scale_iff]

/-- After a read only the CPU threshold can have a remainder: its product wraps in
32 bits, and 1000 does not divide 2^32. -/
theorem aligned_convertAfterRead_iff (entry : ConfigEntry) :
    entry.convertAfterRead.Aligned ↔ entry.cpuUsage * cpuUnit % cpuUnit = 0 := by
  have mem := @scale64_mod_unit entry.memUsage memUnit (by decide)
  have disk := @scale64_mod_unit entry.diskUsage diskUnit (by decide)
  have network := @scale64_mod_unit entry.networkUsage networkUnit (by decide)
  simp only [Aligned, convertAfterRead, mem, disk, network, and_true]

end ConfigEntry

/-- The third-party JSON library at the type the program uses it: `parse` is
`nlohmann::json::parse` followed by the conversion to `std::vector<ConfigEntry>`,
`none` standing for an exception of either, and `dump` the way back. -/
structure JsonLibrary where
  parse : Bytes → Option (List ConfigEntry)
  dump : List ConfigEntry → Bytes

/-- A name that an entry can have in a text: the library parses no name that is not UTF-8. -/
def JsonLibrary.Names (json : JsonLibrary) (name : Bytes) : Prop :=
  ∃ text entries entry, json.parse text = some entries ∧ entry ∈ entries ∧
    entry.processName = name

/-- The library reads back the integers and strings it writes. -/
structure JsonLibrary.RoundTrips (json : JsonLibrary) : Prop where
  /-- Printable ASCII is UTF-8. -/
  plain : ∀ name : Bytes, (∀ byte ∈ name, 32 ≤ byte ∧ byte < 127) → json.Names name
  again : ∀ entries, (∀ entry ∈ entries, json.Names entry.processName) →
    json.parse (json.dump entries) = some entries

/-- The exceptions of the library. -/
inductive JsonError where
  | parseFailed
deriving DecidableEq, Repr, Inhabited

/-- `Config`, by its one member. -/
structure Config where
  configEntries : List ConfigEntry
deriving DecidableEq, Repr, Inhabited

namespace Config

def serialize (config : Config) : Except RuntimeError Bytes :=
  writeVectorSerializeable ConfigEntry.serialize config.configEntries

def deserialize (netCount : UInt32) : Decoder Config := do
  let configEntries ← readVectorSerializeable ConfigEntry.deserialize netCount
  return ⟨configEntries⟩

variable (json : JsonLibrary)

/-- The return code and rmt-config.json afterwards. -/
def writeConfig (config : Config) (file : File) : Nat × File :=
  if !file.writable then (1, file)
  else
    let configEntriesToWrite := config.configEntries.map ConfigEntry.convertBeforeWrite
    (0, file.overwrite (json.dump configEntriesToWrite))

/-- The return code and the configuration afterwards. -/
def readConfig (config : Config) (file : File) : Except JsonError (Nat × Config) :=
  match file.content with
  | none => .ok (1, config)
  | some content =>
      match json.parse content with
      | none => .error .parseFailed
      | some configEntries => .ok (0, ⟨configEntries.map ConfigEntry.convertAfterRead⟩)

/-- `~Config()` writes the configuration as well. -/
def destroy (config : Config) (file : File) : File := (writeConfig json config file).2

def defaultConfig : Config :=
  let ret : List ConfigEntry :=
    [⟨ascii "test_prog", 1, 11, 1, 1⟩, ⟨ascii "test_prog.exe", 1, 11, 1, 1⟩,
      ⟨ascii "chrome.exe", 10, 200, 1, 500⟩, ⟨ascii "devenv.exe", 50, 100, 10, 100⟩]
  ⟨ret.map ConfigEntry.convertAfterRead⟩

end Config

end RemoteMonitoring
