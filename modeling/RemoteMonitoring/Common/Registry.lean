/-
Module: RemoteMonitoring.Common.Registry
Purpose: `RegKey` (common/registry.hpp and .cpp) and what of the configuration goes through it:
  `serialize_registry` and `deserialize_registry` (common/config_entry.cpp), and `write_config`
  and `read_config` (common/config.cpp) on the platform with a registry.
Trusted boundary: the registry keeps the bytes it is given; the program can open all of its keys
  or none; no name differs from another in case only; memory suffices
Main exports: Registry, RegKey, ConfigEntry.serializeRegistry, ConfigEntry.deserializeRegistry,
  Config.writeRegistry, Config.readRegistry
-/
import RemoteMonitoring.Common.Config
import RemoteMonitoring.Lib.KeyTree
import RemoteMonitoring.Lib.WordBytes

namespace RemoteMonitoring

open ByteText
open WordBytes (littleEndian littleValue)

/-- A `std::wstring`, of 16-bit characters. -/
abbrev WString := List UInt16

/-- A `char` is signed, so the upper half of the bytes is extended by ones. -/
def toWChar (char : UInt8) : UInt16 :=
  if char < 128 then char.toUInt16 else 0xFF00 + char.toUInt16

/-- "convert to wstring under assumption that it's only ascii" -/
def toWstring (str : Bytes) : WString := str.map toWChar

/-- "possible loss of data" -/
def WString.toString (wstr : WString) : Bytes := wstr.map UInt16.toUInt8

/-- A wide literal. -/
def wide (text : String) : WString := toWstring (ascii text)

/-! ### The registry -/

def regSz : UInt32 := 1
def regExpandSz : UInt32 := 2
def regDword : UInt32 := 4
def regQword : UInt32 := 11

structure RegValue where
  type : UInt32
  data : Bytes
deriving DecidableEq, Repr

def backslash : UInt16 := 92

/-- The keys of the current user, and whether they can be opened to read and write. -/
structure Registry where
  tree : KeyTree UInt16 RegValue
  opens : Bool

/-- The member `hKey`: the key that is open. -/
abbrev RegKey := Option WString

namespace RegKey

/-- The constructor: a key that is not there is created. -/
def openOrCreate (subKey : WString) (registry : Registry) : RegKey × Registry :=
  if registry.opens then
    (some subKey, { registry with tree := registry.tree.create backslash subKey })
  else (none, registry)

def setRaw (key : RegKey) (name : WString) (type : UInt32) (data : Bytes) (registry : Registry) :
    Registry :=
  match key with
  | none => registry
  | some path => { registry with tree := registry.tree.set path name ⟨type, data⟩ }

def queryRaw (key : RegKey) (name : WString) (registry : Registry) : Option RegValue :=
  match key with
  | none => none
  | some path => registry.tree.query path name

/-- The characters with the terminator, cut to a size of 32 bits. -/
def stringData (value : WString) : Bytes :=
  let size := UInt32.ofNat ((value.length + 1) * 2)
  ((value ++ [0]).flatMap fun (char : UInt16) => littleEndian 2 char.toNat).take size.toNat

def setWstring (key : RegKey) (name value : WString) : Registry → Registry :=
  key.setRaw name regSz (stringData value)

def setDword (key : RegKey) (name : WString) (value : UInt32) : Registry → Registry :=
  key.setRaw name regDword (littleEndian 4 value.toNat)

def setQword (key : RegKey) (name : WString) (value : UInt64) : Registry → Registry :=
  key.setRaw name regQword (littleEndian 8 value.toNat)

/-- The whole characters of a buffer. -/
def characters : Bytes → WString
  | low :: high :: rest => UInt16.ofNat (littleValue [low, high]) :: characters rest
  | _ => []

/-- One terminator is dropped. -/
def dropTerminator (data : WString) : WString :=
  if data.getLast? = some 0 then data.dropLast else data

def getWstring (key : RegKey) (name : WString) (registry : Registry) : Option WString :=
  match key.queryRaw name registry with
  | none => none
  | some value =>
      if value.type ≠ regSz ∧ value.type ≠ regExpandSz then none
      else some (dropTerminator (characters value.data))

def getDword (key : RegKey) (name : WString) (registry : Registry) : Option UInt32 :=
  match key.queryRaw name registry with
  | none => none
  | some value =>
      if value.type ≠ regDword ∨ value.data.length ≠ 4 then none
      else some (UInt32.ofNat (littleValue value.data))

def getQword (key : RegKey) (name : WString) (registry : Registry) : Option UInt64 :=
  match key.queryRaw name registry with
  | none => none
  | some value =>
      if value.type ≠ regQword ∨ value.data.length ≠ 8 then none
      else some (UInt64.ofNat (littleValue value.data))

end RegKey

/-! ### One entry -/

namespace ConfigEntry

def serializeRegistry (entry : ConfigEntry) (key : RegKey) (registry : Registry) : Registry :=
  let registry := key.setWstring (wide "process_name") (toWstring entry.processName) registry
  let registry := key.setDword (wide "cpu_usage") entry.cpuUsage registry
  let registry := key.setQword (wide "mem_usage") entry.memUsage registry
  let registry := key.setQword (wide "disk_usage") entry.diskUsage registry
  key.setQword (wide "network_usage") entry.networkUsage registry

/-- The return code, and the entry with the fields that could be read. -/
def deserializeRegistry (key : RegKey) (registry : Registry) (entry : ConfigEntry) :
    Nat × ConfigEntry :=
  let processName := key.getWstring (wide "process_name") registry
  let cpuUsage := key.getDword (wide "cpu_usage") registry
  let memUsage := key.getQword (wide "mem_usage") registry
  let diskUsage := key.getQword (wide "disk_usage") registry
  let networkUsage := key.getQword (wide "network_usage") registry
  let complete := processName.isSome && cpuUsage.isSome && memUsage.isSome && diskUsage.isSome &&
    networkUsage.isSome
  (if complete then 0 else 1,
    { processName := (processName.map WString.toString).getD entry.processName
      cpuUsage := cpuUsage.getD entry.cpuUsage
      memUsage := memUsage.getD entry.memUsage
      diskUsage := diskUsage.getD entry.diskUsage
      networkUsage := networkUsage.getD entry.networkUsage })

end ConfigEntry

/-! ### The configuration -/

namespace Config

def registryPrefix : WString := wide "Software\\RemoteMonitoringTool\\config"

/-- The key of an entry: the prefix, a backslash, and `std::to_wstring(i)`. -/
def entryKey (index : Nat) : WString := registryPrefix ++ backslash :: toWstring (decimal index)

def countName : WString := wide "count"

/-- The loop that writes, from an index on. -/
def writeEntries : Nat → List ConfigEntry → Registry → Registry
  | _, [], registry => registry
  | index, entry :: later, registry =>
      let (key, registry) := RegKey.openOrCreate (entryKey index) registry
      writeEntries (index + 1) later (entry.serializeRegistry key registry)

/-- Its return code is always 0. -/
def writeRegistry (config : Config) (registry : Registry) : Registry :=
  let registry :=
    if registry.opens then
      { registry with tree := registry.tree.deleteTree backslash registryPrefix }
    else registry
  let (key, registry) := RegKey.openOrCreate registryPrefix registry
  let registry := key.setDword countName (UInt32.ofNat config.configEntries.length) registry
  writeEntries 0 (config.configEntries.map ConfigEntry.convertBeforeWrite) registry

/-- The exceptions of a `std::vector`. -/
inductive VectorError where
  | lengthError
deriving DecidableEq, Repr, Inhabited

/-- What the members of a `ConfigEntry` hold that its constructor does not set. -/
structure Unset where
  cpuUsage : UInt32
  memUsage : UInt64
  diskUsage : UInt64
  networkUsage : UInt64
deriving DecidableEq, Repr, Inhabited

def Unset.entry (unset : Unset) : ConfigEntry :=
  ⟨[], unset.cpuUsage, unset.memUsage, unset.diskUsage, unset.networkUsage⟩

/-- `std::vector::resize` -/
def resize (unset : Nat → Unset) (count : Nat) (entries : List ConfigEntry) : List ConfigEntry :=
  entries.take count ++
    (List.range' entries.length (count - entries.length)).map fun index => (unset index).entry

/-- The loop that reads, from an index on: whether all entries were complete, the entries, and
the registry with the keys that were missing. -/
def readEntries : Nat → List ConfigEntry → Registry → Nat × List ConfigEntry × Registry
  | _, [], registry => (0, [], registry)
  | index, entry :: later, registry =>
      let (key, registry) := RegKey.openOrCreate (entryKey index) registry
      let (code, entry) := entry.deserializeRegistry key registry
      let (later, entries, registry) := readEntries (index + 1) later registry
      (if code ≠ 0 then 1 else later, entry :: entries, registry)

/-- The return code, the configuration and the registry afterwards.  A count that is negative as
an `int` is too much for `resize`. -/
def readRegistry (unset : Nat → Unset) (config : Config) (registry : Registry) :
    Except VectorError (Nat × Config × Registry) :=
  let (key, registry) := RegKey.openOrCreate registryPrefix registry
  match key.getDword countName registry with
  | none => .ok (1, config, registry)
  | some count =>
      if 2 ^ 31 ≤ count.toNat then .error .lengthError
      else
        let entries := resize unset count.toNat config.configEntries
        let (returnCode, entries, registry) := readEntries 0 entries registry
        .ok (returnCode, ⟨entries.map ConfigEntry.convertAfterRead⟩, registry)

/-- What can be stored: the sizes fit an `int`, and a name with its terminator the size argument
of a value. -/
def Storable (config : Config) : Prop :=
  config.configEntries.length < 2 ^ 31 ∧
    ∀ entry ∈ config.configEntries, entry.processName.length < 2 ^ 31 - 1

instance (config : Config) : Decidable config.Storable :=
  inferInstanceAs (Decidable (_ ∧ _))

end Config

end RemoteMonitoring
