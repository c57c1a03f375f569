/-
Module: RemoteMonitoring.System.SendPath
Purpose: A payload from its parts to the peer: the writers one behind another, `send_message`,
  `recv_message` and the readers, with the sizes that each of them writes in 32 bits.
Trusted boundary: the socket delivers the bytes in the order in which they were sent
Main exports: Part, buildPayload, readParts, ArrivesIntact, SentIntact
-/
import RemoteMonitoring.Common.Config
import RemoteMonitoring.Common.LogEntry
import RemoteMonitoring.Common.Message

namespace RemoteMonitoring

open ByteText

/-- What one call of a writer puts into a payload. -/
inductive Part where
  | string (str : Bytes)
  | strings (vec : List Bytes)
  | logEntries (vec : List LogEntry)
  | configEntries (vec : List ConfigEntry)
deriving DecidableEq, Repr

inductive PartKind where
  | string
  | strings
  | logEntries
  | configEntries
deriving DecidableEq, Repr

namespace Part

def kind : Part → PartKind
  | .string _ => .string
  | .strings _ => .strings
  | .logEntries _ => .logEntries
  | .configEntries _ => .configEntries

def write : Part → Except RuntimeError Bytes
  | .string str => writeString str
  | .strings vec => writeVectorString vec
  | .logEntries vec => writeVectorSerializeable LogEntry.serialize vec
  | .configEntries vec => writeVectorSerializeable ConfigEntry.serialize vec

/-- The strings that stand behind a length. -/
def texts : Part → List Bytes
  | .string str => [str]
  | .strings vec => vec
  | .logEntries vec => vec.map LogEntry.processName
  | .configEntries vec => vec.map ConfigEntry.processName

/-- The number of elements, where there is a count. -/
def counts : Part → List Nat
  | .string _ => []
  | .strings vec => [vec.length]
  | .logEntries vec => [vec.length]
  | .configEntries vec => [vec.length]

/-- How many bytes the part takes. -/
def size : Part → Nat
  | .string str => 4 + str.length
  | .strings vec => 4 + (vec.map fun str => 4 + str.length).sum
  | .logEntries vec => 4 + (vec.map fun entry => 32 + entry.processName.length).sum
  | .configEntries vec => 4 + (vec.map fun entry => 32 + entry.processName.length).sum

end Part

/-- The reader of a part. -/
def PartKind.read (netCount : UInt32) : PartKind → Decoder Part
  | .string => do
      let str ← readString
      return .string str
  | .strings => do
      let vec ← readVectorString netCount
      return .strings vec
  | .logEntries => do
      let vec ← readVectorSerializeable LogEntry.deserialize netCount
      return .logEntries vec
  | .configEntries => do
      let vec ← readVectorSerializeable ConfigEntry.deserialize netCount
      return .configEntries vec

def buildPayload (parts : List Part) : Except RuntimeError Bytes := do
  let outs ← parts.mapM Part.write
  return outs.flatten

/-- The readers one behind another, each with an uninitialised count of its own. -/
def readParts (netCount : Nat → UInt32) : List PartKind → Decoder (List Part)
  | [] => return []
  | kind :: later => do
      let part ← kind.read (netCount 0)
      let parts ← readParts (fun index => netCount (index + 1)) later
      return part :: parts

/-- Every length and count is written as it is; and however the calls split the bytes, all of them
are sent unless one fails, and the peer receives the payload and reads its parts. -/
structure ArrivesIntact (parts : List Part) (payload : Bytes) : Prop where
  whole : ∀ length ∈ payload.length :: parts.flatMap fun part =>
    part.counts ++ part.texts.map List.length, (UInt32.ofNat length).toNat = length
  sent : ∀ accepts, (∀ sent, 1 ≤ accepts sent) → (sendMessage accepts payload []).1 = .ok ()
  received : ∀ accepts, (sendMessage accepts payload []).1 = .ok () → ∀ available rest,
    recvMessage available ((sendMessage accepts payload []).2 ++ rest) = some (payload, rest)
  read : ∀ netCount, readParts netCount (parts.map Part.kind) (.ofBytes payload) =
    .ok (parts, .ofBytes [])

/-- A payload that can be built at all is sent intact; otherwise no byte is sent. -/
def SentIntact (parts : List Part) : Prop :=
  ∀ payload, buildPayload parts = .ok payload → ArrivesIntact parts payload

end RemoteMonitoring
