/-
Module: RemoteMonitoring.Common.Serializable
Purpose: The binary writers and readers of `SerializableHelper` (common/serializable.hpp and
  .cpp): byte swapping, integers, length-prefixed strings and counted vectors.
Trusted boundary: little-endian host; allocation of a decoded string or vector succeeds
Main exports: swapEndian32, swapEndian64, writeUint32, readUint32, writeUint64, readUint64,
  writeString, readString, writeVectorSerializeable, readVectorSerializeable
-/
import RemoteMonitoring.Lib.IStream
import RemoteMonitoring.Lib.WordBytes

namespace RemoteMonitoring

open ByteText
open WordBytes

/-- The `std::runtime_error`s of the writers, the readers and `send_exact`. -/
inductive RuntimeError where
  | stringTooLarge
  | readFailed
  | sendFailed
deriving DecidableEq, Repr, Inhabited

/-- A reader advances the stream it is given and returns a value, or throws. -/
abbrev Decoder := StateT IStream (Except RuntimeError)

namespace Decoder

variable {α β : Type}

/-- `is.read(buffer, count)`, with the bytes that reached the buffer. -/
def read (count : Nat) : Decoder Bytes := fun is => .ok (is.read count)

/-- `if (!is) throw std::runtime_error("read failed")`. -/
def check : Decoder Unit := fun is =>
  if is.fail then .error .readFailed else .ok ((), is)

theorem bind_ok {first : Decoder α} {next : α → Decoder β} {is is' : IStream} {value : α}
    (done : first is = .ok (value, is')) : (first >>= next) is = next value is' := by
  simp only [bind, StateT.bind, done, Except.bind]

@[simp] theorem pure_apply (value : α) (is : IStream) :
    (pure value : Decoder α) is = .ok (value, is) := rfl

@[simp] theorem check_ofBytes (content : Bytes) :
    check (.ofBytes content) = .ok ((), .ofBytes content) := rfl

theorem read_append {count : Nat} {front : Bytes} (rest : Bytes)
    (exact : front.length = count) :
    read count (.ofBytes (front ++ rest)) = .ok (front, .ofBytes rest) := by
  rw [read, IStream.read_of_append rest exact]

/-- What the scalar readers do: read, look at the stream, go on with the bytes. -/
theorem read_check (count : Nat) (next : Bytes → α) (content : Bytes) :
    (do
      let bytes ← read count
      check
      return next bytes : Decoder α) (.ofBytes content) =
      if count ≤ content.length then
        .ok (next (content.take count), .ofBytes (content.drop count))
      else .error .readFailed := by
  by_cases enough : count ≤ content.length
  · simp [bind, StateT.bind, Except.bind, read, IStream.read_ofBytes, enough]
  · simp [bind, StateT.bind, Except.bind, read, IStream.read_ofBytes, enough, check]

/-- A stream that a read has failed on makes the next checked read throw. -/
theorem read_check_of_not_good {is : IStream} (bad : is.good = false) (count : Nat)
    (next : Bytes → Decoder α) :
    (do
      let bytes ← read count
      check
      next bytes : Decoder α) is = .error .readFailed := by
  simp [bind, StateT.bind, Except.bind, read, IStream.read_of_not_good count bad, check]

end Decoder

/-! ### Byte order -/

/-- The object representation of an integer on the little-endian host. -/
def toMemory32 (value : UInt32) : Bytes := littleEndian 4 value.toNat
def toMemory64 (value : UInt64) : Bytes := littleEndian 8 value.toNat
def fromMemory32 (bytes : Bytes) : UInt32 := UInt32.ofNat (littleValue bytes)
def fromMemory64 (bytes : Bytes) : UInt64 := UInt64.ofNat (littleValue bytes)

def swapEndian32 (value : UInt32) : UInt32 :=
  ((value &&& 0x000000FF) <<< 24) ||| ((value &&& 0x0000FF00) <<< 8) |||
    ((value &&& 0x00FF0000) >>> 8) ||| ((value &&& 0xFF000000) >>> 24)

/-- Byte `i` of the array that the 64-bit overload fills. -/
def swapByte (value : UInt64) (i : Nat) : UInt8 :=
  ((value >>> (8 * i).toUInt64) &&& 0xff).toUInt8

def swapEndian64 (value : UInt64) : UInt64 :=
  (List.range 8).foldl
    (fun swapped i => swapped ||| ((swapByte value i).toUInt64 <<< (8 * (7 - i)).toUInt64)) 0

/-- Swapping reverses the bytes in the memory. -/
theorem swapEndian32_toNat (value : UInt32) :
    (swapEndian32 value).toNat = littleValue (toMemory32 value).reverse := by
  have byte0 : ((value &&& 0x000000FF) <<< 24).toNat = 2 ^ 24 * (value.toNat % 256) := by
    simp [Nat.shiftLeft_eq, and_byte]
    omega
  have byte1 : ((value &&& 0x0000FF00) <<< 8).toNat =
      2 ^ 16 * (value.toNat / 2 ^ 8 % 256) := by
    have mask : value.toNat &&& 65280 = 256 * (value.toNat / 256 % 256) :=
      and_byte_at 8 value.toNat
    simp [Nat.shiftLeft_eq, mask]
    omega
  have byte2 : ((value &&& 0x00FF0000) >>> 8).toNat =
      2 ^ 8 * (value.toNat / 2 ^ 16 % 256) := by
    have mask : value.toNat &&& 16711680 = 65536 * (value.toNat / 65536 % 256) :=
      and_byte_at 16 value.toNat
    simp [Nat.shiftRight_eq_div_pow, mask]
    omega
  have byte3 : ((value &&& 0xFF000000) >>> 24).toNat =
      2 ^ 0 * (value.toNat / 2 ^ 24 % 256) := by
    have mask : value.toNat &&& 4278190080 = 16777216 * (value.toNat / 16777216 % 256) :=
      and_byte_at 24 value.toNat
    simp [Nat.shiftRight_eq_div_pow, mask]
  unfold swapEndian32
  rw [UInt32.toNat_or, UInt32.toNat_or, UInt32.toNat_or, byte0, byte1, byte2, byte3,
    or_byte 16, or_byte 8, or_byte 0]
  simp [toMemory32, littleEndian, littleValue, Nat.div_div_eq_div_mul]
  omega

theorem swapByte_toNat (value : UInt64) {i : Nat} (inside : i < 8) :
    ((swapByte value i).toUInt64 <<< (8 * (7 - i)).toUInt64).toNat =
      2 ^ (8 * (7 - i)) * (value.toNat / 256 ^ i % 256) := by
  unfold swapByte
  interval_cases i <;>
    simp [Nat.shiftLeft_eq, Nat.shiftRight_eq_div_pow, and_byte] <;> omega

/-- The same for eight bytes. -/
theorem swapEndian64_toNat (value : UInt64) :
    (swapEndian64 value).toNat = littleValue (toMemory64 value).reverse := by
  simp only [swapEndian64, List.range, List.range.loop, List.foldl, UInt64.toNat_or,
    swapByte_toNat value (show 0 < 8 by decide), swapByte_toNat value (show 1 < 8 by decide),
    swapByte_toNat value (show 2 < 8 by decide), swapByte_toNat value (show 3 < 8 by decide),
    swapByte_toNat value (show 4 < 8 by decide), swapByte_toNat value (show 5 < 8 by decide),
    swapByte_toNat value (show 6 < 8 by decide), swapByte_toNat value (show 7 < 8 by decide)]
  rw [UInt64.toNat_zero, Nat.zero_or, or_byte 48, or_byte 40, or_byte 32, or_byte 24,
    or_byte 16, or_byte 8, or_byte 0]
  simp [toMemory64, littleEndian, littleValue, Nat.div_div_eq_div_mul]
  omega

@[simp] theorem toMemory32_length (value : UInt32) : (toMemory32 value).length = 4 := by
  simp [toMemory32]

@[simp] theorem toMemory64_length (value : UInt64) : (toMemory64 value).length = 8 := by
  simp [toMemory64]

/-- In memory a swapped integer is the reversed byte string. -/
theorem toMemory32_swapEndian32 (value : UInt32) :
    toMemory32 (swapEndian32 value) = (toMemory32 value).reverse := by
  have width : (toMemory32 value).reverse.length = 4 := by simp
  rw [toMemory32, swapEndian32_toNat, ← width, littleEndian_littleValue]

theorem toMemory64_swapEndian64 (value : UInt64) :
    toMemory64 (swapEndian64 value) = (toMemory64 value).reverse := by
  have width : (toMemory64 value).reverse.length = 8 := by simp
  rw [toMemory64, swapEndian64_toNat, ← width, littleEndian_littleValue]

@[simp] theorem fromMemory32_toMemory32 (value : UInt32) :
    fromMemory32 (toMemory32 value) = value := by
  have small := value.toNat_lt
  rw [fromMemory32, toMemory32, littleValue_littleEndian, Nat.mod_eq_of_lt (by omega),
    UInt32.ofNat_toNat]

@[simp] theorem fromMemory64_toMemory64 (value : UInt64) :
    fromMemory64 (toMemory64 value) = value := by
  have small := value.toNat_lt
  rw [fromMemory64, toMemory64, littleValue_littleEndian, Nat.mod_eq_of_lt (by omega),
    UInt64.ofNat_toNat]

theorem toMemory32_fromMemory32 {bytes : Bytes} (width : bytes.length = 4) :
    toMemory32 (fromMemory32 bytes) = bytes := by
  have bound := littleValue_lt bytes
  rw [width] at bound
  rw [toMemory32, fromMemory32, UInt32.toNat_ofNat', Nat.mod_eq_of_lt (by omega), ← width,
    littleEndian_littleValue]

theorem toMemory64_fromMemory64 {bytes : Bytes} (width : bytes.length = 8) :
    toMemory64 (fromMemory64 bytes) = bytes := by
  have bound := littleValue_lt bytes
  rw [width] at bound
  rw [toMemory64, fromMemory64, UInt64.toNat_ofNat', Nat.mod_eq_of_lt (by omega), ← width,
    littleEndian_littleValue]

theorem toMemory32_injective {one two : UInt32} (same : toMemory32 one = toMemory32 two) :
    one = two := by
  rw [← fromMemory32_toMemory32 one, same, fromMemory32_toMemory32]

theorem toMemory64_injective {one two : UInt64} (same : toMemory64 one = toMemory64 two) :
    one = two := by
  rw [← fromMemory64_toMemory64 one, same, fromMemory64_toMemory64]

@[simp] theorem swapEndian32_swapEndian32 (value : UInt32) :
    swapEndian32 (swapEndian32 value) = value := by
  apply toMemory32_injective
  rw [toMemory32_swapEndian32, toMemory32_swapEndian32, List.reverse_reverse]

@[simp] theorem swapEndian64_swapEndian64 (value : UInt64) :
    swapEndian64 (swapEndian64 value) = value := by
  apply toMemory64_injective
  rw [toMemory64_swapEndian64, toMemory64_swapEndian64, List.reverse_reverse]

/-! ### Integers and strings -/

def writeUint32 (value : UInt32) : Bytes := toMemory32 (swapEndian32 value)

def readUint32 : Decoder UInt32 := do
  let be ← Decoder.read 4
  Decoder.check
  return swapEndian32 (fromMemory32 be)

def writeUint64 (value : UInt64) : Bytes := toMemory64 (swapEndian64 value)

def readUint64 : Decoder UInt64 := do
  let be ← Decoder.read 8
  Decoder.check
  return swapEndian64 (fromMemory64 be)

def uint32Max : Nat := 2 ^ 32 - 1

def writeString (str : Bytes) : Except RuntimeError Bytes :=
  if str.length > uint32Max then .error .stringTooLarge
  else .ok (writeUint32 (UInt32.ofNat str.length) ++ str)

def readString : Decoder Bytes := do
  let size ← readUint32
  let str ← Decoder.read size.toNat
  Decoder.check
  return str

/-! ### Vectors -/

section Vectors

variable {α : Type}

/-- The element count is narrowed to 32 bits without a check. -/
def writeVectorSerializeable (serialize : α → Except RuntimeError Bytes) (vec : List α) :
    Except RuntimeError Bytes := do
  let items ← vec.mapM serialize
  return toMemory32 (swapEndian32 (UInt32.ofNat vec.length)) ++ items.flatten

/-- `count` elements, one after another. -/
def readItems (deserialize : Decoder α) : Nat → Decoder (List α)
  | 0 => return []
  | count + 1 => do
      let item ← deserialize
      let items ← readItems deserialize count
      return item :: items

/-- The count is read without looking at the stream afterwards: bytes that are
missing keep the value that the uninitialised variable `netCount` had. -/
def readVectorSerializeable (deserialize : Decoder α) (netCount : UInt32) :
    Decoder (List α) := do
  let got ← Decoder.read 4
  let netCount := fromMemory32 (got ++ (toMemory32 netCount).drop got.length)
  readItems deserialize (swapEndian32 netCount).toNat

end Vectors

/-- The loops of the vector functions, over strings. -/
def writeVectorString (vec : List Bytes) : Except RuntimeError Bytes :=
  writeVectorSerializeable writeString vec

def readVectorString (netCount : UInt32) : Decoder (List Bytes) :=
  readVectorSerializeable readString netCount

/-! ### Reading back what was written -/

@[simp] theorem writeUint32_length (value : UInt32) : (writeUint32 value).length = 4 := by
  simp [writeUint32]

@[simp] theorem writeUint64_length (value : UInt64) : (writeUint64 value).length = 8 := by
  simp [writeUint64]

theorem readUint32_writeUint32 (value : UInt32) (rest : Bytes) :
    readUint32 (.ofBytes (writeUint32 value ++ rest)) = .ok (value, .ofBytes rest) := by
  rw [readUint32, Decoder.bind_ok (Decoder.read_append rest (writeUint32_length value)),
    Decoder.bind_ok (Decoder.check_ofBytes rest)]
  simp [writeUint32]

theorem readUint64_writeUint64 (value : UInt64) (rest : Bytes) :
    readUint64 (.ofBytes (writeUint64 value ++ rest)) = .ok (value, .ofBytes rest) := by
  rw [readUint64, Decoder.bind_ok (Decoder.read_append rest (writeUint64_length value)),
    Decoder.bind_ok (Decoder.check_ofBytes rest)]
  simp [writeUint64]

/-- A string is written with its length, if that fits into 32 bits. -/
theorem writeString_eq_ok {str out : Bytes} :
    writeString str = .ok out ↔
      str.length < 2 ^ 32 ∧ out = writeUint32 (UInt32.ofNat str.length) ++ str := by
  unfold writeString uint32Max
  split
  · rename_i large
    simp only [reduceCtorEq, false_iff, not_and]
    intro small
    omega
  · rename_i small
    have fits : str.length < 2 ^ 32 := by omega
    simp only [Except.ok.injEq, fits, true_and]
    exact eq_comm

/-- A string that `writeString` accepts is read back, up to exactly its end. -/
theorem readString_writeString {str out : Bytes} (written : writeString str = .ok out)
    (rest : Bytes) :
    readString (.ofBytes (out ++ rest)) = .ok (str, .ofBytes rest) := by
  obtain ⟨fits, rfl⟩ := writeString_eq_ok.mp written
  have size : str.length = (UInt32.ofNat str.length).toNat := by
    rw [UInt32.toNat_ofNat', Nat.mod_eq_of_lt fits]
  rw [readString, List.append_assoc, Decoder.bind_ok (readUint32_writeUint32 _ _),
    Decoder.bind_ok (Decoder.read_append rest size),
    Decoder.bind_ok (Decoder.check_ofBytes rest), Decoder.pure_apply]

section Vectors

variable {α : Type} {serialize : α → Except RuntimeError Bytes} {deserialize : Decoder α}

/-- The reader of one element inverts its writer, whatever follows. -/
def RoundTrips (serialize : α → Except RuntimeError Bytes) (deserialize : Decoder α) : Prop :=
  ∀ {item : α} {out : Bytes}, serialize item = .ok out →
    ∀ rest, deserialize (.ofBytes (out ++ rest)) = .ok (item, .ofBytes rest)

theorem mapM_cons_eq_ok {item : α} {items : List α} {outs : List Bytes}
    (written : (item :: items).mapM serialize = .ok outs) :
    ∃ out tail, outs = out :: tail ∧ serialize item = .ok out ∧
      items.mapM serialize = .ok tail := by
  rw [List.mapM_cons] at written
  cases first : serialize item with
  | error e => simp [first, bind, Except.bind] at written
  | ok out =>
      cases others : items.mapM serialize with
      | error e => simp [first, others, bind, Except.bind] at written
      | ok tail =>
          simp only [first, others, bind, Except.bind, pure, Except.pure,
            Except.ok.injEq] at written
          exact ⟨out, tail, written.symm, rfl, rfl⟩

/-- Items that were written are read back, if each of them is. -/
theorem readItems_mapM (inverse : RoundTrips serialize deserialize) {items : List α}
    {outs : List Bytes} (written : items.mapM serialize = .ok outs) (rest : Bytes) :
    readItems deserialize items.length (.ofBytes (outs.flatten ++ rest)) =
      .ok (items, .ofBytes rest) := by
  induction items generalizing outs with
  | nil =>
      cases written
      rfl
  | cons item items ih =>
      obtain ⟨out, tail, rfl, first, others⟩ := mapM_cons_eq_ok written
      rw [List.flatten_cons, List.append_assoc, List.length_cons, readItems,
        Decoder.bind_ok (inverse first _), Decoder.bind_ok (ih others), Decoder.pure_apply]

theorem writeVectorSerializeable_eq_ok {vec : List α} {out : Bytes} :
    writeVectorSerializeable serialize vec = .ok out ↔
      ∃ outs, vec.mapM serialize = .ok outs ∧
        out = writeUint32 (UInt32.ofNat vec.length) ++ outs.flatten := by
  unfold writeVectorSerializeable writeUint32
  cases items : vec.mapM serialize with
  | error e => simp [bind, Except.bind]
  | ok outs => simp [bind, Except.bind, pure, Except.pure, eq_comm]

/-- A vector whose length fits the count field is read back, whatever the
uninitialised count held. -/
theorem readVectorSerializeable_write (inverse : RoundTrips serialize deserialize)
    {vec : List α} {out : Bytes} (fits : vec.length < 2 ^ 32)
    (written : writeVectorSerializeable serialize vec = .ok out)
    (netCount : UInt32) (rest : Bytes) :
    readVectorSerializeable deserialize netCount (.ofBytes (out ++ rest)) =
      .ok (vec, .ofBytes rest) := by
  obtain ⟨outs, items, rfl⟩ := writeVectorSerializeable_eq_ok.mp written
  have size : (UInt32.ofNat vec.length).toNat = vec.length := by
    rw [UInt32.toNat_ofNat', Nat.mod_eq_of_lt fits]
  rw [readVectorSerializeable, List.append_assoc,
    Decoder.bind_ok (Decoder.read_append _ (writeUint32_length _))]
  have count : swapEndian32 (fromMemory32 (writeUint32 (UInt32.ofNat vec.length) ++
      (toMemory32 netCount).drop (writeUint32 (UInt32.ofNat vec.length)).length)) =
      UInt32.ofNat vec.length := by
    rw [writeUint32_length, List.drop_of_length_le (toMemory32_length netCount).le]
    simp [writeUint32]
  simp only [count, size]
  exact readItems_mapM inverse items rest

end Vectors

end RemoteMonitoring
