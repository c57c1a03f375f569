/-
Module: RemoteMonitoring.Common.Canonical
Purpose: What the readers of `SerializableHelper` accept, on any stream: each takes exactly the
  bytes its writer makes of the value it returns, and throws on a stream that has failed.
Trusted boundary: none
Main exports: Canonical, Strict, readString_ofBytes, readItems_canonical,
  readVectorSerializeable_ofBytes
-/
import RemoteMonitoring.Common.Serializable

namespace RemoteMonitoring

open ByteText
open WordBytes

/-! ### Scalars and strings -/

theorem readUint32_ofBytes (content : Bytes) :
    readUint32 (.ofBytes content) =
      if 4 ≤ content.length then
        .ok (swapEndian32 (fromMemory32 (content.take 4)), .ofBytes (content.drop 4))
      else .error .readFailed :=
  Decoder.read_check 4 (fun be => swapEndian32 (fromMemory32 be)) content

theorem readUint64_ofBytes (content : Bytes) :
    readUint64 (.ofBytes content) =
      if 8 ≤ content.length then
        .ok (swapEndian64 (fromMemory64 (content.take 8)), .ofBytes (content.drop 8))
      else .error .readFailed :=
  Decoder.read_check 8 (fun be => swapEndian64 (fromMemory64 be)) content

/-- The length that stands in front of a string. -/
def lengthField (content : Bytes) : Nat := (swapEndian32 (fromMemory32 (content.take 4))).toNat

/-- A string is read when the stream has a length field and as many bytes behind it. -/
theorem readString_ofBytes (content : Bytes) :
    readString (.ofBytes content) =
      if 4 + lengthField content ≤ content.length then
        .ok ((content.drop 4).take (lengthField content),
          .ofBytes (content.drop (4 + lengthField content)))
      else .error .readFailed := by
  by_cases header : 4 ≤ content.length
  · have size : readUint32 (.ofBytes content) =
        .ok (swapEndian32 (fromMemory32 (content.take 4)), .ofBytes (content.drop 4)) := by
      rw [readUint32_ofBytes, if_pos header]
    have room : lengthField content ≤ (content.drop 4).length ↔
        4 + lengthField content ≤ content.length := by
      simp only [List.length_drop]
      omega
    rw [readString, Decoder.bind_ok size]
    have body := Decoder.read_check (lengthField content) id (content.drop 4)
    simp only [room, id, List.drop_drop] at body
    exact body
  · have short : ¬ 4 + lengthField content ≤ content.length := by omega
    simp [readString, bind, StateT.bind, readUint32_ofBytes, header, short, Except.bind]

/-- The reader of one element takes exactly what the writer makes of the element it
returns, and leaves a stream in good state. -/
def Canonical {α : Type} (serialize : α → Except RuntimeError Bytes) (deserialize : Decoder α) :
    Prop :=
  ∀ {content : Bytes} {item : α} {after : IStream},
    deserialize (.ofBytes content) = .ok (item, after) →
      ∃ out rest, serialize item = .ok out ∧ content = out ++ rest ∧ after = .ofBytes rest

/-- Four bytes that are read are those that the number is written as. -/
theorem readUint32_canonical : Canonical (fun value => .ok (writeUint32 value)) readUint32 := by
  intro content value after reads
  rw [readUint32_ofBytes] at reads
  split at reads
  · rename_i enough
    cases reads
    refine ⟨_, content.drop 4, rfl, ?_, rfl⟩
    have width : (content.take 4).length = 4 := by simpa using enough
    simp [writeUint32, toMemory32_fromMemory32 width]
  · cases reads

/-- The same for eight bytes. -/
theorem readUint64_canonical : Canonical (fun value => .ok (writeUint64 value)) readUint64 := by
  intro content value after reads
  rw [readUint64_ofBytes] at reads
  split at reads
  · rename_i enough
    cases reads
    refine ⟨_, content.drop 8, rfl, ?_, rfl⟩
    have width : (content.take 8).length = 8 := by simpa using enough
    simp [writeUint64, toMemory64_fromMemory64 width]
  · cases reads

/-- Any string that is read is written back as the same bytes. -/
theorem readString_canonical : Canonical writeString readString := by
  intro content str after reads
  rw [readString_ofBytes] at reads
  split at reads
  · rename_i enough
    cases reads
    have size : ((content.drop 4).take (lengthField content)).length = lengthField content := by
      simp only [List.length_take, List.length_drop]
      omega
    have bound : lengthField content < 2 ^ 32 := UInt32.toNat_lt _
    have width : (content.take 4).length = 4 := by
      simp only [List.length_take]
      omega
    have header : writeUint32 (UInt32.ofNat (lengthField content)) = content.take 4 := by
      simp [writeUint32, lengthField, toMemory32_fromMemory32 width]
    refine ⟨_, content.drop (4 + lengthField content),
      writeString_eq_ok.mpr ⟨size.symm ▸ bound, rfl⟩, ?_, rfl⟩
    rw [size, header, List.append_assoc, ← List.drop_drop, List.take_append_drop,
      List.take_append_drop]
  · cases reads

namespace Decoder

variable {α β : Type}

/-- A reader that returned has returned from its first part. -/
theorem bind_eq_ok {first : Decoder α} {next : α → Decoder β} {is after : IStream} {value : β} :
    (first >>= next) is = .ok (value, after) ↔
      ∃ middle is', first is = .ok (middle, is') ∧ next middle is' = .ok (value, after) := by
  cases done : first is with
  | error e => simp [bind, StateT.bind, Except.bind, done]
  | ok outcome =>
      obtain ⟨middle, is'⟩ := outcome
      simp [bind, StateT.bind, Except.bind, done]

end Decoder

section Vectors

variable {α : Type} {serialize : α → Except RuntimeError Bytes} {deserialize : Decoder α}

/-- On a stream that a read has failed on, no element is made up. -/
def Strict (deserialize : Decoder α) : Prop :=
  ∀ is : IStream, is.good = false → ∃ e, deserialize is = .error e

theorem readUint32_strict : Strict readUint32 := fun _ bad =>
  ⟨_, Decoder.read_check_of_not_good bad 4 _⟩

theorem readUint64_strict : Strict readUint64 := fun _ bad =>
  ⟨_, Decoder.read_check_of_not_good bad 8 _⟩

theorem Strict.bind {β : Type} {first : Decoder β} (strict : Strict first)
    (next : β → Decoder α) : Strict (first >>= next) := by
  intro is bad
  obtain ⟨e, throws⟩ := strict is bad
  exact ⟨e, by simp [Bind.bind, StateT.bind, throws, Except.bind]⟩

theorem readString_strict : Strict readString := readUint32_strict.bind _

/-- Items that are read are written back, if each of them is. -/
theorem readItems_canonical (canonical : Canonical serialize deserialize) {count : Nat}
    {content : Bytes} {items : List α} {after : IStream}
    (reads : readItems deserialize count (.ofBytes content) = .ok (items, after)) :
    ∃ outs rest, items.length = count ∧ items.mapM serialize = .ok outs ∧
      content = outs.flatten ++ rest ∧ after = .ofBytes rest := by
  induction count generalizing content items with
  | zero =>
      cases reads
      exact ⟨[], content, rfl, rfl, rfl, rfl⟩
  | succ count ih =>
      rw [readItems] at reads
      obtain ⟨item, middle, first, reads⟩ := Decoder.bind_eq_ok.mp reads
      obtain ⟨out, behind, written, rfl, rfl⟩ := canonical first
      obtain ⟨later, last, others, reads⟩ := Decoder.bind_eq_ok.mp reads
      cases reads
      obtain ⟨outs, rest, length, writtenLater, rfl, rfl⟩ := ih others
      refine ⟨out :: outs, rest, by simp [length], ?_, by simp, rfl⟩
      simp [List.mapM_cons, written, writtenLater, bind, Except.bind, pure, Except.pure]

/-- The count that `read_vector_serializeable` goes by: the bytes that are there, and
behind them what the uninitialised variable held. -/
def countField (netCount : UInt32) (content : Bytes) : Nat :=
  (swapEndian32 (fromMemory32
    (content.take 4 ++ (toMemory32 netCount).drop (content.take 4).length))).toNat

/-- A vector is as many items as its count field says. -/
theorem readVectorSerializeable_ofBytes (netCount : UInt32) (content : Bytes) :
    readVectorSerializeable deserialize netCount (.ofBytes content) =
      readItems deserialize (countField netCount content)
        (if 4 ≤ content.length then .ofBytes (content.drop 4) else ⟨[], true, true⟩) := by
  by_cases enough : 4 ≤ content.length
  · simp [readVectorSerializeable, bind, StateT.bind, Except.bind, Decoder.read,
      IStream.read_ofBytes, enough, countField]
  · have whole : content.take 4 = content := List.take_of_length_le (by omega)
    simp [readVectorSerializeable, bind, StateT.bind, Except.bind, Decoder.read,
      IStream.read_ofBytes, enough, countField, whole]

/-- With a whole count field in the stream the uninitialised variable does not matter. -/
theorem countField_eq {content : Bytes} (enough : 4 ≤ content.length) (netCount : UInt32) :
    countField netCount content = lengthField content := by
  have width : (content.take 4).length = 4 := by simpa using enough
  have none : (toMemory32 netCount).drop 4 = [] := by simp
  rw [countField, width, none, List.append_nil, lengthField]

/-- The count is 0 exactly when all bytes that it is made of are. -/
theorem countField_eq_zero {netCount : UInt32} {content : Bytes} :
    countField netCount content = 0 ↔
      (∀ byte ∈ content.take 4, byte = 0) ∧
        ∀ byte ∈ (toMemory32 netCount).drop (content.take 4).length, byte = 0 := by
  have zero : swapEndian32 0 = 0 := by decide
  have unswapped (value : UInt32) : (swapEndian32 value).toNat = 0 ↔ value = 0 := by
    rw [← UInt32.toNat_zero, UInt32.toNat_inj]
    constructor
    · intro swapped
      rw [← swapEndian32_swapEndian32 value, swapped, zero]
    · rintro rfl
      exact zero
  have width : (content.take 4 ++ (toMemory32 netCount).drop (content.take 4).length).length = 4 := by
    simp only [List.length_append, List.length_drop, toMemory32_length, List.length_take]
    omega
  have bound := littleValue_lt (content.take 4 ++ (toMemory32 netCount).drop (content.take 4).length)
  rw [width] at bound
  rw [countField, unswapped, fromMemory32, ← UInt32.toNat_inj, UInt32.toNat_ofNat',
    Nat.mod_eq_of_lt (by omega), UInt32.toNat_zero, littleValue_eq_zero, List.forall_mem_append]

end Vectors

end RemoteMonitoring
