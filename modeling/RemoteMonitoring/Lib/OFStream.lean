/-
Module: RemoteMonitoring.Lib.OFStream
Purpose: The output side of a file stream: what is written goes to the buffer or to the disk, a
  failure leaves the stream bad, and closing flushes what is left.
Trusted boundary: the outcome of every write is arbitrary
Main exports: WriteOutcome, OFStream, OFStream.write, OFStream.close, OFStream.writes,
  writes_complete_iff
-/
import RemoteMonitoring.Lib.File
import Mathlib.Data.List.Induction

open ByteText

/-- What one write does with the bytes in the buffer and the new ones: all of them
reach the disk, or only so many and the rest stays in the buffer, or only so many
and the rest is lost. -/
inductive WriteOutcome where
  | written
  | buffered (flushed : Nat)
  | failed (flushed : Nat)
deriving DecidableEq, Repr

def WriteOutcome.isFailed : WriteOutcome → Bool
  | .failed _ => true
  | _ => false

/-- A stream that was opened for appending; the file is kept apart from it. -/
structure OFStream where
  buffer : Bytes
  bad : Bool
deriving DecidableEq, Repr

namespace OFStream

def opened : OFStream := ⟨[], false⟩

/-- Write and see what happens.  A bad stream ignores the write; a write that does
not reach the disk as a whole leaves out one byte at least. -/
def write (stream : OFStream) (outcome : WriteOutcome) (text : Bytes) (file : File) :
    OFStream × File :=
  if stream.bad then (stream, file)
  else
    let content := stream.buffer ++ text
    match outcome with
    | .written => (⟨[], false⟩, file.append content)
    | .buffered flushed =>
        let flushed := min flushed (content.length - 1)
        (⟨content.drop flushed, false⟩, file.append (content.take flushed))
    | .failed flushed =>
        let flushed := min flushed (content.length - 1)
        (⟨[], true⟩, file.append (content.take flushed))

/-- The destructor flushes the buffer, which may fail as well. -/
def close (stream : OFStream) (outcome : WriteOutcome) (file : File) : File :=
  if stream.bad then file
  else
    match outcome with
    | .failed flushed => file.append (stream.buffer.take (min flushed (stream.buffer.length - 1)))
    | _ => file.append stream.buffer

/-- A stream with nothing in its buffer leaves an open file alone. -/
theorem close_opened (outcome : WriteOutcome) (file : File) (text : Bytes) :
    opened.close outcome (file.append text) = file.append text := by
  have nothing : (file.append text).append [] = file.append text := by
    rw [File.append_append, List.append_nil]
  cases outcome with
  | written => exact nothing
  | buffered flushed => exact nothing
  | failed flushed =>
      simp only [close, opened, Bool.false_eq_true, if_false, List.take_nil]
      exact nothing

section Writes

variable {α : Type} (outcomes : α → WriteOutcome) (text : α → Bytes)

/-- One write after another, each with its own outcome. -/
def writes (items : List α) (file : File) : OFStream × File :=
  items.foldl (fun s item => s.1.write (outcomes item) (text item) s.2) (opened, file)

theorem writes_concat (items : List α) (item : α) (file : File) :
    writes outcomes text (items ++ [item]) file =
      (writes outcomes text items file).1.write (outcomes item) (text item)
        (writes outcomes text items file).2 := by
  simp [writes]

theorem writable_write (stream : OFStream) (outcome : WriteOutcome) (bytes : Bytes)
    (file : File) : (stream.write outcome bytes file).2.writable = file.writable := by
  unfold write
  split
  · rfl
  · cases outcome with
    | written => exact File.writable_append _ _
    | buffered flushed => exact File.writable_append _ _
    | failed flushed => exact File.writable_append _ _

theorem writable_writes (items : List α) (file : File) :
    (writes outcomes text items file).2.writable = file.writable := by
  induction items using List.reverseRecOn with
  | nil => rfl
  | append_singleton items item ih => rw [writes_concat, writable_write, ih]

/-- When every write goes through, the file is appended to and nothing is left. -/
theorem writes_written (items : List α) (file : File) :
    writes (fun _ => .written) text items (file.append []) =
      (opened, file.append (items.flatMap text)) := by
  induction items using List.reverseRecOn with
  | nil => rfl
  | append_singleton items item ih =>
      rw [writes_concat, ih, List.flatMap_append, List.flatMap_singleton,
        ← File.append_append]
      rfl

/-- As long as no write fails, disk and buffer together hold everything; the buffer
is empty when the last write went through.  After a failure something is missing. -/
structure Accounted (items : List α) (file : File) (stream : OFStream) (after : File) :
    Prop where
  failed : stream.bad = items.any fun item => (outcomes item).isFailed
  whole : stream.bad = false → after.bytes ++ stream.buffer = file.bytes ++ items.flatMap text
  flushed : stream.bad = false →
    (stream.buffer = [] ↔ ∀ item ∈ items.getLast?, outcomes item = .written)
  lost : stream.bad = true → after.bytes.length < (file.bytes ++ items.flatMap text).length

/-- One more write keeps the account. -/
theorem Accounted.write {items : List α} {file after : File} {stream : OFStream}
    (account : Accounted outcomes text items file stream after)
    (opens : after.writable = true) {item : α} (visible : text item ≠ []) :
    Accounted outcomes text (items ++ [item]) file
      (stream.write (outcomes item) (text item) after).1
      (stream.write (outcomes item) (text item) after).2 := by
  have positive : 0 < (text item).length := List.length_pos_iff.mpr visible
  cases bad : stream.bad with
  | true =>
      have failed := account.failed
      have lost := account.lost bad
      rw [bad] at failed
      simp only [OFStream.write, bad, if_true]
      refine ⟨?_, by simp [bad], by simp [bad], ?_⟩
      · simp [bad, ← failed]
      · intro _
        simp only [List.flatMap_append, List.length_append] at lost ⊢
        omega
  | false =>
      have failed := account.failed
      have whole := account.whole bad
      rw [bad] at failed
      have total : file.bytes ++ (items ++ [item]).flatMap text =
          after.bytes ++ (stream.buffer ++ text item) := by
        rw [List.flatMap_append, List.flatMap_singleton, ← List.append_assoc, ← whole,
          List.append_assoc]
      have last : (items ++ [item]).getLast? = some item := by simp
      cases outcome : outcomes item with
      | written =>
          simp only [OFStream.write, bad, Bool.false_eq_true, if_false]
          refine ⟨?_, ?_, ?_, by simp⟩
          · rw [List.any_append, ← failed, Bool.false_or, List.any_cons, outcome]
            rfl
          · intro _
            rw [File.bytes_append opens, total, List.append_nil]
          · simp [outcome]
      | buffered flushed =>
          simp only [OFStream.write, bad, Bool.false_eq_true, if_false]
          refine ⟨?_, ?_, ?_, by simp⟩
          · rw [List.any_append, ← failed, Bool.false_or, List.any_cons, outcome]
            rfl
          · intro _
            rw [File.bytes_append opens, total, List.append_assoc, List.take_append_drop]
          · intro _
            have rest : (stream.buffer ++ text item).drop
                (min flushed ((stream.buffer ++ text item).length - 1)) ≠ [] := by
              apply List.ne_nil_of_length_pos
              rw [List.length_drop, List.length_append]
              omega
            rw [last]
            simp only [Option.mem_def, Option.some.injEq, forall_eq', outcome]
            constructor
            · intro empty
              exact absurd empty rest
            · intro through
              cases through
      | failed flushed =>
          simp only [OFStream.write, bad, Bool.false_eq_true, if_false]
          refine ⟨?_, by simp, by simp, ?_⟩
          · simp [outcome, WriteOutcome.isFailed]
          · intro _
            rw [File.bytes_append opens, total]
            simp only [List.length_append, List.length_take]
            omega

/-- Whatever each write comes to, the file has the bytes of those that were not lost. -/
theorem accounted_writes {file : File} (opens : file.writable = true)
    (visible : ∀ item, text item ≠ []) (items : List α) :
    Accounted outcomes text items file (writes outcomes text items file).1
      (writes outcomes text items file).2 := by
  induction items using List.reverseRecOn with
  | nil =>
      refine ⟨?_, ?_, ?_, ?_⟩
      · simp [writes, opened]
      · simp [writes, opened]
      · simp [writes, opened]
      · simp [writes, opened]
  | append_singleton items item ih =>
      rw [writes_concat]
      exact ih.write outcomes text ((writable_writes outcomes text items file).trans opens)
        (visible item)

/-- Everything is on the disk, and stays there, exactly when no write failed and the
last one went through. -/
theorem writes_complete_iff {file : File} (opens : file.writable = true)
    (visible : ∀ item, text item ≠ []) (items : List α) :
    (writes outcomes text items file).2.bytes = file.bytes ++ items.flatMap text ↔
      (∀ item ∈ items, (outcomes item).isFailed = false) ∧
        ∀ item ∈ items.getLast?, outcomes item = .written := by
  obtain ⟨failed, whole, flushed, lost⟩ := accounted_writes outcomes text opens visible items
  have none : (∀ item ∈ items, (outcomes item).isFailed = false) ↔
      (writes outcomes text items file).1.bad = false := by
    rw [failed, List.any_eq_false]
    simp only [Bool.not_eq_true]
  rw [none]
  cases bad : (writes outcomes text items file).1.bad with
  | true =>
      have shorter := lost bad
      simp only [Bool.true_eq_false, false_and, iff_false]
      intro same
      rw [same] at shorter
      exact Nat.lt_irrefl _ shorter
  | false =>
      simp only [true_and]
      rw [← flushed bad, ← whole bad]
      constructor
      · intro same
        have lengths := congrArg List.length same
        rw [List.length_append] at lengths
        apply List.eq_nil_of_length_eq_zero
        omega
      · intro empty
        rw [empty, List.append_nil]

/-- Closing a stream whose text is complete on the disk changes nothing. -/
theorem close_complete {file : File} (opens : file.writable = true)
    (visible : ∀ item, text item ≠ []) {items : List α}
    (complete : (writes outcomes text items file).2.bytes = file.bytes ++ items.flatMap text)
    (closing : WriteOutcome) :
    ((writes outcomes text items file).1.close closing (writes outcomes text items file).2).bytes =
      file.bytes ++ items.flatMap text := by
  have opens' := (writable_writes outcomes text items file).trans opens
  obtain ⟨_, whole, flushed, lost⟩ := accounted_writes outcomes text opens visible items
  cases bad : (writes outcomes text items file).1.bad with
  | true =>
      simp only [close, bad, if_true]
      exact complete
  | false =>
      have empty : (writes outcomes text items file).1.buffer = [] := by
        have lengths := congrArg List.length (whole bad)
        rw [← complete, List.length_append] at lengths
        apply List.eq_nil_of_length_eq_zero
        omega
      simp only [close, bad, Bool.false_eq_true, if_false, empty]
      cases closing with
      | written => rw [File.bytes_append opens', List.append_nil, complete]
      | buffered flushed => rw [File.bytes_append opens', List.append_nil, complete]
      | failed flushed => rw [File.bytes_append opens', List.take_nil, List.append_nil, complete]

end Writes

end OFStream
