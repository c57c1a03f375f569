/-
Module: RemoteMonitoring.Lib.File
Purpose: One file of a file system: absent, or present with its bytes, and whether it can be
  opened for writing.
Trusted boundary: none
Main exports: File, File.append, File.overwrite
-/
import RemoteMonitoring.Lib.ByteText

open ByteText

/-- A file by its content; `none` stands for a file that does not exist. -/
structure File where
  content : Option Bytes
  writable : Bool
deriving DecidableEq, Repr

namespace File

/-- A file that is not there yet and can be created. -/
def absent : File := ⟨none, true⟩

/-- The bytes of a file, with nothing in an absent one. -/
def bytes (file : File) : Bytes := file.content.getD []

/-- Open with `std::ios::app`, write and close.  An open that fails writes nothing. -/
def append (file : File) (text : Bytes) : File :=
  if file.writable then { file with content := some (file.bytes ++ text) } else file

/-- Open for output, which truncates, then write and close. -/
def overwrite (file : File) (text : Bytes) : File :=
  if file.writable then { file with content := some text } else file

@[simp] theorem bytes_absent : absent.bytes = [] := rfl
@[simp] theorem writable_absent : absent.writable = true := rfl

@[simp] theorem writable_append (file : File) (text : Bytes) :
    (file.append text).writable = file.writable := by
  unfold append
  split <;> rfl

@[simp] theorem writable_overwrite (file : File) (text : Bytes) :
    (file.overwrite text).writable = file.writable := by
  unfold overwrite
  split <;> rfl

theorem bytes_append {file : File} (opens : file.writable = true) (text : Bytes) :
    (file.append text).bytes = file.bytes ++ text := by
  simp [append, bytes, opens]

theorem append_append (file : File) (one two : Bytes) :
    (file.append one).append two = file.append (one ++ two) := by
  unfold append bytes
  split
  · simp [*]
  · simp [*]

theorem overwrite_append (file : File) (text : Bytes) :
    (file.overwrite []).append text = file.overwrite text := by
  unfold append overwrite bytes
  split
  · simp [*]
  · simp [*]

theorem content_overwrite {file : File} (opens : file.writable = true) (text : Bytes) :
    (file.overwrite text).content = some text := by
  simp [overwrite, opens]

theorem content_append {file : File} (opens : file.writable = true) (text : Bytes) :
    (file.append text).content = some (file.bytes ++ text) := by
  simp [append, opens]

end File
