/-
Module: RemoteMonitoring.Client.ProcFiles
Purpose: The parsers of /proc/<pid>/stat, /proc/stat and /proc/<pid>/io
  (client/process_table.cpp), which scan one buffer that all files are read into.
Trusted boundary: `read` delivers a file in one piece, up to the size of the buffer
Main exports: fillBuffer, readPidStatCpuMem, readStatCpu, readPidIo
-/
import RemoteMonitoring.Client.ProcessTable
import RemoteMonitoring.Lib.IStream
import RemoteMonitoring.Lib.PointerScan

namespace RemoteMonitoring

open ByteText
open PointerScan

def leftPara : UInt8 := 40
def rightPara : UInt8 := 41

/-- The buffer after a file is read into it.  Nothing is terminated if nothing is read. -/
def fillBuffer (content buffer : Bytes) : Bytes :=
  if content = [] then buffer
  else content ++ terminator :: buffer.drop (content.length + 1)

/-! ### /proc/<pid>/stat -/

/-- `open_para` after a byte. -/
def countPara (openPara : Int) (byte : UInt8) : Int :=
  if byte = leftPara then openPara + 1
  else if byte = rightPara then openPara - 1
  else openPara

/-- "skip field 2": at least one byte, and on as long as a parenthesis is open. -/
def skipName : Int → Bytes → Except Failure (Bytes × Bytes)
  | _, [] => .error .outOfBounds
  | openPara, byte :: rest =>
      if 0 < countPara openPara byte then do
        let (name, p) ← skipName (countPara openPara byte) rest
        return (byte :: name, p)
      else .ok ([byte], rest)

/-- What one field of the file sets: "(14) utime" and "(24) rss". -/
def setCpuMem (pageSize : UInt64) (field : Nat) (token : Bytes) (cpuMemStat : CpuMemStat) :
    CpuMemStat :=
  if field = 14 then
    { cpuMemStat with totalCpuUsage := fromCharsUInt64 cpuMemStat.totalCpuUsage token }
  else if field = 24 then
    { cpuMemStat with memUsage := fromCharsUInt64 cpuMemStat.memUsage token * pageSize }
  else cpuMemStat

/-- The loop over the fields, with the number of rounds that are left. -/
def scanCpuMem (pageSize : UInt64) : Nat → Nat → CpuMemStat → Bytes → Except Failure CpuMemStat :=
  foldFields (setCpuMem pageSize)

def parsePidStat (pageSize : UInt64) (p : Bytes) : Except Failure CpuMemStat := do
  -- field 1
  let (_, p) ← scanTo space p
  let (_, p) ← advance p
  -- field 2
  let (_, p) ← skipName 0 p
  let (_, p) ← advance p
  -- fields 3 to 52
  scanCpuMem pageSize 50 3 ⟨0, 0⟩ p

def readPidStatCpuMem (pageSize : UInt64) (file : Option Bytes) (buffer : Bytes) :
    Except Failure CpuMemStat :=
  match readFile file with
  | none => .error .threw
  | some content => parsePidStat pageSize (fillBuffer content buffer)

/-! ### /proc/stat -/

/-- What one field of the line adds.  `number` starts as `junk`. -/
def addCpu (junk : UInt64) (field : Nat) (token : Bytes) (cpuStat : CpuStat) : CpuStat :=
  if 2 ≤ field ∧ field ≤ 11 then
    let number := fromCharsUInt64 junk token
    { cpuUsage := cpuStat.cpuUsage + number
      cpuIdle := if field = 4 then number else cpuStat.cpuIdle }
  else cpuStat

/-- The loop over the fields; `number` is another variable in every round. -/
def scanCpu (junk : Nat → UInt64) : Nat → Nat → CpuStat → Bytes → Except Failure CpuStat :=
  foldFields fun field => addCpu (junk field) field

def parseStatCpu (junk : Nat → UInt64) (p : Bytes) : Except Failure CpuStat :=
  scanCpu junk 11 1 ⟨0, 0⟩ p

def readStatCpu (junk : Nat → UInt64) (file : Option Bytes) (buffer : Bytes) :
    Except Failure CpuStat :=
  match readFile file with
  | none => .error .threw
  | some content => parseStatCpu junk (fillBuffer content buffer)

/-! ### /proc/<pid>/io -/

/-- One of the lines 1 to 4. -/
def skipLine (p : Bytes) : Except Failure (Unit × Bytes) := do
  let (_, p) ← scanTo newline p
  advance p

/-- One of the lines 5 and 6. -/
def scanNumber (junk : UInt64) (p : Bytes) : Except Failure (UInt64 × Bytes) := do
  let (_, p) ← scanTo space p
  let (_, p) ← advance p
  let (token, p) ← scanTo newline p
  let (_, p) ← advance p
  return (fromCharsUInt64 junk token, p)

def parsePidIo (junk : Nat → UInt64) (p : Bytes) : Except Failure DiskStat := do
  let (_, p) ← skipLine p
  let (_, p) ← skipLine p
  let (_, p) ← skipLine p
  let (_, p) ← skipLine p
  let (diskRead, p) ← scanNumber (junk 5) p
  let (diskWrite, _) ← scanNumber (junk 6) p
  return ⟨some diskRead, some diskWrite⟩

def readPidIo (junk : Nat → UInt64) (file : Option Bytes) (buffer : Bytes) :
    Except Failure DiskStat :=
  match readFile file with
  | none => .ok ⟨none, none⟩
  | some content => parsePidIo junk (fillBuffer content buffer)

end RemoteMonitoring
