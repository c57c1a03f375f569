/-
Module: RemoteMonitoring.System.ProcFiles
Purpose: The files of /proc as the kernel writes them, and what it means that they are read
  right: the fields that are wanted, and nothing behind the text.
Trusted boundary: none
Main exports: statText, StatFields, ClosesLast, StaysInside, StatContained, cpuText, ReadsTotals
-/
import RemoteMonitoring.Client.ProcFiles

namespace RemoteMonitoring

open ByteText
open PointerScan

/-! ### The command name -/

/-- How many parentheses of a text stay open. -/
def depth (text : Bytes) : Int := text.count leftPara - text.count rightPara

/-- No parenthesis is open at the end, and one is after every shorter part. -/
structure Closes (text : Bytes) : Prop where
  nonempty : text ≠ []
  closed : depth text ≤ 0
  first : ∀ front back, text = front ++ back → front ≠ [] → back ≠ [] → 0 < depth front

/-- The parentheses of `(name)` close with the last one, or with the byte in front of it. -/
def ClosesLast (name : Bytes) : Prop :=
  Closes (leftPara :: name ++ [rightPara]) ∨ Closes (leftPara :: name)

/-! ### /proc/<pid>/stat -/

/-- A numeral, with leading zeros or not. -/
def IsNumeral (text : Bytes) (value : Nat) : Prop :=
  text ≠ [] ∧ (∀ byte ∈ text, isDigit byte = true) ∧ numeralValue text = value

/-- The fields 3 to 52, with the values of the fields 14 and 24. -/
structure StatFields (fields : List Bytes) (utime rss : UInt64) : Prop where
  count : fields.length = 50
  field : ∀ field ∈ fields, field ≠ [] ∧ space ∉ field
  utime : ∃ text, fields[11]? = some text ∧ IsNumeral text utime.toNat
  rss : ∃ text, fields[21]? = some text ∧ IsNumeral text rss.toNat

def statText (pid : UInt32) (name : Bytes) (fields : List Bytes) : Bytes :=
  decimal pid.toNat ++ space :: (leftPara :: name ++ [rightPara]) ++
    fields.flatMap (space :: ·) ++ [newline]

/-- A text that fits into the buffer, with what is left in it of earlier files. -/
structure StatInput (pid : UInt32) (name : Bytes) (fields : List Bytes) (utime rss : UInt64)
    (stale : Bytes) : Prop where
  columns : StatFields fields utime rss
  fits : (statText pid name fields).length < bufferSize
  buffer : stale.length = bufferSize

/-- The two values are read from their columns. -/
def ReadsStat (pageSize : UInt64) (pid : UInt32) (name : Bytes) (fields : List Bytes)
    (utime rss : UInt64) (stale : Bytes) : Prop :=
  readPidStatCpuMem pageSize (some (statText pid name fields)) stale = .ok ⟨utime, rss * pageSize⟩

/-- A space is left in the buffer somewhere behind the terminator, and no field starts with a
terminator. -/
def LastFieldEnds (pid : UInt32) (name : Bytes) (fields : List Bytes) (stale : Bytes) : Prop :=
  space ∈ stale.drop ((statText pid name fields).length + 1) ∧
    ∀ field ∈ fields, startsNul field = false

/-! ### Behind the text -/

/-- For any two contents of the buffer: the scan comes to an end without the bytes behind the
terminating position, and to the same end. -/
def StaysInside {α : Type} (parse : Bytes → Except Failure α) (content : Bytes) : Prop :=
  ∀ stale other : Bytes, stale.length = bufferSize → other.length = bufferSize →
    parse ((fillBuffer content stale).take (content.length + 1)) ≠ .error .outOfBounds ∧
      parse (fillBuffer content stale) = parse (fillBuffer content other)

/-- Behind a space, the parentheses close, a byte follows, and the fields behind that end in the
text. -/
def StatContained (content : Bytes) : Prop :=
  ∃ pid name skipped fields, content = pid ++ space :: (name ++ skipped :: fields) ∧
    space ∉ pid ∧ Closes name ∧ Contained 50 fields

/-- The bytes that the scan of the io file stops at. -/
def ioStops : Bytes :=
  [newline, newline, newline, newline, space, newline, space, newline]

/-! ### /proc/stat -/

/-- A counter of the first line, with the spaces in front of it: one, and perhaps more. -/
structure Counter where
  gap : Nat
  digits : Bytes
  nonempty : digits ≠ []
  numeral : ∀ byte ∈ digits, isDigit byte = true

def Counter.value (counter : Counter) : Nat := numeralValue counter.digits

def Counter.text (counter : Counter) : Bytes :=
  List.replicate (counter.gap + 1) space ++ counter.digits

/-- The ten counters, in the order in which they stand. -/
structure CpuLine where
  user : Counter
  nice : Counter
  system : Counter
  idle : Counter
  iowait : Counter
  irq : Counter
  softirq : Counter
  steal : Counter
  guest : Counter
  guestNice : Counter

def CpuLine.counters (line : CpuLine) : List Counter :=
  [line.user, line.nice, line.system, line.idle, line.iowait, line.irq, line.softirq, line.steal,
    line.guest, line.guestNice]

/-- The first line, and the next from `cpu0 ` on. -/
def cpuText (line : CpuLine) (rest : Bytes) : Bytes :=
  ascii "cpu" ++ line.counters.flatMap Counter.text ++ newline :: (ascii "cpu0 " ++ rest)

/-- The sum of the counters, and the idle one. -/
def ReadsTotals (junk : Nat → UInt64) (line : CpuLine) (rest stale : Bytes) : Prop :=
  ∃ cpuStat, readStatCpu junk (some (cpuText line rest)) stale = .ok cpuStat ∧
    cpuStat.cpuUsage.toNat = (line.counters.map Counter.value).sum % 2 ^ 64 ∧
    cpuStat.cpuIdle.toNat = line.idle.value

end RemoteMonitoring
