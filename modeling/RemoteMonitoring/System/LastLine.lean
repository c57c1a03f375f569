/-
Module: RemoteMonitoring.System.LastLine
Purpose: `get_last_line_of_file` (common/util.cpp) one round of its loops at a time, where a
  read outside of the file has no result; and the last line read forwards.
Trusted boundary: none
Main exports: LastLineScan, LastLineScan.step, LastLineScan.run, forwardLastLine
-/
import Mathlib.Data.List.DropRight
import RemoteMonitoring.Common.Util

namespace RemoteMonitoring

open ByteText

/-- `file.seekg(pos)` and `file.get(ch)`. -/
def getAt (content : Bytes) (pos : Int) : Option UInt8 :=
  if 0 ≤ pos then content[pos.toNat]? else none

/-- In front of a round of the first loop, in front of a round of the second, or behind both. -/
inductive LastLineScan where
  | skipping (pos : Int)
  | collecting (pos : Int) (reversed : Bytes)
  | returned (reversed : Bytes)
deriving DecidableEq, Repr

namespace LastLineScan

/-- The scan of a file that can be opened. -/
def start (content : Bytes) : LastLineScan :=
  if content.length = 0 then .returned [] else .skipping content.length

/-- One round.  Nothing if it reads outside of the file. -/
def step (content : Bytes) : LastLineScan → Option LastLineScan
  | .skipping pos =>
      if 0 < pos then do
        let ch ← getAt content (pos - 1)
        if ch ≠ newline ∧ ch ≠ carriageReturn then return .collecting (pos - 1) []
        else return .skipping (pos - 1)
      else return .collecting pos []
  | .collecting pos reversed =>
      if 0 ≤ pos then do
        let ch ← getAt content pos
        if ch = newline then return .returned reversed
        else
          let reversed := if ch ≠ carriageReturn then reversed ++ [ch] else reversed
          if pos = 0 then return .returned reversed else return .collecting (pos - 1) reversed
      else return .returned reversed
  | .returned reversed => return .returned reversed

/-- So many rounds. -/
def run (content : Bytes) : Nat → LastLineScan → Option LastLineScan
  | 0, scan => some scan
  | rounds + 1, scan => (scan.step content).bind (run content rounds)

end LastLineScan

/-- Without its trailing `\n` and `\r`, cut to what follows the last `\n` that is left, and
without any `\r`. -/
def forwardLastLine (content : Bytes) : Bytes :=
  ((content.rdropWhile isLineBreak).rtakeWhile (· != newline)).filter (· != carriageReturn)

end RemoteMonitoring
