/-
Module: RemoteMonitoring.System.Cmdline
Purpose: The command line of a process as the kernel lays it out, and what it means that the
  process is monitored under it.
Trusted boundary: none
Main exports: layout, wholeArgs, Monitored
-/
import RemoteMonitoring.System.Sampling

namespace RemoteMonitoring

open ByteText

/-- Each argument is followed by NUL. -/
def layout (args : List Bytes) : Bytes := args.flatMap (· ++ [0])

/-- The arguments that fit with their NULs into so many bytes. -/
def wholeArgs : Nat → List Bytes → List Bytes
  | _, [] => []
  | room, arg :: args =>
      if arg.length < room then arg :: wholeArgs (room - (arg.length + 1)) args else []

/-- What is parsed are the first arguments as they are, all of them if the file is read to its
end, and one at least; and after every call that can read the rest, the process has a row. -/
structure Monitored (args : List Bytes) : Prop where
  whole : ∃ shown, parseCmdline (some (layout args)) = some shown ∧ shown <+: args ∧ shown ≠ []
  exact : (layout args).length ≤ 4095 → parseCmdline (some (layout args)) = some args
  row : ∀ cpuShare calls (call : UpdateCall), call.statCpu.isSome → ∀ pids, call.pids = some pids →
    ∀ reads ∈ pids, reads.cmdline = some (layout args) → reads.Runs →
      reads.pid ∈ ((ProcessTable.afterCalls cpuShare calls).updateTable cpuShare call).2.listTable

end RemoteMonitoring
