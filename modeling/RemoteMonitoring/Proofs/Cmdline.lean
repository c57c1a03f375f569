/-
Module: RemoteMonitoring.Proofs.Cmdline
Purpose: Which processes are monitored: the arguments that are cut off at the end of the buffer
  are left out, and a process without any that is left is taken for a kernel thread.
Trusted boundary: none
Main exports: splitArgs_layout, mem_listTable_of_args, monitored_iff
-/
import RemoteMonitoring.Proofs.ProcessRow
import RemoteMonitoring.System.Cmdline

namespace RemoteMonitoring

open ByteText

/-! ### The arguments -/

/-- An argument ends at its NUL byte. -/
theorem splitArgs_arg {arg : Bytes} (plain : 0 ∉ arg) (now rest : Bytes) :
    splitArgs now (arg ++ 0 :: rest) = (now ++ arg) :: splitArgs [] rest := by
  induction arg generalizing now with
  | nil => simp [splitArgs]
  | cons byte arg ih =>
      have other : byte ≠ 0 := fun same => plain (same ▸ List.mem_cons_self)
      have later : 0 ∉ arg := fun member => plain (List.mem_cons_of_mem byte member)
      rw [List.cons_append, splitArgs, if_neg other, ih later, List.append_assoc,
        List.singleton_append]

/-- An argument without its NUL is dropped. -/
theorem splitArgs_cut {arg : Bytes} (plain : 0 ∉ arg) (now : Bytes) : splitArgs now arg = [] := by
  induction arg generalizing now with
  | nil => rfl
  | cons byte arg ih =>
      have other : byte ≠ 0 := fun same => plain (same ▸ List.mem_cons_self)
      rw [splitArgs, if_neg other, ih fun member => plain (List.mem_cons_of_mem byte member)]

theorem layout_cons (arg : Bytes) (args : List Bytes) :
    layout (arg :: args) = arg ++ 0 :: layout args := by simp [layout]

/-- Of a command line that is cut at the end of the buffer, the arguments are read that end in
front of it. -/
theorem splitArgs_layout {args : List Bytes} (plain : ∀ arg ∈ args, 0 ∉ arg) (room : Nat) :
    splitArgs [] ((layout args).take room) = wholeArgs room args := by
  induction args generalizing room with
  | nil => simp [layout, splitArgs, wholeArgs]
  | cons arg args ih =>
      have first : 0 ∉ arg := plain arg List.mem_cons_self
      rw [layout_cons, wholeArgs]
      by_cases fits : arg.length < room
      · obtain ⟨left, rfl⟩ : ∃ left, room = arg.length + (left + 1) :=
          ⟨room - arg.length - 1, by omega⟩
        have rest : arg.length + (left + 1) - (arg.length + 1) = left := by omega
        rw [if_pos fits, List.take_length_add_append, List.take_succ_cons, splitArgs_arg first,
          rest, ih fun other member => plain other (List.mem_cons_of_mem arg member),
          List.nil_append]
      · rw [if_neg fits, List.take_append_of_le_length (Nat.le_of_not_lt fits)]
        exact splitArgs_cut (fun member => first (List.mem_of_mem_take member)) []

/-- What fits are the first arguments. -/
theorem wholeArgs_prefix (room : Nat) (args : List Bytes) : wholeArgs room args <+: args := by
  induction args generalizing room with
  | nil => exact List.prefix_refl []
  | cons arg args ih =>
      rw [wholeArgs]
      split
      · exact (List.prefix_cons_inj arg).mpr (ih _)
      · exact List.nil_prefix

/-- All of them, if there is room for the whole line. -/
theorem wholeArgs_of_fits {room : Nat} {args : List Bytes} (fits : (layout args).length ≤ room) :
    wholeArgs room args = args := by
  induction args generalizing room with
  | nil => rfl
  | cons arg args ih =>
      rw [layout_cons, List.length_append, List.length_cons] at fits
      rw [wholeArgs, if_pos (by omega), ih (by omega)]

/-- None at all, if there is no room for the first and its NUL byte. -/
theorem wholeArgs_ne_nil_iff {room : Nat} {arg : Bytes} {args : List Bytes} :
    wholeArgs room (arg :: args) ≠ [] ↔ arg.length < room := by
  rw [wholeArgs]
  split
  · simp [*]
  · simp [*]

theorem parseCmdline_layout {args : List Bytes} (plain : ∀ arg ∈ args, 0 ∉ arg) :
    parseCmdline (some (layout args)) = some (wholeArgs 4095 args) :=
  congrArg some (splitArgs_layout plain 4095)

/-! ### The row -/

/-- `read_process_metadata` returns what is parsed, if that is anything. -/
theorem readProcessMetadata_of_args {reads : PidReads} {command : Bytes} {args : List Bytes}
    (parsed : parseCmdline reads.cmdline = some (command :: args)) :
    readProcessMetadata reads = some ⟨filename command, command :: args⟩ := by
  obtain ⟨text, read, split⟩ := Option.map_eq_some_iff.mp parsed
  simp [readProcessMetadata, read, split]

namespace ProcessTable

/-- A process is listed after a call that completes a round for it. -/
theorem mem_listTable_of_completed (cpuShare : UInt64 → CpuStat → UInt32)
    (calls : List UpdateCall) {call : UpdateCall} {pid : UInt32}
    (completed : pid ∈ (afterCalls cpuShare calls).completed cpuShare call) :
    pid ∈ ((afterCalls cpuShare calls).updateTable cpuShare call).2.listTable := by
  have keys := updateTable_keys cpuShare call (afterCalls_keys cpuShare calls)
  have returned : ((afterCalls cpuShare calls).updateTable cpuShare call).1 = true := by
    unfold ProcessTable.completed at completed
    unfold updateTable
    split at completed
    · rename_i nowCpu pids statCpu listed
      simp [statCpu, listed]
    · simp at completed
  simp only [returned, if_true] at keys
  exact (keys pid).1.mpr completed

/-- A process that the call can read, with arguments, has a completed round. -/
theorem mem_completed {cpuShare : UInt64 → CpuStat → UInt32} {call : UpdateCall}
    (read : call.statCpu.isSome) {pids : List PidReads} (listed : call.pids = some pids)
    {reads : PidReads} (member : reads ∈ pids) (runs : reads.Listed) (table : ProcessTable) :
    reads.pid ∈ table.completed cpuShare call := by
  obtain ⟨nowCpu, statCpu⟩ := Option.isSome_iff_exists.mp read
  obtain ⟨front, back, rfl⟩ := List.append_of_mem member
  simp only [completed, statCpu, listed, completedRounds_append, List.mem_append]
  right
  have done := (updatePid_completed_iff cpuShare (cpuDelta nowCpu table.lastCpu)
    call.pidNetworkUsage reads (afterRounds cpuShare (cpuDelta nowCpu table.lastCpu)
      call.pidNetworkUsage front { table with lastCpu := nowCpu })).mpr
    ⟨runs.1.1, runs.1.2, Or.inr runs.2⟩
  simp [completedRounds, done]

/-- A process whose first argument is cut is taken for a kernel thread. -/
theorem not_mem_listTable_of_cut (cpuShare : UInt64 → CpuStat → UInt32) (calls : List UpdateCall)
    {call : UpdateCall} (read : call.statCpu.isSome) {pids : List PidReads}
    (listed : call.pids = some pids) {reads : PidReads} (once : ListedOnce pids reads)
    (new : reads.pid ∉ (afterCalls cpuShare calls).listTable) {command : Bytes}
    {args : List Bytes} (plain : ∀ arg ∈ command :: args, 0 ∉ arg) (cut : 4095 ≤ command.length)
    (text : reads.cmdline = some (layout (command :: args))) :
    reads.pid ∉ ((afterCalls cpuShare calls).updateTable cpuShare call).2.listTable := by
  have parsed := parseCmdline_layout plain
  rw [wholeArgs, if_neg (Nat.not_lt.mpr cut), ← text] at parsed
  obtain ⟨content, present, split⟩ := Option.map_eq_some_iff.mp parsed
  have unread : ∀ listing, readProcessMetadata reads = some listing → listing.args = [] := by
    intro listing metadata
    simp only [readProcessMetadata, present, split, Option.bind_eq_bind, Option.bind_some,
      Option.bind_eq_some_iff, Option.pure_def, Option.some.injEq] at metadata
    obtain ⟨_, _, rfl⟩ := metadata
    rfl
  have keys := updateTable_keys cpuShare call (afterCalls_keys cpuShare calls)
  have round := (updateTable_row cpuShare read listed once (afterCalls cpuShare calls)).1
  rw [UnorderedMap.valueAt_of_not_mem new] at round
  intro stays
  split at keys
  rename_i returned after result
  rw [result] at stays
  have kept := (keys reads.pid).1.mp stays
  split at kept
  · obtain ⟨_, cached | ⟨listing, metadata, some⟩⟩ := round.mp kept
    · exact cached rfl
    · exact some (unread listing metadata)
  · exact new (AList.mem_keys.mpr kept)

end ProcessTable

/-- A process is monitored under its arguments exactly if the first of them is read with its
NUL. -/
theorem monitored_iff {command : Bytes} {args : List Bytes}
    (plain : ∀ arg ∈ command :: args, 0 ∉ arg) :
    Monitored (command :: args) ↔ command.length < 4095 := by
  have parsed := parseCmdline_layout plain
  rw [← @wholeArgs_ne_nil_iff 4095 command args]
  constructor
  · intro monitored
    obtain ⟨shown, same, _, nonempty⟩ := monitored.whole
    rw [parsed, Option.some.injEq] at same
    rw [same]
    exact nonempty
  · intro some
    refine ⟨⟨_, parsed, wholeArgs_prefix 4095 _, some⟩, ?_, ?_⟩
    · intro fits
      rw [parsed, wholeArgs_of_fits fits]
    · intro cpuShare calls call read pids listed reads member text runs
      obtain ⟨first, others, same⟩ := List.exists_cons_of_ne_nil some
      rw [same, ← text] at parsed
      have metadata := readProcessMetadata_of_args parsed
      apply ProcessTable.mem_listTable_of_completed
      exact ProcessTable.mem_completed read listed member ⟨runs, _, metadata, by simp⟩ _

/-- `vim notes.txt`. -/
theorem monitored_iff_sample :
    Monitored [ascii "vim", ascii "notes.txt"] ↔ (ascii "vim").length < 4095 :=
  monitored_iff (by decide +kernel)

/-- A program with a path of 4095 letters has a command line, but no arguments are parsed. -/
theorem long_command_not_monitored :
    parseCmdline (some (layout [List.replicate 4095 97])) = some [] ∧
      ¬ Monitored [List.replicate 4095 97] := by
  have plain : ∀ arg ∈ [List.replicate 4095 (97 : UInt8)], 0 ∉ arg := by
    intro arg member
    rw [List.mem_singleton.mp member, List.mem_replicate]
    simp
  have long : ¬ (List.replicate 4095 (97 : UInt8)).length < 4095 := by
    rw [List.length_replicate]
    exact Nat.lt_irrefl 4095
  have nothing : parseCmdline (some (layout [List.replicate 4095 97])) = some [] := by
    rw [parseCmdline_layout plain, wholeArgs, if_neg long]
  refine ⟨nothing, fun monitored => ?_⟩
  obtain ⟨shown, parsed, _, some⟩ := monitored.whole
  rw [nothing, Option.some.injEq] at parsed
  exact some parsed.symm

end RemoteMonitoring
