/-
Module: RemoteMonitoring.Proofs.ScanBounds
Purpose: Which contents the parsers of /proc scan without what is behind them in the buffer.
Trusted boundary: none
Main exports: staysInside_iff, statContained_iff, ioStops_iff, statText_leaves,
  scanners_stayInside_iff
-/
import RemoteMonitoring.Proofs.CpuTotals
import RemoteMonitoring.Proofs.ProcStat

namespace RemoteMonitoring

open ByteText
open PointerScan

/-! ### Scans that settle -/

/-- Where the scan of a stat file ends in its block, nothing behind the block is looked at: the
name, the fields and the end are scanned one after another, and each stops by itself. -/
theorem parsePidStat_settles (pageSize : UInt64) : Settles (parsePidStat pageSize) := by
  unfold parsePidStat
  apply (scanTo_proceeds space).settles
  intro _
  apply advance_proceeds.settles
  intro _
  apply (skipName_proceeds 0).settles
  intro _
  apply advance_proceeds.settles
  intro _
  exact foldFields_settles (setCpuMem pageSize) 50 3 ⟨0, 0⟩

theorem parseStatCpu_settles (junk : Nat → UInt64) : Settles (parseStatCpu junk) := by
  unfold parseStatCpu scanCpu
  exact foldFields_settles (fun field => addCpu (junk field) field) 11 1 ⟨0, 0⟩

theorem skipLine_proceeds : Proceeds skipLine := by
  unfold skipLine
  exact (scanTo_proceeds newline).bind fun _ => advance_proceeds

/-- A number is scanned up to the newline behind it. -/
theorem scanNumber_proceeds (junk : UInt64) : Proceeds (scanNumber junk) := by
  unfold scanNumber
  apply (scanTo_proceeds space).bind
  intro _
  apply advance_proceeds.bind
  intro _
  apply (scanTo_proceeds newline).bind
  intro token
  apply advance_proceeds.bind
  intro _ p more _
  rfl

/-- Where the scan of an io file ends in its block, nothing behind the block is looked at. -/
theorem parsePidIo_settles (junk : Nat → UInt64) : Settles (parsePidIo junk) := by
  unfold parsePidIo
  apply skipLine_proceeds.settles
  intro _
  apply skipLine_proceeds.settles
  intro _
  apply skipLine_proceeds.settles
  intro _
  apply skipLine_proceeds.settles
  intro _
  apply (scanNumber_proceeds (junk 5)).settles
  intro diskRead
  apply (scanNumber_proceeds (junk 6)).settles
  intro diskWrite
  exact settles_ok _

/-- A scan that settles stays in a text if it ends in front of the terminator behind it.  An
empty file leaves the buffer without one. -/
theorem staysInside_iff {α : Type} {parse : Bytes → Except Failure α} (settles : Settles parse)
    (some : parse [120] = .error .outOfBounds) (content : Bytes) :
    StaysInside parse content ↔
      content ≠ [] ∧ parse (content ++ [terminator]) ≠ .error .outOfBounds := by
  by_cases empty : content = []
  · subst empty
    simp only [ne_eq, not_true, false_and, iff_false]
    intro stays
    have ends := (stays (List.replicate bufferSize 120) (List.replicate bufferSize 120)
      List.length_replicate List.length_replicate).1
    apply ends
    rw [fillBuffer, if_pos rfl]
    exact some
  · have inside : ∀ stale : Bytes,
        (fillBuffer content stale).take (content.length + 1) = content ++ [terminator] := by
      intro stale
      rw [fillBuffer_ne_nil empty, List.take_append, List.take_of_length_le (by omega)]
      simp
    have whole : parse (content ++ [terminator]) ≠ .error .outOfBounds → ∀ stale,
        parse (fillBuffer content stale) = parse (content ++ [terminator]) := by
      intro ends stale
      rw [fillBuffer_ne_nil empty, ← List.singleton_append, ← List.append_assoc]
      exact settles _ _ ends
    constructor
    · intro stays
      have ends := (stays (List.replicate bufferSize 0) (List.replicate bufferSize 0)
        List.length_replicate List.length_replicate).1
      rw [inside] at ends
      exact ⟨empty, ends⟩
    · rintro ⟨_, ends⟩ stale other _ _
      rw [inside, whole ends, whole ends]
      exact ⟨ends, rfl⟩

/-! ### The three formats -/

/-- The scan of a stat file ends inside the text exactly if all that it stops at is there. -/
theorem statContained_iff (pageSize : UInt64) (content : Bytes) :
    parsePidStat pageSize (content ++ [terminator]) ≠ .error .outOfBounds ↔
      StatContained content := by
  constructor
  · intro ends
    rcases scanTo_cases space (content ++ [terminator]) with
      ⟨_, failed⟩ | ⟨pid, rest, absent, text, found⟩
    · simp [parsePidStat, failed] at ends
    have other : rest ≠ [] := by
      rintro rfl
      exact absurd (List.append_inj' text rfl).2 (by decide)
    obtain ⟨behind, rfl, whole⟩ := @last_behind _ (pid ++ [space]) rest content _
      (by simpa using text) other
    simp only [parsePidStat, found, ok_bind, advance] at ends
    rcases skipName_cases 0 (behind ++ [terminator]) with
      ⟨failed, _⟩ | ⟨name, after, closes, split, skipped⟩
    · simp [failed] at ends
    simp only [skipped, ok_bind] at ends
    cases after with
    | nil => simp at ends
    | cons byte after =>
        rw [ok_bind, scanCpuMem_eq, map_ne_outOfBounds] at ends
        by_cases last : after = []
        · subst last
          exact absurd rfl ends
        · obtain ⟨fields, rfl, inside⟩ := @last_behind _ (name ++ [byte]) after behind _
            (by simpa using split) last
          rw [takeFields_terminated] at ends
          exact ⟨pid, name, byte, fields, by simp [whole, inside], absent,
            closesFrom_zero.mp closes, ends⟩
  · rintro ⟨pid, name, skipped, fields, rfl, absent, closes, contained⟩
    have parsed : parsePidStat pageSize
        (pid ++ space :: (name ++ skipped :: fields) ++ [terminator]) =
          scanCpuMem pageSize 50 3 ⟨0, 0⟩ (fields ++ [terminator]) := by
      simp only [parsePidStat, List.append_assoc, List.cons_append, scanTo_append absent, ok_bind,
        advance, skipName_append (closesFrom_zero.mpr closes)]
    rw [parsed, scanCpuMem_eq, map_ne_outOfBounds, takeFields_terminated]
    exact contained

theorem cpuContained_iff (junk : Nat → UInt64) (content : Bytes) :
    parseStatCpu junk (content ++ [terminator]) ≠ .error .outOfBounds ↔ Contained 11 content := by
  rw [parseStatCpu, scanCpu_eq, map_ne_outOfBounds, takeFields_terminated]

/-- For the io file these are eight bytes, in this order. -/
theorem ioStops_iff (junk : Nat → UInt64) (content : Bytes) :
    parsePidIo junk (content ++ [terminator]) ≠ .error .outOfBounds ↔
      ioStops.Sublist content := by
  have stops : parsePidIo junk (content ++ [terminator]) ≠ .error .outOfBounds ↔
      ioStops.Sublist (content ++ [terminator]) := by
    simp only [parsePidIo, skipLine, scanNumber, bind_assoc, pure_eq, ok_bind]
    apply scanTo_advance_iff
    intro _ p
    apply scanTo_advance_iff
    intro _ p
    apply scanTo_advance_iff
    intro _ p
    apply scanTo_advance_iff
    intro _ p
    apply scanTo_advance_iff
    intro _ p
    apply scanTo_advance_iff
    intro _ p
    apply scanTo_advance_iff
    intro _ p
    apply scanTo_advance_iff
    intro _ p
    simp
  rw [stops]
  constructor
  · intro inside
    obtain ⟨front, back, whole, first, second⟩ := List.sublist_append_iff.mp inside
    rcases List.sublist_singleton.mp second with rfl | rfl
    · rwa [whole, List.append_nil]
    · have nul : terminator ∈ ioStops := by simp [whole]
      exact absurd nul (by decide)
  · intro inside
    exact inside.trans (List.sublist_append_left content _)

/-- A text of the kernel is left behind its last field, whatever is in the fields. -/
theorem statText_leaves {pid : UInt32} {name : Bytes} {fields : List Bytes} {utime rss : UInt64}
    (columns : StatFields fields utime rss) (closes : ClosesLast name)
    (noNul : ∀ field ∈ fields, startsNul field = false) :
    ¬ StatContained (statText pid name fields) := by
  have some := columns.ne_nil
  have parsed := parsePidStat_closesLast closes some 0 pid []
  obtain ⟨front, last, rfl, fronts, frontField, nonempty, noSpace⟩ := columns.split
  have lastSpace : space ∉ last ++ [newline] := by simp [noSpace, space_ne_newline]
  have text : front.flatMap (· ++ [space]) ++ last ++ [newline, terminator] =
      (front.flatMap (· ++ [space]) ++ (last ++ [newline])) ++ [terminator] := by
    simp
  rw [← statContained_iff 0, parsed, columns_eq, List.cons_append, scanCpuMem, foldFields_space,
    foldFields_eq,
    map_ne_outOfBounds, text, takeFields_terminated, Contained, closedFields_flatMap frontField,
    openField_flatMap, closedFields_of_not_mem lastSpace, openField_of_not_mem lastSpace,
    startsNul_append nonempty, noNul last (by simp)]
  rintro (long | ⟨field, member, nul⟩ | empty | nul)
  · simp [fronts] at long
  · rw [noNul field (by simpa using Or.inl member)] at nul
    cases nul
  · simp at empty
  · cases nul

theorem cpuText_contained (line : CpuLine) (rest : Bytes) : Contained 11 (cpuText line rest) := by
  refine Or.inl ?_
  rw [closedFields_cpuText]
  simp [lineTokens]

/-- Which contents each of the scanners stays inside. -/
theorem scanners_stayInside_iff (pageSize : UInt64) (junk : Nat → UInt64) (content : Bytes) :
    (StaysInside (parsePidStat pageSize) content ↔ StatContained content) ∧
      (StaysInside (parseStatCpu junk) content ↔ content ≠ [] ∧ Contained 11 content) ∧
      (StaysInside (parsePidIo junk) content ↔ ioStops.Sublist content) := by
  refine ⟨?_, ?_, ?_⟩
  · rw [staysInside_iff (parsePidStat_settles pageSize) rfl, statContained_iff]
    constructor
    · exact And.right
    · intro contained
      refine ⟨?_, contained⟩
      rintro rfl
      obtain ⟨pid, name, skipped, fields, same, _⟩ := contained
      exact absurd same (by simp)
  · rw [staysInside_iff (parseStatCpu_settles junk) rfl, cpuContained_iff]
  · rw [staysInside_iff (parsePidIo_settles junk) rfl, ioStops_iff]
    constructor
    · exact And.right
    · intro stops
      refine ⟨?_, stops⟩
      rintro rfl
      exact absurd stops (by decide)

/-- A text of the kernel: the scan for the space behind its last field leaves it. -/
theorem stat_scan_leaves :
    ¬ ∀ pageSize junk content, content.length < bufferSize →
      StaysInside (parsePidStat pageSize) content ∧ StaysInside (parseStatCpu junk) content ∧
        StaysInside (parsePidIo junk) content := by
  intro inside
  have stays := (inside 4096 0 (statText 1 (ascii "sh") (columnsWith 49)) (by decide +kernel)).1
  have ends := (stays (List.replicate bufferSize space) (List.replicate bufferSize space)
    List.length_replicate List.length_replicate).1
  exact ends (by decide +kernel)

end RemoteMonitoring
