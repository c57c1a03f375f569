/-
Module: RemoteMonitoring.Proofs.LastLine
Purpose: The backwards scan for the last line comes to an end inside the file, and returns what
  is read forwards.
Trusted boundary: none
Main exports: run_skipping, run_collecting, forwardLastLine_lines, lastLine_forward
-/
import RemoteMonitoring.System.LastLine

namespace RemoteMonitoring

open ByteText

namespace LastLineScan

variable {content : Bytes}

/-- Steps of the scan, one part after the other. -/
theorem run_add (first second : Nat) (scan : LastLineScan) :
    run content (first + second) scan = (run content first scan).bind (run content second) := by
  induction first generalizing scan with
  | zero => rw [Nat.zero_add, run, Option.bind_some]
  | succ first ih =>
      rw [Nat.succ_add, run, run]
      cases scan.step content with
      | none => rfl
      | some next => exact ih next

theorem run_returned (rounds : Nat) (reversed : Bytes) :
    run content rounds (.returned reversed) = some (.returned reversed) := by
  induction rounds with
  | zero => rfl
  | succ rounds ih => exact ih

/-- A scan that returns has read inside the file all the way. -/
theorem run_isSome {rounds : Nat} {scan : LastLineScan} {reversed : Bytes}
    (returns : run content rounds scan = some (.returned reversed)) (other : Nat) :
    ∃ reached, run content other scan = some reached := by
  rcases Nat.le_total other rounds with fewer | more
  · obtain ⟨rest, rfl⟩ := Nat.exists_eq_add_of_le fewer
    rw [run_add, Option.bind_eq_some_iff] at returns
    obtain ⟨reached, before, _⟩ := returns
    exact ⟨reached, before⟩
  · obtain ⟨rest, rfl⟩ := Nat.exists_eq_add_of_le more
    exact ⟨.returned reversed, by rw [run_add, returns, Option.bind_some, run_returned]⟩

theorem getAt_of_lt {pos : Nat} (inside : pos < content.length) :
    getAt content pos = some (content.getD pos 0) := by
  simp [getAt, List.getD_eq_getElem?_getD, List.getElem?_eq_getElem inside]

/-- The first loop takes at most one round for each byte, and one more to end at the front. -/
theorem run_skipping {pos : Nat} (inside : pos ≤ content.length) :
    ∃ rounds ≤ pos + 1, run content rounds (.skipping pos) =
      some (.collecting (skipTrailing content pos) []) := by
  induction pos with
  | zero => exact ⟨1, Nat.le_refl 1, rfl⟩
  | succ pos ih =>
      have positive : (0 : Int) < (pos + 1 : Nat) := Int.natCast_succ_pos pos
      have before : ((pos + 1 : Nat) : Int) - 1 = pos := by omega
      have reads := getAt_of_lt inside
      have round : (skipping (pos + 1 : Nat)).step content =
          if isLineBreak (content.getD pos 0) then some (.skipping pos)
          else some (.collecting pos []) := by
        simp only [step, if_pos positive, before, reads, isLineBreak]
        generalize content.getD pos 0 = ch
        by_cases first : ch = newline
        · simp [first]
        · by_cases second : ch = carriageReturn
          · simp [second]
          · simp [first, second]
      by_cases blank : isLineBreak (content.getD pos 0) = true
      · obtain ⟨rounds, few, reaches⟩ := ih (Nat.le_of_succ_le inside)
        refine ⟨rounds + 1, Nat.succ_le_succ few, ?_⟩
        rw [run, round, if_pos blank, Option.bind_some, reaches, skipTrailing, if_pos blank]
      · refine ⟨1, Nat.succ_le_succ (Nat.zero_le _), ?_⟩
        rw [run, round, if_neg blank, skipTrailing, if_neg blank]
        rfl

/-- A round of the second loop. -/
theorem step_collecting {pos : Nat} (inside : pos < content.length) (reversed : Bytes) :
    (collecting pos reversed).step content =
      some (if (collectByte content pos reversed).2 ∨ pos = 0 then
        .returned (collectByte content pos reversed).1
      else .collecting (pos - 1 : Int) (collectByte content pos reversed).1) := by
  have reads := getAt_of_lt inside
  have other : carriageReturn ≠ newline := by decide
  unfold collectByte
  rw [step, if_pos (Int.natCast_nonneg pos), reads]
  generalize content.getD pos 0 = ch
  by_cases ends : ch = newline
  · simp [ends]
  · by_cases front : pos = 0
    · by_cases cr : ch = carriageReturn
      · simp [other, front, cr]
      · simp [ends, front, cr]
    · by_cases cr : ch = carriageReturn
      · simp [other, front, cr]
      · simp [ends, front, cr]

/-- The second loop takes at most one round for each byte up to its position. -/
theorem run_collecting {pos : Nat} (inside : pos < content.length) (reversed : Bytes) :
    ∃ rounds ≤ pos + 1, run content rounds (.collecting pos reversed) =
      some (.returned (collectLine content pos reversed)) := by
  induction pos generalizing reversed with
  | zero =>
      refine ⟨1, Nat.le_refl 1, ?_⟩
      rw [run, step_collecting inside, if_pos (Or.inr rfl), collectLine]
      rfl
  | succ pos ih =>
      have before : ((pos + 1 : Nat) : Int) - 1 = pos := by omega
      have round := step_collecting inside reversed
      by_cases ended : (collectByte content (pos + 1) reversed).2 = true
      · refine ⟨1, by omega, ?_⟩
        rw [run, round, if_pos (Or.inl ended), collectLine]
        simp [ended, run]
      · obtain ⟨rounds, few, reaches⟩ :=
          ih (Nat.lt_of_succ_lt inside) (collectByte content (pos + 1) reversed).1
        refine ⟨rounds + 1, Nat.succ_le_succ few, ?_⟩
        rw [run, round, if_neg (by simp [ended]), before, Option.bind_some, reaches, collectLine]
        simp [ended]

/-- The scan returns after at most two rounds for each byte and one more. -/
theorem run_start (content : Bytes) :
    ∃ rounds ≤ 2 * content.length + 1, ∃ reversed,
      run content rounds (start content) = some (.returned reversed) ∧
        reversed.reverse = getLastLineOfFile ⟨some content, true⟩ := by
  unfold start getLastLineOfFile
  by_cases empty : content.length = 0
  · simp only [empty, if_true]
    exact ⟨0, Nat.zero_le _, [], rfl, rfl⟩
  · simp only [empty, if_false]
    have behind : skipTrailing content content.length < content.length := by
      rcases skipTrailing_spec (Nat.le_refl content.length) with ⟨_, inside⟩ | ⟨_, front⟩
      · exact inside
      · omega
    obtain ⟨first, few, skips⟩ := run_skipping (Nat.le_refl content.length)
    obtain ⟨second, fewer, collects⟩ := run_collecting behind []
    refine ⟨first + second, by omega, _, ?_, rfl⟩
    rw [run_add, skips, Option.bind_some, collects]

end LastLineScan

/-! ### Read forwards -/

theorem forwardLastLine_eq (content : Bytes) :
    forwardLastLine content = dropReturns (lastLine content) := by
  unfold forwardLastLine dropReturns lastLine
  rw [List.rtakeWhile, List.rdropWhile, List.reverse_reverse]

/-- Of lines that are not blank and have no `\r`, the last one. -/
theorem forwardLastLine_lines {lines : List Bytes} {last : Bytes} (visible : last ≠ [])
    (single : newline ∉ last) (plain : carriageReturn ∉ last) :
    forwardLastLine ((lines ++ [last]).flatMap (· ++ [newline])) = last := by
  obtain ⟨line, byte, rfl⟩ := (List.eq_nil_or_concat last).resolve_left visible
  have other : isLineBreak byte = false := by
    have first : byte ≠ newline := fun same => single (by simp [same])
    have second : byte ≠ carriageReturn := fun same => plain (by simp [same])
    simp [isLineBreak, first, second]
  have front : Terminated (lines.flatMap (· ++ [newline])) :=
    Terminated.flatMap fun line _ => terminated_append_newline line
  rw [List.concat_eq_append] at single plain ⊢
  rw [forwardLastLine_eq, List.flatMap_append, List.flatMap_singleton, lastLine_append front other,
    lastLine_single single other]
  apply List.filter_eq_self.mpr
  intro kept member
  simp only [bne_iff_ne, ne_eq]
  rintro rfl
  exact plain member

/-- What the scan reads, and what it returns. -/
theorem lastLine_forward (file : File) :
    (∀ content, file.content = some content →
      (∀ rounds, ∃ scan, LastLineScan.run content rounds (.start content) = some scan) ∧
        ∃ rounds ≤ 2 * content.length + 1,
          LastLineScan.run content rounds (.start content) =
            some (.returned (getLastLineOfFile file).reverse)) ∧
      getLastLineOfFile file = forwardLastLine file.bytes ∧
      ∀ lines : List Bytes, (∀ line ∈ lines, line ≠ [] ∧ newline ∉ line ∧ carriageReturn ∉ line) →
        file.content = some (lines.flatMap (· ++ [newline])) →
        getLastLineOfFile file = lines.getLast?.getD [] := by
  have forward : getLastLineOfFile file = forwardLastLine file.bytes := by
    rw [getLastLineOfFile_eq, forwardLastLine_eq]
  refine ⟨?_, forward, ?_⟩
  · intro content present
    obtain ⟨rounds, few, reversed, returns, same⟩ := LastLineScan.run_start content
    have whole : getLastLineOfFile file = reversed.reverse := by
      rw [same, getLastLineOfFile, getLastLineOfFile, present]
    refine ⟨LastLineScan.run_isSome returns, rounds, few, ?_⟩
    rw [whole, List.reverse_reverse]
    exact returns
  · intro lines plain present
    rw [forward, File.bytes, present, Option.getD_some]
    rcases List.eq_nil_or_concat lines with rfl | ⟨front, last, rfl⟩
    · rfl
    · rw [List.concat_eq_append] at plain ⊢
      obtain ⟨visible, single, noReturn⟩ := plain last (by simp)
      rw [forwardLastLine_lines visible single noReturn]
      simp

end RemoteMonitoring
