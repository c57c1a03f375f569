/-
Module: RemoteMonitoring.Proofs.CpuTotals
Purpose: Which columns of the first line of /proc/stat the totals are read from.
Trusted boundary: none
Main exports: scanCpu_eq, closedFields_counters, readStatCpu_totals_iff
-/
import RemoteMonitoring.System.ProcFiles

namespace RemoteMonitoring

open ByteText
open PointerScan

/-! ### The columns -/

/-- What the loop over the fields does with the fields it finds. -/
def addColumns (junk : Nat → UInt64) : Nat → CpuStat → List Bytes → CpuStat :=
  foldTokens fun field => addCpu (junk field) field

theorem addColumns_cons (junk : Nat → UInt64) (field : Nat) (cpuStat : CpuStat) (token : Bytes)
    (tokens : List Bytes) : addColumns junk field cpuStat (token :: tokens) =
      addColumns junk (field + 1) (addCpu (junk field) field token cpuStat) tokens := rfl

theorem scanCpu_eq (junk : Nat → UInt64) (rounds field : Nat) (cpuStat : CpuStat) (p : Bytes) :
    scanCpu junk rounds field cpuStat p =
      (takeFields rounds p).map (addColumns junk field cpuStat) :=
  foldFields_eq _ rounds field cpuStat p

theorem cpuUsage_addCpu {junk : UInt64} {field : Nat} {token : Bytes} {cpuStat : CpuStat}
    (low : 2 ≤ field) (high : field ≤ 11) :
    (addCpu junk field token cpuStat).cpuUsage = cpuStat.cpuUsage + fromCharsUInt64 junk token := by
  rw [addCpu, if_pos ⟨low, high⟩]

/-- A token whose digits are those of a counter. -/
def Reads (token : Bytes) (counter : Counter) : Prop := leadingNumeral token = some counter.value

theorem toNat_fromChars {junk : UInt64} {token : Bytes} {counter : Counter}
    (reads : Reads token counter) (small : counter.value < 2 ^ 64) :
    (fromCharsUInt64 junk token).toNat = counter.value := by
  rw [fromCharsUInt64, fromChars_of_leadingNumeral reads small]
  exact Nat.mod_eq_of_lt small

/-- From the third field on, each column adds its counter to the sum. -/
theorem addColumns_sum (junk : Nat → UInt64) {field : Nat} {tokens : List Bytes}
    {counters : List Counter} (reads : List.Forall₂ Reads tokens counters)
    (small : ∀ counter ∈ counters, counter.value < 2 ^ 64) (low : 2 ≤ field)
    (high : field + counters.length ≤ 12) (cpuStat : CpuStat) :
    (addColumns junk field cpuStat tokens).cpuUsage.toNat =
      (cpuStat.cpuUsage.toNat + (counters.map Counter.value).sum) % 2 ^ 64 := by
  induction reads generalizing field cpuStat with
  | nil => exact (Nat.mod_eq_of_lt cpuStat.cpuUsage.toNat_lt).symm
  | @cons token counter tokens counters first _ ih =>
      rw [List.length_cons] at high
      rw [addColumns_cons, ih (fun other member => small other (by simp [member])) (by omega) (by omega),
        cpuUsage_addCpu low (by omega), UInt64.toNat_add, toNat_fromChars first (small _ (by simp)),
        Nat.mod_add_mod, List.map_cons, List.sum_cons, Nat.add_assoc]

/-- A counter that is out of range leaves what was there: one more in each variable is one more
in the sum for each such counter. -/
theorem addColumns_junk {field n : Nat} {tokens : List Bytes} (low : 2 ≤ field)
    (high : field + tokens.length ≤ 12) {zero one : CpuStat}
    (differ : one.cpuUsage = zero.cpuUsage + UInt64.ofNat n) :
    (addColumns (fun _ => 1) field one tokens).cpuUsage =
      (addColumns (fun _ => 0) field zero tokens).cpuUsage +
        UInt64.ofNat (n + tokens.countP fun token => (fromChars (2 ^ 64) token).isNone) := by
  induction tokens generalizing field n zero one with
  | nil => exact differ
  | cons token tokens ih =>
      rw [List.length_cons] at high
      rw [addColumns_cons, addColumns_cons, List.countP_cons]
      have step := @ih (field + 1) (n + if (fromChars (2 ^ 64) token).isNone then 1 else 0)
        (by omega) (by omega) (addCpu 0 field token zero) (addCpu 1 field token one) (by
          rw [cpuUsage_addCpu low (by omega), cpuUsage_addCpu low (by omega), differ]
          unfold fromCharsUInt64
          cases fromChars (2 ^ 64) token with
          | none => simp [UInt64.ofNat_add, UInt64.add_assoc]
          | some value => simp [UInt64.add_assoc, UInt64.add_comm (UInt64.ofNat n)])
      rw [step]
      congr 2
      omega

/-- What cannot be read are the counters that do not fit 64 bits. -/
theorem countP_reads {tokens : List Bytes} {counters : List Counter}
    (reads : List.Forall₂ Reads tokens counters) :
    tokens.countP (fun token => (fromChars (2 ^ 64) token).isNone) =
      counters.countP fun counter => 2 ^ 64 ≤ counter.value := by
  induction reads with
  | nil => rfl
  | @cons token counter tokens counters first _ ih =>
      have same : (fromChars (2 ^ 64) token).isNone = decide (2 ^ 64 ≤ counter.value) := by
        rw [fromChars, first, Bool.eq_iff_iff, Option.isNone_iff_eq_none, Option.filter_eq_none_iff]
        simp
      rw [List.countP_cons, List.countP_cons, ih, same]

/-- Behind the fourth column the idle time is not set again. -/
theorem cpuIdle_addColumns (junk : Nat → UInt64) {field : Nat} (later : 4 < field)
    (cpuStat : CpuStat) (tokens : List Bytes) :
    (addColumns junk field cpuStat tokens).cpuIdle = cpuStat.cpuIdle := by
  induction tokens generalizing field cpuStat with
  | nil => rfl
  | cons token tokens ih =>
      rw [addColumns_cons, ih (by omega), addCpu]
      split
      · exact if_neg (by omega)
      · rfl

/-! ### The fields of the line -/

theorem leadingNumeral_counter (counter : Counter) : Reads counter.digits counter := by
  have whole := @leadingNumeral_append counter.digits [] counter.nonempty counter.numeral (by simp)
  rwa [List.append_nil] at whole

theorem space_not_mem_digits (counter : Counter) : space ∉ counter.digits := by
  intro member
  exact absurd (counter.numeral _ member) (by decide)

/-- Counters that are separated by spaces are read as their digits; the last one runs on into what
follows. -/
theorem closedFields_counters {front : Bytes} (nonempty : front ≠ []) (noSpace : space ∉ front)
    (counters : List Counter) (tail : Bytes) :
    closedFields (front ++ counters.flatMap Counter.text ++ tail) =
      (front :: counters.map Counter.digits).dropLast ++
        closedFields ((front :: counters.map Counter.digits).getLastD [] ++ tail) := by
  induction counters generalizing front with
  | nil => simp
  | cons counter counters ih =>
      have later := ih counter.nonempty (space_not_mem_digits counter)
      have first := closedFields_append front (List.replicate counter.gap space ++
        (counter.digits ++ counters.flatMap Counter.text ++ tail))
      rw [List.splitOn_eq_singleton noSpace, closedFields_replicate, later] at first
      simp only [Counter.text, List.flatMap_cons, List.replicate_succ, List.append_assoc,
        List.cons_append] at first ⊢
      rw [first]
      simp [nonempty]

/-- The fields behind the first: the last runs over the line break. -/
def lineTokens (line : CpuLine) : List Bytes :=
  [line.user.digits, line.nice.digits, line.system.digits, line.idle.digits, line.iowait.digits,
    line.irq.digits, line.softirq.digits, line.steal.digits, line.guest.digits,
    line.guestNice.digits ++ newline :: ascii "cpu0"]

theorem reads_lineTokens (line : CpuLine) : List.Forall₂ Reads (lineTokens line) line.counters := by
  have last : Reads (line.guestNice.digits ++ newline :: ascii "cpu0") line.guestNice :=
    leadingNumeral_append line.guestNice.nonempty line.guestNice.numeral (by simp [isDigit, newline])
  simp [lineTokens, CpuLine.counters, leadingNumeral_counter, last]

/-- So the line has its eleven tokens, and the last one goes on over the end of the line. -/
theorem closedFields_cpuText (line : CpuLine) (rest : Bytes) :
    closedFields (cpuText line rest) = ascii "cpu" :: lineTokens line ++ closedFields rest := by
  have noSpace : space ∉ line.guestNice.digits ++ newline :: ascii "cpu0" := by
    rw [List.mem_append, not_or]
    exact ⟨space_not_mem_digits line.guestNice, by decide⟩
  have last := closedFields_append (line.guestNice.digits ++ newline :: ascii "cpu0") rest
  rw [List.splitOn_eq_singleton noSpace] at last
  have next : ascii "cpu0 " = ascii "cpu0" ++ [space] := by decide
  have fields := @closedFields_counters (ascii "cpu") (by decide) (by decide) line.counters
    (newline :: (ascii "cpu0 " ++ rest))
  rw [cpuText, fields, next]
  simp only [List.append_assoc, List.cons_append] at last
  simp [CpuLine.counters, lineTokens, last]

/-- No token of the line ends the text. -/
theorem startsNul_lineTokens (line : CpuLine) :
    (ascii "cpu" :: lineTokens line).any startsNul = false := by
  have digits : ∀ counter : Counter, startsNul counter.digits = false := by
    intro counter
    obtain ⟨digit, digits, same⟩ := List.exists_cons_of_ne_nil counter.nonempty
    have numeral := counter.numeral digit (by simp [same])
    have visible : digit ≠ terminator := by
      rintro rfl
      exact absurd numeral (by decide)
    simp [same, startsNul, visible]
  have last := startsNul_append line.guestNice.nonempty (newline :: ascii "cpu0")
  simp [lineTokens, digits, last]
  decide

/-- The scan takes the eleven fields of the first line. -/
theorem takeFields_cpuText (line : CpuLine) (rest : Bytes) :
    takeFields 11 (cpuText line rest) = .ok (ascii "cpu" :: lineTokens line) := by
  have taken : (ascii "cpu" :: lineTokens line ++ closedFields rest).take 11 =
      ascii "cpu" :: lineTokens line := rfl
  rw [takeFields_eq, closedFields_cpuText, taken]
  dsimp only
  rw [startsNul_lineTokens]
  simp [lineTokens]

/-! ### The file -/

theorem cpuText_append (line : CpuLine) (rest : Bytes) :
    cpuText line rest = cpuText line [] ++ rest := by
  simp [cpuText]

/-- A first line that fits into the buffer is read up to its last counter, whatever is behind it.
-/
theorem readStatCpu_fits {line : CpuLine} (fits : (cpuText line []).length < bufferSize)
    (junk : Nat → UInt64) (rest stale : Bytes) :
    readStatCpu junk (some (cpuText line rest)) stale =
      .ok (addColumns junk 2 ⟨0, 0⟩ (lineTokens line)) := by
  have cut : (cpuText line rest).take (bufferSize - 1) =
      cpuText line (rest.take (bufferSize - 1 - (cpuText line []).length)) := by
    rw [cpuText_append, List.take_append, List.take_of_length_le (by omega), ← cpuText_append]
  have nonempty : ∀ more, cpuText line more ≠ [] := by
    intro more
    simp [cpuText]
  simp only [readStatCpu, readFile, Option.map_some, cut, fillBuffer, nonempty, if_false,
    parseStatCpu, scanCpu_eq]
  rw [cpuText_append, List.append_assoc, ← cpuText_append, takeFields_cpuText]
  rfl

/-- A line that does not fit is cut in its last field, or in front of it. -/
theorem readStatCpu_cut {line : CpuLine} (long : ¬ (cpuText line []).length < bufferSize)
    (junk : Nat → UInt64) (rest : Bytes) {stale : Bytes} (buffer : stale.length = bufferSize) :
    ∃ failure, readStatCpu junk (some (cpuText line rest)) stale = .error failure := by
  obtain ⟨front, same⟩ : ∃ front : Bytes, front =
      ascii "cpu" ++ line.counters.flatMap Counter.text ++ newline :: ascii "cpu0" := ⟨_, rfl⟩
  have next : ascii "cpu0 " = ascii "cpu0" ++ [space] := by decide
  have text : ∀ more, cpuText line more = front ++ space :: more := by
    intro more
    rw [cpuText, next, same]
    simp
  have fields : (closedFields front).length = 10 := by
    have noSpace : space ∉ line.guestNice.digits ++ newline :: ascii "cpu0" := by
      rw [List.mem_append, not_or]
      exact ⟨space_not_mem_digits line.guestNice, by decide⟩
    rw [same, closedFields_counters (by decide) (by decide)]
    simp [CpuLine.counters, closedFields_of_not_mem noSpace]
  rw [text, List.length_append, List.length_singleton, bufferSize] at long
  have cut : (cpuText line rest).take (bufferSize - 1) = front.take (bufferSize - 1) := by
    rw [text, List.take_append_of_le_length (by rw [bufferSize]; omega)]
  have length : (front.take (bufferSize - 1)).length = bufferSize - 1 := by
    rw [List.length_take_of_le]
    rw [bufferSize]
    omega
  have nonempty : front.take (bufferSize - 1) ≠ [] :=
    List.ne_nil_of_length_pos (by rw [length, bufferSize]; omega)
  have short : (closedFields (front.take (bufferSize - 1) ++ [terminator])).length < 11 := by
    have more := closedFields_length_le (front.take (bufferSize - 1)) (front.drop (bufferSize - 1))
    rw [List.take_append_drop, fields] at more
    rw [(fields_terminated _).1]
    exact Nat.lt_succ_of_le more
  obtain ⟨failure, failed⟩ := takeFields_short short
  have nothing : stale.drop (bufferSize - 1 + 1) = [] :=
    List.drop_eq_nil_of_le (by rw [buffer, bufferSize])
  simp only [readStatCpu, readFile, Option.map_some, cut, fillBuffer, nonempty, if_false, length,
    nothing, parseStatCpu, scanCpu_eq, failed]
  exact ⟨failure, rfl⟩

theorem cpuIdle_lineTokens (junk : Nat → UInt64) (line : CpuLine) :
    (addColumns junk 2 ⟨0, 0⟩ (lineTokens line)).cpuIdle =
      fromCharsUInt64 (junk 4) line.system.digits := by
  rw [lineTokens, addColumns_cons, addColumns_cons, addColumns_cons, cpuIdle_addColumns junk (by omega)]
  rfl

/-- The sum depends on what was in the variables as soon as one counter is out of range. -/
theorem small_of_constant {line : CpuLine}
    (constant : (addColumns (fun _ => 1) 2 ⟨0, 0⟩ (lineTokens line)).cpuUsage =
      (addColumns (fun _ => 0) 2 ⟨0, 0⟩ (lineTokens line)).cpuUsage) :
    ∀ counter ∈ line.counters, counter.value < 2 ^ 64 := by
  have differ := congrArg UInt64.toNat (@addColumns_junk 2 0 (lineTokens line) (le_refl 2)
    (by simp [lineTokens]) ⟨0, 0⟩ ⟨0, 0⟩ rfl)
  rw [constant, Nat.zero_add, countP_reads (reads_lineTokens line), UInt64.toNat_add,
    UInt64.toNat_ofNat'] at differ
  have few : line.counters.countP (fun counter => 2 ^ 64 ≤ counter.value) ≤ 10 :=
    List.countP_le_length
  have bound := (addColumns (fun _ => 0) 2 ⟨0, 0⟩ (lineTokens line)).cpuUsage.toNat_lt
  have none : line.counters.countP (fun counter => 2 ^ 64 ≤ counter.value) = 0 := by
    omega
  intro counter member
  simpa using List.countP_eq_zero.mp none counter member

/-- The totals are right exactly if the first line and the start of the second fit into the
buffer, every counter fits into its type, and the columns of system and idle agree: it is the
system counter that is read for the idle one. -/
theorem readStatCpu_totals_iff (line : CpuLine) (rest : Bytes) :
    (∀ junk stale, stale.length = bufferSize → ReadsTotals junk line rest stale) ↔
      (cpuText line []).length < bufferSize ∧ (∀ counter ∈ line.counters, counter.value < 2 ^ 64) ∧
        line.system.value = line.idle.value := by
  have systemNumeral := leadingNumeral_counter line.system
  have isCounter : line.system ∈ line.counters := by simp [CpuLine.counters]
  constructor
  · intro right
    by_cases fits : (cpuText line []).length < bufferSize
    · have values : ∀ junk,
          (addColumns junk 2 ⟨0, 0⟩ (lineTokens line)).cpuUsage.toNat =
              (line.counters.map Counter.value).sum % 2 ^ 64 ∧
            (addColumns junk 2 ⟨0, 0⟩ (lineTokens line)).cpuIdle.toNat = line.idle.value := by
        intro junk
        obtain ⟨cpuStat, ok, sum, idle⟩ := right junk (List.replicate bufferSize 0)
          List.length_replicate
        rw [readStatCpu_fits fits] at ok
        cases ok
        exact ⟨sum, idle⟩
      have small := small_of_constant
        (UInt64.toNat_inj.mp ((values fun _ => 1).1.trans (values fun _ => 0).1.symm))
      refine ⟨fits, small, ?_⟩
      have idle := (values 0).2
      rwa [cpuIdle_lineTokens, toNat_fromChars systemNumeral (small _ isCounter)] at idle
    · obtain ⟨_, ok, _⟩ := right 0 (List.replicate bufferSize 0) List.length_replicate
      obtain ⟨failure, failed⟩ := readStatCpu_cut fits 0 rest
        (@List.length_replicate UInt8 bufferSize 0)
      rw [failed] at ok
      cases ok
  · rintro ⟨fits, small, same⟩ junk stale _
    refine ⟨_, readStatCpu_fits fits junk rest stale, ?_, ?_⟩
    · rw [addColumns_sum junk (reads_lineTokens line) small (le_refl 2)
        (by simp [CpuLine.counters])]
      simp
    · rw [cpuIdle_lineTokens, toNat_fromChars systemNumeral (small _ isCounter), same]

/-- A counter of one digit, behind one space. -/
def oneDigit (digit : UInt8) (numeral : isDigit digit = true) : Counter where
  gap := 0
  digits := [digit]
  nonempty := by simp
  numeral := by simpa using numeral

/-- With 3 for system and 4 for idle, the idle total is 3. -/
theorem system_read_for_idle :
    ¬ ∀ line rest junk stale, stale.length = bufferSize → ReadsTotals junk line rest stale := by
  intro right
  let line : CpuLine := ⟨oneDigit 49 rfl, oneDigit 50 rfl, oneDigit 51 rfl, oneDigit 52 rfl,
    oneDigit 53 rfl, oneDigit 54 rfl, oneDigit 55 rfl, oneDigit 56 rfl, oneDigit 57 rfl,
    oneDigit 48 rfl⟩
  obtain ⟨cpuStat, ok, _, idle⟩ := right line [] 0 (List.replicate bufferSize 0)
    List.length_replicate
  have read : readStatCpu 0 (some (cpuText line [])) (List.replicate bufferSize 0) =
      .ok ⟨45, 3⟩ := by
    decide +kernel
  rw [read] at ok
  cases ok
  exact absurd idle (by decide)

end RemoteMonitoring
