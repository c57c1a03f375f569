/-
Module: RemoteMonitoring.Proofs.ProcStat
Purpose: Which command names the parser of /proc/<pid>/stat passes over, and what it reads
  behind them.
Trusted boundary: none
Main exports: skipName_append, skipName_cases, scanCpuMem_columns, skipName_name,
  readPidStatCpuMem_immune_iff
-/
import RemoteMonitoring.System.ProcFiles

namespace RemoteMonitoring

open ByteText
open PointerScan

/-! ### The name -/

theorem depth_append (front back : Bytes) : depth (front ++ back) = depth front + depth back := by
  simp only [depth, List.count_append]
  omega

/-- A byte more in front, and the depth changes by what it counts. -/
theorem depth_cons (byte : UInt8) (text : Bytes) : depth (byte :: text) =
    countPara 0 byte + depth text := by
  unfold depth countPara
  simp only [List.count_cons, leftPara, rightPara]
  by_cases left : byte = 40
  · simp [left]
    omega
  · by_cases right : byte = 41
    · simp [right]
      omega
    · simp [left, right]

/-- What a byte counts does not depend on what is open. -/
theorem countPara_eq (openPara : Int) (byte : UInt8) :
    countPara openPara byte = openPara + countPara 0 byte := by
  unfold countPara
  split
  · omega
  · split
    · omega
    · omega

/-- `skipName` from some parentheses on: the shortest part that closes them. -/
structure ClosesFrom (openPara : Int) (text : Bytes) : Prop where
  nonempty : text ≠ []
  closed : openPara + depth text ≤ 0
  first : ∀ front back, text = front ++ back → front ≠ [] → back ≠ [] →
    0 < openPara + depth front

theorem closesFrom_zero {text : Bytes} : ClosesFrom 0 text ↔ Closes text := by
  constructor
  · intro closes
    exact ⟨closes.nonempty, by simpa using closes.closed, by simpa using closes.first⟩
  · intro closes
    exact ⟨closes.nonempty, by simpa using closes.closed, by simpa using closes.first⟩

/-- A byte that leaves parentheses open stands in front of what closes them. -/
theorem closesFrom_cons_open {openPara : Int} {byte : UInt8} {text : Bytes}
    (still : 0 < countPara openPara byte) :
    ClosesFrom openPara (byte :: text) ↔ ClosesFrom (countPara openPara byte) text := by
  have count := countPara_eq openPara byte
  constructor
  · intro closes
    have ends : countPara openPara byte + depth text ≤ 0 := by
      have closed := closes.closed
      rw [depth_cons] at closed
      omega
    refine ⟨?_, ends, ?_⟩
    · intro empty
      rw [empty] at ends
      exact absurd ends (not_le.mpr (by simpa [depth] using still))
    · intro front back same _ nonempty
      have inside := closes.first (byte :: front) back (by simp [same]) (by simp) nonempty
      rw [depth_cons] at inside
      omega
  · intro closes
    refine ⟨by simp, ?_, ?_⟩
    · have closed := closes.closed
      rw [depth_cons]
      omega
    · intro front back same some nonempty
      obtain ⟨first, front, rfl⟩ := List.exists_cons_of_ne_nil some
      obtain ⟨rfl, rfl⟩ := List.cons.inj same
      rw [depth_cons]
      by_cases empty : front = []
      · simp only [empty, depth, List.count_nil]
        omega
      · have inside := closes.first front back rfl empty nonempty
        omega

/-- A byte that closes the parentheses is the last one. -/
theorem closesFrom_cons_closed {openPara : Int} {byte : UInt8} {text : Bytes}
    (closed : countPara openPara byte ≤ 0) : ClosesFrom openPara (byte :: text) ↔ text = [] := by
  have count := countPara_eq openPara byte
  constructor
  · intro closes
    by_contra nonempty
    have inside := closes.first [byte] text rfl (by simp) nonempty
    rw [depth_cons] at inside
    simp only [depth, List.count_nil] at inside
    omega
  · rintro rfl
    refine ⟨by simp, ?_, ?_⟩
    · rw [depth_cons]
      simp only [depth, List.count_nil]
      omega
    · intro front back same some nonempty
      have single := congrArg List.length same
      have one := List.length_pos_of_ne_nil some
      have two := List.length_pos_of_ne_nil nonempty
      simp only [List.length_cons, List.length_nil, List.length_append] at single
      omega

/-- The text goes on exactly as long as a parenthesis is open. -/
theorem closesFrom_cons {openPara : Int} {byte : UInt8} {text : Bytes} :
    ClosesFrom openPara (byte :: text) ↔
      if 0 < countPara openPara byte then ClosesFrom (countPara openPara byte) text
      else text = [] := by
  split
  · rename_i still
    exact closesFrom_cons_open still
  · rename_i closed
    exact closesFrom_cons_closed (not_lt.mp closed)

/-- A name that closes its parentheses is passed over, whatever comes behind it. -/
theorem skipName_append {openPara : Int} {name : Bytes} (closes : ClosesFrom openPara name)
    (rest : Bytes) : skipName openPara (name ++ rest) = .ok (name, rest) := by
  induction name generalizing openPara with
  | nil => exact absurd rfl closes.nonempty
  | cons byte name ih =>
      have step := closesFrom_cons.mp closes
      rw [List.cons_append, skipName]
      split
      · rename_i still
        rw [if_pos still] at step
        rw [ih step]
        rfl
      · rename_i closed
        rw [if_neg closed] at step
        rw [step]
        rfl

/-- A skip passes the part that closes, or there is none. -/
theorem skipName_cases (openPara : Int) (p : Bytes) :
    (skipName openPara p = .error .outOfBounds ∧
        ∀ name rest, p = name ++ rest → ¬ ClosesFrom openPara name) ∨
      ∃ name rest, ClosesFrom openPara name ∧ p = name ++ rest ∧
        skipName openPara p = .ok (name, rest) := by
  induction p generalizing openPara with
  | nil =>
      refine Or.inl ⟨rfl, ?_⟩
      intro name rest same closes
      exact closes.nonempty (List.append_eq_nil_iff.mp same.symm).1
  | cons byte p ih =>
      by_cases still : 0 < countPara openPara byte
      · rcases ih (countPara openPara byte) with ⟨failed, none⟩ | ⟨name, rest, closes, same, found⟩
        · refine Or.inl ⟨by simp [skipName, still, failed], ?_⟩
          intro name rest same closes
          obtain ⟨first, name, rfl⟩ := List.exists_cons_of_ne_nil closes.nonempty
          obtain ⟨rfl, rfl⟩ := List.cons.inj same
          apply none name rest rfl
          simpa [still] using closesFrom_cons.mp closes
        · refine Or.inr ⟨byte :: name, rest, ?_, by simp [same], by simp [skipName, still, found]⟩
          simpa [closesFrom_cons, still] using closes
      · refine Or.inr ⟨[byte], p, ?_, rfl, by simp [skipName, still]⟩
        simp [closesFrom_cons, still]

/-- The loop over the name looks at no byte behind the one that closes it. -/
theorem skipName_proceeds (openPara : Int) : Proceeds (skipName openPara) := by
  intro p more ends
  rcases skipName_cases openPara p with ⟨failed, _⟩ | ⟨name, rest, closes, same, found⟩
  · exact absurd failed ends
  · rw [found, same, List.append_assoc, skipName_append closes]
    rfl

/-! ### The columns -/

/-- What the loop over the fields does with the fields it finds. -/
def setColumns (pageSize : UInt64) : Nat → CpuMemStat → List Bytes → CpuMemStat :=
  foldTokens (setCpuMem pageSize)

theorem setColumns_cons (pageSize : UInt64) (field : Nat) (cpuMemStat : CpuMemStat) (token : Bytes)
    (tokens : List Bytes) : setColumns pageSize field cpuMemStat (token :: tokens) =
      setColumns pageSize (field + 1) (setCpuMem pageSize field token cpuMemStat) tokens := rfl

theorem scanCpuMem_eq (pageSize : UInt64) (rounds field : Nat) (cpuMemStat : CpuMemStat)
    (p : Bytes) :
    scanCpuMem pageSize rounds field cpuMemStat p =
      (takeFields rounds p).map (setColumns pageSize field cpuMemStat) :=
  foldFields_eq (setCpuMem pageSize) rounds field cpuMemStat p

/-- A field that is not wanted sets nothing. -/
theorem setColumns_drop (pageSize : UInt64) {field count : Nat} (cpuMemStat : CpuMemStat)
    (tokens : List Bytes) (other : ∀ i < count, field + i ≠ 14 ∧ field + i ≠ 24) :
    setColumns pageSize field cpuMemStat tokens =
      setColumns pageSize (field + count) cpuMemStat (tokens.drop count) := by
  induction count generalizing field tokens with
  | zero => rfl
  | succ count ih =>
      cases tokens with
      | nil => rfl
      | cons token tokens =>
          obtain ⟨noUtime, noRss⟩ := other 0 (Nat.succ_pos count)
          have later := @ih (field + 1) tokens fun i inside => by
            simpa [Nat.add_assoc, Nat.add_comm 1 i] using other (i + 1) (Nat.succ_lt_succ inside)
          rw [Nat.add_zero] at noUtime noRss
          rw [setColumns_cons, setCpuMem, if_neg noUtime, if_neg noRss, later, List.drop_succ_cons,
            Nat.add_assoc, Nat.add_comm 1 count]

theorem drop_of_getElem? {tokens : List Bytes} {i : Nat} {token : Bytes}
    (stands : tokens[i]? = some token) : tokens.drop i = token :: tokens.drop (i + 1) := by
  obtain ⟨inside, rfl⟩ := List.getElem?_eq_some_iff.mp stands
  exact List.drop_eq_getElem_cons inside

/-- Of the fields from the third on, the two values are the twelfth and the twenty-second. -/
theorem setColumns_eq (pageSize : UInt64) {tokens : List Bytes} {utime rss : Bytes}
    (first : tokens[11]? = some utime) (second : tokens[21]? = some rss) :
    setColumns pageSize 3 ⟨0, 0⟩ tokens =
      ⟨fromCharsUInt64 0 utime, fromCharsUInt64 0 rss * pageSize⟩ := by
  rw [@setColumns_drop pageSize 3 11 _ _ (by omega), drop_of_getElem? first, setColumns_cons,
    @setColumns_drop pageSize 15 9 _ _ (by omega), List.drop_drop, drop_of_getElem? second,
    setColumns_cons, @setColumns_drop pageSize 25 tokens.length _ _ (by omega), List.drop_drop,
    List.drop_eq_nil_of_le (by omega)]
  simp [setColumns, foldTokens, setCpuMem]

/-- Between two columns stands one space. -/
theorem columns_eq (front : List Bytes) (last : Bytes) :
    (front ++ [last]).flatMap (space :: ·) =
      space :: (front.flatMap (· ++ [space]) ++ last) := by
  induction front with
  | nil => simp
  | cons field front ih => simp [ih]

/-- A numeral that fits 64 bits is read as its value. -/
theorem fromCharsUInt64_numeral {text : Bytes} {value target : UInt64}
    (numeral : IsNumeral text value.toNat) : fromCharsUInt64 target text = value := by
  obtain ⟨nonempty, digits, same⟩ := numeral
  apply fromCharsUInt64_of_leadingNumeral
  have whole := @leadingNumeral_append text [] nonempty digits (by simp)
  rwa [List.append_nil, same] at whole

/-- The last column is the one that is not followed by a space. -/
theorem StatFields.split {fields : List Bytes} {utime rss : UInt64}
    (columns : StatFields fields utime rss) :
    ∃ front last, fields = front ++ [last] ∧ front.length = 49 ∧
      (∀ field ∈ front, field ≠ [] ∧ space ∉ field) ∧ last ≠ [] ∧ space ∉ last := by
  rcases List.eq_nil_or_concat fields with rfl | ⟨front, last, same⟩
  · cases columns.count
  · rw [List.concat_eq_append] at same
    subst same
    have count := columns.count
    rw [List.length_append, List.length_singleton] at count
    exact ⟨front, last, rfl, Nat.succ.inj count,
      fun field member => columns.field field (List.mem_append_left _ member),
      columns.field last (by simp)⟩

/-- The last column runs over the line break and the terminator up to the next space. -/
theorem takeFields_columns {front : List Bytes} {last token : Bytes} (fronts : front.length = 49)
    (field : ∀ field ∈ front, field ≠ [] ∧ space ∉ field) (nonempty : last ≠ [])
    (noSpace : space ∉ last ++ newline :: terminator :: token) (rest : Bytes) :
    takeFields 50 (front.flatMap (· ++ [space]) ++
        (last ++ newline :: terminator :: (token ++ space :: rest))) =
      if (front ++ [last]).any startsNul then .error .threw
      else .ok (front ++ [last ++ newline :: terminator :: token]) := by
  have closed := closedFields_append (last ++ newline :: terminator :: token) rest
  rw [List.splitOn_eq_singleton noSpace] at closed
  simp only [List.append_assoc, List.cons_append] at closed
  have tokens : (front ++ closedFields
      (last ++ newline :: terminator :: (token ++ space :: rest))).take 50 =
        front ++ [last ++ newline :: terminator :: token] := by
    rw [closed, List.take_append, List.take_of_length_le (by omega)]
    simp [fronts, nonempty]
  have nuls : (front ++ [last ++ newline :: terminator :: token]).any startsNul =
      (front ++ [last]).any startsNul := by
    simp [startsNul_append nonempty]
  have enough : 50 ≤ (front ++ closedFields
      (last ++ newline :: terminator :: (token ++ space :: rest))).length := by
    rw [closed]
    simp [fronts, nonempty]
    omega
  rw [takeFields_eq, closedFields_flatMap field]
  simp only [tokens, nuls, enough, if_true]

/-- The columns are read right when the last of them comes to an end. -/
theorem scanCpuMem_columns {fields : List Bytes} {utime rss : UInt64}
    (columns : StatFields fields utime rss) (pageSize : UInt64) (tail : Bytes) :
    scanCpuMem pageSize 50 3 ⟨0, 0⟩
        (fields.flatMap (space :: ·) ++ newline :: terminator :: tail) =
        .ok ⟨utime, rss * pageSize⟩ ↔
      space ∈ tail ∧ ∀ field ∈ fields, startsNul field = false := by
  obtain ⟨front, last, rfl, fronts, frontField, lastNonempty, lastSpace⟩ := columns.split
  obtain ⟨_, _, ⟨utimeText, utimeAt, utimeNumeral⟩, ⟨rssText, rssAt, rssNumeral⟩⟩ := columns
  rw [List.getElem?_append_left (by omega)] at utimeAt rssAt
  rw [scanCpuMem_eq, columns_eq, List.cons_append, takeFields_space, List.append_assoc]
  by_cases member : space ∈ tail
  · obtain ⟨token, rest, rfl, absent⟩ := List.eq_append_cons_of_mem member
    have noSpace : space ∉ last ++ newline :: terminator :: token := by
      simp [lastSpace, absent, space_ne_terminator, space_ne_newline]
    have values := @setColumns_eq pageSize (front ++ [last ++ newline :: terminator :: token])
      utimeText rssText (by rw [List.getElem?_append_left (by omega), utimeAt])
      (by rw [List.getElem?_append_left (by omega), rssAt])
    rw [fromCharsUInt64_numeral utimeNumeral, fromCharsUInt64_numeral rssNumeral] at values
    rw [takeFields_columns fronts frontField lastNonempty noSpace]
    simp only [member, true_and]
    split
    · rename_i nul
      obtain ⟨other, inside, starts⟩ := List.any_eq_true.mp nul
      constructor
      · intro read
        cases read
      · intro none
        rw [none other inside] at starts
        cases starts
    · rename_i nul
      constructor
      · intro _ other inside
        by_contra starts
        exact nul (List.any_eq_true.mpr ⟨other, inside, by simpa using starts⟩)
      · intro _
        exact congrArg Except.ok values
  · have noSpace : space ∉ last ++ newline :: terminator :: tail := by
      simp [lastSpace, member, space_ne_terminator, space_ne_newline]
    have short : (closedFields (front.flatMap (· ++ [space]) ++
        (last ++ newline :: terminator :: tail))).length < 50 := by
      rw [closedFields_flatMap frontField, closedFields_of_not_mem noSpace, List.append_nil, fronts]
      decide
    obtain ⟨failure, failed⟩ := takeFields_short short
    simp [failed, member, Except.map]

/-! ### The text -/

theorem fillBuffer_ne_nil {content : Bytes} (nonempty : content ≠ []) (stale : Bytes) :
    fillBuffer content stale = content ++ terminator :: stale.drop (content.length + 1) :=
  if_neg nonempty

/-- The parser on a text: what it does from the name on. -/
theorem parsePidStat_text (pageSize : UInt64) (pid : UInt32) (name : Bytes) (fields : List Bytes)
    (tail : Bytes) :
    parsePidStat pageSize (statText pid name fields ++ terminator :: tail) = (do
      let (_, p) ← skipName 0 (leftPara :: name ++ rightPara ::
        (fields.flatMap (space :: ·) ++ newline :: terminator :: tail))
      let (_, p) ← advance p
      scanCpuMem pageSize 50 3 ⟨0, 0⟩ p) := by
  have noSpace : space ∉ decimal pid.toNat := not_mem_decimal rfl
  have text : statText pid name fields ++ terminator :: tail = decimal pid.toNat ++ space ::
      (leftPara :: name ++ rightPara ::
        (fields.flatMap (space :: ·) ++ newline :: terminator :: tail)) := by
    simp [statText]
  rw [text]
  simp only [parsePidStat, scanTo_append noSpace, ok_bind, advance]

/-- A text that fits the buffer is in it with a terminator, and then what was there before. -/
theorem readPidStatCpuMem_text {pid : UInt32} {name : Bytes} {fields : List Bytes}
    {utime rss : UInt64} {stale : Bytes} (input : StatInput pid name fields utime rss stale)
    (pageSize : UInt64) :
    readPidStatCpuMem pageSize (some (statText pid name fields)) stale =
      parsePidStat pageSize (statText pid name fields ++ terminator ::
        stale.drop ((statText pid name fields).length + 1)) := by
  have fits : (statText pid name fields).take (bufferSize - 1) = statText pid name fields :=
    List.take_of_length_le (Nat.le_sub_one_of_lt input.fits)
  have nonempty : statText pid name fields ≠ [] := by simp [statText]
  simp only [readPidStatCpuMem, readFile, Option.map_some, fits, fillBuffer_ne_nil nonempty]

/-! ### Names that close with their parenthesis -/

/-- Behind such a name the columns are counted from the third field on. -/
theorem parsePidStat_closesLast {name : Bytes} (closes : ClosesLast name) {fields : List Bytes}
    (some : fields ≠ []) (pageSize : UInt64) (pid : UInt32) (tail : Bytes) :
    parsePidStat pageSize (statText pid name fields ++ terminator :: tail) =
      scanCpuMem pageSize 50 3 ⟨0, 0⟩
        (fields.flatMap (space :: ·) ++ newline :: terminator :: tail) := by
  obtain ⟨first, others, rfl⟩ := List.exists_cons_of_ne_nil some
  rw [parsePidStat_text]
  rcases closes with closes | closes
  · have skipped := skipName_append (closesFrom_zero.mpr closes)
      ((first :: others).flatMap (space :: ·) ++ newline :: terminator :: tail)
    rw [List.append_assoc, List.singleton_append] at skipped
    simp only [skipped, ok_bind]
    simp only [List.flatMap_cons, List.cons_append, advance, ok_bind, scanCpuMem,
      foldFields_space]
  · have skipped := skipName_append (closesFrom_zero.mpr closes)
      (rightPara :: ((first :: others).flatMap (space :: ·) ++ newline :: terminator :: tail))
    simp only [skipped, ok_bind, advance]

theorem StatFields.ne_nil {fields : List Bytes} {utime rss : UInt64}
    (columns : StatFields fields utime rss) : fields ≠ [] := by
  rintro rfl
  cases columns.count

/-- Behind a name that closes last, the values are read exactly if the last field comes to an end.
-/
theorem readsStat_of_closesLast {pid : UInt32} {name : Bytes} {fields : List Bytes}
    {utime rss : UInt64} {stale : Bytes} (closes : ClosesLast name)
    (input : StatInput pid name fields utime rss stale) (pageSize : UInt64) :
    ReadsStat pageSize pid name fields utime rss stale ↔ LastFieldEnds pid name fields stale := by
  unfold ReadsStat LastFieldEnds
  rw [← scanCpuMem_columns input.columns pageSize, readPidStatCpuMem_text input,
    parsePidStat_closesLast closes input.columns.ne_nil]

/-! ### Names that do not -/

theorem depth_of_not_mem {text : Bytes} (noLeft : leftPara ∉ text) (noRight : rightPara ∉ text) :
    depth text = 0 := by
  simp [depth, List.count_eq_zero.mpr noLeft, List.count_eq_zero.mpr noRight]

/-- Otherwise the parentheses close earlier, or not at all. -/
theorem skipName_name (name : Bytes) :
    ClosesLast name ∨
      (∃ front byte back, leftPara :: name = front ++ byte :: back ∧ Closes front) ∨
      ∀ rest, leftPara ∉ rest → rightPara ∉ rest →
        skipName 0 (leftPara :: name ++ rightPara :: rest) = .error .outOfBounds := by
  rcases skipName_cases 0 (leftPara :: name ++ [rightPara]) with
    ⟨_, none⟩ | ⟨front, rest, closes, same, _⟩
  · refine Or.inr (Or.inr ?_)
    intro rest noLeft noRight
    rcases skipName_cases 0 (leftPara :: name ++ rightPara :: rest) with
      ⟨failed, _⟩ | ⟨front, behind, closes, same, _⟩
    · exact failed
    · have whole : (leftPara :: name ++ [rightPara]) ++ rest = front ++ behind := by
        simpa using same
      rcases List.append_eq_append_iff.mp whole with ⟨more, longer, inside⟩ | ⟨more, shorter, _⟩
      · subst longer inside
        rw [List.mem_append, not_or] at noLeft noRight
        have flat := depth_of_not_mem noLeft.1 noRight.1
        by_cases empty : more = []
        · subst empty
          exact absurd (by simpa using closes) (none _ [] (List.append_nil _).symm)
        · have positive := closes.first _ more rfl (by simp) empty
          have closed := closes.closed
          rw [depth_append, flat] at closed
          omega
      · exact absurd closes (none front more shorter)
  · have closes := closesFrom_zero.mp closes
    rcases List.eq_nil_or_concat rest with rfl | ⟨behind, last, rfl⟩
    · rw [List.append_nil] at same
      exact Or.inl (Or.inl (same ▸ closes))
    · rw [List.concat_eq_append, ← List.append_assoc] at same
      obtain ⟨same, _⟩ := List.append_inj' same rfl
      cases behind with
      | nil =>
          rw [List.append_nil] at same
          exact Or.inl (Or.inr (same ▸ closes))
      | cons byte back => exact Or.inr (Or.inl ⟨front, byte, back, same, closes⟩)

/-- The first value is that of the twelfth field. -/
theorem totalCpuUsage_of_scan {pageSize : UInt64} {p token : Bytes} {cpuMemStat : CpuMemStat}
    (read : scanCpuMem pageSize 50 3 ⟨0, 0⟩ p = .ok cpuMemStat)
    (twelfth : (closedFields p)[11]? = some token) :
    cpuMemStat.totalCpuUsage = fromCharsUInt64 0 token := by
  rw [scanCpuMem_eq, takeFields_eq] at read
  dsimp only at read
  split at read
  · cases read
  · split at read
    · rename_i enough
      have length : ((closedFields p).take 50).length = 50 := List.length_take_of_le enough
      have first : ((closedFields p).take 50)[11]? = some token := by
        rw [List.getElem?_take_of_lt (by omega), twelfth]
      have second := List.getElem?_eq_getElem (show 21 < ((closedFields p).take 50).length by omega)
      rw [Except.map, setColumns_eq pageSize first second] at read
      cases read
      rfl
    · split at read
      · cases read
      · cases read

/-- Columns that differ in the twelfth only. -/
def columnsWith (digit : UInt8) : List Bytes :=
  List.replicate 11 [49] ++ [digit] :: List.replicate 38 [49]

theorem mem_columnsWith {digit : UInt8} {field : Bytes} (member : field ∈ columnsWith digit) :
    field = [49] ∨ field = [digit] := by
  simp only [columnsWith, List.mem_append, List.mem_cons, List.mem_replicate] at member
  rcases member with ⟨_, same⟩ | same | ⟨_, same⟩
  · exact Or.inl same
  · exact Or.inr same
  · exact Or.inl same

theorem ne_of_isDigit {digit other : UInt8} (one : isDigit digit = true)
    (two : isDigit other = false) : digit ≠ other := by
  rintro rfl
  rw [one] at two
  cases two

theorem field_columnsWith {digit : UInt8} (numeral : isDigit digit = true) :
    ∀ field ∈ columnsWith digit, field ≠ [] ∧ space ∉ field := by
  intro field member
  rcases mem_columnsWith member with rfl | rfl
  · exact ⟨by simp, by simp [space]⟩
  · exact ⟨by simp, by simpa using (ne_of_isDigit numeral rfl).symm⟩

/-- Such columns are fields as they are in the file. -/
theorem statFields_columnsWith {digit : UInt8} {utime : UInt64} (numeral : isDigit digit = true)
    (value : numeralValue [digit] = utime.toNat) : StatFields (columnsWith digit) utime 1 where
  count := by simp [columnsWith]
  field := field_columnsWith numeral
  utime := ⟨[digit], by simp [columnsWith], by simp, by simpa using numeral, value⟩
  rss := ⟨[49], by simp [columnsWith], by simp, by simp [isDigit], rfl⟩

/-- Their text is as long as the name, and 105 bytes. -/
theorem length_statText_columnsWith (name : Bytes) (digit : UInt8) :
    (statText 1 name (columnsWith digit)).length = name.length + 105 := by
  have pid : (decimal 1).length = 1 := rfl
  have columns : ((columnsWith digit).flatMap (space :: ·)).length = 100 := rfl
  simp only [statText, UInt32.toNat_one, List.length_append, List.length_cons, List.length_nil, pid,
    columns]
  omega

/-- So it fits the buffer. -/
theorem statInput_columnsWith {name : Bytes} {digit : UInt8} {utime : UInt64}
    (short : name.length < 3990) (numeral : isDigit digit = true)
    (value : numeralValue [digit] = utime.toNat) :
    StatInput 1 name (columnsWith digit) utime 1 (List.replicate bufferSize space) where
  columns := statFields_columnsWith numeral value
  fits := by
    rw [length_statText_columnsWith, bufferSize]
    omega
  buffer := List.length_replicate

/-- And the spaces behind it end its last field. -/
theorem lastFieldEnds_columnsWith {name : Bytes} {digit : UInt8} (short : name.length < 3990)
    (numeral : isDigit digit = true) :
    LastFieldEnds 1 name (columnsWith digit) (List.replicate bufferSize space) := by
  constructor
  · rw [length_statText_columnsWith, List.drop_replicate, List.mem_replicate, bufferSize]
    exact ⟨by omega, rfl⟩
  · intro field member
    rcases mem_columnsWith member with rfl | rfl
    · rfl
    · simpa [startsNul] using ne_of_isDigit numeral rfl

/-- Where a part of the name reads like a column, the twelfth of the columns does not matter to
the first twelve that are read. -/
theorem closedFields_shifted (back text : Bytes) :
    ∃ tokens : List Bytes, 12 ≤ tokens.length ∧ ∀ digit, isDigit digit = true → ∃ later,
      closedFields (back ++ rightPara :: ((columnsWith digit).flatMap (space :: ·) ++ text)) =
        tokens ++ later := by
  have visible : ((back ++ [rightPara]).splitOn space).filter (· ≠ []) ≠ [] :=
    @filter_splitOn_ne_nil (back ++ [rightPara]) rightPara (by simp) (by decide)
  refine ⟨((back ++ [rightPara]).splitOn space).filter (· ≠ []) ++ List.replicate 11 [49], ?_, ?_⟩
  · have some := List.length_pos_of_ne_nil visible
    rw [List.length_append, List.length_replicate]
    omega
  · intro digit numeral
    have split : columnsWith digit =
        (List.replicate 11 [49] ++ [digit] :: List.replicate 37 [49]) ++ [[49]] := rfl
    have fields : ∀ field ∈ List.replicate 11 [49] ++ [digit] :: List.replicate 37 [49],
        field ≠ [] ∧ space ∉ field := by
      intro field member
      apply field_columnsWith numeral field
      rw [split]
      exact List.mem_append_left _ member
    have read := closedFields_append (back ++ [rightPara])
      ((List.replicate 11 [49] ++ [digit] :: List.replicate 37 [49]).flatMap (· ++ [space]) ++
        ([49] ++ text))
    rw [closedFields_flatMap fields] at read
    rw [split, columns_eq]
    refine ⟨[digit] :: List.replicate 37 [49] ++ closedFields ([49] ++ text), ?_⟩
    simpa only [List.append_assoc, List.cons_append, List.nil_append] using read

/-- For any other name what is read in the place of `utime` does not depend on `utime`, so that it
is wrong for one of two values; or the scan fails. -/
theorem not_immune {name : Bytes} (other : ¬ ClosesLast name) (short : name.length < 3990)
    (pageSize : UInt64) :
    ∃ fields utime rss stale, StatInput 1 name fields utime rss stale ∧
      LastFieldEnds 1 name fields stale ∧
      ¬ ReadsStat pageSize 1 name fields utime rss stale := by
  by_contra all
  push Not at all
  have reads : ∀ digit utime, isDigit digit = true → numeralValue [digit] = utime.toNat →
      ReadsStat pageSize 1 name (columnsWith digit) utime 1 (List.replicate bufferSize space) := by
    intro digit utime numeral value
    apply all _ _ _ _ (statInput_columnsWith short numeral value)
    exact lastFieldEnds_columnsWith short numeral
  rcases skipName_name name with closes | ⟨front, byte, back, same, closes⟩ | failed
  · exact other closes
  · obtain ⟨tokens, enough, shifted⟩ := closedFields_shifted back
      (newline :: terminator :: (List.replicate bufferSize space).drop (name.length + 105 + 1))
    -- The value that is read is the same for any digit.
    have constant : ∀ digit utime, isDigit digit = true → numeralValue [digit] = utime.toNat →
        utime = fromCharsUInt64 0 (tokens[11]) := by
      intro digit utime numeral value
      obtain ⟨later, closed⟩ := shifted digit numeral
      have read := reads digit utime numeral value
      rw [ReadsStat, readPidStatCpuMem_text (statInput_columnsWith short numeral value),
        length_statText_columnsWith, parsePidStat_text, same, List.append_assoc, List.cons_append,
        skipName_append (closesFrom_zero.mpr closes)] at read
      simp only [ok_bind, advance] at read
      apply totalCpuUsage_of_scan read
      rw [closed, List.getElem?_append_left (by omega)]
      exact List.getElem?_eq_getElem (by omega)
    have one := constant 49 1 rfl rfl
    have two := constant 50 2 rfl rfl
    exact absurd (one.trans two.symm) (by decide)
  · have input := @statInput_columnsWith name 49 1 short rfl rfl
    have read := reads 49 1 rfl rfl
    rw [ReadsStat, readPidStatCpuMem_text input, parsePidStat_text, failed] at read
    · cases read
    · simp [columnsWith, leftPara, space, newline, terminator]
    · simp [columnsWith, rightPara, space, newline, terminator]

/-- The parser is immune to a name exactly if its parentheses close with the last one, as far as
the last field comes to an end in the buffer. -/
theorem readPidStatCpuMem_immune_iff (pageSize : UInt64) (name : Bytes) :
    (∀ pid fields utime rss stale, StatInput pid name fields utime rss stale → ClosesLast name →
      (ReadsStat pageSize pid name fields utime rss stale ↔
        LastFieldEnds pid name fields stale)) ∧
    (name.length < 3990 →
      ((∀ pid fields utime rss stale, StatInput pid name fields utime rss stale →
        LastFieldEnds pid name fields stale →
        ReadsStat pageSize pid name fields utime rss stale) ↔ ClosesLast name)) := by
  constructor
  · intro pid fields utime rss stale input closes
    exact readsStat_of_closesLast closes input pageSize
  · intro short
    constructor
    · intro immune
      by_contra other
      obtain ⟨fields, utime, rss, stale, input, ends, misread⟩ :=
        not_immune other short pageSize
      exact misread (immune 1 fields utime rss stale input ends)
    · intro closes pid fields utime rss stale input ends
      exact (readsStat_of_closesLast closes input pageSize).mpr ends

theorem closesLast_sdPam : ClosesLast (ascii "(sd-pam)") := by
  have text : leftPara :: ascii "(sd-pam)" ++ [rightPara] =
      [40, 40, 115, 100, 45, 112, 97, 109, 41, 41] := by decide
  left
  rw [text, ← closesFrom_zero]
  simp [closesFrom_cons, countPara, leftPara, rightPara]

/-- A name in parentheses of its own, with a buffer of spaces behind the text. -/
theorem readPidStatCpuMem_immune_iff_sample :
    ReadsStat 4096 1 (ascii "(sd-pam)") (columnsWith 50) 2 1 (List.replicate bufferSize space) :=
  ((readPidStatCpuMem_immune_iff 4096 (ascii "(sd-pam)")).1 1 (columnsWith 50) 2 1
    (List.replicate bufferSize space)
    ⟨statFields_columnsWith rfl rfl, by decide +kernel, List.length_replicate⟩
    closesLast_sdPam).mpr
    ⟨by decide +kernel, by decide +kernel⟩

/-- The name `x) y`: `utime` is read from the column in front of it. -/
theorem shifting_name_misreads :
    ¬ ∀ pageSize pid name fields utime rss stale,
      (∀ byte ∈ name, byte ≠ terminator ∧ byte ≠ newline) →
      StatInput pid name fields utime rss stale →
      ReadsStat pageSize pid name fields utime rss stale := by
  intro immune
  have read := immune 4096 1 (ascii "x) y") (columnsWith 50) 2 1 (List.replicate bufferSize space)
    (by decide +kernel) ⟨statFields_columnsWith rfl rfl, by decide +kernel, by simp⟩
  have other : readPidStatCpuMem 4096 (some (statText 1 (ascii "x) y") (columnsWith 50)))
      (List.replicate bufferSize space) = .ok ⟨1, 4096⟩ := by
    decide +kernel
  rw [ReadsStat, other] at read
  exact absurd read (by decide)

end RemoteMonitoring
