import ThistleOS.Kernel.DataLogger.Tables

/-!
# Reading an export

A reader of comma separated values finds the names of the columns and the values of each row.
-/

open ThistleOS.Digits ThistleOS.Timestamps ThistleOS.Csv

namespace ThistleOS.DataLogger

/-- What a reader finds for a value: a text as it is, and any other value as it is printed. -/
def printed : DataValue → List Char
  | .text s => s.toList
  | v => (dataValueToCsv v).toList

def headerRecord (l : DataLogger) : List (List Char) :=
  "timestamp".toList :: l.columns.map fun col => col.name.toList

def rowRecord (row : DataRow) : List (List Char) :=
  Timestamps.DataLogger.unixToIso8601 row.timestamp :: row.values.map printed

/-! ### Fields that need no quotes -/

lemma isSpecial_of_isDigit {c : Char} (h : c.isDigit = true) : isSpecial c = false := by
  by_contra hspecial
  have hspecial' : isSpecial c = true := by simpa using hspecial
  simp only [isSpecial, endsField, Bool.or_eq_true, beq_iff_eq] at hspecial'
  rcases hspecial' with rfl | (rfl | rfl) | rfl
  all_goals cases h

lemma isSpecial_of_mem_padded {width n : ℕ} {c : Char} (h : c ∈ padded width n) : isSpecial c = false := by
  rcases List.mem_append.mp h with h | h
  · obtain rfl := List.eq_of_mem_replicate h
    rfl
  · exact isSpecial_of_isDigit (Nat.isDigit_of_mem_toDigits (by decide) (by decide) h)

lemma isSpecial_of_mem_paddedInt {width : ℕ} {n : ℤ} {c : Char} (h : c ∈ paddedInt width n) : isSpecial c = false := by
  rw [paddedInt] at h
  split_ifs at h
  · rcases List.mem_cons.mp h with rfl | h
    · rfl
    · exact isSpecial_of_mem_padded h
  · exact isSpecial_of_mem_padded h

lemma isSpecial_of_mem_formatFloat {f : Float} {c : Char} (h : c ∈ formatFloat f) : isSpecial c = false := by
  have hsign {p : Prop} [Decidable p] (h : c ∈ if p then ['-'] else []) : isSpecial c = false := by
    split_ifs at h
    · obtain rfl := List.mem_singleton.mp h
      rfl
    · cases h
  have hinf : ∀ c ∈ ['i', 'n', 'f'], isSpecial c = false := by simp [isSpecial, endsField]
  have hnan : ∀ c ∈ ['N', 'a', 'N'], isSpecial c = false := by simp [isSpecial, endsField]
  rw [formatFloat] at h
  split at h
  · split at h
    · rcases List.mem_append.mp h with h | h
      · exact hsign h
      · exact hinf c h
    · exact hnan c h
  · simp only [List.mem_append, List.mem_cons] at h
    rcases h with (h | h) | rfl | h
    · exact hsign h
    · exact isSpecial_of_mem_padded h
    · rfl
    · exact isSpecial_of_mem_padded h

lemma isSpecial_of_mem_unixToIso8601 {ts : UInt32} {c : Char} (h : c ∈ Timestamps.DataLogger.unixToIso8601 ts) :
    isSpecial c = false := by
  rw [dataLogger_text, Moment.text, iso8601] at h
  simp only [List.mem_append, List.mem_cons, List.not_mem_nil, or_false] at h
  rcases h with h | rfl | h | rfl | h | rfl | h | rfl | h | rfl | h | rfl
  all_goals first
    | rfl
    | exact isSpecial_of_mem_padded h

/-! ### Cells -/

lemma csvEscape_written (s : String) : (csvEscape s).toList = s.toList ∧ (∀ c ∈ s.toList, isSpecial c = false) ∨
    (csvEscape s).toList = '"' :: (s.toList.flatMap double ++ ['"']) := by
  rw [csvEscape]
  split_ifs with h
  · refine .inr ?_
    simp only [String.toList_append, String.toList_ofList]
    rfl
  · refine .inl ⟨rfl, fun c hc => ?_⟩
    simp only [Bool.or_eq_true, List.contains_iff_mem, not_or] at h
    obtain ⟨⟨⟨hcomma, hquote⟩, hfeed⟩, hreturn⟩ := h
    simp only [isSpecial, endsField, Bool.or_eq_false_iff, beq_eq_false_iff_ne]
    refine ⟨?_, ⟨?_, ?_⟩, ?_⟩
    all_goals
      rintro rfl
      contradiction

def textCell (s : String) : Cell := ⟨(csvEscape s).toList, s.toList, csvEscape_written s⟩

def plainCell (s : List Char) (h : ∀ c ∈ s, isSpecial c = false) : Cell := ⟨s, s, .inl ⟨rfl, h⟩⟩

def valueCell (v : DataValue) : Cell where
  text := (dataValueToCsv v).toList
  value := printed v
  written := by
    cases v with
    | int n => exact .inl ⟨rfl, fun c hc => isSpecial_of_mem_paddedInt (by simpa [printed, dataValueToCsv] using hc)⟩
    | float f => exact .inl ⟨rfl, fun c hc => isSpecial_of_mem_formatFloat (by simpa [printed, dataValueToCsv] using hc)⟩
    | text s => exact csvEscape_written s
    | bool b =>
      refine .inl ⟨rfl, ?_⟩
      cases b
      · simp [printed, dataValueToCsv, isSpecial, endsField]
      · simp [printed, dataValueToCsv, isSpecial, endsField]
    | null => exact .inl ⟨rfl, by simp [printed, dataValueToCsv]⟩

def headerCells (l : DataLogger) : Cell × List Cell :=
  (plainCell "timestamp".toList (by simp [isSpecial, endsField]), l.columns.map fun col => textCell col.name)

def rowCells (row : DataRow) : Cell × List Cell :=
  (plainCell (Timestamps.DataLogger.unixToIso8601 row.timestamp) fun _ => isSpecial_of_mem_unixToIso8601,
    row.values.map valueCell)

/-- A loop that appends fields. -/
lemma toList_foldl_fields {α : Type} (text : α → String) (xs : List α) (out : String) :
    (xs.foldl (fun out x => out ++ "," ++ text x) out).toList =
      out.toList ++ xs.flatMap fun x => ',' :: (text x).toList := by
  induction xs generalizing out with
  | nil => simp
  | cons x xs ih =>
    rw [List.foldl_cons, ih, List.flatMap_cons]
    simp

/-- A loop that appends lines. -/
lemma toList_foldl_rows (rows : List DataRow) (out : String) :
    (rows.foldl (fun out row => row.values.foldl (fun out v => out ++ "," ++ dataValueToCsv v)
      (out ++ String.ofList (Timestamps.DataLogger.unixToIso8601 row.timestamp)) ++ "\n") out).toList =
      out.toList ++ (rows.map rowCells).flatMap line := by
  induction rows generalizing out with
  | nil => simp
  | cons row rows ih =>
    have hrow : line (rowCells row) = Timestamps.DataLogger.unixToIso8601 row.timestamp ++
        (row.values.flatMap fun v => ',' :: (dataValueToCsv v).toList) ++ ['\n'] := by
      rw [line, rowCells, List.flatMap_map]
      rfl
    rw [List.foldl_cons, ih, List.map_cons, List.flatMap_cons, hrow, String.toList_append, toList_foldl_fields]
    simp

/-- The export has a line for the header and a line for each row. -/
lemma toList_toCsv (l : DataLogger) : l.toCsv.toList = (headerCells l :: l.rows.map rowCells).flatMap line := by
  have hheader : line (headerCells l) = "timestamp".toList ++
      (l.columns.flatMap fun col => ',' :: (csvEscape col.name).toList) ++ ['\n'] := by
    rw [line, headerCells, List.flatMap_map]
    rfl
  rw [toCsv, toList_foldl_rows, List.flatMap_cons, hheader, String.toList_append,
    toList_foldl_fields fun col : DataColumn => csvEscape col.name]
  rfl

/-- What is read from an export. -/
theorem read_toCsv (l : DataLogger) : read l.toCsv.toList = some (headerRecord l :: l.rows.map rowRecord) := by
  have hheader : values (headerCells l) = headerRecord l := by
    rw [values, headerCells, headerRecord, List.map_map]
    rfl
  have hrow (row : DataRow) : values (rowCells row) = rowRecord row := by
    rw [values, rowCells, rowRecord, List.map_map]
    rfl
  rw [toList_toCsv, read_lines, List.map_cons, List.map_map, hheader]
  exact congrArg (fun rows => some (headerRecord l :: rows)) (List.map_congr_left fun row _ => hrow row)

/-- In the runs where no column is added to a table without rows while a row is built, and in no other, every
table is rectangular, also after one more row is committed; the export of any table is read back. -/
theorem tables_sound (name : String) (ops : List Op) :
    (component.Along Locked (new name) ops ↔ ∀ ops', ops' <+: ops → Sound (component.run (new name) ops') ∧
      Sound (component.next .commitRow (component.run (new name) ops'))) ∧
      read (component.run (new name) ops).toCsv.toList = some (headerRecord (component.run (new name) ops) ::
        (component.run (new name) ops).rows.map rowRecord) :=
  ⟨locked_iff_sound name ops, read_toCsv _⟩

/-- The row of this table has no value for the second column, whose statistics are out of range. -/
theorem row_too_short : ∃ l, component.run (new "log")
    [.addColumn "a" .int, .beginRow 0, .addColumn "b" .int, .commitRow] = l ∧ ¬ Sound l ∧ l.stats 1 = none := by
  refine ⟨_, rfl, ?_, rfl⟩
  intro h
  have hlength := (h.fits ⟨0, [.null]⟩ (List.mem_singleton_self _)).length_eq
  cases hlength

end ThistleOS.DataLogger
