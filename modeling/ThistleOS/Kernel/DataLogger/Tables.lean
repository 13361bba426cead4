import ThistleOS.Kernel.DataLogger

/-!
# Rectangular tables

A row has a value for each column as long as no column is added while a row is built.
-/

open ThistleOS.Digits ThistleOS.Timestamps

namespace ThistleOS.DataLogger

variable {l : DataLogger}

/-- One value for each column, Null or of its type. -/
def Fits (columns : List DataColumn) (values : List DataValue) : Prop :=
  List.Forall₂ (fun col v => col.colType.takes v = true) columns values

/-- The rows fit the columns, and no index is out of range in any of them. -/
structure Sound (l : DataLogger) : Prop where
  fits : ∀ row ∈ l.rows, Fits l.columns row.values
  getColumnValues : ∀ colIndex < l.columns.length, (l.getColumnValues colIndex).isSome
  stats : ∀ colIndex, (l.stats colIndex).isSome

/-- Rows that are stored fit, and so does the one that is built. -/
structure Inv (l : DataLogger) : Prop where
  rows : ∀ row ∈ l.rows, Fits l.columns row.values
  pending : ∀ timestamp values, l.pendingRow = some (timestamp, values) → Fits l.columns values

/-- The call adds a column if the table has no row. -/
def Op.addsColumn : Op → Bool
  | .addColumn _ _ => true
  | .rsAddColumn (some name) colType => name.toStr.isSome && (rsDataLoggerAddColumn.typeOf colType).isSome
  | _ => false

/-- No column is added while a row is built. -/
def Locked (o : Op) (l : DataLogger) : Prop := o.addsColumn = true → l.rows = [] → l.pendingRow = none

/-! ### Indices -/

lemma isSome_getElem? {columns : List DataColumn} {values : List DataValue} (h : Fits columns values) {colIndex : ℕ}
    (hcol : colIndex < columns.length) : ∃ v, values[colIndex]? = some v := by
  rw [h.length_eq] at hcol
  exact ⟨_, List.getElem?_eq_getElem hcol⟩

lemma Inv.sound (h : Inv l) : Sound l := by
  have hget {colIndex : ℕ} (hcol : colIndex < l.columns.length) :
      ∀ row ∈ l.rows, ∃ v, row.values[colIndex]? = some v :=
    fun row hrow => isSome_getElem? (h.rows row hrow) hcol
  refine ⟨h.rows, ?_, ?_⟩
  · intro colIndex hcol
    rw [DataLogger.getColumnValues]
    have hrows := hget hcol
    generalize l.rows = rows at hrows
    induction rows with
    | nil => rfl
    | cons row rows ih =>
      obtain ⟨v, hv⟩ := hrows row List.mem_cons_self
      obtain ⟨vs, hvs⟩ := Option.isSome_iff_exists.mp (ih fun row' hrow' => hrows row' (List.mem_cons_of_mem row hrow'))
      rw [List.mapM_cons, hv, hvs]
      rfl
  · intro colIndex
    rw [DataLogger.stats]
    cases hcolumn : l.columns[colIndex]? with
    | none => rfl
    | some col =>
      have hrows := hget (List.getElem?_eq_some_iff.mp hcolumn).1
      dsimp only
      split_ifs
      · rfl
      · have hfold (s : Sums) : ∃ s', (l.rows.foldlM (fun s row => do
            let v ← row.values[colIndex]?
            return Sums.addValue s v) s : Option Sums) = some s' := by
          generalize l.rows = rows at hrows
          induction rows generalizing s with
          | nil => exact ⟨s, rfl⟩
          | cons row rows ih =>
            obtain ⟨v, hv⟩ := hrows row List.mem_cons_self
            rw [List.foldlM_cons, hv]
            exact ih _ fun row' hrow' => hrows row' (List.mem_cons_of_mem row hrow')
        obtain ⟨s', hs'⟩ := hfold _
        rw [hs', Option.bind_eq_bind, Option.bind_some]
        split_ifs <;> rfl

/-! ### What the calls keep -/

lemma Fits.set {columns : List DataColumn} {values : List DataValue} (h : Fits columns values) {col : ℕ}
    {column : DataColumn} {value : DataValue} (hcolumn : columns[col]? = some column)
    (htakes : column.colType.takes value = true) : Fits columns (values.set col value) := by
  obtain ⟨hlength, hget⟩ := List.forall₂_iff_get.mp h
  refine List.forall₂_iff_get.mpr ⟨by rw [List.length_set, hlength], ?_⟩
  intro i hi hi'
  rw [List.get_eq_getElem, List.get_eq_getElem, List.getElem_set]
  split_ifs with hcol
  · subst hcol
    obtain rfl : columns[col] = column := (List.getElem?_eq_some_iff.mp hcolumn).2
    exact htakes
  · exact hget i hi (hlength ▸ hi)

lemma Inv.new (name : String) : Inv (new name) :=
  ⟨fun _ h => by simp [DataLogger.new] at h, fun _ _ h => by simp [DataLogger.new] at h⟩

lemma Inv.addColumn (h : Inv l) (name : String) (colType : ColumnType) (hpending : l.rows = [] → l.pendingRow = none) :
    Inv (l.addColumn name colType).2 := by
  rw [DataLogger.addColumn]
  split_ifs with hrows
  · exact h
  · have hnil : l.rows = [] := by simpa using hrows
    refine ⟨?_, ?_⟩
    · intro row hrow
      dsimp only at hrow
      rw [hnil] at hrow
      cases hrow
    · intro timestamp values hvalues
      dsimp only at hvalues
      rw [hpending hnil] at hvalues
      cases hvalues

lemma Inv.logRow (h : Inv l) (timestamp : UInt32) (values : List DataValue) : Inv (l.logRow timestamp values).2 := by
  rw [DataLogger.logRow]
  split_ifs with hlength htypes
  · exact h
  · exact h
  · refine ⟨?_, h.pending⟩
    intro row hrow
    rcases List.mem_append.mp hrow with hrow | hrow
    · exact h.rows row hrow
    · obtain rfl := List.mem_singleton.mp hrow
      refine List.forall₂_iff_zip.mpr ⟨(not_not.mp hlength).symm, ?_⟩
      intro col v hmem
      simp only [List.any_eq_true, not_exists, not_and] at htypes
      simpa using htypes (col, v) hmem

lemma Inv.clearRows (h : Inv l) : Inv l.clearRows.2 := ⟨fun _ hrow => (by cases hrow), h.pending⟩

lemma Inv.beginRow (h : Inv l) (timestamp : UInt32) : Inv (l.beginRow timestamp).2 := by
  rw [DataLogger.beginRow]
  split_ifs
  · exact h
  · refine ⟨h.rows, ?_⟩
    intro timestamp' values hvalues
    obtain ⟨-, rfl⟩ := Prod.mk.inj (Option.some.inj hvalues)
    refine List.forall₂_iff_get.mpr ⟨by simp, ?_⟩
    intro i hi hi'
    rw [List.get_eq_getElem, List.get_eq_getElem, List.getElem_replicate]
    unfold ColumnType.takes
    rfl

lemma Inv.setPendingValue (h : Inv l) (col : ℕ) (value : DataValue) : Inv (l.setPendingValue col value).2 := by
  rw [DataLogger.setPendingValue]
  split
  · exact h
  · rename_i timestamp values hpending
    split
    · exact h
    · rename_i column hcolumn
      split_ifs with htakes
      · exact h
      · exact h
      · refine ⟨h.rows, ?_⟩
        intro timestamp' values' hvalues
        obtain ⟨-, rfl⟩ := Prod.mk.inj (Option.some.inj hvalues)
        exact (h.pending timestamp values hpending).set hcolumn (by simpa using htakes)

lemma Inv.commitRow (h : Inv l) : Inv l.commitRow.2 := by
  rw [DataLogger.commitRow]
  split
  · exact h
  · rename_i timestamp values hpending
    refine ⟨?_, fun _ _ hnone => by cases hnone⟩
    intro row hrow
    rcases List.mem_append.mp hrow with hrow | hrow
    · exact h.rows row hrow
    · obtain rfl := List.mem_singleton.mp hrow
      exact h.pending timestamp values hpending

/-- A call of C that adds a column does what `add_column` does. -/
lemma rsAddColumn_snd (name : Option CStr) (colType : Int32) (l : DataLogger) :
    (Op.rsAddColumn name colType).addsColumn = false ∧ (rsDataLoggerAddColumn name colType l).2 = l ∨
      (Op.rsAddColumn name colType).addsColumn = true ∧
        ∃ name' colType', (rsDataLoggerAddColumn name colType l).2 = (l.addColumn name' colType').2 := by
  rw [rsDataLoggerAddColumn.eq_def]
  split
  · exact .inl ⟨rfl, rfl⟩
  · split
    · rename_i hname
      exact .inl ⟨by rw [Op.addsColumn, hname]; rfl, rfl⟩
    · rename_i name' hname
      split
      · rename_i htype
        exact .inl ⟨by rw [Op.addsColumn, hname, htype]; rfl, rfl⟩
      · rename_i colType' htype
        refine .inr ⟨by rw [Op.addsColumn, hname, htype]; rfl, name', colType', ?_⟩
        split
        · rename_i heq
          rw [heq]
        · rename_i heq
          rw [heq]

lemma Inv.setValue (h : Inv l) (col : Int32) (value : DataValue) : Inv (setValue col value l).2 := by
  rw [DataLogger.setValue]
  split_ifs
  · exact h
  · exact h.setPendingValue _ _

/-- What a call keeps while no column is added to a row that is built. -/
lemma Inv.next (h : Inv l) {o : Op} (hlocked : Locked o l) : Inv (component.next o l) := by
  cases o with
  | addColumn name colType => exact h.addColumn name colType (hlocked rfl)
  | logRow timestamp values => exact h.logRow timestamp values
  | clearRows => exact h.clearRows
  | beginRow timestamp => exact h.beginRow timestamp
  | setPendingValue col value => exact h.setPendingValue col value
  | commitRow => exact h.commitRow
  | rsAddColumn name colType =>
    change Inv (rsDataLoggerAddColumn name colType l).2
    rcases rsAddColumn_snd name colType l with ⟨-, heq⟩ | ⟨hadds, name', colType', heq⟩
    · rw [heq]
      exact h
    · rw [heq]
      exact h.addColumn name' colType' (hlocked hadds)
  | rsBeginRow timestamp => exact h.beginRow timestamp
  | rsSetInt col value => exact h.setValue col _
  | rsSetFloat col value => exact h.setValue col _
  | rsSetText col text =>
    change Inv (rsDataLoggerSetText col text l).2
    rw [rsDataLoggerSetText.eq_def]
    split
    · exact h
    · split
      · exact h
      · exact h.setValue col _
  | rsSetBool col value => exact h.setValue col _
  | rsCommitRow => exact h.commitRow

lemma Inv.run (h : Inv l) {ops : List Op} (hlocked : component.Along Locked l ops) : Inv (component.run l ops) :=
  (Component.along_of_preserved (I := Inv) (P := Locked) (fun _ _ hinv hlocked => hinv.next hlocked) h hlocked).2

/-- A column that is added while a row is built is missing in the row. -/
lemma not_sound_of_not_locked {o : Op} (h : ¬ Locked o l) (hsound : Sound (component.next .commitRow l)) :
    ¬ Sound (component.next .commitRow (component.next o l)) := by
  simp only [Locked, Classical.not_imp] at h
  obtain ⟨hadds, hrows, hpending⟩ := h
  obtain ⟨⟨timestamp, values⟩, hpending⟩ := Option.ne_none_iff_exists'.mp hpending
  have hnext : ∃ name colType, component.next o l = { l with columns := l.columns ++ [⟨name, colType⟩] } := by
    have hadd (name : String) (colType : ColumnType) :
        (l.addColumn name colType).2 = { l with columns := l.columns ++ [⟨name, colType⟩] } := by
      rw [DataLogger.addColumn, hrows]
      rfl
    cases o with
    | addColumn name colType => exact ⟨name, colType, hadd name colType⟩
    | rsAddColumn name colType =>
      change ∃ name' colType', (rsDataLoggerAddColumn name colType l).2 = _
      rcases rsAddColumn_snd name colType l with ⟨hnot, -⟩ | ⟨-, name', colType', heq⟩
      · rw [hadds] at hnot
        cases hnot
      · exact ⟨name', colType', heq.trans (hadd name' colType')⟩
    | _ => cases hadds
  obtain ⟨name, colType, hnext⟩ := hnext
  have hcommit (columns : List DataColumn) : (component.next .commitRow { l with columns := columns }) =
      ⟨l.name, columns, l.rows ++ [⟨timestamp, values⟩], none⟩ := by
    change (commitRow _).2 = _
    rw [commitRow.eq_def, hpending]
  have hfits : Fits l.columns values := by
    have := hcommit l.columns
    rw [this] at hsound
    exact hsound.fits ⟨timestamp, values⟩ (List.mem_append_right _ (List.mem_singleton_self _))
  intro hsound'
  rw [hnext, hcommit] at hsound'
  have hfits' := hsound'.fits ⟨timestamp, values⟩ (List.mem_append_right _ (List.mem_singleton_self _))
  have hlength : l.columns.length = values.length := hfits.length_eq
  have hlength' := hfits'.length_eq
  rw [List.length_append, List.length_singleton, ← hlength] at hlength'
  exact absurd hlength' (Nat.succ_ne_self _)

/-- No row that is stored or built lacks a value exactly if no column is added to a table without rows while a row
is built. -/
theorem locked_iff_sound (name : String) (ops : List Op) : component.Along Locked (new name) ops ↔
    ∀ ops', ops' <+: ops → Sound (component.run (new name) ops') ∧
      Sound (component.next .commitRow (component.run (new name) ops')) := by
  constructor
  · rintro h ops' ⟨rest, rfl⟩
    have hfirst : component.Along Locked (new name) ops' := fun pre o post hops =>
      h pre o (post ++ rest) (by rw [hops, List.append_assoc, List.cons_append])
    have hinv := (Inv.new name).run hfirst
    exact ⟨hinv.sound, hinv.commitRow.sound⟩
  · rintro h pre o post rfl
    by_contra hlocked
    refine not_sound_of_not_locked hlocked (h pre ⟨o :: post, rfl⟩).2 ?_
    have hnext := (h (pre ++ [o]) ⟨post, by simp⟩).2
    rw [Component.run_append] at hnext
    exact hnext

end ThistleOS.DataLogger
