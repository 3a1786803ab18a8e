import ColumnBridge.Proofs.Matrix.RoundTrip
import ColumnBridge.Proofs.OneHot.Encoding

/-!
# Reading a table of indicator columns

A column of strings with at least one string can be read off its indicator
columns.  The categories are the names of the columns without the name of the
encoded column, which stands before all of them; the slot of a row is the
category of the only column that is one there, and null if there is none.  The
encoding is therefore injective.

The matrix of the indicator columns forgets their names.  It still tells which
rows have the same slot, because every string among the slots has a column of
its own.
-/

namespace ColumnBridge.OneHot

variable {name category : String} {slots : List (Option String)} {row : Nat}

/-! ## Decoding -/

/-- The category that an indicator column of that name belongs to. -/
def category? (column : String) (indicatorName : String) : Option String :=
  (indicatorName.toList.dropPrefix? (column ++ ": ").toList).map String.ofList

/-- The column is one in a row. -/
def isOne (row : Nat) (c : Column) : Bool :=
  match c.doubleAt row with
  | .ok x => x = .one
  | .error _ => false

/-- The slot that a row of indicator columns stands for. -/
def decodeRow (column : String) (t : Table) (row : Nat) : Option String :=
  match t.columns.filter (isOne row) with
  | [c] => category? column c.name
  | _ => none

/-- The slots that a table of indicator columns stands for. -/
def decode (column : String) (t : Table) : List (Option String) :=
  (List.range t.height).map (decodeRow column t)

theorem category?_columnName (name category : String) :
    category? name (columnName name category) = some category := by
  have hprefix :
      (columnName name category).toList.dropPrefix? (name ++ ": ").toList =
      some category.toList := by
    rw [List.dropPrefix?_eq_some_iff]
    exact ⟨_, by rw [columnName, String.toList_append], by simp⟩
  rw [category?, hprefix, Option.map_some, String.ofList_toList]

theorem indicator_eq_one_iff {slot : Option String} :
    indicator category slot = .one ↔ slot = some category := by
  have hzero : Binary64.zero ≠ Binary64.one := by decide
  rw [indicator]
  split
  next h => exact iff_of_true rfl h
  next h => exact iff_of_false hzero h

theorem isOne_indicatorColumn {slot : Option String}
    (h : slots[row]? = some slot) :
    isOne row (indicatorColumn name slots category) =
      decide (slot = some category) := by
  rw [isOne, doubleAt_indicatorColumn h]
  exact decide_eq_decide.mpr indicator_eq_one_iff

/-- The indicator columns that are one in a row: that of its string, or none. -/
theorem filter_isOne_indicatorColumns {slot : Option String}
    (h : slots[row]? = some slot) :
    ((distinctValues slots).map (indicatorColumn name slots)).filter
      (isOne row) =
      (slot.map (indicatorColumn name slots)).toList := by
  have hone : isOne row ∘ indicatorColumn name slots = fun category =>
      decide (slot = some category) := funext fun _ => isOne_indicatorColumn h
  rw [List.filter_map, hone]
  cases slot with
  | none => simp
  | some value =>
      -- The value is among the categories, and no category is listed twice.
      have hmem : value ∈ distinctValues slots :=
        mem_distinctValues.mpr (List.mem_of_getElem? h)
      have hcount := List.count_eq_one_of_mem (nodup_distinctValues slots) hmem
      have hfilter : (distinctValues slots).filter (fun category =>
          some value = some category) =
          [value] := by
        simp only [Option.some_inj, eq_comm (a := value)]
        rw [List.filter_eq, hcount, List.replicate_one]
      rw [hfilter]
      rfl

theorem decodeRow_of_columns {t : Table} {slot : Option String}
    (ht : t.columns = (distinctValues slots).map (indicatorColumn name slots))
    (h : slots[row]? = some slot) : decodeRow name t row = slot := by
  rw [decodeRow, ht, filter_isOne_indicatorColumns h]
  cases slot with
  | none => rfl
  | some value => exact category?_columnName name value

theorem height_of_columns {t : Table}
    (ht : t.columns = (distinctValues slots).map (indicatorColumn name slots))
    (hvalue : ∃ value, some value ∈ slots) : t.height = slots.length := by
  obtain ⟨value, hmem⟩ := hvalue
  rw [(encodes_indicatorColumns ht).height]
  exact if_neg (List.ne_nil_of_mem (mem_distinctValues.mpr hmem))

/-- The slots are read off the indicator columns, if there are any. -/
theorem decode_of_columns {t : Table}
    (ht : t.columns = (distinctValues slots).map (indicatorColumn name slots))
    (hvalue : ∃ value, some value ∈ slots) : decode name t = slots := by
  apply List.ext_getElem?
  intro row
  rw [decode, List.getElem?_map, height_of_columns ht hvalue]
  cases hslot : slots[row]? with
  | none =>
      rw [List.getElem?_eq_none_iff] at hslot
      rw [List.getElem?_eq_none (by simpa using hslot)]
      rfl
  | some slot =>
      have hrow : row < slots.length := (List.getElem?_eq_some_iff.mp hslot).1
      rw [List.getElem?_range hrow, Option.map_some,
        decodeRow_of_columns ht hslot]

/-! ## The matrix of indicator columns -/

theorem cell?_indicatorColumn (row : Nat) :
    (indicatorColumn name slots category).cell? row =
      slots[row]?.map (indicator category) := by
  rw [indicatorColumn, Column.cell?_ofSlots, rows, List.getElem?_map]
  cases slots[row]? <;> rfl

/-- The matrix has a row for every slot, which consists of zeros and ones, and
the same row for two slots exactly if they are equal. -/
structure TellsApart (m : DenseMatrix) (slots : List (Option String)) :
    Prop where
  rows_eq : m.rows = slots.length
  zero_or_one : ∀ x ∈ m.values, x = .zero ∨ x = .one
  row_eq_iff : ∀ row < slots.length, ∀ other < slots.length,
    (∀ col, m.get? row col = m.get? other col) ↔ slots[row]? = slots[other]?

/-- Slots that have the same indicators are equal. -/
theorem eq_of_indicator_eq {slot other : Option String} (hslot : slot ∈ slots)
    (hother : other ∈ slots)
    (h : ∀ category ∈ distinctValues slots,
      indicator category slot = indicator category other) :
    slot = other := by
  have hiff (category : String) (hcategory : category ∈ distinctValues slots) :
      slot = some category ↔ other = some category := by
    rw [← indicator_eq_one_iff, ← indicator_eq_one_iff, h category hcategory]
  cases slot with
  | some value =>
      exact ((hiff value (mem_distinctValues.mpr hslot)).mp rfl).symm
  | none =>
      cases other with
      | none => rfl
      | some value => exact (hiff value (mem_distinctValues.mpr hother)).mpr rfl

theorem get?_indicatorColumns {m : DenseMatrix}
    (h : m.Holds slots.length
      ((distinctValues slots).map (indicatorColumn name slots)))
    (row col : Nat) :
    m.get? row col =
      (distinctValues slots)[col]?.bind fun category =>
        slots[row]?.map (indicator category) := by
  rw [h.get?_eq, List.getElem?_map]
  cases (distinctValues slots)[col]? with
  | none => rfl
  | some category => exact cell?_indicatorColumn row

theorem tellsApart_of_holds {m : DenseMatrix}
    (h : m.Holds slots.length
      ((distinctValues slots).map (indicatorColumn name slots))) :
      TellsApart m slots where
  rows_eq := h.rows_eq
  zero_or_one := by
    intro x hx
    obtain ⟨place, hplace⟩ := Array.getElem?_of_mem hx
    rw [DenseMatrix.getElem?_values, get?_indicatorColumns h,
      Option.bind_eq_some_iff] at hplace
    obtain ⟨category, -, hslot⟩ := hplace
    obtain ⟨slot, -, rfl⟩ := Option.map_eq_some_iff.mp hslot
    rw [indicator]
    split
    · exact Or.inr rfl
    · exact Or.inl rfl
  row_eq_iff := by
    intro row hrow other hother
    simp only [get?_indicatorColumns h]
    constructor
    · intro hcells
      rw [List.getElem?_eq_getElem hrow, List.getElem?_eq_getElem hother,
        Option.some_inj]
      apply eq_of_indicator_eq (List.getElem_mem hrow) (List.getElem_mem hother)
      intro category hcategory
      obtain ⟨col, hcol⟩ := List.getElem?_of_mem hcategory
      have hcell := hcells col
      rw [hcol, List.getElem?_eq_getElem hrow,
        List.getElem?_eq_getElem hother] at hcell
      exact Option.some.inj hcell
    · intro hslots col
      rw [hslots]

/-- The matrix of indicator columns, for which there is room. -/
theorem exists_tellsApart_of_columns {t : Table}
    (ht : t.columns = (distinctValues slots).map (indicatorColumn name slots))
    (hvalue : ∃ value, some value ∈ slots)
    (hroom : t.height * t.width * doubleSize ≤ greatestAllocation) :
    ∃ m, DenseMatrix.ofTable t = .ok m ∧ TellsApart m slots := by
  have hheight : t.height = slots.length := height_of_columns ht hvalue
  obtain ⟨m, hm⟩ : ∃ m, DenseMatrix.ofTable t = .ok m := by
    apply DenseMatrix.exists_ofColumns
      ((DenseMatrix.mul_doubleSize_le_iff _).mp hroom)
    intro c hc
    rw [ht] at hc
    obtain ⟨category, -, rfl⟩ := List.mem_map.mp hc
    exact ⟨length_indicatorColumn.trans hheight.symm, Or.inl List.mem_cons_self⟩
  obtain ⟨-, -, hholds⟩ := DenseMatrix.holds_of_ofColumns hm
  rw [hheight, ht] at hholds
  exact ⟨m, hm, tellsApart_of_holds hholds⟩

/-- The encoding of a column of strings, at least one of which is not null,
loses nothing: the slots are read off the table and the name, so different slots
have different tables.  The matrix of the table, whose cells have been in memory
once already, consists of zeros and ones and has equal rows for equal slots
only. -/
theorem decode_encode_and_tellsApart (name : String)
    (a b : Chunks (Option String)) (ha : ∃ value, some value ∈ a.toList)
    (hb : ∃ value, some value ∈ b.toList) :
    ∃ ta tb, encode ⟨name, .string, a⟩ = .ok ta ∧
      encode ⟨name, .string, b⟩ = .ok tb ∧
      decode name ta = a.toList ∧ decode name tb = b.toList ∧
      (ta = tb ↔ a.toList = b.toList) ∧
      (ta.height * ta.width * doubleSize ≤ greatestAllocation →
        ∃ m, DenseMatrix.ofTable ta = .ok m ∧ TellsApart m a.toList) := by
  refine ⟨_, _, encode_eq name a, encode_eq name b, decode_of_columns rfl ha,
    decode_of_columns rfl hb, ?_, exists_tellsApart_of_columns rfl ha⟩
  constructor
  · intro h
    have hdecode := congrArg (decode name) h
    rwa [decode_of_columns rfl ha, decode_of_columns rfl hb] at hdecode
  · intro h
    apply Table.eq_of_columns
    rw [h]

/-- The sample strings without their null. -/
def presentChunks : Chunks (Option String) :=
  [.listed [some "x: y", some ""], .repeated 2 (some "x: y")]

theorem decode_encode_sampleChunks :
    (∃ value, some value ∈ sampleChunks.toList) ∧
      (∃ value, some value ∈ presentChunks.toList) ∧
      ∃ ta tb m, encode ⟨"x", .string, sampleChunks⟩ = .ok ta ∧
        encode ⟨"x", .string, presentChunks⟩ = .ok tb ∧ ta ≠ tb ∧
        decode "x" ta = [some "x: y", none, some "", some "x: y", some "x: y"] ∧
        DenseMatrix.ofTable ta = .ok m ∧ TellsApart m sampleChunks.toList := by
  have hsample : ∃ value, some value ∈ sampleChunks.toList := ⟨"", by decide⟩
  have hpresent : ∃ value, some value ∈ presentChunks.toList := ⟨"", by decide⟩
  obtain ⟨ta, tb, hta, htb, hdecode, -, hinjective, hmatrix⟩ :=
    decode_encode_and_tellsApart "x" sampleChunks presentChunks hsample hpresent
  have hroom : ta.height * ta.width * doubleSize ≤ greatestAllocation := by
    cases (encode_eq "x" sampleChunks).symm.trans hta
    decide
  obtain ⟨m, hm, happart⟩ := hmatrix hroom
  refine ⟨hsample, hpresent, ta, tb, m, hta, htb, ?_, hdecode, hm, happart⟩
  rw [Ne, hinjective]
  decide

end ColumnBridge.OneHot
