import ColumnBridge.Column.Doubles
import ColumnBridge.Proofs.OneHot.Passes
import ColumnBridge.Proofs.Table.Defects

/-!
# The table of indicator columns

Every column of strings has an encoding.  Two indicator columns differ in name
because their names end in different categories after a beginning that they
share, so whatever the strings are, and whether or not they contain the
separator, the columns form a table.
-/

namespace ColumnBridge.OneHot

variable {name category : String} {slots : List (Option String)}

theorem columnName_injective (name : String) :
    Function.Injective (columnName name) := by
  intro a b h
  have hchars : (name ++ ": ").toList ++ a.toList =
      (name ++ ": ").toList ++ b.toList := by
    simpa only [columnName, String.toList_append] using congrArg String.toList h
  exact String.ext (List.append_cancel_left hchars)

/-- The indicator column of a category. -/
def indicatorColumn (name : String) (slots : List (Option String))
    (category : String) : Column :=
  Column.ofSlots (columnName name category) .float64 (rows slots category)

theorem length_indicatorColumn :
    (indicatorColumn name slots category).length = slots.length :=
  List.length_map _

theorem compatible_indicatorColumns (name : String)
    (slots : List (Option String)) :
    ((distinctValues slots).map (indicatorColumn name slots)).Pairwise
      Column.Compatible := by
  refine List.Pairwise.map _ ?_ (nodup_distinctValues slots)
  intro a b hne
  refine ⟨fun hname => hne (columnName_injective name hname).symm, ?_⟩
  rw [length_indicatorColumn, length_indicatorColumn]

/-- The encoding of a column of strings has one indicator column per distinct
value. -/
theorem encode_eq (name : String) (chunks : Chunks (Option String)) :
    encode ⟨name, .string, chunks⟩ =
      .ok ⟨(distinctValues chunks.toList).map
        (indicatorColumn name chunks.toList),
          compatible_indicatorColumns name chunks.toList⟩ := by
  have hcolumns : ((distinctValues chunks.toList).zip
      (indicators (distinctValues chunks.toList) chunks)).map
        (fun built =>
          Column.ofSlots (columnName name built.1) .float64 built.2.toList) =
      (distinctValues chunks.toList).map
        (indicatorColumn name chunks.toList) := by
    rw [indicators_eq (nodup_distinctValues _), List.zip_eq_zipWith,
      List.zipWith_map_right, List.map_zipWith, List.zipWith_self]
    rfl
  rw [encode, categories_eq]
  exact (congrArg Table.ofColumns hcolumns).trans
    (Table.ofColumns_of_compatible _)

/-! ## Rows -/

theorem doubleAt_indicatorColumn {row : Nat} {slot : Option String}
    (h : slots[row]? = some slot) :
    (indicatorColumn name slots category).doubleAt row =
      .ok (indicator category slot) := by
  have hrow :
      (rows slots category)[row]? = some (some (indicator category slot)) := by
    rw [rows, List.getElem?_map, h]
    rfl
  have hslots :
      (indicatorColumn name slots category).slots = rows slots category :=
    Column.slots_ofSlots _ _ _
  have hslot : (indicatorColumn name slots category).slot? row =
      some (some (indicator category slot)) :=
    (Column.slot?_eq _ row).trans ((congrArg (·[row]?) hslots).trans hrow)
  rw [Column.doubleAt, hslot]
  rfl

/-- A table tells the slots of a column of strings apart: it has one column of
doubles per distinct value, in which the rows with that value are one and all
others zero. -/
structure Encodes (t : Table) (name : String) (slots : List (Option String)) :
    Prop where
  columns : t.columns = (distinctValues slots).map fun category =>
    Column.ofSlots (name ++ ": " ++ category) .float64
      (slots.map fun slot =>
        some (if slot = some category then .one else .zero))
  height : t.height = if distinctValues slots = [] then 0 else slots.length
  nodup_names : t.names.Nodup
  null_row :
    ∀ row, slots[row]? = some none → ∀ c ∈ t.columns, c.doubleAt row = .ok .zero
  value_row : ∀ row value, slots[row]? = some (some value) →
    ∃! position : Nat, ∃ c : Column,
      t.columns[position]? = some c ∧ c.doubleAt row = .ok .one

theorem nodup_map_columnName (name : String) (slots : List (Option String)) :
    ((distinctValues slots).map (columnName name)).Nodup :=
  (nodup_distinctValues slots).map (columnName_injective name)

theorem doubleAt_eq_one_iff {row : Nat} {value : String}
    (h : slots[row]? = some (some value)) :
    (indicatorColumn name slots category).doubleAt row = .ok .one ↔
      category = value := by
  have hzero : Binary64.zero ≠ Binary64.one := by decide
  rw [doubleAt_indicatorColumn h, Except.ok.injEq, indicator]
  by_cases heq : category = value
  · simp [heq]
  · simp [heq, hzero, Ne.symm heq]

theorem encodes_indicatorColumns {t : Table}
    (ht : t.columns = (distinctValues slots).map (indicatorColumn name slots)) :
    Encodes t name slots where
  columns := ht
  height := by
    rw [Table.height, ht]
    rcases distinctValues slots with _ | ⟨category, categories⟩
    · rfl
    · exact length_indicatorColumn
  nodup_names := by
    rw [Table.names, ht, List.map_map]
    exact nodup_map_columnName name slots
  null_row := by
    intro row hrow c hc
    rw [ht] at hc
    obtain ⟨category, -, rfl⟩ := List.mem_map.mp hc
    exact doubleAt_indicatorColumn hrow
  value_row := by
    intro row value hrow
    have hmem : value ∈ distinctValues slots :=
      mem_distinctValues.mpr (List.mem_of_getElem? hrow)
    obtain ⟨position, hposition⟩ := List.getElem?_of_mem hmem
    refine ⟨position, ⟨indicatorColumn name slots value, ?_, ?_⟩, ?_⟩
    · rw [ht, List.getElem?_map, hposition]
      rfl
    · exact (doubleAt_eq_one_iff hrow).mpr rfl
    · rintro other ⟨c, hother, hone⟩
      rw [ht, List.getElem?_map] at hother
      obtain ⟨category, hcategory, rfl⟩ := Option.map_eq_some_iff.mp hother
      obtain rfl : category = value := (doubleAt_eq_one_iff hrow).mp hone
      have hlt : other < (distinctValues slots).length :=
        (List.getElem?_eq_some_iff.mp hcategory).1
      exact (List.getElem?_inj hlt (nodup_distinctValues slots)).mp
        (hcategory.trans hposition.symm)

theorem encode_of_ne_string {c : Column} (h : c.dtype ≠ .string) :
    encode c = .error (.notCategorical c.name c.dtype) := by
  unfold encode
  split
  next => exact absurd rfl h
  next => rfl

/-- Every column of strings is encoded, whatever its name and its strings, and
no other column is. -/
theorem exists_encodes_and_refuses :
    (∀ (name : String) (chunks : Chunks (Option String)),
      ∃ t, encode ⟨name, .string, chunks⟩ = .ok t ∧
        Encodes t name chunks.toList) ∧
    ∀ c : Column, c.dtype ≠ .string →
      ∃ detail, encode c = .error (.shapeMismatch detail) := by
  constructor
  · intro name chunks
    exact ⟨_, encode_eq name chunks, encodes_indicatorColumns rfl⟩
  · intro c hdtype
    exact ⟨_, encode_of_ne_string hdtype⟩

/-- Strings in two chunks that contain the separator or nothing, some of them
more than once. -/
def sampleChunks : Chunks (Option String) :=
  [.listed [some "x: y", none, some ""], .repeated 2 (some "x: y")]

theorem encodes_sampleChunks :
    (distinctValues sampleChunks.toList = ["x: y", ""] ∧
      ∃ t, encode ⟨"", .string, sampleChunks⟩ = .ok t ∧
        Encodes t "" sampleChunks.toList) ∧
    (Column.ofDoubles "n" [.one]).dtype ≠ .string ∧
      ∃ detail, encode (Column.ofDoubles "n" [.one]) =
        .error (.shapeMismatch detail) := by
  have hdtype : (Column.ofDoubles "n" [.one]).dtype ≠ .string := by decide
  exact ⟨⟨by decide, exists_encodes_and_refuses.1 "" sampleChunks⟩, hdtype,
    exists_encodes_and_refuses.2 _ hdtype⟩

end ColumnBridge.OneHot
