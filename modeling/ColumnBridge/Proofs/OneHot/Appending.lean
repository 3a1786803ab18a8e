import ColumnBridge.Proofs.OneHot.Encoding

/-!
# Encoding a column with further rows

The encoding of a column looks at all of its slots before it writes the first
row, so a further row might in principle change what stands in the rows before
it.  It does not.  The categories of the longer column are those of the shorter
one, in their places, followed by the values that occur for the first time in
the further rows; the columns of the shorter encoding are continued, and the new
ones are zero in all rows that were there before.  What was learnt from the
shorter encoding therefore applies to the longer one without any renaming of
columns.
-/

namespace ColumnBridge.OneHot

variable {name category : String} {slots further : List (Option String)}

/-- The distinct values among further slots that none of the first slots has, in
the order in which they first occur. -/
def newValues (slots further : List (Option String)) : List String :=
  (distinctValues further).filter fun value => some value ∉ slots

theorem newValues_append_none :
    newValues slots (further ++ [none]) = newValues slots further := by
  rw [newValues, newValues, distinctValues_append_none]

theorem newValues_append_of_seen {value : String}
    (h : some value ∈ slots ∨ some value ∈ further) :
    newValues slots (further ++ [some value]) = newValues slots further := by
  rw [newValues, newValues, distinctValues_append_some]
  by_cases hfurther : value ∈ distinctValues further
  · rw [if_pos hfurther]
  · have hslots : some value ∈ slots :=
      h.resolve_right fun hmem => hfurther (mem_distinctValues.mpr hmem)
    rw [if_neg hfurther, List.filter_append]
    simp [hslots]

theorem newValues_append_of_not_seen {value : String}
    (h : ¬ (some value ∈ slots ∨ some value ∈ further)) :
    newValues slots (further ++ [some value]) =
      newValues slots further ++ [value] := by
  obtain ⟨hslots, hfurther⟩ := not_or.mp h
  rw [← mem_distinctValues] at hfurther
  rw [newValues, newValues, distinctValues_append_some, if_neg hfurther,
    List.filter_append]
  simp [hslots]

/-- The distinct values of all slots are those of the first ones, and the new
ones after them. -/
theorem distinctValues_append (slots further : List (Option String)) :
    distinctValues (slots ++ further) = distinctValues slots ++
      newValues slots further := by
  induction further using List.reverseRecOn with
  | nil =>
      have hnone : newValues slots [] = [] := rfl
      rw [hnone, List.append_nil, List.append_nil]
  | append_singleton further slot ih =>
      rw [← List.append_assoc]
      rcases slot with _ | value
      · rw [distinctValues_append_none, newValues_append_none, ih]
      · have hmem : value ∈ distinctValues (slots ++ further) ↔
            some value ∈ slots ∨ some value ∈ further := by
          rw [mem_distinctValues, List.mem_append]
        rw [distinctValues_append_some]
        by_cases hseen : some value ∈ slots ∨ some value ∈ further
        · rw [if_pos (hmem.mpr hseen), newValues_append_of_seen hseen, ih]
        · rw [if_neg fun h => hseen (hmem.mp h),
            newValues_append_of_not_seen hseen, ih, List.append_assoc]

/-- A new value has only zeros in the first rows. -/
theorem rows_of_mem_newValues (h : category ∈ newValues slots further) :
    rows slots category = List.replicate slots.length (some .zero) := by
  rw [rows, List.map_eq_replicate_iff]
  intro slot hslot
  have hnew : some category ∉ slots := by simpa using (List.mem_filter.mp h).2
  have hne : slot ≠ some category := by
    rintro rfl
    exact hnew hslot
  rw [indicator, if_neg hne]

/-- An indicator column of all slots begins with the rows of the first ones. -/
theorem indicatorColumn_append (name : String)
    (slots further : List (Option String)) (category : String) :
    indicatorColumn name (slots ++ further) category =
      Column.ofSlots (columnName name category) .float64
        (rows slots category ++ rows further category) := by
  rw [indicatorColumn, rows, List.map_append]
  rfl

/-- The encoding of all slots begins with a column for each column of the
encoding of the first ones. -/
theorem getElem?_indicatorColumns_append (further : List (Option String))
    {position : Nat} {c : Column}
    (h : ((distinctValues slots).map (indicatorColumn name slots))[position]? =
      some c) :
    ∃ category, c = indicatorColumn name slots category ∧
      ((distinctValues (slots ++ further)).map
        (indicatorColumn name (slots ++ further)))[position]? =
          some (indicatorColumn name (slots ++ further) category) := by
  rw [List.getElem?_map] at h
  obtain ⟨category, hcategory, rfl⟩ := Option.map_eq_some_iff.mp h
  have hposition : position < (distinctValues slots).length :=
    (List.getElem?_eq_some_iff.mp hcategory).1
  refine ⟨category, rfl, ?_⟩
  rw [List.getElem?_map, distinctValues_append,
    List.getElem?_append_left hposition, hcategory]
  rfl

/-- The other columns of the encoding of all slots are those of the new
values. -/
theorem exists_newValue_of_getElem? {position : Nat} {c : Column}
    (hposition : (distinctValues slots).length ≤ position)
    (h : ((distinctValues (slots ++ further)).map
      (indicatorColumn name (slots ++ further)))[position]? = some c) :
    ∃ category ∈ newValues slots further,
      c = indicatorColumn name (slots ++ further) category := by
  rw [List.getElem?_map, distinctValues_append,
    List.getElem?_append_right hposition] at h
  obtain ⟨category, hcategory, rfl⟩ := Option.map_eq_some_iff.mp h
  exact ⟨category, List.mem_of_getElem? hcategory, rfl⟩

/-- A column of strings with further rows is encoded by the columns of its
encoding, continued by further rows, and by one column for each new value, which
is zero in all the rows before. -/
theorem encode_append_continues (name : String) (a b : Chunks (Option String)) :
    ∃ ta tab, encode ⟨name, .string, a⟩ = .ok ta ∧
      encode ⟨name, .string, a ++ b⟩ = .ok tab ∧
      ta.width = (distinctValues a.toList).length ∧
      tab.names = ta.names ++
        ((distinctValues b.toList).filter fun value =>
          some value ∉ a.toList).map (name ++ ": " ++ ·) ∧
      (∀ (position : Nat) (c : Column), ta.columns[position]? = some c →
        ∃ before after : List (Option Binary64), before.length = a.size ∧
          c = Column.ofSlots c.name .float64 before ∧
          tab.columns[position]? =
            some (Column.ofSlots c.name .float64 (before ++ after))) ∧
      ∀ (position : Nat) (c : Column), ta.width ≤ position →
        tab.columns[position]? = some c →
        ∃ after : List (Option Binary64),
          c = Column.ofSlots c.name .float64
            (List.replicate a.size (some .zero) ++ after) := by
  have hlength : (a ++ b).toList = a.toList ++ b.toList :=
    Chunks.toList_append a b
  have hwidth :
      ((distinctValues a.toList).map (indicatorColumn name a.toList)).length =
      (distinctValues a.toList).length := List.length_map _
  refine ⟨_, _, encode_eq name a, encode_eq name (a ++ b), hwidth, ?_, ?_, ?_⟩
  · rw [Table.names, Table.names, List.map_map, List.map_map, hlength,
      distinctValues_append, List.map_append]
    rfl
  · intro position c hc
    obtain ⟨category, rfl, hcolumn⟩ :=
      getElem?_indicatorColumns_append b.toList hc
    refine ⟨rows a.toList category, rows b.toList category, ?_, rfl, ?_⟩
    · rw [rows, List.length_map, Chunks.length_toList]
    · rw [← hlength] at hcolumn
      rw [hcolumn, hlength, indicatorColumn_append]
      rfl
  · intro position c hposition hc
    rw [Table.width, hwidth] at hposition
    rw [hlength] at hc
    obtain ⟨category, hnew, rfl⟩ := exists_newValue_of_getElem? hposition hc
    refine ⟨rows b.toList category, ?_⟩
    rw [indicatorColumn_append, rows_of_mem_newValues hnew,
      Chunks.length_toList]
    rfl

/-- Rows with two strings and a null. -/
def firstRows : Chunks (Option String) :=
  [.listed [some "x", none], .repeated 2 (some "y")]

/-- Further rows with one of the strings and two others. -/
def furtherRows : Chunks (Option String) :=
  [.listed [some "z", some "y", none], .listed [some "w", some "z"]]

theorem encode_append_continues_firstRows :
    ∃ ta tab, encode ⟨"c", .string, firstRows⟩ = .ok ta ∧
      encode ⟨"c", .string, firstRows ++ furtherRows⟩ = .ok tab ∧
      ta.names = ["c: x", "c: y"] ∧
        tab.names = ["c: x", "c: y", "c: z", "c: w"] ∧
      (∃ before after : List (Option Binary64), before.length = 4 ∧
        ta.columns[0]? = some (Column.ofSlots "c: x" .float64 before) ∧
        tab.columns[0]? =
          some (Column.ofSlots "c: x" .float64 (before ++ after))) ∧
      ∃ after : List (Option Binary64), tab.columns[3]? =
        some (Column.ofSlots "c: w" .float64
          (List.replicate 4 (some .zero) ++ after)) := by
  obtain ⟨ta, tab, hta, htab, hwidth, hnames, hkept, hadded⟩ :=
    encode_append_continues "c" firstRows furtherRows
  have hfirst : ta.names = ["c: x", "c: y"] ∧ ∃ c, ta.columns[0]? = some c ∧
      c.name = "c: x" := by
    cases (encode_eq "c" firstRows).symm.trans hta
    exact ⟨by decide, _, rfl, by decide⟩
  have hlast : ∃ c, tab.columns[3]? = some c ∧ c.name = "c: w" := by
    cases (encode_eq "c" (firstRows ++ furtherRows)).symm.trans htab
    exact ⟨_, rfl, by decide⟩
  obtain ⟨hfirst, c, hc, hx⟩ := hfirst
  obtain ⟨d, hd, hw⟩ := hlast
  obtain ⟨before, after, hlength, hbefore, hcontinued⟩ := hkept 0 c hc
  have htwo : ta.width ≤ 3 := by
    rw [hwidth]
    decide
  obtain ⟨rest, hzeros⟩ := hadded 3 d htwo hd
  refine ⟨ta, tab, hta, htab, hfirst, ?_, ⟨before, after, hlength, ?_, ?_⟩,
    rest, ?_⟩
  · rw [hnames, hfirst]
    decide
  · rw [hc, ← hx, ← hbefore]
  · rw [hcontinued, hx]
  · rw [hd, hzeros, ← hw]
    rfl

end ColumnBridge.OneHot
