import ColumnBridge.OneHot
import Mathlib

/-!
# The two passes of the indicator encoding

The slots of a column are visited twice, each time with a state that changes at
every slot.  The first pass ends with the distinct values in the order in which
they first occur; the second one ends with one column per category, in which
every row says whether the slot of that row has the category.  The second pass
looks categories up by position, which is the same thing because the first one
lists no category twice.
-/

namespace ColumnBridge.OneHot

/-- The distinct values among slots, in the order in which they first occur. -/
def distinctValues (slots : List (Option String)) : List String :=
  slots.reduceOption.eraseDups

theorem mem_distinctValues {slots : List (Option String)} {value : String} :
    value ∈ distinctValues slots ↔ some value ∈ slots := by
  rw [distinctValues, List.mem_eraseDups, List.reduceOption_mem_iff]

theorem distinctValues_append_none (slots : List (Option String)) :
    distinctValues (slots ++ [none]) = distinctValues slots := by
  simp [distinctValues, List.reduceOption_append]

theorem distinctValues_append_some (slots : List (Option String))
    (value : String) : distinctValues (slots ++ [some value]) =
      if value ∈ distinctValues slots then distinctValues slots
      else distinctValues slots ++ [value] := by
  rw [distinctValues, List.reduceOption_append, List.eraseDups_append,
    ← distinctValues]
  by_cases h : value ∈ distinctValues slots
  · have hseen : value ∈ slots.reduceOption := List.mem_eraseDups.mp h
    simp [h, hseen, List.removeAll]
  · have hnew : value ∉ slots.reduceOption :=
      fun hseen => h (List.mem_eraseDups.mpr hseen)
    simp [h, hnew, List.removeAll, List.eraseDups_cons]

theorem nodup_distinctValues (slots : List (Option String)) :
    (distinctValues slots).Nodup := by
  induction slots using List.reverseRecOn with
  | nil => exact List.nodup_nil
  | append_singleton slots slot ih =>
      rcases slot with _ | value
      · rwa [distinctValues_append_none]
      · rw [distinctValues_append_some]
        split
        · exact ih
        next hnew =>
          rw [← List.concat_eq_append]
          exact ih.concat hnew

/-! ## Passes -/

/-- A pass that changes a state at every slot is a fold over the slots. -/
theorem run_traverse_modify {σ α : Type} (onValue : α → σ → σ) (onNull : σ → σ)
    (chunks : Chunks (Option α)) (s : σ) :
    ((traverse (fun value => modify (onValue value))
        (modify onNull : StateM σ Unit) chunks).run s).2 =
      chunks.toList.foldl (fun s slot => slot.elim (onNull s) fun value =>
        onValue value s) s := by
  rw [traverse_eq]
  induction chunks.toList generalizing s with
  | nil => rfl
  | cons slot slots ih =>
      rw [List.forM_eq_forM, List.forM_cons, List.foldl_cons, ← ih]
      rcases slot with _ | value
      · rfl
      · rfl

theorem categories_eq (chunks : Chunks (Option String)) :
    categories chunks = distinctValues chunks.toList := by
  have hpass := run_traverse_modify
    (fun value categories => if value ∈ categories then categories
      else categories ++ [value])
    id chunks []
  refine hpass.trans ?_
  induction chunks.toList using List.reverseRecOn with
  | nil => rfl
  | append_singleton slots slot ih =>
      rw [List.foldl_append, ih]
      rcases slot with _ | value
      · exact (distinctValues_append_none slots).symm
      · exact (distinctValues_append_some slots value).symm

/-- The number by which an indicator column tells whether a slot has its
category. -/
def indicator (category : String) (slot : Option String) : Binary64 :=
  if slot = some category then .one else .zero

/-- The rows of an indicator column. -/
def rows (slots : List (Option String)) (category : String) :
    List (Option Binary64) :=
  slots.map fun slot => some (indicator category slot)

/-- In a list without repetitions a value has no other position than the one it
is found at. -/
theorem idxOf?_eq_some_iff_of_nodup {categories : List String}
    (hnodup : categories.Nodup) {position : Nat}
    (hposition : position < categories.length) (value : String) :
    categories.idxOf? value = some position ↔ value = categories[position] := by
  rw [List.idxOf?_eq_some_iff]
  constructor
  · rintro ⟨_, hvalue, _⟩
    exact hvalue.symm
  · rintro rfl
    refine ⟨hposition, rfl, ?_⟩
    intro earlier hearlier heq
    exact Nat.ne_of_lt hearlier (hnodup.getElem_inj_iff.mp heq)

/-- Adding the row of a slot to every column adds the slot to those that the
columns were made of. -/
theorem mapIdx_push_eq {categories : List String} (hnodup : categories.Nodup)
    (slots : List (Option String)) (slot : Option String) :
    ((categories.map fun category => (rows slots category).toArray).mapIdx
        fun position column =>
        column.push (some (if some position =
          slot.bind categories.idxOf? then .one else .zero))) =
      categories.map fun category =>
        (rows (slots ++ [slot]) category).toArray := by
  apply List.ext_getElem
  · simp
  · intro position hleft hright
    have hposition : position < categories.length := by simpa using hright
    have hfound : some position = slot.bind categories.idxOf? ↔
        slot = some categories[position] := by
      rcases slot with _ | value
      · simp
      · rw [Option.bind_some, eq_comm,
          idxOf?_eq_some_iff_of_nodup hnodup hposition, Option.some_inj]
    simp [rows, indicator, hfound]

theorem indicators_eq {categories : List String} (hnodup : categories.Nodup)
    (chunks : Chunks (Option String)) :
    indicators categories chunks =
      categories.map fun category => (rows chunks.toList category).toArray := by
  have hpass := run_traverse_modify
    (fun value (builders : Builders) => builders.mapIdx fun position column =>
      column.push (some (if some position = categories.idxOf? value then .one
        else .zero)))
    (fun builders => builders.mapIdx fun position column =>
      column.push (some (if some position = none then .one else .zero)))
    chunks (categories.map fun _ => #[])
  refine hpass.trans ?_
  induction chunks.toList using List.reverseRecOn with
  | nil => rfl
  | append_singleton slots slot ih =>
      rw [List.foldl_append, ih, ← mapIdx_push_eq hnodup]
      rcases slot with _ | value
      · rfl
      · rfl

end ColumnBridge.OneHot
