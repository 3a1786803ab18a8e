import ColumnBridge.Text.Truncation
import Mathlib

/-!
# Where a text is cut

A number of bytes is a boundary of a text exactly if some of its first
characters encode to that many bytes, so the search for the last boundary before
the limit finds the longest prefix of whole characters that the limit leaves
room for.
-/

namespace ColumnBridge.Truncation

open String (utf8Len)

variable {text taken other : List Char} {bytes limit : Nat}

/-- The prefixes of a text are told apart by their numbers of bytes. -/
theorem takeBytes?_eq_some_iff :
    takeBytes? bytes text = some taken ↔
      taken <+: text ∧ utf8Len taken = bytes := by
  fun_induction takeBytes? bytes text generalizing taken with
  | case1 text =>
      rw [Option.some.injEq]
      constructor
      · rintro rfl
        exact ⟨List.nil_prefix, rfl⟩
      · rintro ⟨-, hlength⟩
        exact (String.utf8Len_eq_zero.mp hlength).symm
  | case2 n =>
      simp only [reduceCtorEq, List.prefix_nil, false_iff, not_and]
      rintro rfl
      exact Nat.zero_ne_add_one n
  | case3 n c rest hfits ih =>
      simp only [Option.map_eq_some_iff, ih, List.prefix_cons_iff]
      constructor
      · rintro ⟨more, ⟨hmore, hlength⟩, rfl⟩
        refine ⟨.inr ⟨more, rfl, hmore⟩, ?_⟩
        rw [String.utf8Len_cons, hlength, Nat.sub_add_cancel hfits]
      · rintro ⟨rfl | ⟨more, rfl, hmore⟩, hlength⟩
        · cases hlength
        · rw [String.utf8Len_cons] at hlength
          exact ⟨more, ⟨hmore, by omega⟩, rfl⟩
  | case4 n c rest hexceeds =>
      simp only [reduceCtorEq, List.prefix_cons_iff, false_iff, not_and]
      rintro (rfl | ⟨more, rfl, -⟩) hlength
      · cases hlength
      · rw [String.utf8Len_cons] at hlength
        omega

theorem isBoundary_iff :
    isBoundary text bytes = true ↔
      ∃ taken, taken <+: text ∧ utf8Len taken = bytes := by
  simp only [isBoundary, Option.isSome_iff_exists, takeBytes?_eq_some_iff]

/-! ## The last boundary -/

theorem isBoundary_zero : isBoundary text 0 = true :=
  isBoundary_iff.mpr ⟨[], List.nil_prefix, rfl⟩

theorem isBoundary_floorBoundary :
    isBoundary text (floorBoundary text limit) = true := by
  fun_induction floorBoundary text limit with
  | case1 => exact isBoundary_zero
  | case2 n hboundary => exact hboundary
  | case3 n hinside ih => exact ih

theorem floorBoundary_le : floorBoundary text limit ≤ limit := by
  fun_induction floorBoundary text limit with
  | case1 => exact le_rfl
  | case2 n hboundary => exact le_rfl
  | case3 n hinside ih => exact ih.trans n.le_succ

theorem le_floorBoundary (hboundary : isBoundary text bytes = true)
    (hle : bytes ≤ limit) : bytes ≤ floorBoundary text limit := by
  fun_induction floorBoundary text limit with
  | case1 => exact hle
  | case2 n _ => exact hle
  | case3 n hinside ih =>
      refine ih (Nat.le_of_lt_succ (hle.lt_of_ne ?_))
      rintro rfl
      exact hinside hboundary

/-! ## The cut -/

/-- A text is another one cut to a number of bytes: no longer prefix of whole
characters fits. -/
structure IsCut (limit : Nat) (text cut : String) : Prop where
  isPrefix : cut.toList <+: text.toList
  utf8ByteSize_le : cut.utf8ByteSize ≤ limit
  longest : ∀ taken, taken <+: text.toList → utf8Len taken ≤ limit →
    taken <+: cut.toList

theorem utf8Len_toList (text : String) :
    utf8Len text.toList = text.utf8ByteSize := by
  rw [← String.utf8ByteSize_ofList, String.ofList_toList]

/-- Of two prefixes of a text, the one of fewer bytes is a prefix of the
other. -/
theorem isPrefix_of_utf8Len_le (htaken : taken <+: text)
    (hother : other <+: text) (hle : utf8Len taken ≤ utf8Len other) :
    taken <+: other := by
  rcases List.prefix_or_prefix_of_prefix htaken hother with h | ⟨more, rfl⟩
  · exact h
  · rw [String.utf8Len_append] at hle
    have hmore : more = [] := String.utf8Len_eq_zero.mp (by omega)
    rw [hmore, List.append_nil]

theorem isCut_truncate (limit : Nat) (text : String) :
    IsCut limit text (truncate (some limit) text) := by
  rw [truncate]
  split
  next hexceeds =>
    obtain ⟨cut, hcut⟩ : ∃ cut,
        takeBytes? (floorBoundary text.toList limit) text.toList = some cut :=
      Option.isSome_iff_exists.mp isBoundary_floorBoundary
    obtain ⟨hbegins, hlength⟩ := takeBytes?_eq_some_iff.mp hcut
    rw [hcut, Option.getD_some]
    constructor
    · rw [String.toList_ofList]
      exact hbegins
    · rw [String.utf8ByteSize_ofList, hlength]
      exact floorBoundary_le
    · intro taken htaken hle
      rw [String.toList_ofList]
      apply isPrefix_of_utf8Len_le htaken hbegins
      rw [hlength]
      exact le_floorBoundary (isBoundary_iff.mpr ⟨taken, htaken, rfl⟩) hle
  next hfits =>
    exact ⟨List.prefix_rfl, Nat.le_of_not_lt hfits, fun _ htaken _ => htaken⟩

theorem truncate_eq_self {text : String} (h : text.utf8ByteSize ≤ limit) :
    truncate (some limit) text = text := by
  rw [truncate, if_neg (Nat.not_lt.mpr h)]

end ColumnBridge.Truncation
