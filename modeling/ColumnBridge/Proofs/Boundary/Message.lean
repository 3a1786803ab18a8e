import ColumnBridge.Boundary.Caller
import Mathlib

/-!
# The texts of messages

A message is composed in three steps: the detail is cut, the name of the
operation is added, and every NUL is escaped.  As escaping works character by
character, it can be carried out before the parts are joined; a name without a
NUL is then left as it is, and stands in full at the end of the message however
short the detail was cut.
-/

namespace ColumnBridge

/-- The characters that a character is written as. -/
def escapeChar (c : Char) : List Char :=
  if c = Char.ofNat 0 then ['\\', '0'] else [c]

theorem toList_escapeNul (text : String) :
    (escapeNul text).toList = text.toList.flatMap escapeChar := by
  simp only [escapeNul, String.toList_ofList]
  rfl

theorem escapeNul_append (a b : String) :
    escapeNul (a ++ b) = escapeNul a ++ escapeNul b := by
  apply String.ext
  simp only [String.toList_append, toList_escapeNul, List.flatMap_append]

theorem escapeNul_of_notMem {text : String} (h : Char.ofNat 0 ∉ text.toList) :
    escapeNul text = text := by
  have hchar : ∀ c ∈ text.toList, escapeChar c = [c] := by
    intro c hc
    have hne : c ≠ Char.ofNat 0 := by
      rintro rfl
      exact h hc
    exact if_neg hne
  apply String.ext
  rw [toList_escapeNul, List.flatMap_congr hchar, List.flatMap_singleton']

/-- The detail of a message as it is written: cut to the limit and then
escaped. -/
def writtenDetail (settings : Settings) (detail : String) : String :=
  escapeNul (Truncation.truncate settings.detailLimit detail)

theorem failureText_eq (settings : Settings) {operation : String}
    (detail : String) (h : Char.ofNat 0 ∉ operation.toList) :
    failureText settings operation detail =
      writtenDetail settings detail ++ (" (in " ++ operation ++ ")") := by
  have hsuffix : Char.ofNat 0 ∉ (" (in " ++ operation ++ ")").toList := by
    simp only [String.toList_append, List.mem_append, not_or]
    exact ⟨⟨by decide, h⟩, by decide⟩
  calc
    failureText settings operation detail =
        escapeNul (Truncation.truncate settings.detailLimit detail ++
          (" (in " ++ operation ++ ")")) := by
      simp only [failureText, String.append_assoc]
    _ = writtenDetail settings detail ++ (" (in " ++ operation ++ ")") := by
      rw [escapeNul_append, escapeNul_of_notMem hsuffix, writtenDetail]

end ColumnBridge
