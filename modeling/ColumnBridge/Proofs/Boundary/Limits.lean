import ColumnBridge.Proofs.Boundary.Message
import ColumnBridge.Proofs.Boundary.Outcome
import ColumnBridge.Proofs.Text.Truncation

/-!
# How long messages get

The limit is compared with the detail of an error as it stands, and what is left
of the detail is escaped afterwards.  A NUL is one byte when the detail is cut
and two when it is handed over.  So the detail in a message keeps to the limit
exactly if there is room left for the NULs in it once more; it is never longer
than twice the limit.
-/

namespace ColumnBridge

open String (utf8Len)

/-! ## The bytes of an escaped text -/

theorem utf8Len_flatMap_escapeChar (text : List Char) :
    utf8Len (text.flatMap escapeChar) =
      utf8Len text + text.count (Char.ofNat 0) := by
  induction text with
  | nil => rfl
  | cons c rest ih =>
      have hchar :
          utf8Len (escapeChar c) = c.utf8Size + if c = Char.ofNat 0 then 1
          else 0 := by
        rw [escapeChar]
        split
        next hnul =>
          rw [hnul]
          decide
        next =>
          rw [String.utf8Len_cons, String.utf8Len_nil, Nat.zero_add,
            Nat.add_zero]
      rw [List.flatMap_cons, String.utf8Len_append, ih, hchar,
        String.utf8Len_cons, List.count_cons]
      simp only [beq_iff_eq]
      omega

theorem utf8ByteSize_escapeNul (text : String) :
    (escapeNul text).utf8ByteSize =
      text.utf8ByteSize + text.toList.count (Char.ofNat 0) := by
  rw [← Truncation.utf8Len_toList, toList_escapeNul, utf8Len_flatMap_escapeChar,
    Truncation.utf8Len_toList]

theorem length_le_utf8Len (text : List Char) : text.length ≤ utf8Len text := by
  induction text with
  | nil => exact le_rfl
  | cons c rest ih =>
      rw [List.length_cons, String.utf8Len_cons]
      exact Nat.add_le_add ih c.utf8Size_pos

/-- Escaping a text at most doubles it. -/
theorem utf8ByteSize_escapeNul_le (text : String) :
    (escapeNul text).utf8ByteSize ≤ 2 * text.utf8ByteSize := by
  have hcount : text.toList.count (Char.ofNat 0) ≤ text.utf8ByteSize := by
    rw [← Truncation.utf8Len_toList]
    exact List.count_le_length.trans (length_le_utf8Len text.toList)
  rw [utf8ByteSize_escapeNul]
  omega

/-! ## Messages -/

/-- A text is a detail of at most so many bytes, followed by the name of an
operation. -/
def WithinLimit (bytes : Nat) (operation text : String) : Prop :=
  ∃ detail : String, detail.utf8ByteSize ≤ bytes ∧
    text = detail ++ (" (in " ++ operation ++ ")")

theorem withinLimit_append_iff {bytes : Nat} {operation detail : String} :
    WithinLimit bytes operation (detail ++ (" (in " ++ operation ++ ")")) ↔
      detail.utf8ByteSize ≤ bytes := by
  constructor
  · rintro ⟨other, hle, heq⟩
    rw [(String.append_left_inj _).mp heq]
    exact hle
  · intro hle
    exact ⟨detail, hle, rfl⟩

/-- The limit that a variable of the environment sets. -/
def Settings.limitOf (limit : Option String) : Nat :=
  (limit.bind parseWord?).getD defaultLimit

/-- The limit holds while nothing is logged. -/
theorem Settings.detailLimit_ofEnvironment {verbosity : Option String}
    (h : verbosity ≠ some "1") (limit : Option String) :
    (ofEnvironment verbosity limit).detailLimit = some (limitOf limit) := by
  have hquiet : (ofEnvironment verbosity limit).verbose = false :=
    beq_false_of_ne h
  rw [detailLimit, hquiet]
  rfl

namespace Boundary

variable {α : Type} [BoundaryValue α] {settings : Settings} {thread : Nat}
  {operation : String} {hasVariable : Bool}
  {body : Session → Except Error α × Session} {b : Boundary} {error : Error}

theorem latest_call_of_error (h : (body b.session).1 = .error error) :
    ((b.call settings thread operation hasVariable body).2.caller
      thread).latest =
      some (failureText settings operation error.message) := by
  rw [call_of_error h, report, caller_updateCaller_self]
  cases hasVariable <;> rfl

/-- A failed call stores the detail of the error, cut to the limit and then
escaped, with the name of the operation behind it.  What stands before the name
keeps to the limit if the cut and its NULs together do. -/
theorem withinLimit_message_iff {verbosity : Option String}
    (hquiet : verbosity ≠ some "1") (limit : Option String)
    (hoperation : Char.ofNat 0 ∉ operation.toList)
    (hfails : (body b.session).1 = .error error) : ∃ text cut : String,
      ((b.call (.ofEnvironment verbosity limit) thread operation
        hasVariable body).2.caller thread).latest = some text ∧
      (hasVariable = true →
        ((b.call (.ofEnvironment verbosity limit) thread operation
          hasVariable body).2.caller thread).read = .text text) ∧
      Truncation.IsCut (Settings.limitOf limit) error.message cut ∧
      text = escapeNul cut ++ (" (in " ++ operation ++ ")") ∧
      (WithinLimit (Settings.limitOf limit) operation text ↔
        cut.utf8ByteSize + cut.toList.count (Char.ofNat 0) ≤
          Settings.limitOf limit) ∧
      (Char.ofNat 0 ∉ error.message.toList →
        WithinLimit (Settings.limitOf limit) operation text) ∧
      WithinLimit (2 * Settings.limitOf limit) operation text := by
  have hcut := Truncation.isCut_truncate (Settings.limitOf limit) error.message
  have htext :=
    failureText_eq (.ofEnvironment verbosity limit) error.message hoperation
  rw [writtenDetail, Settings.detailLimit_ofEnvironment hquiet] at htext
  refine ⟨_, _, latest_call_of_error hfails, ?_, hcut, htext, ?_, ?_, ?_⟩
  · rintro rfl
    exact read_call_of_error hfails
  · rw [htext, withinLimit_append_iff, utf8ByteSize_escapeNul]
  · intro hnul
    have hcutNul : Char.ofNat 0 ∉ (Truncation.truncate
        (some (Settings.limitOf limit)) error.message).toList :=
        fun hmem => hnul (hcut.isPrefix.subset hmem)
    rw [htext, withinLimit_append_iff, escapeNul_of_notMem hcutNul]
    exact hcut.utf8ByteSize_le
  · rw [htext, withinLimit_append_iff]
    exact (utf8ByteSize_escapeNul_le _).trans
      (Nat.mul_le_mul_left 2 hcut.utf8ByteSize_le)

/-- A body that fails with a text of the table library. -/
def failing (detail : String) (session : Session) :
    Except Error Unit × Session :=
  (.error (.table .compute detail), session)

/-- Of four bytes the limit leaves three, and as one of them is a NUL, four are
handed over. -/
theorem withinLimit_message_iff_failing :
    ((fresh.call (.ofEnvironment none (some "3")) 0 "fit" true
      (failing "é\x00a")).2.caller 0).read = .text "é\\0 (in fit)" ∧
    ¬ WithinLimit 3 "fit" "é\\0 (in fit)" ∧
      WithinLimit 6 "fit" "é\\0 (in fit)" := by
  have hread : ((fresh.call (.ofEnvironment none (some "3")) 0 "fit" true
      (failing "é\x00a")).2.caller 0).read = .text "é\\0 (in fit)" := by
    decide
  have hlimit : Settings.limitOf (some "3") = 3 := by
    decide
  have hoperation : Char.ofNat 0 ∉ "fit".toList := by
    decide
  obtain ⟨text, cut, -, hreads, -, htext, hiff, -, hdouble⟩ :=
    @withinLimit_message_iff Unit _ 0 "fit" true (failing "é\x00a") fresh _ none
      (by decide) (some "3") hoperation rfl
  rw [hread, Reading.text.injEq] at hreads
  rw [← hreads rfl] at htext hiff hdouble
  rw [hlimit] at hiff hdouble
  have hescaped : escapeNul cut = "é\\0" := by
    rw [← String.append_left_inj (" (in " ++ "fit" ++ ")"), ← htext]
    decide
  rw [← utf8ByteSize_escapeNul, hescaped] at hiff
  refine ⟨hread, ?_, hdouble⟩
  rw [hiff]
  decide

/-- Two NULs keep to a limit of two bytes until they are escaped. -/
theorem not_withinLimit_of_nuls :
    Settings.limitOf (some "2") = 2 ∧
    ((fresh.call (.ofEnvironment none (some "2")) 0 "f" true
      (failing "\x00\x00")).2.caller 0).read = .text "\\0\\0 (in f)" ∧
    ¬ WithinLimit 2 "f" "\\0\\0 (in f)" := by
  have htext : "\\0\\0 (in f)" = "\\0\\0" ++ (" (in " ++ "f" ++ ")") := by
    decide
  refine ⟨by decide, by decide, ?_⟩
  rw [htext, withinLimit_append_iff]
  decide

end Boundary
end ColumnBridge
