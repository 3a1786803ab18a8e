import ColumnBridge.Proofs.Boundary.Message
import ColumnBridge.Proofs.Boundary.Outcome
import ColumnBridge.Proofs.Text.Decoding

/-!
# What a call tells its caller

A message is handed over as bytes that end at the first zero.  It would be cut
short, or be lost, if one of its own bytes were zero; the encoding of a
character contains a zero only if the character is NUL, and an escaped text has
none.  So the caller reads the whole message, and finds the name of the
operation at its end.

The variable is set to null before the body runs and not again when the body has
succeeded.  What the caller finds after a failure depends on the error alone;
after a success it is what the body left, and a body that fails in a call of its
own with the same variable may succeed all the same.
-/

namespace ColumnBridge

/-! ## Texts that end at a zero -/

/-- The bytes of a text and a zero after them, if none of them is zero. -/
def terminated? (text : String) : Option (List UInt8) :=
  if 0 ∈ utf8Bytes text then none else some (utf8Bytes text ++ [0])

/-- The bytes that are read from a place in memory up to the first zero. -/
def readTerminated (memory : List UInt8) : List UInt8 :=
  memory.takeWhile (· ≠ 0)

/-- A byte with a marker is not zero. -/
theorem zero_ne_or {byte mark : UInt8} (h : mark ≠ 0) : 0 ≠ byte ||| mark := by
  intro hzero
  exact h (UInt8.or_eq_zero_iff.mp hzero.symm).2

/-- Only NUL is encoded with a zero: every byte of a longer encoding carries a
marker. -/
theorem eq_nul_of_zero_mem_utf8EncodeChar {c : Char}
    (h : 0 ∈ String.utf8EncodeChar c) : c = Char.ofNat 0 := by
  rcases Char.utf8Size_eq c with hsize | hsize | hsize | hsize
  · rw [String.utf8EncodeChar_eq_singleton hsize, List.mem_singleton] at h
    have hbyte : 0 = c.val.toNat % 2 ^ 8 := by
      rw [← UInt32.toNat_toUInt8, ← h]
      rfl
    have hle : c.val.toNat ≤ 127 := Char.utf8Size_eq_one_iff.mp hsize
    have hval : c.toNat = 0 := by
      rw [Char.toNat]
      omega
    rw [← hval, Char.ofNat_toNat]
  · rw [String.utf8EncodeChar_eq_cons_cons hsize] at h
    simp [zero_ne_or] at h
  · rw [String.utf8EncodeChar_eq_cons_cons_cons hsize] at h
    simp [zero_ne_or] at h
  · rw [String.utf8EncodeChar_eq_cons_cons_cons_cons hsize] at h
    simp [zero_ne_or] at h

theorem zero_notMem_utf8Bytes {text : String} (h : Char.ofNat 0 ∉ text.toList) :
    0 ∉ utf8Bytes text := by
  rw [utf8Bytes_eq, List.mem_flatMap]
  rintro ⟨c, hc, hzero⟩
  rw [eq_nul_of_zero_mem_utf8EncodeChar hzero] at hc
  exact h hc

/-- A text without NUL is read in full, whatever stands behind it in memory. -/
theorem exists_terminated {text : String} (h : Char.ofNat 0 ∉ text.toList) :
    ∃ memory, terminated? text = some memory ∧
      ∀ beyond, readTerminated (memory ++ beyond) = utf8Bytes text := by
  have hzero := zero_notMem_utf8Bytes h
  refine ⟨utf8Bytes text ++ [0], if_neg hzero, ?_⟩
  intro beyond
  rw [readTerminated, List.append_assoc, List.singleton_append,
    takeWhile_append_zero hzero]

/-! ## Messages -/

theorem nul_notMem_escapeNul (text : String) :
    Char.ofNat 0 ∉ (escapeNul text).toList := by
  rw [toList_escapeNul, List.mem_flatMap]
  rintro ⟨c, -, hc⟩
  rw [escapeChar] at hc
  split at hc
  · revert hc
    decide
  next hne => exact hne (List.mem_singleton.mp hc).symm

/-- A text is the message about an operation that failed with this detail.  The
caller reads all of it, and how much of the detail is left has no influence on
the name of the operation. -/
structure IsMessage (settings : Settings) (operation detail text : String) :
    Prop where
  eq_escapeNul : text = escapeNul
    (Truncation.truncate settings.detailLimit detail ++ " (in " ++
      operation ++ ")")
  ne_empty : text ≠ ""
  nul_notMem : Char.ofNat 0 ∉ text.toList
  legible : ∃ memory, terminated? text = some memory ∧
    ∀ beyond, readTerminated (memory ++ beyond) = utf8Bytes text
  names_operation : Char.ofNat 0 ∉ operation.toList →
    ∃ start, text = start ++ (" (in " ++ operation ++ ")")

theorem isMessage_failureText (settings : Settings)
    (operation detail : String) :
    IsMessage settings operation detail
      (failureText settings operation detail) where
  eq_escapeNul := rfl
  ne_empty := by
    intro hempty
    rw [failureText, escapeNul_append] at hempty
    have hparen : escapeNul ")" = "" := (String.append_eq_empty_iff.mp hempty).2
    revert hparen
    decide
  nul_notMem := nul_notMem_escapeNul _
  legible := exists_terminated (nul_notMem_escapeNul _)
  names_operation := by
    intro hoperation
    exact ⟨writtenDetail settings detail,
      failureText_eq settings detail hoperation⟩

namespace Boundary

/-! ## Bodies and the variable of their call -/

/-- A body that starts with the variable of a thread set to null ends with it
set to null. -/
def KeepsVariable {α : Type} (thread : Nat)
    (body : Boundary → Except Error α × Boundary) : Prop :=
  ∀ b, (b.caller thread).pointer = .null →
    ((body b).2.caller thread).pointer = .null

/-- Points the variable of a thread somewhere else. -/
def repointed (thread : Nat) (pointer : ErrorPointer) (b : Boundary) :
    Boundary :=
  b.updateCaller thread fun caller => { caller with pointer }

/-- A body that works on the session alone has no variable to write to. -/
theorem keepsVariable_onSession {α : Type} (thread : Nat)
    (body : Session → Except Error α × Session) :
    KeepsVariable thread (onSession body) := by
  intro b hnull
  exact hnull

variable {α : Type} [BoundaryValue α] {settings : Settings} {thread : Nat}
  {operation : String} {hasVariable : Bool}
  {body : Boundary → Except Error α × Boundary} {b : Boundary}

theorem pointer_cleared :
    ((b.cleared thread true).caller thread).pointer = .null := by
  rw [cleared, if_pos rfl, caller_updateCaller_self]
  rfl

/-- Once the variable is cleared, nothing tells where it pointed before. -/
theorem cleared_repointed (pointer : ErrorPointer) :
    (b.repointed thread pointer).cleared thread true =
      b.cleared thread true := by
  simp only [repointed, cleared, if_true, updateCaller, mk.injEq, true_and]
  funext t
  split <;> rfl

theorem enclose_repointed (pointer : ErrorPointer) :
    (b.repointed thread pointer).enclose settings thread operation true body =
      b.enclose settings thread operation true body := by
  rw [enclose, enclose, cleared_repointed]

/-- A failed call without a variable writes to no variable. -/
theorem pointer_enclose_false_of_error {error : Error}
    (h : (body (b.cleared thread false)).1 = .error error) :
    ((b.enclose settings thread operation false body).2.caller thread).pointer =
      ((body (b.cleared thread false)).2.caller thread).pointer := by
  rw [enclose_of_error h, report, caller_updateCaller_self]
  rfl

/-! ## Calls -/

/-- A call returns what its body returns, and the variable is then null if the
body left it so; or it returns the fallback value, and the message about the
error is found in the variable whatever the body did to it.  Where the variable
pointed before the call makes no difference to anything. -/
theorem enclose_returns_or_reports (settings : Settings) (thread : Nat)
    (operation : String) (hasVariable : Bool)
    (body : Boundary → Except Error α × Boundary) (b : Boundary) :
    let ended := body (b.cleared thread hasVariable)
    let after := b.enclose settings thread operation hasVariable body
    (∀ value, ended.1 = .ok value →
      after.1 = value ∧
      after.2.caller = ended.2.caller ∧
      (hasVariable = true →
        ((after.2.caller thread).read = .nothing ↔
          (ended.2.caller thread).pointer = .null) ∧
        (KeepsVariable thread body →
          (after.2.caller thread).read = .nothing))) ∧
    (∀ error, ended.1 = .error error →
      after.1 = BoundaryValue.fallback ∧
      ∃ text, IsMessage settings operation error.message text ∧
        (hasVariable = true → (after.2.caller thread).read = .text text) ∧
        (hasVariable = false →
          (after.2.caller thread).pointer = (ended.2.caller thread).pointer)) ∧
    Error.message .abandoned = "unknown exception" ∧
    (hasVariable = true → ∀ pointer,
      (b.repointed thread pointer).enclose settings thread operation hasVariable
        body = after) := by
  intro ended after
  refine ⟨?_, ?_, rfl, ?_⟩
  · intro value hvalue
    have hcaller : after.2.caller = ended.2.caller :=
      caller_enclose_of_ok hvalue
    refine ⟨?_, hcaller, ?_⟩
    · exact congrArg Prod.fst (enclose_of_ok hvalue)
    · rintro rfl
      rw [hcaller, Caller.read_eq_nothing_iff]
      refine ⟨Iff.rfl, ?_⟩
      intro hkeeps
      exact hkeeps _ pointer_cleared
  · intro error herror
    refine ⟨?_, failureText settings operation error.message,
      isMessage_failureText _ _ _, ?_, ?_⟩
    · exact congrArg Prod.fst (enclose_of_error herror)
    · rintro rfl
      exact read_enclose_of_error herror
    · rintro rfl
      exact pointer_enclose_false_of_error herror
  · rintro rfl pointer
    exact enclose_repointed pointer

/-- A body that works on the session alone is not told apart by the callers:
what they hold makes no difference to what is returned, logged and read. -/
theorem call_congr {work : Session → Except Error α × Session}
    {other : Boundary} (hsession : other.session = b.session) :
    (other.call settings thread operation hasVariable work).1 =
        (b.call settings thread operation hasVariable work).1 ∧
      (other.call settings thread operation hasVariable work).2.session =
        (b.call settings thread operation hasVariable work).2.session ∧
      ((other.call settings thread operation true work).2.caller thread).read =
        ((b.call settings thread operation true
          work).2.caller thread).read := by
  rcases h : (work b.session).1 with error | value
  · have hother : (work other.session).1 = .error error := by rw [hsession, h]
    rw [read_call_of_error h, read_call_of_error hother, call_of_error h,
      call_of_error hother, hsession]
    exact ⟨rfl, rfl, rfl⟩
  · have hother : (work other.session).1 = .ok value := by rw [hsession, h]
    rw [read_call_of_ok h, read_call_of_ok hother, call_of_ok h,
      call_of_ok hother, hsession]
    exact ⟨rfl, rfl, rfl⟩

/-- A boundary at which every variable still points at a message that is
gone. -/
def sampleBoundary : Boundary :=
  ⟨.fresh, fun _ => ⟨.message 3, 8, some "earlier (in score)"⟩⟩

/-- A body that fails with a NUL in its error, and behind it a character of two
bytes, and that leaves the variable pointing at a text of its own. -/
def sampleBody (b : Boundary) : Except Error Binary64 × Boundary :=
  (.error (.foreignRuntime "a\x00é"), b.repointed 1 (.foreign "left behind"))

/-- A body that counts seven rows. -/
def sampleCount (session : Session) : Except Error Nat × Session :=
  (.ok 7, session)

theorem enclose_returns_or_reports_sampleBody :
    (sampleBoundary.caller 1).read = .dangling ∧
    (sampleBoundary.enclose ⟨false, 28⟩ 1 "fit" true sampleBody).1 = .zero ∧
    ((sampleBoundary.enclose ⟨false, 28⟩ 1 "fit" true
      sampleBody).2.caller 1).read =
        .text "foreign runtime failure: a\\0 (in fit)" ∧
    (sampleBoundary.repointed 1 .null).enclose ⟨false, 28⟩ 1 "fit" true
        sampleBody =
      sampleBoundary.enclose ⟨false, 28⟩ 1 "fit" true sampleBody ∧
    (sampleBoundary.call ⟨true, 28⟩ 1 "fit" true sampleCount).1 = 7 ∧
    ((sampleBoundary.call ⟨true, 28⟩ 1 "fit" true
      sampleCount).2.caller 1).read = .nothing := by
  obtain ⟨-, hreports, -, hindependent⟩ :=
    enclose_returns_or_reports ⟨false, 28⟩ 1 "fit" true sampleBody
      sampleBoundary
  obtain ⟨hfallback, text, hmessage, hread, -⟩ := hreports _ rfl
  obtain ⟨hreturns, -⟩ := enclose_returns_or_reports ⟨true, 28⟩ 1 "fit" true
    (onSession sampleCount) sampleBoundary
  obtain ⟨hvalue, -, hcleared⟩ := hreturns 7 rfl
  refine ⟨rfl, hfallback, ?_, hindependent rfl .null, hvalue, ?_⟩
  · rw [hread rfl, hmessage.eq_escapeNul]
    decide
  · exact (hcleared rfl).2 (keepsVariable_onSession 1 sampleCount)

/-- A body that looks up an address that is not registered. -/
def failedLookup (session : Session) : Except Error Unit × Session :=
  (.error (.unknownHandle ⟨1⟩), session)

/-- A body that makes a call with the variable of its own call, and goes on when
that call has failed. -/
def carelessBody (b : Boundary) : Except Error Nat × Boundary :=
  (.ok 1, (b.call ⟨false, 4096⟩ 0 "inner" true failedLookup).2)

/-- A call may succeed and leave the message of another one in its variable. -/
theorem not_cleared_after_carelessBody :
    (carelessBody (fresh.cleared 0 true)).1 = .ok 1 ∧
    (fresh.enclose ⟨false, 4096⟩ 0 "outer" true carelessBody).1 = 1 ∧
    ((fresh.enclose ⟨false, 4096⟩ 0 "outer" true
      carelessBody).2.caller 0).read =
        .text "unknown handle 0x1 (in inner)" ∧
    ¬ ∀ (body : Boundary → Except Error Nat × Boundary) (value : Nat),
      (body (fresh.cleared 0 true)).1 = .ok value →
        ((fresh.enclose ⟨false, 4096⟩ 0 "outer" true body).2.caller 0).read =
          .nothing := by
  have hread : ((fresh.enclose ⟨false, 4096⟩ 0 "outer" true
      carelessBody).2.caller 0).read =
        .text "unknown handle 0x1 (in inner)" := by
    decide
  refine ⟨rfl, rfl, hread, ?_⟩
  intro hclears
  have hnothing := hclears carelessBody 1 rfl
  rw [hread] at hnothing
  cases hnothing

end Boundary
end ColumnBridge
