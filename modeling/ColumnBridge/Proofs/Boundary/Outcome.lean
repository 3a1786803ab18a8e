import ColumnBridge.Boundary.Basic
import Mathlib

/-!
# What a call at the boundary leaves behind

The body of a call decides how the call ends, and nothing else that happens at
the boundary touches the registry.  This module says, for each of the two
endings, what is returned and what becomes of the callers.  A body that succeeds
leaves every variable as it is when the body ends; one that fails leaves a new
message, at which the variable points if there is one.

A body that works on the session alone ends with the variable that was cleared
before it, and is described by the session in which it starts.
-/

namespace ColumnBridge

namespace Caller

theorem read_clear (c : Caller) : c.clear.read = .nothing := rfl

theorem read_eq_nothing_iff {c : Caller} :
    c.read = .nothing ↔ c.pointer = .null := by
  constructor
  · intro hread
    rw [read] at hread
    split at hread
    · assumption
    · cases hread
    · split at hread
      · split at hread <;> cases hread
      · cases hread
  · intro hnull
    rw [read, hnull]

/-- A variable that points at the message just stored reads that message. -/
theorem read_pointAtLatest_store (message : String) (c : Caller) :
    (c.store message).pointAtLatest.read = .text message := by
  simp [read, pointAtLatest, store]

end Caller

namespace Boundary

variable {α : Type} [BoundaryValue α] {settings : Settings} {thread : Nat}
  {operation : String} {hasVariable : Bool}
  {body : Session → Except Error α × Session} {b : Boundary}

theorem session_updateCaller (f : Caller → Caller) :
    (b.updateCaller thread f).session = b.session := rfl

theorem caller_updateCaller_self (f : Caller → Caller) :
    (b.updateCaller thread f).caller thread = f (b.caller thread) := by
  simp [updateCaller]

theorem caller_updateCaller_of_ne {other : Nat} (f : Caller → Caller)
    (h : other ≠ thread) :
    (b.updateCaller thread f).caller other = b.caller other := by
  simp [updateCaller, h]

theorem session_cleared :
    (b.cleared thread hasVariable).session = b.session := by
  unfold cleared
  split
  · exact session_updateCaller Caller.clear
  · rfl

/-! ## Bodies that use the boundary -/

section Enclosed

variable {act : Boundary → Except Error α × Boundary}

/-- The value of a body that succeeds is returned, and the boundary is left as
the body left it, but for the log. -/
theorem enclose_of_ok {value : α}
    (h : (act (b.cleared thread hasVariable)).1 = .ok value) :
    b.enclose settings thread operation hasVariable act =
      (value, (act (b.cleared thread hasVariable)).2.note settings
        (.returned operation (BoundaryValue.text value))) := by
  rw [enclose]
  simp only [h]

/-- The error of a body that fails is reported at the boundary that the body
left. -/
theorem enclose_of_error {error : Error}
    (h : (act (b.cleared thread hasVariable)).1 = .error error) :
    b.enclose settings thread operation hasVariable act =
      (BoundaryValue.fallback,
        ((act (b.cleared thread hasVariable)).2.note settings
          (.failed operation error.message)).report settings thread operation
            hasVariable error.message) := by
  rw [enclose]
  simp only [h]

theorem caller_note (event : Event) :
    (b.note settings event).caller = b.caller := rfl

theorem caller_enclose_of_ok {value : α}
    (h : (act (b.cleared thread hasVariable)).1 = .ok value) :
    (b.enclose settings thread operation hasVariable act).2.caller =
      (act (b.cleared thread hasVariable)).2.caller := by
  rw [enclose_of_ok h, caller_note]

/-- Whatever the body did to the variable, the message is found there. -/
theorem read_enclose_of_error {error : Error}
    (h : (act (b.cleared thread true)).1 = .error error) :
    ((b.enclose settings thread operation true act).2.caller thread).read =
      .text (failureText settings operation error.message) := by
  rw [enclose_of_error h, report, caller_updateCaller_self]
  exact Caller.read_pointAtLatest_store _ _

end Enclosed

/-! ## Bodies that work on the session -/

theorem onSession_cleared {β : Type}
    (work : Session → Except Error β × Session) :
    onSession work (b.cleared thread hasVariable) =
      ((work b.session).1,
        { b.cleared thread hasVariable with session :=
          (work b.session).2 }) := by
  rw [onSession, session_cleared]

/-- A body that succeeds is run behind a cleared variable, and its value is
returned. -/
theorem call_of_ok {value : α} (h : (body b.session).1 = .ok value) :
    b.call settings thread operation hasVariable body =
      (value, { b.cleared thread hasVariable with
        session := (body b.session).2.note settings
          (.returned operation (BoundaryValue.text value)) }) := by
  have hends :
      (onSession body (b.cleared thread hasVariable)).1 = .ok value := by
    rw [onSession_cleared, h]
  rw [call, enclose_of_ok hends, onSession_cleared, note]

/-- A body that fails is run behind a cleared variable, and its error is
reported. -/
theorem call_of_error {error : Error} (h : (body b.session).1 = .error error) :
    b.call settings thread operation hasVariable body =
      (BoundaryValue.fallback, { b.cleared thread hasVariable with
        session := (body b.session).2.note settings
          (.failed operation error.message) }.report
            settings thread operation hasVariable error.message) := by
  have hends :
      (onSession body (b.cleared thread hasVariable)).1 = .error error := by
    rw [onSession_cleared, h]
  rw [call, enclose_of_error hends, onSession_cleared, note]

/-- A call takes the registry where its body takes it. -/
theorem registry_call :
    (b.call settings thread operation hasVariable body).2.session.registry =
      (body b.session).2.registry := by
  rcases h : (body b.session).1 with error | value
  · rw [call_of_error h, report, session_updateCaller, Session.registry_note]
  · rw [call_of_ok h, Session.registry_note]

/-! ## The caller -/

theorem read_call_of_ok {value : α} (h : (body b.session).1 = .ok value) :
    ((b.call settings thread operation true body).2.caller thread).read =
      .nothing := by
  rw [call_of_ok h]
  simp only [cleared, if_true, caller_updateCaller_self, Caller.read_clear]

theorem read_call_of_error {error : Error}
    (h : (body b.session).1 = .error error) :
    ((b.call settings thread operation true body).2.caller thread).read =
      .text (failureText settings operation error.message) := by
  rw [call_of_error h]
  simp only [report, if_true, caller_updateCaller_self,
    Caller.read_pointAtLatest_store]

/-- A call without a variable writes to no variable. -/
theorem pointer_call_false (t : Nat) :
    ((b.call settings thread operation false body).2.caller t).pointer =
      (b.caller t).pointer := by
  rcases h : (body b.session).1 with error | value
  · rw [call_of_error h, report]
    by_cases ht : t = thread
    · subst ht
      rw [caller_updateCaller_self]
      rfl
    · rw [caller_updateCaller_of_ne _ ht]
      rfl
  · rw [call_of_ok h]
    rfl

/-- Whether there is a variable makes no difference to what a call returns. -/
theorem fst_call_eq (other : Bool) :
    (b.call settings thread operation hasVariable body).1 =
      (b.call settings thread operation other body).1 := by
  rcases h : (body b.session).1 with error | value
  · rw [call_of_error h, call_of_error h]
  · rw [call_of_ok h, call_of_ok h]

end Boundary
end ColumnBridge
