import ColumnBridge.Boundary.Caller
import ColumnBridge.Boundary.Value
import ColumnBridge.Error
import ColumnBridge.Handle.Session

/-!
# Calls at the boundary

No error leaves a call as an error.  The body of a call runs between two steps:
before it, the error variable of the caller is set to null; after it, a failure
is turned into a message and a fallback value.  A call may come without an error
variable, and its message is then stored all the same.

A body may do anything at the boundary, calls of its own and writes to the error
variable included.  The operations on handles work on the session alone.
-/

namespace ColumnBridge

/-- A session together with the threads that make calls on it. -/
structure Boundary where
  session : Session
  caller : Nat → Caller

namespace Boundary

/-- The boundary at which nothing has happened. -/
def fresh : Boundary := ⟨.fresh, fun _ => .fresh⟩

/-- Changes the state of one thread. -/
def updateCaller (thread : Nat) (f : Caller → Caller) (b : Boundary) :
    Boundary :=
  { b with
    caller := fun t => if t = thread then f (b.caller t) else b.caller t }

/-- Sets the error variable of a call, if there is one, to null. -/
def cleared (thread : Nat) (hasVariable : Bool) (b : Boundary) : Boundary :=
  if hasVariable then b.updateCaller thread Caller.clear else b

/-- Stores the message about a failed operation, and points the error variable
at it if the caller passed one. -/
def report (settings : Settings) (thread : Nat) (operation : String)
    (hasVariable : Bool) (detail : String) (b : Boundary) : Boundary :=
  b.updateCaller thread fun caller =>
    let caller := caller.store (failureText settings operation detail)
    if hasVariable then caller.pointAtLatest else caller

/-- Writes an event to the log of the session. -/
def note (settings : Settings) (event : Event) (b : Boundary) : Boundary :=
  { b with session := b.session.note settings event }

/-- Runs a body as the call of an operation by a thread.  The settings are those
in force when the body has ended. -/
def enclose {α : Type} [BoundaryValue α] (settings : Settings) (thread : Nat)
    (operation : String) (hasVariable : Bool)
    (body : Boundary → Except Error α × Boundary) (b : Boundary) :
    α × Boundary :=
  let ended := body (b.cleared thread hasVariable)
  match ended.1 with
  | .ok value =>
    -- The variable is not set to null again.
    (value, ended.2.note settings
      (.returned operation (BoundaryValue.text value)))
  | .error error =>
    let b := ended.2.note settings (.failed operation error.message)
    (BoundaryValue.fallback,
      b.report settings thread operation hasVariable error.message)

/-- Runs a body that works on the session alone. -/
def onSession {α : Type} (body : Session → Except Error α × Session)
    (b : Boundary) : Except Error α × Boundary :=
  let (outcome, session) := body b.session
  (outcome, { b with session })

/-- Runs a body that works on the session alone as the call of an operation. -/
def call {α : Type} [BoundaryValue α] (settings : Settings) (thread : Nat)
    (operation : String) (hasVariable : Bool)
    (body : Session → Except Error α × Session) (b : Boundary) : α × Boundary :=
  b.enclose settings thread operation hasVariable (onSession body)

end Boundary
end ColumnBridge
