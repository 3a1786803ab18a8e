import ColumnBridge.Boundary.Settings
import ColumnBridge.Text.Truncation

/-!
# Error variables and messages

A caller passes the address of a variable of its own to every call, and finds
there either null or the text of a message.  The text belongs to the calling
thread, which keeps only its latest message; a variable that still points at an
earlier one points nowhere.

A message is the detail of an error, cut to the limit, followed by the name of
the operation.  A text of this kind ends at its first NUL, so every NUL is
written as a backslash and a zero.
-/

namespace ColumnBridge

/-- What an error variable points at. -/
inductive ErrorPointer where
  | null
  /-- A text that is not one of the messages of the thread. -/
  | foreign (text : String)
  /-- The message of that number. -/
  | message (number : Nat)
  deriving DecidableEq, Repr

/-- A thread that makes calls, with its error variable and its latest
message. -/
structure Caller where
  pointer : ErrorPointer
  /-- The number of messages so far. -/
  issued : Nat
  /-- The latest message. -/
  latest : Option String
  deriving DecidableEq, Repr

/-- What is found where an error variable points. -/
inductive Reading where
  | nothing
  | text (text : String)
  /-- The message is gone. -/
  | dangling
  deriving DecidableEq, Repr

/-- A text in which every NUL is written as a backslash and a zero. -/
def escapeNul (text : String) : String :=
  String.ofList (text.toList.flatMap fun c =>
    if c = Char.ofNat 0 then ['\\', '0'] else [c])

/-- The message about a failed operation. -/
def failureText (settings : Settings) (operation detail : String) : String :=
  escapeNul (Truncation.truncate settings.detailLimit detail ++ " (in " ++
    operation ++ ")")

namespace Caller

/-- A caller that has not called yet. -/
def fresh : Caller := ⟨.null, 0, none⟩

/-- Sets the error variable to null. -/
def clear (c : Caller) : Caller := { c with pointer := .null }

/-- Sets the error variable to a text of the caller's own. -/
def pointAt (text : String) (c : Caller) : Caller :=
  { c with pointer := .foreign text }

/-- Replaces the latest message. -/
def store (message : String) (c : Caller) : Caller :=
  { c with issued := c.issued + 1, latest := some message }

/-- Points the error variable at the latest message. -/
def pointAtLatest (c : Caller) : Caller :=
  { c with pointer := .message c.issued }

/-- What the caller reads through its error variable. -/
def read (c : Caller) : Reading :=
  match c.pointer with
  | .null => .nothing
  | .foreign text => .text text
  | .message number =>
    match c.latest with
    | some text => if number = c.issued then .text text else .dangling
    | none => .dangling

end Caller
end ColumnBridge
