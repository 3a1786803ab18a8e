import ColumnBridge.Boundary.Event
import ColumnBridge.Boundary.Settings
import ColumnBridge.Handle.Registry

/-!
# Sessions

A session is a registry together with the log that is kept of it.  Three
accesses make it up: adopting an object, fetching the object behind a handle,
and releasing one.  Each of them is one atomic step, and each writes at most one
entry, after its effect on the registry.
-/

namespace ColumnBridge

/-- A registry and its log. -/
structure Session where
  registry : Registry
  log : List Event

namespace Session

/-- The session in which nothing has happened. -/
def fresh : Session := ⟨.empty, []⟩

/-- Writes an entry, if entries are written at all. -/
def note (settings : Settings) (event : Event) (s : Session) : Session :=
  if settings.verbose then { s with log := s.log ++ [event] } else s

@[simp]
theorem registry_note (settings : Settings) (event : Event) (s : Session) :
    (s.note settings event).registry = s.registry := by
  unfold note
  split <;> rfl

/-- Takes ownership of an object and gives it a handle. -/
def adopt (settings : Settings) (allocate : Allocator) (object : Object)
    (s : Session) : Address × Session :=
  let (handle, registry) := s.registry.adopt allocate object
  (handle, note settings (.adopted object.kind.typeName handle)
    { s with registry := registry })

/-- Gives up the object behind a handle.  A handle of no object is reported. -/
def release (settings : Settings) (handle : Address) (s : Session) :
    Except Error Unit × Session :=
  if s.registry.contains handle then
    (.ok (), note settings (.released handle)
      { s with registry := s.registry.erase handle })
  else (.error (.unknownHandle handle), s)

end Session
end ColumnBridge
