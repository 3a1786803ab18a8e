import ColumnBridge.Handle.Session

/-!
# Shared ownership of registered objects

The registry is not the only owner of the objects in it.  Whoever fetches an
object shares its ownership until the reference is dropped, and the object is
destroyed when its last owner is gone.  This module keeps account of the owners:
how many each object has, which references are kept, and which objects were
destroyed in which circumstances.

The registry is guarded by a lock.  A destructor may ask the registry for its
size, so an object must not be destroyed while the lock is held.
-/

namespace ColumnBridge

/-- A reference that was kept after its object was fetched. -/
structure Kept where
  number : Nat
  handle : Address
  object : Object

/-- The end of an object, as its destructor sees it. -/
structure Destruction where
  handle : Address
  object : Object
  /-- Whether the lock of the registry was free. -/
  lockFree : Bool
  /-- The number of objects that were registered. -/
  remaining : Nat

/-- A session with an account of who owns the objects. -/
structure Custody where
  session : Session
  /-- Whether the lock of the registry is held. -/
  locked : Bool
  /-- The number of owners of the object that was given a handle. -/
  owners : Address → Nat
  kept : List Kept
  /-- The objects destroyed so far, in order. -/
  destroyed : List Destruction

namespace Custody

/-- The account of a session in which nothing has happened. -/
def fresh : Custody := ⟨.fresh, false, fun _ => 0, [], []⟩

/-! ## Owners and the lock -/

/-- Takes the lock. -/
def lock (c : Custody) : Custody := { c with locked := true }

/-- Gives the lock back. -/
def unlock (c : Custody) : Custody := { c with locked := false }

/-- Sets the number of owners of one object. -/
def setOwners (handle : Address) (count : Nat) (c : Custody) : Custody :=
  { c with owners := fun a => if a = handle then count else c.owners a }

/-- Adds an owner to an object. -/
def retain (handle : Address) (c : Custody) : Custody :=
  c.setOwners handle (c.owners handle + 1)

/-- Takes an owner from an object, and destroys the object if it was the last
one. -/
def drop (handle : Address) (object : Object) (c : Custody) : Custody :=
  let c := c.setOwners handle (c.owners handle - 1)
  if c.owners handle = 0 then
    { c with
      destroyed :=
        c.destroyed ++ [⟨handle, object, !c.locked, c.session.registry.size⟩] }
  else c

/-! ## Operations -/

/-- Makes the registry the only owner of an object. -/
def adopt (settings : Settings) (allocate : Allocator) (object : Object)
    (c : Custody) : Address × Custody :=
  let c := c.lock
  let (handle, session) := c.session.adopt settings allocate object
  (handle, ({ c with session := session }.setOwners handle 1).unlock)

/-- The reference kept under a number. -/
def kept? (number : Nat) (c : Custody) : Option Kept :=
  c.kept.find? (·.number = number)

/-- Drops the reference kept under a number, and says whether there was one. -/
def dropKept (number : Nat) (c : Custody) : Bool × Custody :=
  match c.kept? number with
  | none => (false, c)
  | some reference =>
    let c := { c with kept := c.kept.filter (·.number ≠ number) }
    (true, c.drop reference.handle reference.object)

/-- Keeps a reference under a number, in place of one that was kept under it. -/
def keep (reference : Kept) (c : Custody) : Custody :=
  let (_, c) := c.dropKept reference.number
  { c with kept := reference :: c.kept }

/-- Fetches the object behind a handle and keeps the reference to it under a
number, if one is given.  The object gains an owner under the lock; a reference
that is not kept, or is not of the expected kind, is dropped after the lock is
given back. -/
def get (kind : Kind) (handle : Address) (number : Option Nat) (c : Custody) :
    Except Error kind.Carrier × Custody :=
  let c := c.lock
  match c.session.registry.lookup? handle with
  | none => (.error (.unknownHandle handle), c.unlock)
  | some object =>
    let c := (c.retain handle).unlock
    match object.as? kind with
    | none => (.error (.wrongKind handle kind.typeName), c.drop handle object)
    | some value =>
      match number with
      | none => (.ok value, c.drop handle object)
      | some number => (.ok value, c.keep ⟨number, handle, object⟩)

/-- Takes the object behind a handle out of the registry under the lock, and
drops it after the lock is given back. -/
def release (settings : Settings) (handle : Address) (c : Custody) :
    Except Error Unit × Custody :=
  let c := c.lock
  let object := c.session.registry.lookup? handle
  let (answer, session) := c.session.release settings handle
  let c := { c with session := session }.unlock
  match object with
  | none => (answer, c)
  | some object => (answer, c.drop handle object)

end Custody
end ColumnBridge
