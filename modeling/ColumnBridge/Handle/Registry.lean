import ColumnBridge.Handle.Object

/-!
# The registry of handles

The registry owns the objects that were handed out and knows each by its
address.  It is a finite map with at most one object per address,
`Registry.lookup?` being its view.  Addresses come from an allocator, and the
registry counts how many it has asked for.
-/

namespace ColumnBridge

/-- The address of the object that is handed out after a number of others. -/
abbrev Allocator : Type := Nat → Address

/-- Registered objects under their addresses. -/
structure Registry where
  entries : List (Address × Object)
  /-- The number of objects registered so far, released ones included. -/
  issued : Nat
  distinct : (entries.map Prod.fst).Nodup

namespace Registry

/-- The registry that never held an object. -/
def empty : Registry := ⟨[], 0, List.Pairwise.nil⟩

/-- The object registered under an address. -/
def lookup? (r : Registry) (handle : Address) : Option Object :=
  r.entries.lookup handle

/-- Whether an object is registered under an address. -/
def contains (r : Registry) (handle : Address) : Bool :=
  (r.lookup? handle).isSome

/-- The number of registered objects. -/
def size (r : Registry) : Nat := r.entries.length

/-- The entries under other addresses than the given one. -/
def others (entries : List (Address × Object)) (handle : Address) :
    List (Address × Object) :=
  entries.filter fun entry => entry.1 ≠ handle

theorem distinct_others {entries : List (Address × Object)} (handle : Address)
    (h : (entries.map Prod.fst).Nodup) :
    ((others entries handle).map Prod.fst).Nodup :=
  h.sublist (List.filter_sublist.map Prod.fst)

theorem not_mem_others (entries : List (Address × Object)) (handle : Address) :
    handle ∉ (others entries handle).map Prod.fst := by
  simp [others]

theorem lookup_others_self (entries : List (Address × Object))
    (handle : Address) : (others entries handle).lookup handle = none := by
  rw [List.lookup_eq_none_iff]
  intro entry hentry
  have hne : entry.1 ≠ handle := by
    simpa [others] using (List.mem_filter.mp hentry).2
  simpa using Ne.symm hne

theorem lookup_others_of_ne (entries : List (Address × Object))
    {handle other : Address} (hne : other ≠ handle) :
    (others entries handle).lookup other = entries.lookup other := by
  induction entries with
  | nil => rfl
  | cons entry rest ih =>
    obtain ⟨address, object⟩ := entry
    by_cases h : address = handle
    · have hother : (other == address) = false := by simpa [h] using hne
      rw [List.lookup_cons, hother]
      simpa [others, h] using ih
    · have hkept : others ((address, object) :: rest) handle =
          (address, object) :: others rest handle := by
        simp [others, h]
      rw [hkept, List.lookup_cons, List.lookup_cons, ih]

/-- The registry with an object under an address. -/
def insert (r : Registry) (handle : Address) (object : Object) : Registry :=
  { entries := (handle, object) :: others r.entries handle
    issued := r.issued
    distinct := List.nodup_cons.2
      ⟨not_mem_others r.entries handle, distinct_others handle r.distinct⟩ }

/-- The registry without the object under an address. -/
def erase (r : Registry) (handle : Address) : Registry :=
  { entries := others r.entries handle
    issued := r.issued
    distinct := distinct_others handle r.distinct }

@[simp]
theorem lookup?_empty (handle : Address) : empty.lookup? handle = none := rfl

@[simp]
theorem lookup?_insert_self (r : Registry) (handle : Address)
    (object : Object) :
    (r.insert handle object).lookup? handle = some object := by
  simp [lookup?, insert]

theorem lookup?_insert_of_ne (r : Registry) {handle other : Address}
    (object : Object) (hne : other ≠ handle) :
    (r.insert handle object).lookup? other = r.lookup? other := by
  have hother : (other == handle) = false := by simpa using hne
  simpa [lookup?, insert, List.lookup_cons,
    hother] using lookup_others_of_ne r.entries hne

@[simp]
theorem lookup?_erase_self (r : Registry) (handle : Address) :
    (r.erase handle).lookup? handle = none :=
  lookup_others_self r.entries handle

theorem lookup?_erase_of_ne (r : Registry) {handle other : Address}
    (hne : other ≠ handle) : (r.erase handle).lookup? other = r.lookup? other :=
  lookup_others_of_ne r.entries hne

/-- Registers an object under the next address of the allocator. -/
def adopt (allocate : Allocator) (object : Object) (r : Registry) :
    Address × Registry :=
  let handle := allocate r.issued
  (handle, { r.insert handle object with issued := r.issued + 1 })

/-- The value registered under an address, which must be of the given kind. -/
def fetch (r : Registry) (kind : Kind) (handle : Address) :
    Except Error kind.Carrier :=
  match r.lookup? handle with
  | none => .error (.unknownHandle handle)
  | some object =>
    match object.as? kind with
    | some value => .ok value
    | none => .error (.wrongKind handle kind.typeName)

end Registry
end ColumnBridge
