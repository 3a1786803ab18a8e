import ColumnBridge.Handle.Session
import Mathlib

/-!
# The contents of a registry

A registry stores its entries in a list, together with a count of the objects it
has handed out.  What it means is the finite map from live handles to objects,
`Registry.contents`.  Every access to a registry is an access to that map: a
look-up reads it, adopting an object inserts an entry under the next address of
the allocator, and releasing a handle erases its entry.
-/

namespace ColumnBridge

/-- The live handles with the objects behind them. -/
abbrev LiveObjects : Type := Finmap fun _ : Address => Object

namespace LiveObjects

/-- The value behind a handle, which must be live and of the given kind. -/
def value (m : LiveObjects) (kind : Kind) (handle : Address) :
    Except Error kind.Carrier :=
  match m.lookup handle with
  | none => .error (.unknownHandle handle)
  | some object =>
    match object.as? kind with
    | some value => .ok value
    | none => .error (.wrongKind handle kind.typeName)

end LiveObjects

namespace Registry

theorem nodupKeys_entries (r : Registry) :
    List.NodupKeys (r.entries.map Prod.toSigma) := by
  rw [List.NodupKeys, List.keys, List.map_map]
  exact r.distinct

/-- The finite map that a registry stands for. -/
def contents (r : Registry) : LiveObjects :=
  ⟨(r.entries.map Prod.toSigma : List (Σ _ : Address, Object)),
    r.nodupKeys_entries⟩

theorem dlookup_map_toSigma (entries : List (Address × Object))
    (handle : Address) :
    (entries.map Prod.toSigma).dlookup handle = entries.lookup handle := by
  induction entries with
  | nil => rfl
  | cons entry rest ih =>
      obtain ⟨address, object⟩ := entry
      by_cases h : handle = address
      · subst h
        simp [Prod.toSigma, List.lookup]
      · have hne : (handle == address) = false := by simpa using h
        rw [List.map_cons, List.dlookup_cons_ne _ _ h, ih, List.lookup, hne]

@[simp]
theorem lookup_contents (r : Registry) (handle : Address) :
    r.contents.lookup handle = r.lookup? handle :=
  dlookup_map_toSigma r.entries handle

theorem mem_contents {r : Registry} {handle : Address} :
    handle ∈ r.contents ↔ r.contains handle = true := by
  rw [← Finmap.lookup_isSome, lookup_contents, contains]

@[simp]
theorem contents_empty : empty.contents = ∅ :=
  Finmap.ext_lookup fun handle => by simp

/-! ## Sizes -/

theorem mem_contents_iff_mem_keys {r : Registry} {handle : Address} :
    handle ∈ r.contents ↔ handle ∈ r.entries.map Prod.fst := by
  rw [mem_contents, contains, lookup?, List.lookup_isSome_iff, List.mem_map]
  simp only [beq_iff_eq, @eq_comm _ handle]

theorem length_others_add_count (entries : List (Address × Object))
    (handle : Address) :
    (others entries handle).length + (entries.map Prod.fst).count handle =
      entries.length := by
  induction entries with
  | nil => rfl
  | cons entry rest ih =>
      by_cases h : entry.1 = handle
      · have hothers : others (entry :: rest) handle = others rest handle :=
          List.filter_cons_of_neg (by simpa using h)
        rw [hothers, List.map_cons, h, List.count_cons_self, List.length_cons]
        omega
      · have hothers :
            others (entry :: rest) handle = entry :: others rest handle :=
          List.filter_cons_of_pos (by simpa using h)
        rw [hothers, List.map_cons, List.count_cons_of_ne h, List.length_cons,
          List.length_cons]
        omega

theorem size_insert {r : Registry} {handle : Address} (object : Object)
    (h : handle ∉ r.contents) : (r.insert handle object).size = r.size + 1 := by
  have hnone : (r.entries.map Prod.fst).count handle = 0 :=
    List.count_eq_zero.mpr fun hmem => h (mem_contents_iff_mem_keys.mpr hmem)
  have hsplit := length_others_add_count r.entries handle
  rw [hnone] at hsplit
  exact congrArg (· + 1) hsplit

theorem size_erase {r : Registry} {handle : Address} (h : handle ∈ r.contents) :
    (r.erase handle).size + 1 = r.size := by
  have hone : (r.entries.map Prod.fst).count handle = 1 :=
    List.count_eq_one_of_mem r.distinct (mem_contents_iff_mem_keys.mp h)
  have hsplit := length_others_add_count r.entries handle
  rwa [hone] at hsplit

/-! ## Accesses -/

theorem contents_insert (r : Registry) (handle : Address) (object : Object) :
    (r.insert handle object).contents = r.contents.insert handle object := by
  apply Finmap.ext_lookup
  intro other
  by_cases h : other = handle
  · subst h
    rw [lookup_contents, lookup?_insert_self, Finmap.lookup_insert]
  · rw [lookup_contents, lookup?_insert_of_ne r object h,
      Finmap.lookup_insert_of_ne _ h, lookup_contents]

theorem contents_erase (r : Registry) (handle : Address) :
    (r.erase handle).contents = r.contents.erase handle := by
  apply Finmap.ext_lookup
  intro other
  by_cases h : other = handle
  · subst h
    rw [lookup_contents, lookup?_erase_self, Finmap.lookup_erase]
  · rw [lookup_contents, lookup?_erase_of_ne r h,
      Finmap.lookup_erase_ne h, lookup_contents]

/-- Looking up a value in a registry is looking it up in the map. -/
theorem fetch_eq_value (r : Registry) (kind : Kind) (handle : Address) :
    r.fetch kind handle = r.contents.value kind handle := by
  rw [LiveObjects.value, lookup_contents]
  rfl

theorem fetch_eq_ok_iff {r : Registry} {kind : Kind} {handle : Address}
    {value : kind.Carrier} :
    r.fetch kind handle = .ok value ↔
      r.lookup? handle = some ⟨kind, value⟩ := by
  rw [fetch]
  rcases r.lookup? handle with _ | ⟨found, object⟩
  · simp
  · by_cases h : found = kind
    · subst h
      simp
    · simp [Object.as?_eq_none, h]

theorem fetch_of_wrongKind {r : Registry} {kind : Kind} {handle : Address}
    {object : Object} (h : r.lookup? handle = some object)
    (hkind : object.kind ≠ kind) :
    r.fetch kind handle = .error (.wrongKind handle kind.typeName) := by
  simp [fetch, h, Object.as?_eq_none hkind]

theorem fetch_of_none {r : Registry} {kind : Kind} {handle : Address}
    (h : r.lookup? handle = none) :
    r.fetch kind handle = .error (.unknownHandle handle) := by
  simp [fetch, h]

end Registry

namespace Session

variable (settings : Settings) (allocate : Allocator)

/-- Adopting an object inserts it under the next address. -/
theorem contents_adopt (object : Object) (s : Session) :
    (s.adopt settings allocate object).2.registry.contents =
      s.registry.contents.insert (allocate s.registry.issued) object := by
  rw [← Registry.contents_insert]
  simp only [adopt, registry_note]
  rfl

theorem size_adopt {s : Session} (object : Object)
    (h : allocate s.registry.issued ∉ s.registry.contents) :
    (s.adopt settings allocate object).2.registry.size =
      s.registry.size + 1 := by
  rw [← Registry.size_insert object h]
  simp only [adopt, registry_note]
  rfl

@[simp]
theorem issued_adopt (object : Object) (s : Session) :
    (s.adopt settings allocate object).2.registry.issued =
      s.registry.issued + 1 := by
  simp only [adopt, registry_note]
  rfl

theorem release_of_mem {handle : Address} {s : Session}
    (h : handle ∈ s.registry.contents) :
    (s.release settings handle).1 = .ok () := by
  rw [release, if_pos (Registry.mem_contents.mp h)]

theorem release_of_notMem {handle : Address} {s : Session}
    (h : handle ∉ s.registry.contents) :
    s.release settings handle = (.error (.unknownHandle handle), s) := by
  rw [release, if_neg (fun hc => h (Registry.mem_contents.mpr hc))]

/-- Releasing a live handle erases its entry. -/
theorem contents_release {handle : Address} {s : Session}
    (h : handle ∈ s.registry.contents) :
    (s.release settings handle).2.registry.contents =
      s.registry.contents.erase handle := by
  rw [release, if_pos (Registry.mem_contents.mp h), registry_note,
    Registry.contents_erase]

theorem size_release {handle : Address} {s : Session}
    (h : handle ∈ s.registry.contents) :
    (s.release settings handle).2.registry.size + 1 = s.registry.size := by
  rw [release, if_pos (Registry.mem_contents.mp h), registry_note,
    Registry.size_erase h]

@[simp]
theorem issued_release (handle : Address) (s : Session) :
    (s.release settings handle).2.registry.issued = s.registry.issued := by
  unfold release
  split
  · rw [registry_note]
    rfl
  · rfl

end Session
end ColumnBridge
