import ColumnBridge.Proofs.Handle.Ownership

/-!
# The life of registered objects

An object lives as long as it has an owner: the registry, or a reference that
was kept from a look-up.  `Custody.accounted` describes every state that a
registry can come to by operations on handles and on kept references, in any
order and on any handles.  An object is destroyed exactly once, as soon as it
has no owner left; until then every reference to it shows it unchanged.  A
destructor that a release runs finds the lock free and the entry of its object
gone, so that it may ask the registry for its size.
-/

namespace ColumnBridge
namespace Custody

/-! ## Operations in terms of sessions -/

variable {settings : Settings} {allocate : Allocator} {c : Custody}
  {handle : Address}

theorem unlock_of_free (h : c.locked = false) : c.unlock = c := by
  obtain ⟨session, locked, owners, kept, destroyed⟩ := c
  subst h
  rfl

@[simp]
theorem session_drop (object : Object) :
    (c.drop handle object).session = c.session := by
  rw [drop]
  split <;> rfl

@[simp]
theorem locked_drop (object : Object) :
    (c.drop handle object).locked = c.locked := by
  rw [drop]
  split <;> rfl

@[simp]
theorem kept_drop (object : Object) : (c.drop handle object).kept = c.kept := by
  rw [drop]
  split <;> rfl

/-- Dropping a reference that was just taken undoes taking it. -/
theorem drop_retain (object : Object) (h : c.owners handle ≠ 0) :
    (c.retain handle).drop handle object = c := by
  have howners : (c.retain handle).owners handle - 1 = c.owners handle := by
    rw [retain, owners_setOwners_self, Nat.add_sub_cancel]
  rw [drop_of_shared object (by rwa [howners]), howners]
  have hsame : (fun a => if a = handle then c.owners handle
      else (c.retain handle).owners a) =
      c.owners := by
    funext other
    by_cases heq : other = handle
    · rw [if_pos heq, heq]
    · rw [if_neg heq]
      exact owners_setOwners_of_ne c _ heq
  rw [setOwners, hsame]
  rfl

theorem dropKept_of_none {number : Nat} (h : c.kept? number = none) :
    c.dropKept number = (false, c) := by
  rw [dropKept, h]

theorem dropKept_of_some {number : Nat} {reference : Kept}
    (h : c.kept? number = some reference) :
    c.dropKept number =
      (true, { c with kept := c.kept.filter (·.number ≠ number) }.drop
        reference.handle reference.object) := by
  rw [dropKept, h]

@[simp]
theorem session_dropKept (number : Nat) :
    (c.dropKept number).2.session = c.session := by
  rcases h : c.kept? number with _ | reference
  · rw [dropKept_of_none h]
  · rw [dropKept_of_some h, session_drop]

@[simp]
theorem locked_dropKept (number : Nat) :
    (c.dropKept number).2.locked = c.locked := by
  rcases h : c.kept? number with _ | reference
  · rw [dropKept_of_none h]
  · rw [dropKept_of_some h, locked_drop]

theorem kept_dropKept (number : Nat) :
    (c.dropKept number).2.kept = c.kept.filter (·.number ≠ number) := by
  rcases h : c.kept? number with _ | reference
  · rw [dropKept_of_none h, List.filter_eq_self.mpr]
    intro reference hmem
    have hno := List.find?_eq_none.mp h reference hmem
    simpa using hno
  · rw [dropKept_of_some h, kept_drop]

@[simp]
theorem session_keep (reference : Kept) :
    (c.keep reference).session = c.session :=
  session_dropKept reference.number

@[simp]
theorem locked_keep (reference : Kept) : (c.keep reference).locked = c.locked :=
  locked_dropKept reference.number

theorem kept_keep (reference : Kept) :
    (c.keep reference).kept =
      reference :: c.kept.filter (·.number ≠ reference.number) :=
  congrArg (reference :: ·) (kept_dropKept reference.number)

@[simp]
theorem session_get (kind : Kind) (number : Option Nat) :
    (c.get kind handle number).2.session = c.session := by
  rw [get]
  split
  · rfl
  · split
    · exact session_drop _
    · split
      · exact session_drop _
      · exact session_keep _

theorem get_of_none (hfree : c.locked = false) (kind : Kind)
    (number : Option Nat) (h : c.session.registry.lookup? handle = none) :
    c.get kind handle number = (.error (.unknownHandle handle), c) := by
  have hsession : c.lock.session = c.session := rfl
  rw [get, hsession, h]
  exact congrArg (Prod.mk _) (unlock_of_free hfree)

theorem get_of_some (hfree : c.locked = false) (kind : Kind)
    (number : Option Nat) {object : Object}
    (h : c.session.registry.lookup? handle = some object) :
    c.get kind handle number =
      match object.as? kind with
      | none =>
          (.error (.wrongKind handle kind.typeName),
            (c.retain handle).drop handle object)
      | some value =>
        match number with
        | none => (.ok value, (c.retain handle).drop handle object)
        | some number =>
            (.ok value, (c.retain handle).keep ⟨number, handle, object⟩) := by
  have hsession : c.lock.session = c.session := rfl
  have hretain : (c.lock.retain handle).unlock = c.retain handle :=
    unlock_of_free (c := c.retain handle) hfree
  rw [get, hsession, h]
  rcases hvalue : object.as? kind with _ | value
  · simp only [hretain, hvalue]
  · rcases number with _ | number
    · simp only [hretain, hvalue]
    · simp only [hretain, hvalue]

@[simp]
theorem session_release :
    (c.release settings handle).2.session =
      (c.session.release settings handle).2 := by
  rw [release]
  rcases c.lock.session.registry.lookup? handle with _ | object
  · rfl
  · exact session_drop object

theorem mem_contents_iff_lookup :
    handle ∈ c.session.registry.contents ↔
      ∃ object, c.session.registry.lookup? handle = some object := by
  simp only [Finmap.mem_iff, Registry.lookup_contents]

theorem release_of_none (hfree : c.locked = false)
    (h : c.session.registry.lookup? handle = none) :
    c.release settings handle = (.error (.unknownHandle handle), c) := by
  have hdead : handle ∉ c.session.registry.contents := by
    rw [← Finmap.lookup_eq_none, Registry.lookup_contents, h]
  have hsession : c.lock.session = c.session := rfl
  rw [release, hsession, h, Session.release_of_notMem settings hdead]
  exact congrArg (Prod.mk _) (unlock_of_free hfree)

theorem release_of_some (hfree : c.locked = false) {object : Object}
    (h : c.session.registry.lookup? handle = some object) :
    c.release settings handle =
      (.ok (), { c with session := (c.session.release settings handle).2 }.drop
        handle object) := by
  have hlive := mem_contents_iff_lookup.mpr ⟨object, h⟩
  have hsession : c.lock.session = c.session := rfl
  have hunlock :
      { c.lock with session := (c.session.release settings handle).2 }.unlock =
      { c with session := (c.session.release settings handle).2 } :=
    unlock_of_free
      (c := { c with session := (c.session.release settings handle).2 }) hfree
  rw [release, hsession, h]
  simp only [hunlock, Session.release_of_mem settings hlive]

/-! ## The books after an operation -/

namespace Balanced

variable {adopted : List (Address × Object)} {inHand : List Address}

theorem dropKept (h : c.Balanced adopted inHand) (hfree : c.locked = false)
    (number : Nat) : (c.dropKept number).2.Balanced adopted inHand := by
  rcases hkept : c.kept? number with _ | reference
  · rw [dropKept_of_none hkept]
    exact h
  · rw [dropKept_of_some hkept]
    obtain ⟨hnumber, before, after, hsplit, hbefore⟩ :=
      List.find?_eq_some_iff_append.mp hkept
    have hnumber : reference.number = number := by simpa using hnumber
    -- The numbers are distinct, so no later reference is kept under this one
    -- either.
    have hafter : reference.number ∉ after.map Kept.number := by
      have hnumbers := h.numbers
      rw [hsplit, List.map_append, List.map_cons] at hnumbers
      exact (List.nodup_cons.mp hnumbers.of_append_right).1
    have hothers : c.kept.filter (·.number ≠ number) = before ++ after := by
      rw [hsplit, List.filter_append,
        List.filter_cons_of_neg (by simpa using hnumber)]
      congr 1
      · rw [List.filter_eq_self]
        intro other hmem
        simpa using hbefore other hmem
      · rw [List.filter_eq_self]
        intro other hmem
        have hne : other.number ≠ number := by
          rintro rfl
          exact hafter (hnumber ▸ List.mem_map_of_mem hmem)
        simpa using hne
    have hadopted := h.kept reference (by rw [hsplit]; simp)
    rw [hothers]
    exact (h.take hsplit).drop hfree hadopted

theorem keep {reference : Kept}
    (h : c.Balanced adopted (reference.handle :: inHand))
    (hfree : c.locked = false)
    (hadopted : (reference.handle, reference.object) ∈ adopted) :
    (c.keep reference).Balanced adopted inHand := by
  refine (h.dropKept hfree reference.number).put reference ?_ hadopted
  rw [kept_dropKept]
  intro hmem
  obtain ⟨other, hother, heq⟩ := List.mem_map.mp hmem
  have hne := (List.mem_filter.mp hother).2
  simp [heq] at hne

end Balanced

/-! ## Sequences of operations -/

/-- An operation on a registry and on the references kept from it. -/
inductive Operation where
  | adopt (object : Object)
  | get (kind : Kind) (handle : Address) (number : Option Nat)
  | dropKept (number : Nat)
  | release (handle : Address)
  | contains (handle : Address)
  | size

/-- Performs an operation, and says how the registry was accessed and what it
answered. -/
def Operation.perform (settings : Settings) (allocate : Allocator) :
    Operation → Custody → List Access × Custody
  | adopt object, c =>
    let (handle, c) := c.adopt settings allocate object
    ([.adopt object handle], c)
  | get kind handle number, c =>
    let (answer, c) := c.get kind handle number
    ([.fetch kind handle answer], c)
  | dropKept number, c => ([], (c.dropKept number).2)
  | release handle, c =>
    let (answer, c) := c.release settings handle
    ([.release handle answer], c)
  | contains _, c => ([], c)
  | size, c => ([], c)

/-- Performs operations one after the other. -/
def performAll (settings : Settings) (allocate : Allocator) :
    List Operation → Custody → List Access × Custody
  | [], c => ([], c)
  | operation :: rest, c =>
    let (accesses, c) := operation.perform settings allocate c
    let (others, c) := performAll settings allocate rest c
    (accesses ++ others, c)

/-- Between operations the lock is free, the registry records what happened, and
the books are balanced with nothing in hand. -/
structure Sound (allocate : Allocator) (accesses : List Access) (c : Custody) :
    Prop where
  free : c.locked = false
  records : c.session.Records allocate accesses
  balanced : c.Balanced (adoptions accesses) []

theorem sound_fresh (allocate : Allocator) : fresh.Sound allocate [] where
  free := rfl
  records := Session.records_fresh allocate
  balanced := balanced_fresh

namespace Sound

variable {accesses : List Access}

theorem owners_ne_zero (h : c.Sound allocate accesses) {object : Object}
    (hlookup : c.session.registry.lookup? handle = some object) :
    c.owners handle ≠ 0 := by
  have hlive : c.session.registry.contains handle = true := by
    rw [Registry.contains, hlookup]
    rfl
  rw [h.balanced.owners, holders, hlive, Bool.toNat_true]
  omega

/-- A look-up answers what the registry holds.  Only one that succeeds and whose
reference is kept changes anything. -/
theorem get_eq (h : c.Sound allocate accesses) (kind : Kind) (handle : Address)
    (number : Option Nat) :
    c.get kind handle number = (c.session.registry.fetch kind handle,
      match c.session.registry.fetch kind handle, number with
      | .ok value, some number =>
        (c.retain handle).keep ⟨number, handle, ⟨kind, value⟩⟩
      | _, _ => c) := by
  rcases hlookup : c.session.registry.lookup? handle with _ | ⟨found, value⟩
  · rw [get_of_none h.free kind number hlookup, Registry.fetch_of_none hlookup]
  · have hundone := drop_retain ⟨found, value⟩ (h.owners_ne_zero hlookup)
    rw [get_of_some h.free kind number hlookup]
    by_cases hkind : found = kind
    · subst hkind
      rw [Registry.fetch_eq_ok_iff.mpr hlookup, Object.as?_mk]
      rcases number with _ | number
      · rw [hundone]
      · rfl
    · rw [Registry.fetch_of_wrongKind hlookup hkind,
        Object.as?_eq_none hkind, hundone]

theorem adopt (h : c.Sound allocate accesses) (object : Object)
    (hdistinct : allocate.DistinctBelow
      (c.adopt settings allocate object).2.session.registry.issued) :
    (c.adopt settings allocate object).2.Sound allocate
      (accesses ++ [.adopt object (c.adopt settings allocate object).1]) := by
  have hdistinct : allocate.DistinctBelow (c.session.registry.issued + 1) := by
    rwa [← Session.issued_adopt settings allocate object]
  refine ⟨rfl, h.records.adopt object hdistinct, ?_⟩
  rw [adoptions_append]
  exact (h.balanced.register settings allocate object
    (h.records.notMem_handles hdistinct)).unlock

theorem dropKept (h : c.Sound allocate accesses) (number : Nat) :
    (c.dropKept number).2.Sound allocate accesses where
  free := by rw [locked_dropKept, h.free]
  records := by
    rw [session_dropKept]
    exact h.records
  balanced := h.balanced.dropKept h.free number

theorem get (h : c.Sound allocate accesses) (kind : Kind) (handle : Address)
    (number : Option Nat) :
    (c.get kind handle number).2.Sound allocate
      (accesses ++ [.fetch kind handle (c.get kind handle number).1]) := by
  have hrecords := h.records.fetch kind handle
  have hadoptions :
      adoptions (accesses ++
        [.fetch kind handle (c.session.registry.fetch kind handle)]) =
      adoptions accesses :=
    adoptions_concat_of_none accesses rfl
  rw [h.get_eq]
  rcases hfetch : c.session.registry.fetch kind handle with error | value
  · rw [hfetch] at hrecords hadoptions
    exact ⟨h.free, hrecords, hadoptions ▸ h.balanced⟩
  · rw [hfetch] at hrecords hadoptions
    rcases number with _ | number
    · exact ⟨h.free, hrecords, hadoptions ▸ h.balanced⟩
    · have hlookup := Registry.fetch_eq_ok_iff.mp hfetch
      have hlive :=
        Registry.mem_contents.mp (mem_contents_iff_lookup.mpr ⟨_, hlookup⟩)
      have hadopted := ((h.records.lookup _ _).mp hlookup).1
      refine ⟨?_, ?_, ?_⟩
      · exact (locked_keep _).trans h.free
      · rw [session_keep]
        exact hrecords
      · rw [hadoptions]
        exact (h.balanced.retain hlive).keep h.free hadopted

theorem release (h : c.Sound allocate accesses) (settings : Settings)
    (handle : Address) : (c.release settings handle).2.Sound allocate
      (accesses ++ [.release handle (c.release settings handle).1]) := by
  have hrecords : (c.session.release settings handle).2.Records allocate
      (accesses ++ [.release handle (c.session.release settings handle).1]) :=
    h.records.release handle
  have hadoptions : adoptions
      (accesses ++ [.release handle (c.session.release settings handle).1]) =
        adoptions accesses := adoptions_concat_of_none accesses rfl
  rcases hlookup : c.session.registry.lookup? handle with _ | object
  · have hdead : handle ∉ c.session.registry.contents := by
      rw [← Finmap.lookup_eq_none, Registry.lookup_contents, hlookup]
    rw [Session.release_of_notMem settings hdead] at hrecords hadoptions
    rw [release_of_none h.free hlookup]
    exact ⟨h.free, hrecords, hadoptions ▸ h.balanced⟩
  · have hlive := mem_contents_iff_lookup.mpr ⟨object, hlookup⟩
    rw [Session.release_of_mem settings hlive] at hrecords hadoptions
    rw [release_of_some h.free hlookup]
    refine ⟨(locked_drop object).trans h.free, ?_, ?_⟩
    · rw [session_drop]
      exact hrecords
    · rw [hadoptions]
      exact (h.balanced.erase settings hlive).drop h.free
        ((h.records.lookup _ _).mp hlookup).1

/-- Every operation leaves the account sound. -/
theorem perform (h : c.Sound allocate accesses) (operation : Operation)
    (hdistinct : allocate.DistinctBelow
      (operation.perform settings allocate c).2.session.registry.issued) :
    (operation.perform settings allocate c).2.Sound allocate
      (accesses ++ (operation.perform settings allocate c).1) := by
  rcases operation with object | ⟨kind, handle, number⟩ | number | handle |
    handle | _
  · exact h.adopt object hdistinct
  · exact h.get kind handle number
  · rw [Operation.perform, List.append_nil]
    exact h.dropKept number
  · exact h.release settings handle
  · rw [Operation.perform, List.append_nil]
    exact h
  · rw [Operation.perform, List.append_nil]
    exact h

end Sound

theorem issued_le_perform (operation : Operation) :
    c.session.registry.issued ≤
      (operation.perform settings allocate c).2.session.registry.issued := by
  rcases operation with object | ⟨kind, handle, number⟩ | number | handle |
    handle | _
  · change _ ≤ (c.session.adopt settings allocate object).2.registry.issued
    rw [Session.issued_adopt]
    exact Nat.le_succ _
  · rw [Operation.perform, session_get]
  · rw [Operation.perform, session_dropKept]
  · change _ ≤ (c.release settings handle).2.session.registry.issued
    rw [session_release, Session.issued_release]
  · exact Nat.le_refl _
  · exact Nat.le_refl _

theorem issued_le_performAll (operations : List Operation) :
    c.session.registry.issued ≤
      (performAll settings allocate
        operations c).2.session.registry.issued := by
  induction operations generalizing c with
  | nil => exact Nat.le_refl _
  | cons operation rest ih =>
      exact Nat.le_trans (issued_le_perform operation) ih

/-- Every sequence of operations leaves the account sound. -/
theorem Sound.performAll {accesses : List Access}
    (h : c.Sound allocate accesses) (operations : List Operation)
    (hdistinct : allocate.DistinctBelow
      (performAll settings allocate operations c).2.session.registry.issued) :
    (performAll settings allocate operations c).2.Sound allocate
      (accesses ++ (performAll settings allocate operations c).1) := by
  induction operations generalizing c accesses with
  | nil =>
      rw [Custody.performAll, List.append_nil]
      exact h
  | cons operation rest ih =>
      have hfirst :=
        h.perform operation (hdistinct.mono (issued_le_performAll rest))
      rw [Custody.performAll, ← List.append_assoc]
      exact ih hfirst hdistinct

/-! ## The account -/

/-- What is true of a registry and the references kept from it after the given
accesses. -/
structure Accounted (settings : Settings) (accesses : List Access)
    (c : Custody) : Prop where
  /-- The live handles are those that were handed out and not given up since. -/
  contains : ∀ handle, c.session.registry.contains handle = true ↔
    LiveAfter accesses handle
  size : c.session.registry.size + (releases accesses).length =
    (adoptions accesses).length
  /-- A look-up is answered as the accesses demand, and leaves the registry as
  it is. -/
  answered : ∀ kind handle number,
    (Access.fetch kind handle (c.get kind handle number).1).FollowsFrom
      accesses ∧
      (c.get kind handle number).2.session = c.session
  /-- A look-up that fails, or whose reference is not kept, changes nothing at
  all. -/
  discarded : ∀ kind handle number,
    number = none ∨ (∃ error, (c.get kind handle number).1 = .error error) →
      (c.get kind handle number).2 = c
  /-- A look-up that succeeds keeps its reference under the given number. -/
  stored : ∀ kind handle number value,
    (c.get kind handle (some number)).1 = .ok value →
    (c.get kind handle (some number)).2.kept =
      ⟨number, handle, ⟨kind, value⟩⟩ :: c.kept.filter (·.number ≠ number)
  /-- Every kept reference shows the object that was handed out under its
  handle. -/
  shown : ∀ reference ∈ c.kept, (reference.handle, reference.object) ∈
    adoptions accesses
  /-- An object was destroyed if and only if neither the registry nor a kept
  reference owns it. -/
  destroyed : ∀ handle object, (handle, object) ∈ adoptions accesses →
    ((∃ d ∈ c.destroyed, d.handle = handle ∧ d.object = object) ↔
      c.session.registry.contains handle = false ∧
        ∀ reference ∈ c.kept, reference.handle ≠ handle)
  /-- No object is destroyed twice, and no object that was not handed out. -/
  once : (c.destroyed.map Destruction.handle).Nodup
  adopted : ∀ d ∈ c.destroyed, (d.handle, d.object) ∈ adoptions accesses
  /-- Every destructor found the lock free. -/
  lockFree : ∀ d ∈ c.destroyed, d.lockFree = true
  /-- A release takes the entry of an object away and leaves the kept references
  alone.  If there is none to the object, its destructor runs, finds the lock
  free and counts the entries that remain. -/
  released : ∀ handle object, c.session.registry.lookup? handle = some object →
    (c.release settings handle).2.session.registry.contains handle = false ∧
      (c.release settings handle).2.session.registry.size + 1 =
        c.session.registry.size ∧
      (c.release settings handle).2.kept = c.kept ∧
      (c.release settings handle).2.destroyed =
        if handle ∈ c.kept.map Kept.handle then c.destroyed
        else c.destroyed ++
          [⟨handle, object, true,
            (c.release settings handle).2.session.registry.size⟩]

theorem Sound.destroyed_iff {accesses : List Access}
    (h : c.Sound allocate accesses) :
    handle ∈ c.destroyed.map Destruction.handle ↔
      handle ∈ (adoptions accesses).map Prod.fst ∧
        c.session.registry.contains handle = false ∧
          ∀ reference ∈ c.kept, reference.handle ≠ handle := by
  rw [h.balanced.destroyed, h.balanced.owners, holders]
  simp [List.count_eq_zero]

theorem Sound.destroyed_release {accesses : List Access}
    (h : c.Sound allocate accesses) {object : Object}
    (hlookup : c.session.registry.lookup? handle = some object) :
    (c.release settings handle).2.destroyed =
      if handle ∈ c.kept.map Kept.handle then c.destroyed
      else c.destroyed ++
        [⟨handle, object, true,
          (c.release settings handle).2.session.registry.size⟩] := by
  have hlive :=
    Registry.mem_contents.mp (mem_contents_iff_lookup.mpr ⟨object, hlookup⟩)
  have howners :
      c.owners handle = 1 + (c.kept.map Kept.handle).count handle := by
    rw [h.balanced.owners, holders, hlive]
    rfl
  rw [session_release, release_of_some h.free hlookup]
  by_cases hkept : handle ∈ c.kept.map Kept.handle
  · have hpos := List.count_pos_iff.mpr hkept
    rw [if_pos hkept, drop_of_shared object]
    · rfl
    · change c.owners handle - 1 ≠ 0
      omega
  · have hzero := List.count_eq_zero.mpr hkept
    rw [if_neg hkept, drop_of_last object]
    · simp only [h.free, Bool.not_false]
    · change c.owners handle - 1 = 0
      omega

theorem Sound.accounted {accesses : List Access} (h : c.Sound allocate accesses)
    (hdistinct : allocate.DistinctBelow c.session.registry.issued) :
    c.Accounted settings accesses where
  contains handle := by rw [h.records.liveAfter_iff, Registry.mem_contents]
  size := h.records.size
  answered kind handle number := by
    refine ⟨?_, session_get kind number⟩
    rw [h.get_eq]
    exact h.records.fetch_followsFrom kind handle
  discarded kind handle number hno := by
    rw [h.get_eq] at hno ⊢
    rcases hfetch : c.session.registry.fetch kind handle with error | value
    · rfl
    · rcases hno with rfl | ⟨error, herror⟩
      · rfl
      · cases hfetch.symm.trans herror
  stored kind handle number value hvalue := by
    rw [h.get_eq] at hvalue ⊢
    have hfetch : c.session.registry.fetch kind handle = .ok value := hvalue
    rw [hfetch]
    exact kept_keep _
  shown := h.balanced.kept
  destroyed handle object hadopted := by
    have hhandle : handle ∈ (adoptions accesses).map Prod.fst :=
      List.mem_map_of_mem hadopted
    refine Iff.trans ?_ (h.destroyed_iff.trans (and_iff_right hhandle))
    rw [List.mem_map]
    constructor
    · rintro ⟨d, hd, rfl, -⟩
      exact ⟨d, hd, rfl⟩
    · rintro ⟨d, hd, rfl⟩
      have hsame := List.inj_on_of_nodup_map (h.records.nodup_handles hdistinct)
        (h.balanced.objects d hd) hadopted rfl
      exact ⟨d, hd, rfl, congrArg Prod.snd hsame⟩
  once := h.balanced.once
  adopted := h.balanced.objects
  lockFree := h.balanced.lockFree
  released handle object hlookup := by
    have hlive := mem_contents_iff_lookup.mpr ⟨object, hlookup⟩
    refine ⟨?_, ?_, ?_, h.destroyed_release hlookup⟩
    · rw [session_release, ← Bool.not_eq_true, ← Registry.mem_contents,
        Session.contents_release settings hlive]
      exact fun hmem => (Finmap.mem_erase.mp hmem).1 rfl
    · rw [session_release]
      exact Session.size_release settings hlive
    · rw [release_of_some h.free hlookup, kept_drop]

/-- Whatever is done to a registry that starts empty and to the references kept
from it, the account is in order, as long as the allocator gives out no address
twice. -/
theorem accounted_performAll (settings : Settings) (allocate : Allocator)
    (operations : List Operation)
    (hdistinct : allocate.DistinctBelow
      (performAll settings allocate
      operations fresh).2.session.registry.issued) :
    (performAll settings allocate operations fresh).2.Accounted settings
      (performAll settings allocate operations fresh).1 :=
  ((sound_fresh allocate).performAll operations hdistinct).accounted hdistinct

/-- An allocator that gives out every eighth address. -/
def sampleAddresses : Allocator := fun n => ⟨.ofNat (8 * (n + 1))⟩

/-- Operations that keep a text, look for it as a table in vain, give its handle
up, and drop it at last. -/
def sampleOperations : List Operation :=
  [.adopt ⟨.text, "kept"⟩, .get .text ⟨8⟩ (some 0), .get .table ⟨8⟩ (some 1),
    .release ⟨8⟩, .get .text ⟨8⟩ none, .adopt ⟨.integer, 7⟩, .release ⟨16⟩,
    .dropKept 0]

theorem accounted_sampleOperations :
    sampleAddresses.DistinctBelow
        (performAll ⟨false, 4096⟩ sampleAddresses sampleOperations
          fresh).2.session.registry.issued ∧
      (performAll ⟨false, 4096⟩ sampleAddresses
        sampleOperations fresh).2.Accounted ⟨false, 4096⟩
        (performAll ⟨false, 4096⟩ sampleAddresses sampleOperations fresh).1 :=
  have hdistinct : sampleAddresses.DistinctBelow
      (performAll ⟨false, 4096⟩ sampleAddresses sampleOperations
        fresh).2.session.registry.issued := by
    decide +kernel
  ⟨hdistinct, accounted_performAll _ _ _ hdistinct⟩

/-- The integer goes with its handle, the text only with the reference to it. -/
example : (performAll ⟨false, 4096⟩ sampleAddresses
      sampleOperations fresh).2.destroyed.map
    (fun d => (d.handle, d.lockFree, d.remaining)) =
      [(⟨16⟩, true, 0), (⟨8⟩, true, 0)] := by
  decide +kernel

end Custody
end ColumnBridge
