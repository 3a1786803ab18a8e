import ColumnBridge.Handle.Custody
import ColumnBridge.Proofs.Handle.History

/-!
# Counting owners

The owners of an object are the registry, while the object's handle is live, and
the references to it.  A reference is kept under a number or, in the middle of
an operation, still in hand: a look-up takes a reference before it knows whether
it will be kept, and a release takes the registry's own.  `Custody.Balanced`
says that the books agree with this, and that exactly the objects without an
owner were destroyed.  It survives every single movement of a reference, from
which the operations are put together.
-/

namespace ColumnBridge
namespace Custody

/-- The number of owners that an object should have, given the references in
hand. -/
def holders (c : Custody) (inHand : List Address) (handle : Address) : Nat :=
  (c.session.registry.contains handle).toNat +
    (c.kept.map Kept.handle).count handle + inHand.count handle

/-- The books agree with the references to the objects that were handed out. -/
structure Balanced (adopted : List (Address × Object)) (inHand : List Address)
    (c : Custody) : Prop where
  owners : ∀ handle, c.owners handle = c.holders inHand handle
  kept : ∀ reference ∈ c.kept, (reference.handle, reference.object) ∈ adopted
  numbers : (c.kept.map Kept.number).Nodup
  destroyed : ∀ handle, handle ∈ c.destroyed.map Destruction.handle ↔
    handle ∈ adopted.map Prod.fst ∧ c.owners handle = 0
  once : (c.destroyed.map Destruction.handle).Nodup
  objects : ∀ d ∈ c.destroyed, (d.handle, d.object) ∈ adopted
  lockFree : ∀ d ∈ c.destroyed, d.lockFree = true

theorem balanced_fresh : fresh.Balanced [] [] where
  owners _ := rfl
  kept := nofun
  numbers := List.nodup_nil
  destroyed := by simp [fresh]
  once := List.nodup_nil
  objects := nofun
  lockFree := nofun

@[simp]
theorem owners_setOwners_self (c : Custody) (handle : Address) (count : Nat) :
    (c.setOwners handle count).owners handle = count :=
  if_pos rfl

theorem owners_setOwners_of_ne (c : Custody) {handle other : Address}
    (count : Nat) (h : other ≠ handle) :
    (c.setOwners handle count).owners other = c.owners other :=
  if_neg h

@[simp]
theorem holders_setOwners (c : Custody) (inHand : List Address)
    (handle other : Address) (count : Nat) :
    (c.setOwners handle count).holders inHand other = c.holders inHand other :=
  rfl

theorem drop_of_shared {c : Custody} {handle : Address} (object : Object)
    (h : c.owners handle - 1 ≠ 0) :
    c.drop handle object = c.setOwners handle (c.owners handle - 1) := by
  rw [drop]
  exact if_neg (by rwa [owners_setOwners_self])

theorem drop_of_last {c : Custody} {handle : Address} (object : Object)
    (h : c.owners handle - 1 = 0) :
    c.drop handle object =
      { c.setOwners handle 0 with
        destroyed := c.destroyed ++
          [⟨handle, object, !c.locked, c.session.registry.size⟩] } := by
  rw [drop, h]
  exact if_pos (owners_setOwners_self c handle 0)

namespace Balanced

variable {adopted : List (Address × Object)} {inHand : List Address}
  {c : Custody} {handle : Address}

theorem lock (h : c.Balanced adopted inHand) : c.lock.Balanced adopted inHand :=
  ⟨h.owners, h.kept, h.numbers, h.destroyed, h.once, h.objects, h.lockFree⟩

theorem unlock (h : c.Balanced adopted inHand) :
    c.unlock.Balanced adopted inHand :=
  ⟨h.owners, h.kept, h.numbers, h.destroyed, h.once, h.objects, h.lockFree⟩

/-- A reference to a registered object is taken in hand. -/
theorem retain (h : c.Balanced adopted inHand)
    (hlive : c.session.registry.contains handle = true) :
    (c.retain handle).Balanced adopted (handle :: inHand) := by
  have hpos : c.owners handle ≠ 0 := by
    rw [h.owners, holders, hlive, Bool.toNat_true]
    omega
  constructor
  · intro other
    by_cases heq : other = handle
    · subst heq
      rw [Custody.retain, owners_setOwners_self, holders_setOwners, h.owners,
        holders, holders, List.count_cons_self]
      rfl
    · rw [Custody.retain, owners_setOwners_of_ne c _ heq, holders_setOwners,
        h.owners, holders, holders, List.count_cons_of_ne (Ne.symm heq)]
  · exact h.kept
  · exact h.numbers
  · intro other
    by_cases heq : other = handle
    · subst heq
      rw [Custody.retain, owners_setOwners_self]
      refine (h.destroyed other).trans ?_
      simp [hpos]
    · rw [Custody.retain, owners_setOwners_of_ne c _ heq]
      exact h.destroyed other
  · exact h.once
  · exact h.objects
  · exact h.lockFree

/-- A reference in hand is dropped while the lock is free. -/
theorem drop (h : c.Balanced adopted (handle :: inHand))
    (hfree : c.locked = false) {object : Object}
    (hadopted : (handle, object) ∈ adopted) :
    (c.drop handle object).Balanced adopted inHand := by
  have hcount : c.owners handle = c.holders inHand handle + 1 := by
    rw [h.owners, holders, holders, List.count_cons_self]
    rfl
  have hothers :
      ∀ other, other ≠ handle → c.owners other = c.holders inHand other := by
    intro other hne
    rw [h.owners, holders, holders, List.count_cons_of_ne hne.symm]
  have hnot : handle ∉ c.destroyed.map Destruction.handle := by
    rw [h.destroyed, hcount]
    simp
  by_cases hlast : c.owners handle - 1 = 0
  · rw [drop_of_last object hlast]
    constructor
    · intro other
      by_cases heq : other = handle
      · subst heq
        exact (owners_setOwners_self c other 0).trans
          (by rw [hcount] at hlast; exact hlast.symm)
      · exact (owners_setOwners_of_ne c 0 heq).trans (hothers other heq)
    · exact h.kept
    · exact h.numbers
    · intro other
      rw [List.map_append, List.mem_append, h.destroyed, List.map_singleton,
        List.mem_singleton]
      by_cases heq : other = handle
      · subst heq
        simp only [or_true, true_iff]
        exact ⟨List.mem_map_of_mem hadopted, owners_setOwners_self c other 0⟩
      · have hsame := owners_setOwners_of_ne c 0 heq
        simp only [heq, or_false, hsame]
    · rw [List.map_append, List.map_singleton, ← List.concat_eq_append]
      exact h.once.concat hnot
    · intro d hd
      rcases List.mem_append.mp hd with hd | hd
      · exact h.objects d hd
      · rw [List.mem_singleton.mp hd]
        exact hadopted
    · intro d hd
      rcases List.mem_append.mp hd with hd | hd
      · exact h.lockFree d hd
      · rw [List.mem_singleton.mp hd, hfree]
        rfl
  · rw [drop_of_shared object hlast]
    constructor
    · intro other
      by_cases heq : other = handle
      · subst heq
        rw [owners_setOwners_self, hcount]
        rfl
      · rw [owners_setOwners_of_ne c _ heq]
        exact hothers other heq
    · exact h.kept
    · exact h.numbers
    · intro other
      by_cases heq : other = handle
      · subst heq
        rw [owners_setOwners_self]
        simp only [hlast, and_false, iff_false]
        exact hnot
      · rw [owners_setOwners_of_ne c _ heq]
        exact h.destroyed other
    · exact h.once
    · exact h.objects
    · exact h.lockFree

/-- A kept reference is taken in hand. -/
theorem take (h : c.Balanced adopted inHand) {before after : List Kept}
    {reference : Kept} (hkept : c.kept = before ++ reference :: after) :
    { c with kept := before ++ after }.Balanced adopted
      (reference.handle :: inHand) := by
  have hsub : (before ++ after).Sublist c.kept := by
    rw [hkept]
    exact (List.Sublist.refl before).append
      (List.sublist_cons_self reference after)
  constructor
  · intro handle
    rw [holders]
    refine (h.owners handle).trans ?_
    rw [holders, hkept]
    simp only [List.map_append, List.map_cons, List.count_append,
      List.count_cons]
    omega
  · exact fun other hmem => h.kept other (hsub.subset hmem)
  · exact h.numbers.sublist (hsub.map Kept.number)
  · exact h.destroyed
  · exact h.once
  · exact h.objects
  · exact h.lockFree

/-- A reference in hand is kept under a number that is free. -/
theorem put (reference : Kept)
    (h : c.Balanced adopted (reference.handle :: inHand))
    (hnumber : reference.number ∉ c.kept.map Kept.number)
    (hadopted : (reference.handle, reference.object) ∈ adopted) :
    { c with kept := reference :: c.kept }.Balanced adopted inHand := by
  constructor
  · intro handle
    rw [holders]
    refine (h.owners handle).trans ?_
    rw [holders]
    simp only [List.map_cons, List.count_cons]
    omega
  · intro other hmem
    rcases List.mem_cons.mp hmem with rfl | hmem
    · exact hadopted
    · exact h.kept other hmem
  · exact List.nodup_cons.mpr ⟨hnumber, h.numbers⟩
  · exact h.destroyed
  · exact h.once
  · exact h.objects
  · exact h.lockFree

/-- The registry gives up an object, and its reference is taken in hand. -/
theorem erase (h : c.Balanced adopted inHand) (settings : Settings)
    (hlive : handle ∈ c.session.registry.contents) :
    { c with session := (c.session.release settings handle).2 }.Balanced adopted
      (handle :: inHand) := by
  have hcontains :
      ∀ other, (c.session.release settings handle).2.registry.contains other =
      (c.session.registry.contains other && other ≠ handle) := by
    intro other
    rw [Bool.eq_iff_iff, ← Registry.mem_contents,
      Session.contents_release settings hlive, Finmap.mem_erase,
      Registry.mem_contents]
    simp [and_comm]
  constructor
  · intro other
    rw [holders]
    refine (h.owners other).trans ?_
    rw [holders, hcontains]
    by_cases heq : other = handle
    · subst heq
      rw [Registry.mem_contents.mp hlive, List.count_cons_self]
      simp
      omega
    · rw [List.count_cons_of_ne (Ne.symm heq)]
      simp [heq]
  · exact h.kept
  · exact h.numbers
  · exact h.destroyed
  · exact h.once
  · exact h.objects
  · exact h.lockFree

/-- An object that is handed out under a new handle has the registry as its only
owner. -/
theorem register (h : c.Balanced adopted []) (settings : Settings)
    (allocate : Allocator) (object : Object)
    (hnew : allocate c.session.registry.issued ∉ adopted.map Prod.fst) :
    ({ c with session := (c.session.adopt settings allocate object).2
      }.setOwners (allocate c.session.registry.issued) 1).Balanced
        (adopted ++ [(allocate c.session.registry.issued, object)]) [] := by
  have hcontains : ∀ other,
      (c.session.adopt settings allocate object).2.registry.contains other =
      (c.session.registry.contains other || other =
        allocate c.session.registry.issued) := by
    intro other
    rw [Bool.eq_iff_iff, ← Registry.mem_contents, Session.contents_adopt,
      Finmap.mem_insert, Registry.mem_contents]
    simp [or_comm]
  constructor
  · intro other
    by_cases heq : other = allocate c.session.registry.issued
    · subst heq
      have hcount : (c.kept.map Kept.handle).count
          (allocate c.session.registry.issued) = 0 := by
        rw [List.count_eq_zero]
        intro hmem
        obtain ⟨reference, hreference, heq⟩ := List.mem_map.mp hmem
        rw [← heq] at hnew
        exact hnew (List.mem_map_of_mem (h.kept reference hreference))
      rw [owners_setOwners_self, holders_setOwners, holders, hcontains, hcount]
      simp
    · rw [owners_setOwners_of_ne _ _ heq, holders_setOwners, holders, hcontains]
      refine (h.owners other).trans ?_
      simp [holders, heq]
  · intro reference hreference
    exact List.mem_append_left _ (h.kept reference hreference)
  · exact h.numbers
  · intro other
    rw [List.map_append, List.mem_append, List.map_singleton,
      List.mem_singleton]
    refine (h.destroyed other).trans ?_
    by_cases heq : other = allocate c.session.registry.issued
    · subst heq
      rw [owners_setOwners_self]
      simp [hnew]
    · rw [owners_setOwners_of_ne _ _ heq]
      simp [heq]
  · exact h.once
  · intro d hd
    exact List.mem_append_left _ (h.objects d hd)
  · exact h.lockFree

end Balanced
end Custody
end ColumnBridge
