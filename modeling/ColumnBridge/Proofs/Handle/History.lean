import ColumnBridge.Proofs.Handle.Contents

/-!
# Histories of a registry

Whoever accesses a registry sees one answer at a time.  The accesses with their
answers, in the order in which the registry served them, determine everything
about it: which objects it holds, how many they are, and what the next access
will be answered.  `Session.Records` says how, for a registry that started
empty; it holds of every history in which no address is handed out twice,
whoever made the accesses and for whatever reason.
-/

namespace ColumnBridge

/-! ## Accesses and their answers -/

/-- An access to a registry, with the answer that it was given. -/
inductive Access where
  | adopt (object : Object) (handle : Address)
  | fetch (kind : Kind) (handle : Address) (answer : Except Error kind.Carrier)
  | release (handle : Address) (answer : Except Error Unit)

namespace Access

/-- The object that an access handed out, under its handle. -/
def adopted? : Access → Option (Address × Object)
  | adopt object handle => some (handle, object)
  | _ => none

/-- The handle that an access gave up. -/
def released? : Access → Option Address
  | release handle (.ok ()) => some handle
  | _ => none

end Access

/-- The objects that were handed out, under their handles. -/
def adoptions (accesses : List Access) : List (Address × Object) :=
  accesses.filterMap Access.adopted?

/-- The handles that were given up. -/
def releases (accesses : List Access) : List Address :=
  accesses.filterMap Access.released?

theorem adoptions_append (before after : List Access) :
    adoptions (before ++ after) = adoptions before ++ adoptions after :=
  List.filterMap_append

theorem releases_append (before after : List Access) :
    releases (before ++ after) = releases before ++ releases after :=
  List.filterMap_append

theorem adoptions_concat_of_none {access : Access} (accesses : List Access)
    (h : access.adopted? = none) :
    adoptions (accesses ++ [access]) = adoptions accesses := by
  rw [adoptions_append, adoptions, adoptions, List.filterMap_cons_none h,
    List.filterMap_nil, List.append_nil]

theorem releases_concat_of_none {access : Access} (accesses : List Access)
    (h : access.released? = none) :
    releases (accesses ++ [access]) = releases accesses := by
  rw [releases_append, releases, releases, List.filterMap_cons_none h,
    List.filterMap_nil, List.append_nil]

namespace Session

variable (settings : Settings) (allocate : Allocator)

/-- An access that a session answers, and the session that it leaves. -/
inductive Answers : Session → Access → Session → Prop
  | adopt (s : Session) (object : Object) :
      Answers s (.adopt object (allocate s.registry.issued))
        (s.adopt settings allocate object).2
  | fetch (s : Session) (kind : Kind) (handle : Address) :
      Answers s (.fetch kind handle (s.registry.fetch kind handle)) s
  | release (s : Session) (handle : Address) :
      Answers s (.release handle (s.release settings handle).1)
        (s.release settings handle).2

/-- Accesses that a session answers one after the other, and the session that
they leave. -/
inductive AnswersAll : Session → List Access → Session → Prop
  | nil (s : Session) : AnswersAll s [] s
  | cons {s next last : Session} {access : Access} {accesses : List Access}
      (haccess : s.Answers settings allocate access next)
      (haccesses : AnswersAll next accesses last) :
        AnswersAll s (access :: accesses) last

variable {settings allocate} {s next last : Session}

theorem answersAll_append_iff {before after : List Access} :
    s.AnswersAll settings allocate (before ++ after) last ↔
      ∃ next, s.AnswersAll settings allocate before next ∧
        next.AnswersAll settings allocate after last := by
  induction before generalizing s with
  | nil =>
      constructor
      · intro h
        exact ⟨s, .nil s, h⟩
      · rintro ⟨_, ⟨⟩, h⟩
        exact h
  | cons access before ih =>
      constructor
      · rintro (_ | ⟨haccess, haccesses⟩)
        obtain ⟨next, hbefore, hafter⟩ := ih.mp haccesses
        exact ⟨next, .cons haccess hbefore, hafter⟩
      · rintro ⟨next, _ | ⟨haccess, hbefore⟩, hafter⟩
        exact .cons haccess (ih.mpr ⟨next, hbefore, hafter⟩)

theorem AnswersAll.single {access : Access}
    (h : s.Answers settings allocate access next) :
    s.AnswersAll settings allocate [access] next :=
  .cons h (.nil next)

theorem Answers.issued_le {access : Access}
    (h : s.Answers settings allocate access next) :
    s.registry.issued ≤ next.registry.issued := by
  rcases h with _ | _ | _
  · rw [issued_adopt]
    exact Nat.le_succ _
  · exact Nat.le_refl _
  · rw [issued_release]

theorem AnswersAll.issued_le {accesses : List Access}
    (h : s.AnswersAll settings allocate accesses last) :
    s.registry.issued ≤ last.registry.issued := by
  induction h with
  | nil => exact Nat.le_refl _
  | cons haccess _ ih => exact Nat.le_trans haccess.issued_le ih

end Session

/-- The addresses that an allocator gives out first do not repeat. -/
def Allocator.DistinctBelow (allocate : Allocator) (count : Nat) : Prop :=
  ∀ n < count, ∀ earlier < n, allocate earlier ≠ allocate n

instance (allocate : Allocator) (count : Nat) :
    Decidable (allocate.DistinctBelow count) :=
  inferInstanceAs (Decidable (∀ n < count, ∀ earlier < n, _))

theorem Allocator.DistinctBelow.mono {allocate : Allocator} {count other : Nat}
    (h : allocate.DistinctBelow count) (hle : other ≤ count) :
    allocate.DistinctBelow other :=
  fun n hn => h n (Nat.lt_of_lt_of_le hn hle)

theorem Allocator.DistinctBelow.nodup {allocate : Allocator} {count : Nat}
    (h : allocate.DistinctBelow count) :
    ((List.range count).map allocate).Nodup := by
  refine List.Nodup.map_on ?_ List.nodup_range
  intro n hn m hm heq
  rw [List.mem_range] at hn hm
  rcases Nat.lt_trichotomy n m with hlt | rfl | hlt
  · exact absurd heq (h m hm n hlt)
  · rfl
  · exact absurd heq.symm (h n hn m hlt)

/-! ## What a history records -/

namespace Session

/-- A registry holds what was handed out and not given up, each object under the
handle that it was handed out under.  Only handles that were handed out are
given up, and none of them twice. -/
structure Records (allocate : Allocator) (accesses : List Access)
    (s : Session) : Prop where
  handles : (adoptions accesses).map Prod.fst =
    (List.range s.registry.issued).map allocate
  lookup : ∀ handle object, s.registry.lookup? handle = some object ↔
    (handle, object) ∈ adoptions accesses ∧ handle ∉ releases accesses
  released :
    ∀ handle ∈ releases accesses, handle ∈ (adoptions accesses).map Prod.fst
  nodup_releases : (releases accesses).Nodup
  size : s.registry.size + (releases accesses).length =
    (adoptions accesses).length

variable {settings : Settings} {allocate : Allocator} {s next : Session}
  {accesses : List Access}

theorem records_fresh (allocate : Allocator) :
    Session.fresh.Records allocate [] where
  handles := rfl
  lookup := by simp [Session.fresh, adoptions]
  released := by simp [releases]
  nodup_releases := List.nodup_nil
  size := rfl

namespace Records

theorem nodup_handles (h : s.Records allocate accesses)
    (hdistinct : allocate.DistinctBelow s.registry.issued) :
    ((adoptions accesses).map Prod.fst).Nodup := by
  rw [h.handles]
  exact hdistinct.nodup

theorem mem_contents_iff (h : s.Records allocate accesses) {handle : Address} :
    handle ∈ s.registry.contents ↔
      handle ∈ (adoptions accesses).map Prod.fst ∧
        handle ∉ releases accesses := by
  rw [Finmap.mem_iff, List.mem_map]
  simp only [Registry.lookup_contents, h.lookup]
  constructor
  · rintro ⟨object, hadopted, hreleased⟩
    exact ⟨⟨_, hadopted, rfl⟩, hreleased⟩
  · rintro ⟨⟨⟨_, object⟩, hadopted, rfl⟩, hreleased⟩
    exact ⟨object, hadopted, hreleased⟩

/-- An address that is handed out for the first time is the handle of no other
object. -/
theorem notMem_handles (h : s.Records allocate accesses)
    (hdistinct : allocate.DistinctBelow (s.registry.issued + 1)) :
    allocate s.registry.issued ∉ (adoptions accesses).map Prod.fst := by
  rw [h.handles]
  intro hmem
  obtain ⟨n, hn, heq⟩ := List.mem_map.mp hmem
  exact hdistinct s.registry.issued (Nat.lt_succ_self _) n
    (List.mem_range.mp hn) heq

theorem adopt (h : s.Records allocate accesses) (object : Object)
    (hdistinct : allocate.DistinctBelow (s.registry.issued + 1)) :
    (s.adopt settings allocate object).2.Records allocate
      (accesses ++ [.adopt object (allocate s.registry.issued)]) := by
  -- A repeated address would revive a handle that was given up, and `releases`
  -- could not tell.
  have hfresh := h.notMem_handles hdistinct
  have hadoptions :
      adoptions (accesses ++ [.adopt object (allocate s.registry.issued)]) =
      adoptions accesses ++ [(allocate s.registry.issued, object)] :=
    adoptions_append _ _
  have hreleases :
      releases (accesses ++ [.adopt object (allocate s.registry.issued)]) =
      releases accesses := releases_concat_of_none accesses rfl
  have hlive : allocate s.registry.issued ∉ s.registry.contents := by
    rw [h.mem_contents_iff]
    exact fun hmem => hfresh hmem.1
  constructor
  · rw [hadoptions, List.map_append, h.handles, issued_adopt, List.range_succ,
      List.map_append]
    rfl
  · intro handle found
    rw [← Registry.lookup_contents, contents_adopt, hadoptions, hreleases,
      List.mem_append, List.mem_singleton]
    by_cases heq : handle = allocate s.registry.issued
    · subst heq
      rw [Finmap.lookup_insert]
      constructor
      · rintro ⟨⟩
        exact ⟨Or.inr rfl, fun hmem => hfresh (h.released _ hmem)⟩
      · rintro ⟨hmem | hmem, -⟩
        · exact absurd (List.mem_map_of_mem hmem) hfresh
        · exact congrArg some (congrArg Prod.snd hmem).symm
    · rw [Finmap.lookup_insert_of_ne _ heq, Registry.lookup_contents, h.lookup]
      have hne : (handle, found) ≠ (allocate s.registry.issued, object) :=
        fun hpair => heq (congrArg Prod.fst hpair)
      simp only [hne, or_false]
  · intro handle hmem
    rw [hreleases] at hmem
    rw [hadoptions, List.map_append]
    exact List.mem_append_left _ (h.released handle hmem)
  · rw [hreleases]
    exact h.nodup_releases
  · rw [hreleases, hadoptions, List.length_append,
      size_adopt settings allocate object hlive, ← h.size]
    exact Nat.add_right_comm _ _ _

theorem release (h : s.Records allocate accesses) (handle : Address) :
    (s.release settings handle).2.Records allocate
      (accesses ++ [.release handle (s.release settings handle).1]) := by
  have hadoptions :
      adoptions (accesses ++ [.release handle (s.release settings handle).1]) =
      adoptions accesses := adoptions_concat_of_none accesses rfl
  by_cases hlive : handle ∈ s.registry.contents
  · have hreleases :
        releases (accesses ++ [.release handle (s.release settings handle).1]) =
        releases accesses ++ [handle] := by
      rw [release_of_mem settings hlive]
      exact releases_append _ _
    obtain ⟨hadopted, hkept⟩ := h.mem_contents_iff.mp hlive
    constructor
    · rw [hadoptions, issued_release, h.handles]
    · intro other object
      rw [← Registry.lookup_contents, contents_release settings hlive,
        hadoptions, hreleases, List.mem_append, List.mem_singleton, not_or]
      by_cases heq : other = handle
      · subst heq
        rw [Finmap.lookup_erase]
        simp
      · rw [Finmap.lookup_erase_ne heq, Registry.lookup_contents, h.lookup]
        simp only [heq, not_false_eq_true, and_true]
    · intro other hmem
      rw [hreleases, List.mem_append, List.mem_singleton] at hmem
      rw [hadoptions]
      rcases hmem with hmem | rfl
      · exact h.released other hmem
      · exact hadopted
    · rw [hreleases, ← List.concat_eq_append]
      exact h.nodup_releases.concat hkept
    · rw [hadoptions, hreleases, List.length_append, List.length_singleton,
        ← h.size, ← size_release settings hlive]
      omega
  · have hreleases :
        releases (accesses ++ [.release handle (s.release settings handle).1]) =
        releases accesses := by
      rw [release_of_notMem settings hlive]
      exact releases_concat_of_none accesses rfl
    have hsame : (s.release settings handle).2 = s := by
      rw [release_of_notMem settings hlive]
    constructor
    · rw [hadoptions, hsame, h.handles]
    · rw [hadoptions, hreleases, hsame]
      exact h.lookup
    · rw [hadoptions, hreleases]
      exact h.released
    · rw [hreleases]
      exact h.nodup_releases
    · rw [hadoptions, hreleases, hsame]
      exact h.size

theorem fetch (h : s.Records allocate accesses) (kind : Kind)
    (handle : Address) :
    s.Records allocate
      (accesses ++ [.fetch kind handle (s.registry.fetch kind handle)]) := by
  have hadoptions : adoptions
      (accesses ++ [.fetch kind handle (s.registry.fetch kind handle)]) =
      adoptions accesses := adoptions_concat_of_none accesses rfl
  have hreleases : releases
      (accesses ++ [.fetch kind handle (s.registry.fetch kind handle)]) =
      releases accesses := releases_concat_of_none accesses rfl
  constructor
  · rw [hadoptions, h.handles]
  · rw [hadoptions, hreleases]
    exact h.lookup
  · rw [hadoptions, hreleases]
    exact h.released
  · rw [hreleases]
    exact h.nodup_releases
  · rw [hadoptions, hreleases]
    exact h.size

/-- A registry that records a history records what it answers to the next
access. -/
theorem answers (h : s.Records allocate accesses) {access : Access}
    (hanswers : s.Answers settings allocate access next)
    (hdistinct : allocate.DistinctBelow next.registry.issued) :
    next.Records allocate (accesses ++ [access]) := by
  rcases hanswers with object | ⟨kind, handle⟩ | handle
  · rw [issued_adopt] at hdistinct
    exact h.adopt object hdistinct
  · exact h.fetch kind handle
  · exact h.release handle

end Records

/-- A registry that starts empty records every history in which no address is
handed out twice. -/
theorem AnswersAll.records
    (h : Session.fresh.AnswersAll settings allocate accesses s)
    (hdistinct : allocate.DistinctBelow s.registry.issued) :
      s.Records allocate accesses := by
  induction accesses using List.reverseRecOn generalizing s with
  | nil =>
      rcases h with _ | _
      exact records_fresh allocate
  | append_singleton accesses access ih =>
      obtain ⟨middle, hbefore, _ | ⟨hlast, ⟨⟩⟩⟩ := answersAll_append_iff.mp h
      exact (ih hbefore (hdistinct.mono hlast.issued_le)).answers hlast
        hdistinct

end Session

/-! ## Answers that follow from a history -/

/-- A handle was handed out, and not given up. -/
def LiveAfter (accesses : List Access) (handle : Address) : Prop :=
  handle ∈ (adoptions accesses).map Prod.fst ∧ handle ∉ releases accesses

/-- An access was answered as those before it demand.  A handle is new.  A
look-up answers with the object that was handed out under the handle, unless the
handle is not live or the object is not of the expected kind.  A handle is given
up if it is live. -/
def Access.FollowsFrom (before : List Access) : Access → Prop
  | adopt _ handle => handle ∉ (adoptions before).map Prod.fst
  | fetch kind handle answer =>
    (∀ value, answer = .ok value ↔
      (handle, ⟨kind, value⟩) ∈ adoptions before ∧ LiveAfter before handle) ∧
    (answer = .error (.wrongKind handle kind.typeName) ↔
      ∃ object, (handle, object) ∈ adoptions before ∧ LiveAfter before handle ∧
        object.kind ≠ kind) ∧
    (answer = .error (.unknownHandle handle) ↔ ¬ LiveAfter before handle)
  | release handle answer =>
    (answer = .ok () ↔ LiveAfter before handle) ∧
    (answer = .error (.unknownHandle handle) ↔ ¬ LiveAfter before handle)

namespace Session

variable {settings : Settings} {allocate : Allocator} {s next : Session}
  {accesses : List Access}

namespace Records

theorem liveAfter_iff (h : s.Records allocate accesses) {handle : Address} :
    LiveAfter accesses handle ↔ handle ∈ s.registry.contents :=
  h.mem_contents_iff.symm

theorem liveAfter_of_lookup (h : s.Records allocate accesses) {handle : Address}
    {object : Object} (hlookup : s.registry.lookup? handle = some object) :
    LiveAfter accesses handle := by
  obtain ⟨hadopted, hreleased⟩ := (h.lookup handle object).mp hlookup
  exact ⟨List.mem_map_of_mem hadopted, hreleased⟩

theorem lookup_iff (h : s.Records allocate accesses) {handle : Address}
    {object : Object} : s.registry.lookup? handle = some object ↔
      (handle, object) ∈ adoptions accesses ∧ LiveAfter accesses handle := by
  constructor
  · intro hlookup
    exact ⟨((h.lookup handle object).mp hlookup).1,
      h.liveAfter_of_lookup hlookup⟩
  · rintro ⟨hadopted, -, hreleased⟩
    exact (h.lookup handle object).mpr ⟨hadopted, hreleased⟩

theorem wrongKind_ne_unknownHandle (kind : Kind) (handle other : Address) :
    Error.wrongKind handle kind.typeName ≠ .unknownHandle other := nofun

theorem fetch_followsFrom (h : s.Records allocate accesses) (kind : Kind)
    (handle : Address) :
    (Access.fetch kind handle (s.registry.fetch kind handle)).FollowsFrom
      accesses := by
  refine ⟨fun value => Registry.fetch_eq_ok_iff.trans h.lookup_iff, ?_⟩
  rcases hlookup : s.registry.lookup? handle with _ | object
  · have hdead : ¬ LiveAfter accesses handle := by
      rw [h.liveAfter_iff, ← Finmap.lookup_eq_none,
        Registry.lookup_contents, hlookup]
    rw [Registry.fetch_of_none hlookup]
    simp [hdead, (wrongKind_ne_unknownHandle kind handle handle).symm]
  · have hlive : LiveAfter accesses handle := h.liveAfter_of_lookup hlookup
    have hobject : ∀ other, (handle, other) ∈ adoptions accesses ↔
        other = object := by
      intro other
      rw [← and_iff_left (a := (handle, other) ∈ _) hlive,
        ← h.lookup_iff, hlookup]
      exact ⟨fun heq => (Option.some.inj heq).symm, fun heq =>
        congrArg some heq.symm⟩
    by_cases hkind : object.kind = kind
    · obtain ⟨found, value⟩ := object
      obtain rfl : found = kind := hkind
      rw [Registry.fetch_eq_ok_iff.mpr hlookup]
      simp [hlive, hobject]
    · rw [Registry.fetch_of_wrongKind hlookup hkind]
      simp [hlive, hobject, hkind, wrongKind_ne_unknownHandle]

theorem release_followsFrom (h : s.Records allocate accesses)
    (handle : Address) :
    (Access.release handle (s.release settings handle).1).FollowsFrom
      accesses := by
  by_cases hlive : handle ∈ s.registry.contents
  · rw [release_of_mem settings hlive]
    simp [Access.FollowsFrom, h.liveAfter_iff, hlive]
  · rw [release_of_notMem settings hlive]
    simp [Access.FollowsFrom, h.liveAfter_iff, hlive]

theorem followsFrom (h : s.Records allocate accesses) {access : Access}
    (hanswers : s.Answers settings allocate access next)
    (hdistinct : allocate.DistinctBelow next.registry.issued) :
    access.FollowsFrom accesses := by
  rcases hanswers with object | ⟨kind, handle⟩ | handle
  · rw [issued_adopt] at hdistinct
    exact h.notMem_handles hdistinct
  · exact h.fetch_followsFrom kind handle
  · exact h.release_followsFrom handle

end Records

/-- Every access to a registry that starts empty is answered as those before it
demand. -/
theorem AnswersAll.followsFrom {before after : List Access} {access : Access}
    (h : Session.fresh.AnswersAll settings allocate
      (before ++ access :: after) s)
    (hdistinct : allocate.DistinctBelow s.registry.issued) :
    access.FollowsFrom before := by
  obtain ⟨middle, hbefore, _ | ⟨haccess, hafter⟩⟩ := answersAll_append_iff.mp h
  have hnext := hdistinct.mono hafter.issued_le
  exact (hbefore.records (hnext.mono haccess.issued_le)).followsFrom
    haccess hnext

end Session
end ColumnBridge
