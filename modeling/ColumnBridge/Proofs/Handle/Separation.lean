import ColumnBridge.Proofs.Handle.Interleaving

/-!
# Threads with objects of their own

A program keeps to itself if it fetches and gives up only objects that it
adopted and still owns.  Threads whose programs keep to themselves share a
registry without noticing each other.  At any time the registry is split between
them: it holds what the threads own, and nothing belongs to two of them.  So no
access of theirs ever fails, and when they are done the registry holds what they
chose to leave behind.
-/

namespace ColumnBridge

/-- An access that was not answered with an error. -/
def Access.Succeeds : Access → Prop
  | adopt _ _ => True
  | fetch _ _ answer => ∃ value, answer = .ok value
  | release _ answer => answer = .ok ()

namespace Program

/-- A program that fetches and gives up only objects that it owns, and ends with
a result and with objects left of which `post` holds. -/
inductive KeepsToItself {α : Type} (post : α → LiveObjects → Prop) :
    LiveObjects → Program α → Prop
  | done {own : LiveObjects} {result : α} (h : post result own) :
      KeepsToItself post own (.done result)
  | adopt {own : LiveObjects} {object : Object} {next : Address → Program α}
      (h : ∀ handle, handle ∉ own →
        KeepsToItself post (own.insert handle object) (next handle)) :
      KeepsToItself post own (.adopt object next)
  | fetch {own : LiveObjects} {kind : Kind} {handle : Address}
      {value : kind.Carrier}
      {next : Except Error kind.Carrier → Program α}
      (hown : own.lookup handle = some ⟨kind, value⟩)
      (h : KeepsToItself post own (next (.ok value))) :
      KeepsToItself post own (.fetch kind handle next)
  | release {own : LiveObjects} {handle : Address}
      {next : Except Error Unit → Program α}
      (hown : handle ∈ own)
      (h : KeepsToItself post (own.erase handle) (next (.ok ()))) :
      KeepsToItself post own (.release handle next)

variable {α β : Type}

theorem KeepsToItself.mono {post other : α → LiveObjects → Prop}
    {own : LiveObjects} {p : Program α} (hp : p.KeepsToItself post own)
    (himp : ∀ result left, post result left → other result left) :
    p.KeepsToItself other own := by
  induction hp with
  | done h => exact .done (himp _ _ h)
  | adopt _ ih => exact .adopt ih
  | fetch hown _ ih => exact .fetch hown ih
  | release hown _ ih => exact .release hown ih

theorem KeepsToItself.bind {between : α → LiveObjects → Prop}
    {post : β → LiveObjects → Prop} {own : LiveObjects} {p : Program α}
    {f : α → Program β} (hp : p.KeepsToItself between own)
    (hf : ∀ result left,
      between result left → (f result).KeepsToItself post left) :
    (p.bind f).KeepsToItself post own := by
  induction hp with
  | done h => exact hf _ _ h
  | adopt _ ih => exact .adopt ih
  | fetch hown _ ih => exact .fetch hown ih
  | release hown _ ih => exact .release hown ih

end Program

/-! ## The split of the registry -/

namespace Machine

variable {α : Type} {post : Nat → α → LiveObjects → Prop}

/-- The registry is split between the threads, whose programs keep to
themselves. -/
structure Separated (post : Nat → α → LiveObjects → Prop)
    (own : Nat → LiveObjects) (m : Machine α) : Prop where
  keeps : ∀ (thread : Nat) (p : Program α), m.threads[thread]? = some p →
    p.KeepsToItself (post thread) (own thread)
  lookup : ∀ handle object, m.session.registry.lookup? handle = some object ↔
    ∃ thread, (own thread).lookup handle = some object
  disjoint :
    ∀ thread other, thread ≠ other → ∀ handle ∈ own thread, handle ∉ own other
  absent : ∀ thread, m.threads[thread]? = none → own thread = ∅

theorem separated_start {threads : List (Program α)}
    (h : ∀ (thread : Nat) (p : Program α), threads[thread]? = some p →
      p.KeepsToItself (post thread) ∅) :
    (Machine.mk .fresh threads).Separated post fun _ => ∅ where
  keeps := h
  lookup := by simp [Session.fresh]
  disjoint _ _ _ _ hmem := absurd hmem Finmap.notMem_empty
  absent _ _ := rfl

variable {settings : Settings} {allocate : Allocator} {m : Machine α}
  {own : Nat → LiveObjects} {thread : Nat}

namespace Separated

theorem mem_contents (h : m.Separated post own) {handle : Address}
    (hmem : handle ∈ own thread) : handle ∈ m.session.registry.contents := by
  obtain ⟨object, hobject⟩ := Finmap.mem_iff.mp hmem
  have hlookup := (h.lookup handle object).mpr ⟨thread, hobject⟩
  rw [← Registry.lookup_contents] at hlookup
  exact Finmap.mem_of_lookup_eq_some hlookup

theorem lookup_iff_or (h : m.Separated post own) (thread : Nat)
    (handle : Address) (object : Object) :
    m.session.registry.lookup? handle = some object ↔
      (own thread).lookup handle = some object ∨
        ∃ other ≠ thread, (own other).lookup handle = some object := by
  rw [h.lookup, ← Function.exists_update_iff own fun _ live =>
    live.lookup handle = some object, Function.update_eq_self]

/-- One thread goes on, and neither it nor the session touches what the others
own. -/
theorem update (h : m.Separated post own) (hlt : thread < m.threads.length)
    {p : Program α} {s : Session} {mine : LiveObjects}
    (hkeeps : p.KeepsToItself (post thread) mine)
    (hlookup : ∀ handle object, s.registry.lookup? handle = some object ↔
      mine.lookup handle = some object ∨
        ∃ other ≠ thread, (own other).lookup handle = some object)
    (hmine : ∀ handle ∈ mine, ∀ other, other ≠ thread → handle ∉ own other) :
    (Machine.mk s (m.threads.set thread p)).Separated post
      (Function.update own thread mine) where
  keeps other q hq := by
    by_cases heq : other = thread
    · subst heq
      rw [List.getElem?_set_self hlt] at hq
      rw [Function.update_self, ← Option.some.inj hq]
      exact hkeeps
    · rw [List.getElem?_set_ne (Ne.symm heq)] at hq
      rw [Function.update_of_ne heq]
      exact h.keeps other q hq
  lookup handle object := (hlookup handle object).trans
    (Function.exists_update_iff own fun _ live =>
      live.lookup handle = some object).symm
  disjoint first second hne handle hmem := by
    by_cases hfirst : first = thread
    · subst hfirst
      rw [Function.update_self] at hmem
      rw [Function.update_of_ne hne.symm]
      exact hmine handle hmem second hne.symm
    · rw [Function.update_of_ne hfirst] at hmem
      by_cases hsecond : second = thread
      · subst hsecond
        rw [Function.update_self]
        exact fun hother => hmine handle hother first hne hmem
      · rw [Function.update_of_ne hsecond]
        exact h.disjoint first second hne handle hmem
  absent other hnone := by
    have hlength : m.threads[other]? = none := by
      rw [List.getElem?_eq_none_iff] at hnone ⊢
      rwa [List.length_set] at hnone
    have hne : other ≠ thread := by
      rintro rfl
      rw [List.getElem?_eq_none_iff] at hlength
      exact absurd hlt (Nat.not_lt.mpr hlength)
    rw [Function.update_of_ne hne]
    exact h.absent other hlength

theorem adopt (h : m.Separated post own) (hlt : thread < m.threads.length)
    {object : Object} {next : Address → Program α}
    (hfresh : allocate m.session.registry.issued ∉ m.session.registry.contents)
    (hkeeps : ∀ handle, handle ∉ own thread →
      (next handle).KeepsToItself (post thread)
    ((own thread).insert handle object)) :
    ∃ own', (Machine.mk (m.session.adopt settings allocate object).2
      (m.threads.set thread
        (next (allocate m.session.registry.issued)))).Separated post own' := by
  have hnew : ∀ other, allocate m.session.registry.issued ∉ own other :=
    fun other hmem => hfresh (h.mem_contents hmem)
  refine ⟨_, h.update hlt (hkeeps _ (hnew thread)) ?_ ?_⟩
  · intro handle found
    rw [← Registry.lookup_contents, Session.contents_adopt]
    by_cases heq : handle = allocate m.session.registry.issued
    · subst heq
      have hothers : ∀ other,
          (own other).lookup (allocate m.session.registry.issued) ≠
            some found :=
        fun other hfound => hnew other (Finmap.mem_of_lookup_eq_some hfound)
      rw [Finmap.lookup_insert, Finmap.lookup_insert]
      exact (or_iff_left fun ⟨other, _, hfound⟩ => hothers other hfound).symm
    · rw [Finmap.lookup_insert_of_ne _ heq, Finmap.lookup_insert_of_ne _ heq,
        Registry.lookup_contents]
      exact h.lookup_iff_or thread handle found
  · intro handle hmem other hne
    rcases Finmap.mem_insert.mp hmem with rfl | hmem
    · exact hnew other
    · exact h.disjoint thread other hne.symm handle hmem

theorem fetch (h : m.Separated post own) (hlt : thread < m.threads.length)
    {kind : Kind} {handle : Address} {value : kind.Carrier}
    {next : Except Error kind.Carrier → Program α}
    (hown : (own thread).lookup handle = some ⟨kind, value⟩)
    (hkeeps : (next (.ok value)).KeepsToItself (post thread) (own thread)) :
    m.session.registry.fetch kind handle = .ok value ∧
      ∃ own', (Machine.mk m.session (m.threads.set thread
        (next (m.session.registry.fetch kind handle)))).Separated post
          own' := by
  have hanswer : m.session.registry.fetch kind handle = .ok value :=
    Registry.fetch_eq_ok_iff.mpr ((h.lookup _ _).mpr ⟨thread, hown⟩)
  rw [hanswer]
  refine ⟨rfl, _, h.update hlt hkeeps ?_ ?_⟩
  · exact h.lookup_iff_or thread
  · intro other hmem owner hne
    exact h.disjoint thread owner hne.symm other hmem

theorem release (h : m.Separated post own) (hlt : thread < m.threads.length)
    {handle : Address} {next : Except Error Unit → Program α}
    (hown : handle ∈ own thread)
    (hkeeps :
      (next (.ok ())).KeepsToItself (post thread) ((own thread).erase handle)) :
    (m.session.release settings handle).1 = .ok () ∧
      ∃ own', (Machine.mk (m.session.release settings handle).2 (m.threads.set
        thread (next (m.session.release settings handle).1))).Separated post
        own' := by
  have hanswer := Session.release_of_mem settings (h.mem_contents hown)
  rw [hanswer]
  refine ⟨rfl, _, h.update hlt hkeeps ?_ ?_⟩
  · intro other object
    rw [← Registry.lookup_contents,
      Session.contents_release settings (h.mem_contents hown)]
    by_cases heq : other = handle
    · subst heq
      rw [Finmap.lookup_erase, Finmap.lookup_erase]
      constructor
      · rintro ⟨⟩
      · rintro (⟨⟨⟩⟩ | ⟨owner, hne, hfound⟩)
        exact absurd (Finmap.mem_of_lookup_eq_some hfound)
          (h.disjoint thread owner hne.symm other hown)
    · rw [Finmap.lookup_erase_ne heq, Finmap.lookup_erase_ne heq,
        Registry.lookup_contents]
      exact h.lookup_iff_or thread other object
  · intro other hmem owner hne
    exact h.disjoint thread owner hne.symm other (Finmap.mem_erase.mp hmem).2

/-- A step of a thread keeps the registry split, and its access does not
fail. -/
theorem step (h : m.Separated post own) {accesses : List Access}
    (hrecords : m.session.Records allocate accesses)
    (hdistinct : allocate.DistinctBelow
      (m.step settings allocate thread).session.registry.issued) :
    (∃ own', (m.step settings allocate thread).Separated post own') ∧
      ∀ access ∈ m.access? settings allocate thread, access.Succeeds := by
  rcases hthread : m.threads[thread]? with _ | p
  · rw [Machine.step, Machine.access?, hthread]
    refine ⟨⟨own, h⟩, ?_⟩
    rintro _ ⟨⟩
  · have hlt : thread < m.threads.length :=
      (List.getElem?_eq_some_iff.mp hthread).1
    rw [access?_of_getElem? hthread]
    -- What the program may do next is what `KeepsToItself` allows it to.
    rcases h.keeps thread p hthread with hpost | hnext | ⟨hown, hnext⟩ |
      ⟨hown, hnext⟩
    · have hnone : m.access? settings allocate thread = none :=
        access?_of_getElem? hthread
      rw [step_of_access?_eq_none hnone]
      refine ⟨⟨own, h⟩, ?_⟩
      rintro _ ⟨⟩
    · rw [step_of_getElem? hthread] at hdistinct ⊢
      refine ⟨h.adopt hlt ?_ hnext, ?_⟩
      · rw [hrecords.mem_contents_iff]
        rw [Program.advance, Session.issued_adopt] at hdistinct
        exact fun hmem => hrecords.notMem_handles hdistinct hmem.1
      · rintro _ ⟨⟩
        trivial
    · rw [step_of_getElem? hthread]
      obtain ⟨hanswer, hsplit⟩ := h.fetch hlt hown hnext
      refine ⟨hsplit, ?_⟩
      rintro _ ⟨⟩
      exact ⟨_, hanswer⟩
    · rw [step_of_getElem? hthread]
      obtain ⟨hanswer, hsplit⟩ := h.release hlt hown hnext
      refine ⟨hsplit, ?_⟩
      rintro _ ⟨⟩
      exact hanswer

/-- Threads that keep to themselves never fail, whatever the schedule, and the
registry stays split between them. -/
theorem follow (h : m.Separated post own) (schedule : List Nat)
    {accesses : List Access} (hrecords : m.session.Records allocate accesses)
    (hdistinct : allocate.DistinctBelow
      (m.follow settings allocate schedule).session.registry.issued) :
    (∃ own', (m.follow settings allocate schedule).Separated post own') ∧
      ∀ entry ∈ m.trace settings allocate schedule, entry.2.Succeeds := by
  induction schedule generalizing m own accesses with
  | nil => exact ⟨⟨own, h⟩, by simp [trace]⟩
  | cons thread schedule ih =>
      have hrest := answersAll_trace settings allocate
          (m.step settings allocate thread) schedule
      have hnext : allocate.DistinctBelow
          (m.step settings allocate thread).session.registry.issued :=
        hdistinct.mono hrest.issued_le
      obtain ⟨⟨own', hsplit⟩, hsucceeds⟩ := h.step hrecords hnext
      obtain ⟨accesses', hrecorded⟩ := exists_records_step hrecords hnext
      obtain ⟨hfinal, hothers⟩ := ih hsplit hrecorded hdistinct
      refine ⟨hfinal, ?_⟩
      intro entry hentry
      rw [trace, List.mem_append] at hentry
      rcases hentry with hentry | hentry
      · rw [Option.mem_toList, Option.map_eq_some_iff] at hentry
        obtain ⟨access, haccess, rfl⟩ := hentry
        exact hsucceeds access haccess
      · exact hothers entry hentry

theorem post_of_done (h : m.Separated post own) {result : α}
    (hdone : m.threads[thread]? = some (.done result)) :
    post thread result (own thread) := by
  obtain ⟨hpost⟩ := h.keeps thread _ hdone
  exact hpost

/-- Threads that are done and left nothing behind leave an empty registry. -/
theorem contents_eq_empty (h : m.Separated post own)
    (hdone : ∀ p ∈ m.threads, ∃ result, p = .done result)
    (hpost : ∀ thread result left, post thread result left → left = ∅) :
    m.session.registry.contents = ∅ := by
  have hown : ∀ owner, own owner = ∅ := by
    intro owner
    rcases howner : m.threads[owner]? with _ | p
    · exact h.absent owner howner
    · obtain ⟨result, rfl⟩ := hdone p (List.mem_of_getElem? howner)
      exact hpost owner result _ (h.post_of_done howner)
  apply Finmap.ext_lookup
  intro handle
  rw [Finmap.lookup_empty, Registry.lookup_contents,
    Option.eq_none_iff_forall_ne_some]
  intro object hlookup
  obtain ⟨owner, hfound⟩ := (h.lookup handle object).mp hlookup
  rw [hown owner, Finmap.lookup_empty] at hfound
  cases hfound

end Separated
end Machine

/-! ## Rounds -/

namespace Program

theorem insert_erase_of_notMem {own : LiveObjects} {handle : Address}
    {object : Object} (h : handle ∉ own) :
    (own.insert handle object).erase handle = own := by
  apply Finmap.ext_lookup
  intro other
  by_cases heq : other = handle
  · subst heq
    rw [Finmap.lookup_erase, Finmap.lookup_eq_none.mpr h]
  · rw [Finmap.lookup_erase_ne heq, Finmap.lookup_insert_of_ne _ heq]

theorem round_keepsToItself (value : Int64) (own : LiveObjects) :
    (round value).KeepsToItself (fun result left => result = true ∧
      left = own) own := by
  refine .adopt fun handle hnew =>
    .fetch (Finmap.lookup_insert _) (.release ?_ (.done ?_))
  · exact Finmap.mem_insert.mpr (.inl rfl)
  · exact ⟨beq_self_eq_true value, insert_erase_of_notMem hnew⟩

/-- Every round of a thread succeeds, and leaves nothing behind. -/
theorem rounds_keepsToItself (value : Nat → Int64) (count : Nat) :
    (rounds value count).KeepsToItself (fun result left => result = count ∧
      left = ∅) ∅ := by
  induction count with
  | zero => exact .done ⟨rfl, rfl⟩
  | succ count ih =>
      refine (round_keepsToItself (value count) ∅).bind ?_
      rintro _ _ ⟨rfl, rfl⟩
      refine ih.bind ?_
      rintro _ _ ⟨rfl, rfl⟩
      exact .done ⟨rfl, rfl⟩

end Program

/-- Threads that perform rounds count all of them, whatever the schedule, and
leave an empty registry when the last of them is done. -/
theorem Machine.follow_rounds (settings : Settings) (allocate : Allocator)
    (tasks : List ((Nat → Int64) × Nat)) (schedule : List Nat) {m : Machine Nat}
    (hm : m = (Machine.mk .fresh (tasks.map fun task =>
      Program.rounds task.1 task.2)).follow settings allocate schedule)
    (hdistinct : allocate.DistinctBelow m.session.registry.issued) :
    (∀ thread result : Nat, m.threads[thread]? = some (.done result) →
      (tasks.map Prod.snd)[thread]? = some result) ∧
      ((∀ p ∈ m.threads, ∃ result, p = Program.done result) →
        m.session.registry.contents = ∅) := by
  subst hm
  have hstart : (Machine.mk .fresh (tasks.map fun task =>
      Program.rounds task.1 task.2)).Separated (fun thread result left =>
        (tasks.map Prod.snd)[thread]? = some result ∧ left = ∅) fun _ => ∅ := by
    refine Machine.separated_start ?_
    intro thread p hp
    rw [List.getElem?_map, Option.map_eq_some_iff] at hp
    obtain ⟨⟨value, count⟩, htask, rfl⟩ := hp
    have hcount : (tasks.map Prod.snd)[thread]? = some count := by
      rw [List.getElem?_map, htask]
      rfl
    refine (Program.rounds_keepsToItself value count).mono ?_
    rintro _ _ ⟨rfl, rfl⟩
    exact ⟨hcount, rfl⟩
  obtain ⟨⟨own, hend⟩, -⟩ :=
    hstart.follow schedule (Session.records_fresh allocate) hdistinct
  refine ⟨fun thread result hdone => (hend.post_of_done hdone).1,
    fun hdone => ?_⟩
  exact hend.contents_eq_empty hdone fun _ _ _ hpost => hpost.2

end ColumnBridge
