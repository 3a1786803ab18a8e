import ColumnBridge.Handle.Interleaving
import ColumnBridge.Proofs.Handle.History

/-!
# Traces of interleaved programs

Threads that share a session take turns in an order that none of them controls.
The trace of a machine lists the accesses that its threads performed, each with
the number of its thread.  Read as a whole, it is a history of the shared
registry.  Read thread by thread, it is for each thread a way through the
program of that thread alone: whatever the others do in between can change the
answers that a thread is given, but not what it does with them.
-/

namespace ColumnBridge

/-! ## Ways through a program -/

namespace Program

variable {α β : Type}

/-- What is left of a program after accesses that were answered in some way. -/
inductive Reaches : Program α → List Access → Program α → Prop
  | refl (p : Program α) : Reaches p [] p
  | adopt {object : Object} {next : Address → Program α} {handle : Address}
      {accesses : List Access} {q : Program α}
      (h : Reaches (next handle) accesses q) :
      Reaches (.adopt object next) (.adopt object handle :: accesses) q
  | fetch {kind : Kind} {handle : Address}
      {next : Except Error kind.Carrier → Program α}
      {answer : Except Error kind.Carrier} {accesses : List Access}
      {q : Program α}
      (h : Reaches (next answer) accesses q) :
      Reaches (.fetch kind handle next)
        (.fetch kind handle answer :: accesses) q
  | release {handle : Address} {next : Except Error Unit → Program α}
      {answer : Except Error Unit} {accesses : List Access} {q : Program α}
      (h : Reaches (next answer) accesses q) :
      Reaches (.release handle next) (.release handle answer :: accesses) q

theorem Reaches.trans {p q r : Program α} {before after : List Access}
    (hbefore : p.Reaches before q) (hafter : q.Reaches after r) :
    p.Reaches (before ++ after) r := by
  induction hbefore with
  | refl p => exact hafter
  | adopt _ ih => exact .adopt (ih hafter)
  | fetch _ ih => exact .fetch (ih hafter)
  | release _ ih => exact .release (ih hafter)

theorem reaches_done_iff {result : α} {accesses : List Access} {q : Program α} :
    (Program.done result).Reaches accesses q ↔
      accesses = [] ∧ q = .done result := by
  constructor
  · rintro ⟨⟩
    exact ⟨rfl, rfl⟩
  · rintro ⟨rfl, rfl⟩
    exact .refl _

/-- A way through a program and its continuation either ends inside the program
or passes through one of its results. -/
theorem Reaches.of_bind {p : Program α} {f : α → Program β}
    {accesses : List Access} {q : Program β}
    (h : (p.bind f).Reaches accesses q) :
    (∃ p', p.Reaches accesses p' ∧ p'.result? = none ∧ q = p'.bind f) ∨
      ∃ before after result, accesses = before ++ after ∧
        p.Reaches before (.done result) ∧
        (f result).Reaches after q := by
  induction p generalizing accesses with
  | done result => exact .inr ⟨[], accesses, result, rfl, .refl _, h⟩
  | adopt object next ih =>
      rcases h with _ | h
      · exact .inl ⟨_, .refl _, rfl, rfl⟩
      · rcases ih _ h with ⟨p', hp', hresult, rfl⟩ |
          ⟨before, after, result, rfl, hp, hf⟩
        · exact .inl ⟨p', .adopt hp', hresult, rfl⟩
        · exact .inr ⟨_ :: before, after, result, rfl, .adopt hp, hf⟩
  | fetch kind handle next ih =>
      rcases h with _ | _ | h
      · exact .inl ⟨_, .refl _, rfl, rfl⟩
      · rcases ih _ h with ⟨p', hp', hresult, rfl⟩ |
          ⟨before, after, result, rfl, hp, hf⟩
        · exact .inl ⟨p', .fetch hp', hresult, rfl⟩
        · exact .inr ⟨_ :: before, after, result, rfl, .fetch hp, hf⟩
  | release handle next ih =>
      rcases h with _ | _ | _ | h
      · exact .inl ⟨_, .refl _, rfl, rfl⟩
      · rcases ih _ h with ⟨p', hp', hresult, rfl⟩ |
          ⟨before, after, result, rfl, hp, hf⟩
        · exact .inl ⟨p', .release hp', hresult, rfl⟩
        · exact .inr ⟨_ :: before, after, result, rfl, .release hp, hf⟩

/-! ## Single accesses -/

variable (settings : Settings) (allocate : Allocator)

/-- The first access of a program, as a session answers it. -/
def access? (p : Program α) (s : Session) : Option Access :=
  match p with
  | .done _ => none
  | .adopt object _ => some (.adopt object (allocate s.registry.issued))
  | .fetch kind handle _ =>
    some (.fetch kind handle (s.registry.fetch kind handle))
  | .release handle _ => some (.release handle (s.release settings handle).1)

theorem advance_of_access?_eq_none {p : Program α} {s : Session}
    (h : p.access? settings allocate s = none) :
    p.advance settings allocate s = (p, s) := by
  rcases p with _ | _ | _ | _
  · rfl
  · cases h
  · cases h
  · cases h

/-- An access of a program is answered by the session, and is the beginning of a
way through the program. -/
theorem answers_and_reaches_advance {p : Program α} {s : Session}
    {access : Access} (h : p.access? settings allocate s = some access) :
    s.Answers settings allocate access (p.advance settings allocate s).2 ∧
      p.Reaches [access] (p.advance settings allocate s).1 := by
  rcases p with result | ⟨object, next⟩ | ⟨kind, handle, next⟩ | ⟨handle, next⟩
  · cases h
  · cases h
    exact ⟨.adopt s object, .adopt (.refl _)⟩
  · cases h
    exact ⟨.fetch s kind handle, .fetch (.refl _)⟩
  · cases h
    exact ⟨.release s handle, .release (.refl _)⟩

end Program

/-! ## Traces -/

/-- The part of a trace that belongs to one thread. -/
def accessesOf (thread : Nat) (trace : List (Nat × Access)) : List Access :=
  trace.filterMap fun entry => if entry.1 = thread then some entry.2 else none

theorem accessesOf_append (thread : Nat) (before after : List (Nat × Access)) :
    accessesOf thread (before ++ after) = accessesOf thread before ++
      accessesOf thread after :=
  List.filterMap_append

theorem mem_accessesOf {thread : Nat} {trace : List (Nat × Access)}
    {access : Access} :
    access ∈ accessesOf thread trace ↔ (thread, access) ∈ trace := by
  rw [accessesOf, List.mem_filterMap]
  constructor
  · rintro ⟨⟨found, other⟩, hmem, heq⟩
    by_cases hfound : found = thread
    · subst hfound
      rw [if_pos rfl] at heq
      rwa [← Option.some.inj heq]
    · rw [if_neg hfound] at heq
      cases heq
  · intro hmem
    exact ⟨_, hmem, if_pos rfl⟩

namespace Machine

variable {α : Type} (settings : Settings) (allocate : Allocator)

/-- The next access of a thread, as the shared session answers it. -/
def access? (m : Machine α) (thread : Nat) : Option Access :=
  m.threads[thread]?.bind fun p => p.access? settings allocate m.session

/-- The accesses that are performed in the order of a schedule, with their
threads. -/
def trace : Machine α → List Nat → List (Nat × Access)
  | _, [] => []
  | m, thread :: schedule =>
    ((m.access? settings allocate thread).map (thread, ·)).toList ++
      trace (m.step settings allocate thread) schedule

variable {settings allocate} {m : Machine α} {thread : Nat}

theorem step_of_getElem? {p : Program α} (h : m.threads[thread]? = some p) :
    m.step settings allocate thread =
      ⟨(p.advance settings allocate m.session).2,
        m.threads.set thread (p.advance settings allocate m.session).1⟩ := by
  rw [step, h]

theorem access?_of_getElem? {p : Program α} (h : m.threads[thread]? = some p) :
    m.access? settings allocate thread =
      p.access? settings allocate m.session := by
  rw [access?, h]
  rfl

theorem step_of_access?_eq_none
    (h : m.access? settings allocate thread = none) :
    m.step settings allocate thread = m := by
  rcases hthread : m.threads[thread]? with _ | p
  · rw [step, hthread]
  · rw [access?_of_getElem? hthread] at h
    have hset : m.threads.set thread p = m.threads := by
      rw [← (List.getElem?_eq_some_iff.mp hthread).2, List.set_getElem_self]
    rw [step_of_getElem? hthread,
      p.advance_of_access?_eq_none settings allocate h, hset]

/-- A thread that performs an access goes on with its own program; the other
threads stay where they are. -/
theorem exists_of_access?_eq_some {access : Access}
    (h : m.access? settings allocate thread = some access) :
    ∃ p p', m.threads[thread]? = some p ∧ p.Reaches [access] p' ∧
      m.session.Answers settings allocate access
        (m.step settings allocate thread).session ∧
      (m.step settings allocate thread).threads = m.threads.set thread p' := by
  rcases hthread : m.threads[thread]? with _ | p
  · rw [access?, hthread] at h
    cases h
  · rw [access?_of_getElem? hthread] at h
    obtain ⟨hanswers, hreaches⟩ :=
      p.answers_and_reaches_advance settings allocate h
    rw [step_of_getElem? hthread]
    exact ⟨p, _, rfl, hreaches, hanswers, rfl⟩

theorem exists_records_step {accesses : List Access}
    (hrecords : m.session.Records allocate accesses)
    (hdistinct : allocate.DistinctBelow
      (m.step settings allocate thread).session.registry.issued) :
    ∃ accesses,
      (m.step settings allocate thread).session.Records allocate accesses := by
  rcases haccess : m.access? settings allocate thread with _ | access
  · rw [step_of_access?_eq_none haccess]
    exact ⟨accesses, hrecords⟩
  · obtain ⟨_, _, _, _, hanswers, _⟩ := exists_of_access?_eq_some haccess
    exact ⟨_, hrecords.answers hanswers hdistinct⟩

variable (settings allocate) in
/-- The trace of a machine is a history of its session. -/
theorem answersAll_trace (m : Machine α) (schedule : List Nat) :
    m.session.AnswersAll settings allocate
      ((m.trace settings allocate schedule).map Prod.snd)
      (m.follow settings allocate schedule).session := by
  induction schedule generalizing m with
  | nil => exact .nil _
  | cons thread schedule ih =>
      have hrest := ih (m.step settings allocate thread)
      rcases haccess : m.access? settings allocate thread with _ | access
      · rw [step_of_access?_eq_none haccess] at hrest
        rw [trace, haccess, follow, List.foldl_cons,
          step_of_access?_eq_none haccess]
        exact hrest
      · obtain ⟨_, _, _, _, hanswers, _⟩ := exists_of_access?_eq_some haccess
        rw [trace, haccess]
        exact .cons hanswers hrest

variable (settings allocate) in
/-- The accesses of a thread lead through its own program, whatever the other
threads do. -/
theorem reaches_trace {p : Program α} (m : Machine α) (schedule : List Nat)
    (hp : m.threads[thread]? = some p) :
    ∃ q, (m.follow settings allocate schedule).threads[thread]? = some q ∧
      p.Reaches (accessesOf thread (m.trace settings allocate schedule)) q := by
  induction schedule generalizing m p with
  | nil => exact ⟨p, hp, .refl p⟩
  | cons other schedule ih =>
      rcases haccess : m.access? settings allocate other with _ | access
      · have hstep := step_of_access?_eq_none haccess
        rw [follow, List.foldl_cons, hstep, trace, haccess, hstep]
        exact ih m hp
      · obtain ⟨p₀, p', hp₀, hreaches, -, hthreads⟩ :=
          exists_of_access?_eq_some haccess
        rw [trace, haccess, accessesOf_append]
        by_cases hsame : other = thread
        · subst hsame
          obtain rfl : p₀ = p := Option.some.inj (hp₀.symm.trans hp)
          have hlt : other < m.threads.length :=
            (List.getElem?_eq_some_iff.mp hp).1
          have hnext :
              (m.step settings allocate other).threads[other]? = some p' := by
            rw [hthreads, List.getElem?_set_self hlt]
          obtain ⟨q, hq, hrest⟩ := ih _ hnext
          refine ⟨q, hq, ?_⟩
          have hfirst :
              accessesOf other (((some access).map (other, ·)).toList) =
                [access] := by
            simp [accessesOf]
          rw [hfirst]
          exact hreaches.trans hrest
        · have hnext :
              (m.step settings allocate other).threads[thread]? = some p := by
            rw [hthreads, List.getElem?_set_ne hsame, hp]
          obtain ⟨q, hq, hrest⟩ := ih _ hnext
          refine ⟨q, hq, ?_⟩
          have hfirst : accessesOf thread
              (((some access).map (other, ·)).toList) = [] := by
            simp [accessesOf, hsame]
          rw [hfirst]
          exact hrest

end Machine
end ColumnBridge
