import ColumnBridge.Proofs.Handle.Interleaving

/-!
# Runs and their log entries

At every access a session asks whether to write an entry, but nothing ever reads
the log.  A run can therefore be told without it: `Program.trace` lists the
accesses that a program performs on a registry, with its result and the registry
that it leaves.  A session runs every program in this way, whatever the settings
are, and if entries are written at all then its log grows by one entry for each
access that hands out or gives up an object.
-/

namespace ColumnBridge

/-- The entry that an access is worth, if it changed the registry. -/
def Access.event? : Access → Option Event
  | adopt object handle => some (.adopted object.kind.typeName handle)
  | fetch _ _ _ => none
  | release handle (.ok ()) => some (.released handle)
  | release _ (.error _) => none

/-- Takes the object behind a handle out of the registry. -/
def Registry.release (r : Registry) (handle : Address) :
    Except Error Unit × Registry :=
  if r.contains handle then
    (.ok (), r.erase handle)
  else (.error (.unknownHandle handle), r)

/-! ## Sessions -/

namespace Session

variable (settings : Settings) (allocate : Allocator) (verbose : Bool)
  (s : Session)

/-- The session goes on with a registry, and with these events in the log if
there is one. -/
def proceed (registry : Registry) (events : List Event) : Session :=
  ⟨registry, s.log ++ if verbose then events else []⟩

@[simp]
theorem registry_proceed (registry : Registry) (events : List Event) :
    (s.proceed verbose registry events).registry = registry := rfl

theorem proceed_nil : s.proceed verbose s.registry [] = s := by
  rw [proceed, ite_self, List.append_nil]

theorem proceed_proceed (registry next : Registry) (events more : List Event) :
    (s.proceed verbose registry events).proceed verbose next more =
      s.proceed verbose next (events ++ more) := by
  simp only [proceed]
  split
  · rw [List.append_assoc]
  · rw [List.append_nil, List.append_nil]

theorem note_eq_proceed (event : Event) :
    s.note settings event = s.proceed settings.verbose s.registry [event] := by
  rw [note, proceed]
  split
  · rfl
  · rw [List.append_nil]

theorem adopt_eq_proceed (object : Object) :
    s.adopt settings allocate object =
      (allocate s.registry.issued,
        s.proceed settings.verbose (s.registry.adopt allocate object).2
          [.adopted object.kind.typeName (allocate s.registry.issued)]) :=
  congrArg (Prod.mk (allocate s.registry.issued))
    (note_eq_proceed settings ⟨(s.registry.adopt allocate object).2, s.log⟩ _)

theorem release_eq_proceed (handle : Address) :
    s.release settings handle =
      ((s.registry.release handle).1,
        s.proceed settings.verbose (s.registry.release handle).2
          (Access.release handle
            (s.registry.release handle).1).event?.toList) := by
  rw [release, Registry.release]
  split
  · rw [note_eq_proceed]
    rfl
  · rw [Access.event?, Option.toList_none, proceed_nil]

end Session

/-! ## Programs -/

namespace Program

variable {α : Type}

/-- What a program does on a registry. -/
structure Trace (α : Type) where
  accesses : List Access
  result : α
  registry : Registry

namespace Trace

/-- The trace with an access before it. -/
def after (access : Access) (t : Trace α) : Trace α :=
  { t with accesses := access :: t.accesses }

/-- The entries that a trace is worth. -/
def events (t : Trace α) : List Event := t.accesses.filterMap Access.event?

theorem events_after (access : Access) (t : Trace α) :
    (t.after access).events = access.event?.toList ++ t.events := by
  rw [events, after, List.filterMap_cons]
  cases access.event? <;> rfl

end Trace

variable (settings : Settings) (allocate : Allocator)

/-- The trace of a program on a registry. -/
def trace : Program α → Registry → Trace α
  | .done result, r => ⟨[], result, r⟩
  | .adopt object next, r =>
    let (handle, left) := r.adopt allocate object
    ((next handle).trace left).after (.adopt object handle)
  | .fetch kind handle next, r =>
    let answer := r.fetch kind handle
    ((next answer).trace r).after (.fetch kind handle answer)
  | .release handle next, r =>
    let (answer, left) := r.release handle
    ((next answer).trace left).after (.release handle answer)

/-- The log makes no difference to a run, and the settings none but to the
log. -/
theorem run_eq_trace (p : Program α) (s : Session) :
    p.run settings allocate s =
      ((p.trace allocate s.registry).result,
        s.proceed settings.verbose (p.trace allocate s.registry).registry
          (p.trace allocate s.registry).events) := by
  induction p generalizing s with
  | done result =>
      rw [run, trace, Trace.events, List.filterMap_nil, Session.proceed_nil]
  | adopt object next ih =>
      rw [run, Session.adopt_eq_proceed]
      dsimp only
      rw [ih, Session.proceed_proceed, trace, Trace.events_after]
      rfl
  | fetch kind handle next ih =>
      rw [run, ih, trace, Trace.events_after]
      rfl
  | release handle next ih =>
      rw [run, Session.release_eq_proceed]
      dsimp only
      rw [ih, Session.proceed_proceed, trace, Trace.events_after]
      rfl

/-- The accesses of a trace lead through the program to its result. -/
theorem reaches_trace (p : Program α) (r : Registry) :
    p.Reaches (p.trace allocate r).accesses
      (.done (p.trace allocate r).result) := by
  induction p generalizing r with
  | done result => exact .refl _
  | adopt object next ih => exact .adopt (ih _ _)
  | fetch kind handle next ih => exact .fetch (ih _ _)
  | release handle next ih => exact .release (ih _ _)

/-- The accesses of a trace are those that a session answers when it runs the
program. -/
theorem answersAll_trace (p : Program α) (s : Session) :
    s.AnswersAll settings allocate (p.trace allocate s.registry).accesses
      (p.run settings allocate s).2 := by
  induction p generalizing s with
  | done result => exact .nil s
  | adopt object next ih =>
      have hrest :=
        ih (allocate s.registry.issued) (s.adopt settings allocate object).2
      rw [Session.adopt_eq_proceed, Session.registry_proceed] at hrest
      refine .cons (.adopt s object) ?_
      rw [run, Session.adopt_eq_proceed]
      exact hrest
  | fetch kind handle next ih => exact .cons (.fetch s kind handle) (ih _ s)
  | release handle next ih =>
      have hrest :=
        ih (s.registry.release handle).1 (s.release settings handle).2
      have haccess : s.Answers settings allocate
          (.release handle (s.release settings handle).1)
            (s.release settings handle).2 :=
        .release s handle
      rw [Session.release_eq_proceed] at hrest haccess
      rw [Session.registry_proceed] at hrest
      refine .cons haccess ?_
      rw [run, Session.release_eq_proceed]
      exact hrest

end Program
end ColumnBridge
