import ColumnBridge.Call.Export
import ColumnBridge.Proofs.Boundary.Outcome
import ColumnBridge.Proofs.Handle.Logging

/-!
# Processes

Between its calls a process works on the registry directly, asks about it, and
sets the error variables itself.  The body of a call is a program on the
registry; what else it reads and changes, such as the state of a foreign
library, is its world.

What becomes of the registry and the world, what is answered, and what is worth
an entry of the log depends on the registry and the world alone.  `Act.sequel`
says how, without sessions, variables and settings, and `Process.after_eq`
carries it through everything that a process does: the environment decides about
nothing but whether the entries are written.
-/

namespace ColumnBridge

/-! ## The end of a call -/

/-- The value that a call returns for an outcome of its body. -/
def BoundaryValue.ofOutcome {α : Type} [BoundaryValue α] : Except Error α → α
  | .ok value => value
  | .error _ => fallback

/-- The entry that closes a call. -/
def Event.closing {α : Type} [BoundaryValue α] (operation : String) :
    Except Error α → Event
  | .ok value => .returned operation (BoundaryValue.text value)
  | .error error => .failed operation error.message

/-- What a call makes of its caller for an outcome of its body. -/
def Caller.leave {α : Type} (settings : Settings) (operation : String)
    (hasVariable : Bool) (outcome : Except Error α) (c : Caller) : Caller :=
  let cleared := if hasVariable then c.clear else c
  match outcome with
  | .ok _ => cleared
  | .error error =>
    let stored := cleared.store (failureText settings operation error.message)
    if hasVariable then stored.pointAtLatest else stored

namespace Boundary

variable {α : Type} [BoundaryValue α] {settings : Settings} {thread : Nat}
  {operation : String} {hasVariable : Bool}
  {body : Session → Except Error α × Session} {b : Boundary}

theorem fst_call :
    (b.call settings thread operation hasVariable body).1 =
      BoundaryValue.ofOutcome (body b.session).1 := by
  rcases h : (body b.session).1 with error | value
  · rw [call_of_error h]
    rfl
  · rw [call_of_ok h]
    rfl

theorem session_call :
    (b.call settings thread operation hasVariable body).2.session =
      (body b.session).2.note settings
        (.closing operation (body b.session).1) := by
  rcases h : (body b.session).1 with error | value
  · rw [call_of_error h]
    rfl
  · rw [call_of_ok h]
    rfl

theorem caller_cleared_self :
    (b.cleared thread hasVariable).caller thread =
      if hasVariable then (b.caller thread).clear else b.caller thread := by
  unfold cleared
  split
  · exact caller_updateCaller_self Caller.clear
  · rfl

theorem caller_cleared_of_ne {t : Nat} (ht : t ≠ thread) :
    (b.cleared thread hasVariable).caller t = b.caller t := by
  unfold cleared
  split
  · exact caller_updateCaller_of_ne Caller.clear ht
  · rfl

theorem caller_call (t : Nat) :
    (b.call settings thread operation hasVariable body).2.caller t =
      if t = thread then
        (b.caller t).leave settings operation hasVariable (body b.session).1
      else b.caller t := by
  by_cases ht : t = thread
  · subst ht
    rw [if_pos rfl]
    rcases h : (body b.session).1 with error | value
    · rw [call_of_error h, report, caller_updateCaller_self, Caller.leave,
        ← caller_cleared_self]
    · rw [call_of_ok h, Caller.leave, ← caller_cleared_self]
  · rw [if_neg ht]
    rcases h : (body b.session).1 with error | value
    · rw [call_of_error h, report, caller_updateCaller_of_ne _ ht]
      exact caller_cleared_of_ne ht
    · rw [call_of_ok h]
      exact caller_cleared_of_ne ht

end Boundary

/-! ## Acts -/

/-- What happens at the boundary of a process, and the world of the bodies of
its calls. -/
structure Process (World : Type) where
  boundary : Boundary
  world : World

/-- What programs see of a process. -/
structure View (World : Type) where
  registry : Registry
  world : World

/-- What programs see of a process. -/
def Process.view {World : Type} (p : Process World) : View World :=
  ⟨p.boundary.session.registry, p.world⟩

/-- Something that a process does. -/
inductive Act (World : Type) : Type 1 where
  /-- Runs a program outside of any call. -/
  | run {Value : Type} (program : World → Program (Value × World))
  /-- Makes the call of an operation by a thread. -/
  | call {Value : Type} [boundaryValue : BoundaryValue Value] (thread : Nat)
      (operation : String)
      (hasVariable : Bool) (body : World → Program (Except Error Value × World))
  /-- Asks about the registry. -/
  | ask {Value : Type} (question : Registry → Value)
  /-- Sets the variable of a thread to a text, or to null. -/
  | setVariable (thread : Nat) (text? : Option String)

/-- What an act comes to: its answer, the entries that it is worth, and the view
that it leaves. -/
structure Sequel (World Answer : Type) where
  answer : Answer
  events : List Event
  view : View World

namespace Act

variable {World : Type}

/-- The type of the answer.  That of a call is the outcome of its body with the
value returned. -/
@[reducible]
def Answer : Act World → Type
  | @run _ Value _ => Value
  | @call _ Value _ _ _ _ _ => Except Error Value × Value
  | @ask _ Value _ => Value
  | setVariable _ _ => Unit

variable (settings : Settings) (allocate : Allocator)

/-- Performs an act. -/
def perform : (act : Act World) → Process World → act.Answer × Process World
  | .run program, p =>
    let ((value, world), session) :=
      (program p.world).run settings allocate p.boundary.session
    (value, ⟨{ p.boundary with session := session }, world⟩)
  | @call _ _ _ thread operation hasVariable body, p =>
    let ran := (body p.world).run settings allocate
    let ((outcome, world), _) := ran p.boundary.session
    let (value, boundary) :=
        p.boundary.call settings thread operation hasVariable fun s =>
      ((ran s).1.1, (ran s).2)
    ((outcome, value), ⟨boundary, world⟩)
  | .ask question, p => (question p.boundary.session.registry, p)
  | .setVariable thread text?, p =>
    let set := fun caller :
      Caller => text?.elim caller.clear fun text => caller.pointAt text
    ((), { p with boundary := p.boundary.updateCaller thread set })

/-- What an act comes to in a view. -/
def sequel : (act : Act World) → View World → Sequel World act.Answer
  | .run program, v =>
    let trace := (program v.world).trace allocate v.registry
    ⟨trace.result.1, trace.events, ⟨trace.registry, trace.result.2⟩⟩
  | @call _ _ _ _ operation _ body, v =>
    let trace := (body v.world).trace allocate v.registry
    let outcome := trace.result.1
    ⟨(outcome, BoundaryValue.ofOutcome outcome),
      trace.events ++ [.closing operation outcome],
        ⟨trace.registry, trace.result.2⟩⟩
  | .ask question, v => ⟨question v.registry, [], v⟩
  | .setVariable _ _, v => ⟨(), [], v⟩

/-- An act comes to its sequel, whatever the settings are. -/
theorem perform_eq_sequel (act : Act World) (p : Process World) :
    (act.perform settings allocate p).1 = (act.sequel allocate p.view).answer ∧
      (act.perform settings allocate p).2.world =
        (act.sequel allocate p.view).view.world ∧
      (act.perform settings allocate p).2.boundary.session =
        p.boundary.session.proceed settings.verbose
          (act.sequel allocate p.view).view.registry
          (act.sequel allocate p.view).events := by
  cases act with
  | run program =>
      have hrun :=
        (program p.world).run_eq_trace settings allocate p.boundary.session
      rw [perform, hrun]
      exact ⟨rfl, rfl, rfl⟩
  | call thread operation hasVariable body =>
      have hrun :=
        (body p.world).run_eq_trace settings allocate p.boundary.session
      rw [perform]
      dsimp only
      rw [Boundary.fst_call, Boundary.session_call]
      dsimp only
      rw [hrun, Session.note_eq_proceed, Session.proceed_proceed]
      exact ⟨rfl, rfl, rfl⟩
  | ask question => exact ⟨rfl, rfl, (Session.proceed_nil _ _).symm⟩
  | setVariable thread text? => exact ⟨rfl, rfl, (Session.proceed_nil _ _).symm⟩

/-- A call that fails leaves its message in the variable of its thread. -/
theorem read_perform_of_error {Value : Type} [BoundaryValue Value]
    {thread : Nat} {operation : String}
    {body : World → Program (Except Error Value × World)} {p : Process World}
    {error : Error}
    (h : ((call thread operation true body).perform settings allocate p).1.1 =
      .error error) :
    (((call thread operation true body).perform settings
      allocate p).2.boundary.caller thread).read =
      .text (failureText settings operation error.message) :=
  @Boundary.read_call_of_error Value _ settings thread operation
    (fun s => (((body p.world).run settings allocate s).1.1,
      ((body p.world).run settings allocate s).2)) p.boundary error h

/-- The act of making a call on handles. -/
def ofCall (thread : Nat) (hasVariable : Bool) (call : Call) : Act World :=
  .call thread call.operation hasVariable fun world =>
    call.program.run.bind fun outcome => .done (outcome, world)

theorem perform_ofCall (thread : Nat) (hasVariable : Bool) (call : Call)
    (p : Process World) :
    (ofCall thread hasVariable call).perform settings allocate p =
      (((call.perform settings allocate p.boundary.session).1,
          (call.exported settings allocate thread hasVariable p.boundary).1),
        ⟨(call.exported settings allocate thread hasVariable p.boundary).2,
          p.world⟩) := by
  simp only [ofCall, perform, Program.run_bind]
  rfl

end Act

/-! ## Everything that a process does -/

/-- An act, and the limit that the environment sets at that moment. -/
structure Moment (World : Type) : Type 1 where
  limit : Option String
  act : Act World

namespace Moment

variable {World : Type}

/-- Performs an act in the environment of its moment. -/
def perform (verbosity : Option String) (allocate : Allocator)
    (moment : Moment World) (p : Process World) :
    moment.act.Answer × Process World :=
  moment.act.perform (.ofEnvironment verbosity moment.limit) allocate p

/-- What programs see after acts, and the entries that these are worth. -/
def sequels (allocate : Allocator) :
    List (Moment World) → View World → List Event × View World
  | [], v => ([], v)
  | moment :: rest, v =>
    let sequel := moment.act.sequel allocate v
    let (events, last) := sequels allocate rest sequel.view
    (sequel.events ++ events, last)

end Moment

namespace Process

variable {World : Type} (verbosity : Option String) (allocate : Allocator)

/-- The process after acts. -/
def after (moments : List (Moment World)) (p : Process World) : Process World :=
  moments.foldl (fun p moment => (moment.perform verbosity allocate p).2) p

theorem after_eq (moments : List (Moment World)) (p : Process World) :
    (p.after verbosity allocate moments).world =
        (Moment.sequels allocate moments p.view).2.world ∧
      (p.after verbosity allocate moments).boundary.session =
        p.boundary.session.proceed (verbosity == some "1")
          (Moment.sequels allocate moments p.view).2.registry
          (Moment.sequels allocate moments p.view).1 := by
  induction moments generalizing p with
  | nil => exact ⟨rfl, (Session.proceed_nil _ _).symm⟩
  | cons moment rest ih =>
      obtain ⟨-, hworld, hsession⟩ :=
        moment.act.perform_eq_sequel (.ofEnvironment verbosity moment.limit)
          allocate p
      have hview : (moment.perform verbosity allocate p).2.view =
          (moment.act.sequel allocate p.view).view := by
        rw [view, Moment.perform, hworld, hsession, Session.registry_proceed]
      obtain ⟨hlast, hrest⟩ := ih (moment.perform verbosity allocate p).2
      rw [hview] at hlast hrest
      refine ⟨hlast, hrest.trans ?_⟩
      rw [Moment.perform, hsession]
      exact Session.proceed_proceed _ _ _ _ _ _

end Process
end ColumnBridge
