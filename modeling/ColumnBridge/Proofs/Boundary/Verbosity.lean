import ColumnBridge.Proofs.Boundary.Limits
import ColumnBridge.Proofs.Boundary.Process

/-!
# Verbosity

The same acts are performed twice, with the same limits at the same moments:
once in an environment in which events are logged and once in one in which they
are not.  Both runs come to the sequels of the acts, so the registry, the world
and all answers are the same.

What may differ besides the log are the texts of messages, as only the quiet run
cuts them.  No act looks at a text, so the variables of the two runs point at
messages of the same number at any time, and `Caller.Alike` is kept by
everything that a process does.
-/

namespace ColumnBridge

/-! ## Callers of the two runs -/

/-- The texts are the same, or messages about the same failure of which the
first one is cut. -/
inductive TextsAlike : String → String → Prop
  | same (text : String) : TextsAlike text text
  | cut (limit : Nat) (operation detail : String) :
      TextsAlike
        (escapeNul (Truncation.truncate (some limit) detail ++ " (in " ++
          operation ++ ")"))
        (escapeNul (detail ++ " (in " ++ operation ++ ")"))

/-- The variable shows the same in both runs, up to the cut of a message. -/
inductive Reading.Alike : Reading → Reading → Prop
  | nothing : Alike .nothing .nothing
  | text {quiet loud : String} (h : TextsAlike quiet loud) :
      Alike (.text quiet) (.text loud)
  | dangling : Alike .dangling .dangling

theorem Reading.Alike.eq_nothing_iff {quiet loud : Reading}
    (h : quiet.Alike loud) : quiet = .nothing ↔ loud = .nothing := by
  cases h <;> simp

/-- What two runs find in a variable after an operation failed with this
detail. -/
structure Reading.TellFailure (limit : Nat) (operation detail : String)
    (quiet loud : Reading) : Prop where
  quiet_eq : quiet =
    .text (escapeNul
      (Truncation.truncate (some limit) detail ++ " (in " ++ operation ++ ")"))
  loud_eq : loud = .text (escapeNul (detail ++ " (in " ++ operation ++ ")"))
  eq_of_le : detail.utf8ByteSize ≤ limit → quiet = loud

/-- The two runs have come equally far with a caller, up to the cut of its
latest message. -/
structure Caller.Alike (quiet loud : Caller) : Prop where
  pointer_eq : quiet.pointer = loud.pointer
  issued_eq : quiet.issued = loud.issued
  latest : Option.Rel TextsAlike quiet.latest loud.latest

namespace Caller

theorem alike_rfl (c : Caller) : c.Alike c where
  pointer_eq := rfl
  issued_eq := rfl
  latest := by
    cases c.latest with
    | none => exact .none
    | some text => exact .some (.same text)

namespace Alike

variable {quiet loud : Caller}

theorem clear (h : quiet.Alike loud) : quiet.clear.Alike loud.clear :=
  ⟨rfl, h.issued_eq, h.latest⟩

theorem pointAt (text : String) (h : quiet.Alike loud) :
    (quiet.pointAt text).Alike (loud.pointAt text) :=
  ⟨rfl, h.issued_eq, h.latest⟩

theorem store {text other : String} (htexts : TextsAlike text other)
    (h : quiet.Alike loud) : (quiet.store text).Alike (loud.store other) :=
  ⟨h.pointer_eq, congrArg (· + 1) h.issued_eq, .some htexts⟩

theorem pointAtLatest (h : quiet.Alike loud) :
    quiet.pointAtLatest.Alike loud.pointAtLatest :=
  ⟨congrArg ErrorPointer.message h.issued_eq, h.issued_eq, h.latest⟩

theorem read (h : quiet.Alike loud) : quiet.read.Alike loud.read := by
  rw [Caller.read, Caller.read, h.pointer_eq, h.issued_eq]
  cases loud.pointer with
  | null => exact .nothing
  | foreign text => exact .text (.same text)
  | message number =>
      have hlatest := h.latest
      generalize quiet.latest = cut at hlatest
      generalize loud.latest = whole at hlatest
      cases hlatest with
      | none => exact .dangling
      | some htexts =>
          dsimp only
          split
          · exact .text htexts
          · exact .dangling

end Alike
end Caller

/-! ## Messages of the two runs -/

variable {other : Option String}

theorem failureText_of_quiet (hother : other ≠ some "1") (limit : Option String)
    (operation detail : String) :
    failureText (.ofEnvironment other limit) operation detail =
      escapeNul (Truncation.truncate (some (Settings.limitOf limit)) detail ++
        " (in " ++ operation ++ ")") := by
  rw [failureText, Settings.detailLimit_ofEnvironment hother]

theorem failureText_of_loud (limit : Option String)
    (operation detail : String) :
    failureText (.ofEnvironment (some "1") limit) operation detail =
      escapeNul (detail ++ " (in " ++ operation ++ ")") := rfl

theorem textsAlike_failureText (hother : other ≠ some "1")
    (limit : Option String) (operation detail : String) :
    TextsAlike (failureText (.ofEnvironment other limit) operation detail)
      (failureText (.ofEnvironment (some "1") limit) operation detail) := by
  rw [failureText_of_quiet hother, failureText_of_loud]
  exact .cut _ operation detail

/-- A call leaves alike what it finds alike. -/
theorem Caller.Alike.leave {α : Type} {quiet loud : Caller}
    (hother : other ≠ some "1") (limit : Option String) (operation : String)
    (hasVariable : Bool) (outcome : Except Error α) (h : quiet.Alike loud) :
    (quiet.leave (.ofEnvironment other limit) operation
      hasVariable outcome).Alike (loud.leave (.ofEnvironment (some "1") limit)
      operation hasVariable outcome) := by
  rcases outcome with error | value
  · have htexts := textsAlike_failureText hother limit operation error.message
    cases hasVariable
    · exact h.store htexts
    · exact (h.clear.store htexts).pointAtLatest
  · cases hasVariable
    · exact h
    · exact h.clear

/-! ## Processes of the two runs -/

/-- Programs see the same in both runs, and their callers are alike. -/
structure Process.Alike {World : Type} (quiet loud : Process World) : Prop where
  view_eq : quiet.view = loud.view
  callers : ∀ thread,
    (quiet.boundary.caller thread).Alike (loud.boundary.caller thread)

namespace Process

variable {World : Type} {allocate : Allocator} {quiet loud : Process World}

theorem alike_rfl (p : Process World) : p.Alike p :=
  ⟨rfl, fun _ => Caller.alike_rfl _⟩

theorem Alike.perform (hother : other ≠ some "1") (moment : Moment World)
    (h : quiet.Alike loud) :
    (moment.perform other allocate quiet).1 =
      (moment.perform (some "1") allocate loud).1 ∧
      (moment.perform other allocate quiet).2.Alike
        (moment.perform (some "1") allocate loud).2 := by
  obtain ⟨limit, act⟩ := moment
  obtain ⟨hanswer, hworld, hsession⟩ :=
    act.perform_eq_sequel (.ofEnvironment other limit) allocate quiet
  obtain ⟨hanswer', hworld', hsession'⟩ :=
    act.perform_eq_sequel (.ofEnvironment (some "1") limit) allocate loud
  refine ⟨?_, ?_, ?_⟩
  · rw [Moment.perform, Moment.perform, hanswer, hanswer', h.view_eq]
  · rw [view, view, Moment.perform, Moment.perform, hworld, hworld', hsession,
      hsession', Session.registry_proceed, Session.registry_proceed, h.view_eq]
  · intro t
    cases act with
    | run program => exact h.callers t
    | call thread operation hasVariable body =>
        have houtcome :=
          congrArg Prod.fst (hanswer.trans (h.view_eq ▸ hanswer'.symm))
        simp only [Moment.perform, Act.perform] at houtcome ⊢
        rw [Boundary.caller_call, Boundary.caller_call, houtcome]
        split
        · exact (h.callers t).leave hother limit operation hasVariable _
        · exact h.callers t
    | ask question => exact h.callers t
    | setVariable thread text? =>
        simp only [Moment.perform, Act.perform, Boundary.updateCaller]
        split
        · cases text? with
          | none => exact (h.callers t).clear
          | some text => exact (h.callers t).pointAt text
        · exact h.callers t

theorem Alike.after (hother : other ≠ some "1") (moments : List (Moment World))
    (h : quiet.Alike loud) :
    (quiet.after other allocate moments).Alike
      (loud.after (some "1") allocate moments) := by
  induction moments generalizing quiet loud with
  | nil => exact h
  | cons moment rest ih => exact ih (h.perform hother moment).2

/-- The messages of the two runs about the failure of a call with a variable. -/
theorem Alike.tellFailure {Value : Type} [BoundaryValue Value]
    (hother : other ≠ some "1") (limit : Option String) (thread : Nat)
    (operation : String) (body : World → Program (Except Error Value × World))
    {error : Error} (h : quiet.Alike loud)
    (hfails : ((Moment.mk limit (.call thread operation true body)).perform
      other allocate quiet).1.1 = .error error) :
    Reading.TellFailure (Settings.limitOf limit) operation error.message
      (((Moment.mk limit (.call thread operation true body)).perform other
        allocate quiet).2.boundary.caller thread).read
      (((Moment.mk limit (.call thread operation true body)).perform
        (some "1") allocate loud).2.boundary.caller thread).read := by
  have houtcome := (congrArg Prod.fst (h.perform hother _).1).symm.trans hfails
  have hquiet :=
    Act.read_perform_of_error (.ofEnvironment other limit) allocate hfails
  have hloud := Act.read_perform_of_error (.ofEnvironment (some "1") limit)
      allocate houtcome
  rw [failureText_of_quiet hother] at hquiet
  rw [failureText_of_loud] at hloud
  refine ⟨hquiet, hloud, ?_⟩
  intro hle
  refine hquiet.trans (Eq.trans ?_ hloud.symm)
  rw [Truncation.truncate_eq_self hle]

/-- The same acts come to the same registry, world and answers whether events
are logged or not.  A variable is null in both runs or in neither.  After a
failure it shows the whole detail where events are logged and what the limit
leaves of it where they are not.  The quiet run writes nothing, and the other
one the entries of its acts, in order. -/
theorem verbosity_only_observes (hother : other ≠ some "1")
    (allocate : Allocator) (start : Process World)
    (past : List (Moment World)) : let quiet := start.after other allocate past
    let loud := start.after (some "1") allocate past
    quiet.view = loud.view ∧
    (∀ thread,
      ((quiet.boundary.caller thread).read = .nothing ↔
        (loud.boundary.caller thread).read = .nothing) ∧
      (quiet.boundary.caller thread).read.Alike
        (loud.boundary.caller thread).read) ∧
    quiet.boundary.session.log = start.boundary.session.log ∧
    loud.boundary.session.log =
      start.boundary.session.log ++
        (Moment.sequels allocate past start.view).1 ∧
    (∀ moment : Moment World,
      (moment.perform other allocate quiet).1 =
        (moment.perform (some "1") allocate loud).1) ∧
    ∀ (Value : Type) [BoundaryValue Value] (limit : Option String)
      (thread : Nat) (operation : String) (body : World →
      Program (Except Error Value × World)) (error : Error),
      let moment : Moment World := ⟨limit, .call thread operation true body⟩
      (moment.perform other allocate quiet).1.1 = .error error →
      Reading.TellFailure (Settings.limitOf limit) operation error.message
        ((moment.perform other allocate quiet).2.boundary.caller thread).read
        ((moment.perform (some "1") allocate loud).2.boundary.caller
          thread).read := by
  intro quiet loud
  have halike : quiet.Alike loud := (alike_rfl start).after hother past
  obtain ⟨-, hquiet⟩ := start.after_eq other allocate past
  obtain ⟨-, hloud⟩ := start.after_eq (some "1") allocate past
  refine ⟨halike.view_eq, ?_, ?_, ?_, ?_, ?_⟩
  · intro thread
    have hread := (halike.callers thread).read
    exact ⟨hread.eq_nothing_iff, hread⟩
  · rw [hquiet, beq_false_of_ne hother]
    exact List.append_nil _
  · rw [hloud]
    rfl
  · intro moment
    exact (halike.perform hother moment).1
  · intro Value _ limit thread operation body error moment hfails
    exact halike.tellFailure hother limit thread operation body hfails

/-- An allocator that gives out every sixteenth address. -/
def sampleAllocator : Allocator := fun n => ⟨.ofNat (16 * (n + 1))⟩

/-- A process whose world is the number of fits so far. -/
def sampleProcess : Process Nat := ⟨.fresh, 0⟩

/-- An integer is adopted, taken for a table by a call, and released. -/
def sampleMoments : List (Moment Nat) :=
  [⟨none, .run fun fits => .adopt ⟨.integer, 7⟩ fun handle =>
      .done (handle, fits)⟩, ⟨some "9", .call 0 "fit" true fun fits =>
      .fetch .table ⟨16⟩ fun answer =>
        .done (answer.map fun _ => (), fits + 1)⟩,
    ⟨some "9", .setVariable 1 (some "earlier")⟩,
    ⟨none, .ofCall 1 true (.releaseObject ⟨16⟩)⟩]

/-- The handle of the integer is released once more. -/
def sampleRelease : Moment Nat :=
  ⟨some "14", .call 1 "releaseObject" true fun fits =>
    .release ⟨16⟩ fun answer => .done (answer, fits)⟩

theorem verbosity_only_observes_sampleMoments :
    let quiet := sampleProcess.after (some "0") sampleAllocator sampleMoments
    let loud := sampleProcess.after (some "1") sampleAllocator sampleMoments
    quiet.world = 1 ∧ loud.world = 1 ∧
    quiet.boundary.session.log = [] ∧
    loud.boundary.session.log.map Event.text =
      ["registry: adopted i64 at 0x10",
        "fit: failed with unsupported type: handle 0x10 does not refer to a " ++
          "polars_core::frame::DataFrame",
        "registry: released 0x10", "releaseObject: returning ()"] ∧
    ((sampleRelease.perform (some "0") sampleAllocator quiet).2.boundary.caller
      1).read =
      .text "unknown handle (in releaseObject)" ∧
    ((sampleRelease.perform (some "1") sampleAllocator loud).2.boundary.caller
      1).read =
      .text "unknown handle 0x10 (in releaseObject)" := by
  intro quiet loud
  have hother : some "0" ≠ some "1" := by
    decide
  have hworld : quiet.world = 1 := by
    decide +kernel
  have hfails : (sampleRelease.perform (some "0") sampleAllocator quiet).1.1 =
      Except.error (.unknownHandle ⟨16⟩) := by
    rfl
  obtain ⟨hview, -, hquiet, hloud, -, htells⟩ :=
    verbosity_only_observes hother sampleAllocator sampleProcess sampleMoments
  have hread := htells Unit (some "14") 1 "releaseObject" _ _ hfails
  refine ⟨hworld, (congrArg View.world hview).symm.trans hworld, hquiet,
    ?_, ?_, ?_⟩
  · rw [hloud]
    decide +kernel
  · refine hread.quiet_eq.trans ?_
    decide +kernel
  · refine hread.loud_eq.trans ?_
    decide +kernel

end Process
end ColumnBridge
