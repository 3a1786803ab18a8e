import ColumnBridge.Proofs.Boundary.Threads

/-!
# Messages belong to calls

Any number of threads call at one boundary, and a schedule says whose step comes
next.  At every moment each of them has been told about its own calls and about
nothing else: a variable shows how the latest call of its thread ended, and the
text in it is still the one that the thread stores.

What a thread is told cannot depend on the others.  After a number of steps of
its own it stands where it would stand if it had been alone, provided that the
outcomes of its bodies do not depend on what others do to the session.  Two
schedules that let every thread come equally far, or that let all of them
finish, therefore return the same values and leave the same variables.
-/

namespace ColumnBridge

/-- The threads that call at a boundary. -/
structure Traffic where
  boundary : Boundary
  thread : Nat → Thread

namespace Traffic

variable {traffic other : Traffic} {number : Nat}
  {calls : Nat → List Invocation} {b : Boundary}

/-- Threads that have not called yet. -/
def start (b : Boundary) (calls : Nat → List Invocation) : Traffic :=
  ⟨b, fun number => .start (calls number)⟩

/-- Lets one thread make its next step. -/
def step (traffic : Traffic) (number : Nat) : Traffic :=
  let (boundary, thread) := (traffic.thread number).step number traffic.boundary
  ⟨boundary, Function.update traffic.thread number thread⟩

/-- Lets threads make steps in the order of a schedule. -/
def follow (traffic : Traffic) (schedule : List Nat) : Traffic :=
  schedule.foldl step traffic

theorem follow_append_singleton (traffic : Traffic) (schedule : List Nat)
    (number : Nat) :
    traffic.follow (schedule ++ [number]) =
      (traffic.follow schedule).step number :=
  List.foldl_concat ..

theorem follow_append (traffic : Traffic) (schedule rest : List Nat) :
    traffic.follow (schedule ++ rest) = (traffic.follow schedule).follow rest :=
  List.foldl_append ..

/-! ## One step -/

theorem boundary_step :
    (traffic.step number).boundary =
      ((traffic.thread number).step number traffic.boundary).1 := rfl

theorem thread_step_self :
    (traffic.step number).thread number =
      ((traffic.thread number).step number traffic.boundary).2 :=
  Function.update_self ..

theorem thread_step_of_ne {u : Nat} (h : u ≠ number) :
    (traffic.step number).thread u = traffic.thread u :=
  Function.update_of_ne h ..

theorem caller_step_of_ne {u : Nat} (h : u ≠ number) :
    (traffic.step number).boundary.caller u = traffic.boundary.caller u :=
  Thread.caller_step_of_ne h

/-- A call that is not interrupted is the call as a whole. -/
theorem step_step_step {returned : List Return} {call : Invocation}
    {due : List Invocation}
    (h : traffic.thread number = ⟨returned, .idle, call :: due⟩) :
    let whole := (traffic.boundary.updateCaller number call.prepare).call
      call.settings number call.operation call.hasVariable call.body
    (((traffic.step number).step number).step number).boundary = whole.2 ∧
      (((traffic.step number).step number).step number).thread number =
        ⟨returned ++ [⟨call, (call.body traffic.boundary.session).1, whole.1⟩],
          .idle, due⟩ := by
  have hthread₁ :
      (traffic.step number).thread number = ⟨returned, .entered call, due⟩ := by
    rw [thread_step_self, h]
    rfl
  have hboundary₁ :
      (traffic.step number).boundary = traffic.boundary.enter number call := by
    rw [boundary_step, h]
    rfl
  have hthread₂ : ((traffic.step number).step number).thread number =
      ⟨returned, .decided call (call.body traffic.boundary.session).1,
        due⟩ := by
    rw [thread_step_self, hthread₁, hboundary₁, Thread.step,
      Boundary.session_enter]
  have hboundary₂ : ((traffic.step number).step number).boundary =
      { traffic.boundary.enter number call with
        session := (call.body traffic.boundary.session).2 } := by
    rw [boundary_step, hthread₁, hboundary₁, Thread.step,
      Boundary.session_enter]
  constructor
  · rw [boundary_step, hthread₂, hboundary₂, Thread.step, Boundary.leave_enter]
  · rw [thread_step_self, hthread₂, hboundary₂, Thread.step,
      Boundary.leave_enter]

theorem step_of_finished (h : (traffic.thread number).Finished) :
    traffic.step number = traffic := by
  rw [step, Thread.step_of_finished h]
  dsimp only
  rw [Function.update_eq_self]

/-! ## Runs -/

/-- Every thread has been told about its own calls. -/
theorem attributed_follow (hnull : ∀ number, (b.caller number).pointer = .null)
    (schedule : List Nat) (number : Nat) :
    Thread.Attributed (calls number) (((start b calls).follow schedule).thread
      number) (((start b calls).follow schedule).boundary.caller number) := by
  induction schedule using List.reverseRecOn with
  | nil => exact Thread.attributed_start (hnull number)
  | append_singleton schedule moved ih =>
      rw [follow_append_singleton]
      by_cases hmoved : number = moved
      · subst hmoved
        rw [thread_step_self]
        exact ih.step
      · rw [thread_step_of_ne hmoved, caller_step_of_ne hmoved]
        exact ih

/-- The thread stands at the same place, and its caller has the same variable
and messages. -/
structure AgreesAt (number : Nat) (traffic other : Traffic) : Prop where
  thread_eq : traffic.thread number = other.thread number
  caller_eq : traffic.boundary.caller number = other.boundary.caller number

theorem AgreesAt.step (h : AgreesAt number traffic other)
    (hcalls : ∀ call ∈ (traffic.thread number).calls, call.Determinate) :
    AgreesAt number (traffic.step number) (other.step number) := by
  obtain ⟨hthread, hcaller⟩ := Thread.step_congr h.caller_eq hcalls
  constructor
  · rw [thread_step_self, thread_step_self, hthread, h.thread_eq]
  · rw [boundary_step, boundary_step, hcaller, h.thread_eq]

/-- A thread stands where it would stand if it had been alone. -/
theorem agreesAt_replicate (hcalls : ∀ call ∈ calls number, call.Determinate)
    (hnull : ∀ number, (b.caller number).pointer = .null)
    (schedule : List Nat) : AgreesAt number ((start b calls).follow schedule)
      ((start b calls).follow
        (List.replicate (schedule.count number) number)) := by
  -- The schedule grows at its end: a step of another thread changes nothing
  -- here, and a step of this one is also the next step of the run in which it
  -- is alone.
  induction schedule using List.reverseRecOn with
  | nil => exact ⟨rfl, rfl⟩
  | append_singleton schedule moved ih =>
      rw [follow_append_singleton, List.count_append]
      by_cases hmoved : number = moved
      · subst hmoved
        rw [List.count_singleton_self, List.replicate_succ',
          follow_append_singleton]
        apply ih.step
        rwa [(attributed_follow hnull schedule number).calls_eq]
      · rw [List.count_singleton, if_neg (by simpa using Ne.symm hmoved),
          Nat.add_zero]
        exact ⟨(thread_step_of_ne hmoved).trans ih.thread_eq,
          (caller_step_of_ne hmoved).trans ih.caller_eq⟩

/-- A thread that is alone and has finished changes nothing any more. -/
theorem follow_replicate_of_finished {least count : Nat} (hle : least ≤ count)
    (h : ((traffic.follow (List.replicate least number)).thread
      number).Finished) :
    traffic.follow (List.replicate count number) =
      traffic.follow (List.replicate least number) := by
  induction count, hle using Nat.le_induction with
  | base => rfl
  | succ count hle ih =>
      rw [List.replicate_succ', follow_append_singleton, ih, step_of_finished h]

/-- Two schedules that let a thread make equally many steps, or that let it
finish, agree about it. -/
theorem agreesAt_follow (hcalls : ∀ call ∈ calls number, call.Determinate)
    (hnull : ∀ number, (b.caller number).pointer = .null)
    {schedule other : List Nat}
    (h : schedule.count number = other.count number ∨
      (((start b calls).follow schedule).thread number).Finished ∧
        (((start b calls).follow other).thread number).Finished) :
    AgreesAt number ((start b calls).follow schedule)
      ((start b calls).follow other) := by
  have hschedule := agreesAt_replicate hcalls hnull schedule
  have hother := agreesAt_replicate hcalls hnull other
  have hcounts :
      (start b calls).follow (List.replicate (schedule.count number) number) =
      (start b calls).follow (List.replicate (other.count number) number) := by
    rcases h with hcount | ⟨hfinished, hfinished'⟩
    · rw [hcount]
    · rw [hschedule.thread_eq] at hfinished
      rw [hother.thread_eq] at hfinished'
      rcases Nat.le_total (schedule.count number) (other.count number) with
        hle | hle
      · exact (follow_replicate_of_finished hle hfinished).symm
      · exact follow_replicate_of_finished hle hfinished'
  rw [hcounts] at hschedule
  exact ⟨hschedule.thread_eq.trans hother.thread_eq.symm,
    hschedule.caller_eq.trans hother.caller_eq.symm⟩

/-- In whatever order threads make the steps of their calls, a thread between
two calls finds in its variable how the latest of them ended: nothing if there
is none, if it succeeded or if it came without a variable, and otherwise the
message about that very failure, which the thread still stores.  Two schedules
under which it comes equally far, or finishes, return the same values to it and
leave it the same variable.  The steps of a call that is not interrupted are the
call. -/
theorem messages_belong_to_calls (b : Boundary)
    (hnull : ∀ number, (b.caller number).pointer = .null)
    (calls : Nat → List Invocation) (schedule : List Nat) :
    (∀ number, Thread.Attributed (calls number)
      (((start b calls).follow schedule).thread number)
      (((start b calls).follow schedule).boundary.caller number)) ∧
    (∀ (other : List Nat) (number : Nat),
      (∀ call ∈ calls number, call.Determinate) →
      (schedule.count number = other.count number ∨
        (((start b calls).follow schedule).thread number).Finished ∧
          (((start b calls).follow other).thread number).Finished) →
      AgreesAt number ((start b calls).follow schedule)
        ((start b calls).follow other)) ∧
    ∀ (number : Nat) (returned : List Return) (call : Invocation)
      (due : List Invocation),
      ((start b calls).follow schedule).thread number =
        ⟨returned, .idle, call :: due⟩ →
        let now := ((start b calls).follow schedule).boundary
        let whole := (now.updateCaller number call.prepare).call call.settings
          number call.operation call.hasVariable call.body
        let next :=
          (start b calls).follow (schedule ++ [number, number, number])
        next.boundary = whole.2 ∧ next.thread number =
          ⟨returned ++ [⟨call, (call.body now.session).1, whole.1⟩],
            .idle, due⟩ := by
  refine ⟨attributed_follow hnull schedule, ?_, ?_⟩
  · intro other number hcalls h
    exact agreesAt_follow hcalls hnull h
  · intro number returned call due hdue
    rw [follow_append]
    exact step_step_step hdue

/-- A call that succeeds. -/
def sampleLength : Invocation :=
  ⟨⟨false, 4096⟩, "length", true, none, Nat, inferInstance, fun s => (.ok 3, s)⟩

/-- A call that fails, whose variable points at a text of the caller before. -/
def sampleFit : Invocation :=
  ⟨⟨false, 4096⟩, "fit", true, some "earlier", Unit, inferInstance,
    fun s => (.error (.foreignRuntime "singular"), s)⟩

/-- A call that fails without a variable. -/
def sampleRelease : Invocation :=
  ⟨⟨false, 4096⟩, "release", false, none, Unit, inferInstance,
    fun s => (.error (.unknownHandle ⟨16⟩), s)⟩

/-- The calls of two threads. -/
def sampleCalls : Nat → List Invocation
  | 0 => [sampleLength, sampleFit]
  | 1 => [sampleFit, sampleRelease]
  | _ => []

/-- The calls of the threads one after the other. -/
def sampleTurns : Traffic :=
  (start .fresh sampleCalls).follow [0, 0, 0, 1, 1, 1, 0, 0, 0, 1, 1, 1]

/-- The same calls at the same time. -/
def sampleOverlap : Traffic :=
  (start .fresh sampleCalls).follow [0, 1, 0, 1, 1, 0, 1, 0, 0, 1, 1, 0]

theorem determinate_of_mem_sampleCalls {number : Nat} {call : Invocation}
    (h : call ∈ sampleCalls number) : call.Determinate := by
  have hcall :
      call = sampleLength ∨ call = sampleFit ∨ call = sampleRelease := by
    match number, h with
    | 0, h =>
        simpa [sampleCalls, or_assoc] using Or.inl (b := call = sampleRelease) h
    | 1, h => simpa [sampleCalls] using Or.inr (a := call = sampleLength) h
    | _ + 2, h => cases h
  rcases hcall with rfl | rfl | rfl <;> exact fun _ _ => rfl

theorem messages_belong_to_sampleCalls :
    (∀ number, (Boundary.fresh.caller number).pointer = .null) ∧
      (∀ number, ∀ call ∈ sampleCalls number, call.Determinate) ∧
      (sampleOverlap.boundary.caller 0).read =
        .text "foreign runtime failure: singular (in fit)" ∧
      (sampleOverlap.boundary.caller 1).read = .nothing ∧
      AgreesAt 0 sampleTurns sampleOverlap ∧
        AgreesAt 1 sampleTurns sampleOverlap ∧
      ((start .fresh sampleCalls).follow [0, 0, 0]).boundary =
        ((Boundary.fresh.updateCaller 0 sampleLength.prepare).call
          ⟨false, 4096⟩ 0 "length" true sampleLength.body).2 := by
  have hnull : ∀ number, (Boundary.fresh.caller number).pointer = .null :=
    fun _ => rfl
  have hcalls : ∀ number, ∀ call ∈ sampleCalls number, call.Determinate :=
    fun _ _ => determinate_of_mem_sampleCalls
  obtain ⟨hattributed, -, -⟩ := messages_belong_to_calls .fresh hnull
    sampleCalls [0, 1, 0, 1, 1, 0, 1, 0, 0, 1, 1, 0]
  obtain ⟨-, hagrees, -⟩ := messages_belong_to_calls .fresh hnull sampleCalls
    [0, 0, 0, 1, 1, 1, 0, 0, 0, 1, 1, 1]
  obtain ⟨-, -, hwhole⟩ := messages_belong_to_calls .fresh hnull sampleCalls []
  refine ⟨hnull, hcalls, ?_, ?_, hagrees _ 0 (hcalls 0) (Or.inl (by decide)),
    hagrees _ 1 (hcalls 1) (Or.inr ⟨⟨rfl, rfl⟩, rfl, rfl⟩),
    (hwhole 0 [] sampleLength [sampleFit] rfl).1⟩
  · refine (hattributed 0).shows.read_eq.trans ?_
    decide
  · exact (hattributed 1).shows.read_eq

end Traffic
end ColumnBridge
