import ColumnBridge.Proofs.Boundary.Outcome

/-!
# Threads that call at the same time

Calls of several threads overlap.  A call is taken apart here into the three
steps between which other threads may run: the error variable is set to null,
the body runs, and its outcome is returned or reported.  A thread makes its
calls one after the other, and before each of them it may do with its variable
what it likes, except that it sets the variable to null itself if it does not
pass it.

What a thread has been told so far is a matter of its own: a step touches no
caller but its own, and the variable of a thread that is between two calls shows
how the latest one ended.
-/

namespace ColumnBridge

/-! ## Calls -/

/-- A call that a thread is going to make. -/
structure Invocation where
  settings : Settings
  operation : String
  hasVariable : Bool
  /-- The text that the variable is pointed at before the call, if it is changed
  at all. -/
  stale? : Option String
  Value : Type
  boundaryValue : BoundaryValue Value
  body : Session → Except Error Value × Session

attribute [instance] Invocation.boundaryValue

namespace Invocation

/-- What the thread does with its variable before the call. -/
def prepare (call : Invocation) (caller : Caller) : Caller :=
  if call.hasVariable then
    call.stale?.elim caller fun text => caller.pointAt text
  else caller.clear

/-- The value that is returned for an outcome of the body. -/
def result (call : Invocation) : Except Error call.Value → call.Value
  | .ok value => value
  | .error _ => BoundaryValue.fallback

/-- What is left in the variable for an outcome of the body. -/
def reading (call : Invocation) : Except Error call.Value → Reading
  | .ok _ => .nothing
  | .error error =>
    if call.hasVariable then
      .text (failureText call.settings call.operation error.message)
    else .nothing

/-- The outcome of the body does not depend on what the threads do to the
session. -/
def Determinate (call : Invocation) : Prop :=
  ∀ s s' : Session, (call.body s).1 = (call.body s').1

end Invocation

/-- The variable reads this, and a text in it is the latest message that its
thread stores. -/
structure Caller.Shows (caller : Caller) (reading : Reading) : Prop where
  read_eq : caller.read = reading
  owned : ∀ text, reading = .text text →
    caller.pointer = .message caller.issued ∧ caller.latest = some text

theorem Caller.shows_nothing_iff {caller : Caller} :
    caller.Shows .nothing ↔ caller.pointer = .null := by
  constructor
  · intro h
    exact read_eq_nothing_iff.mp h.read_eq
  · intro h
    refine ⟨read_eq_nothing_iff.mpr h, ?_⟩
    rintro text ⟨⟩

/-! ## The steps of a call -/

namespace Boundary

variable {b : Boundary} {thread other : Nat} {call : Invocation}

/-- The thread prepares its variable, and the call sets it to null. -/
def enter (thread : Nat) (call : Invocation) (b : Boundary) : Boundary :=
  (b.updateCaller thread call.prepare).cleared thread call.hasVariable

/-- The call returns what its body returned, or reports the error of its
body. -/
def leave (thread : Nat) (call : Invocation) (outcome : Except Error call.Value)
    (b : Boundary) : call.Value × Boundary :=
  match outcome with
  | .ok value =>
    let event := .returned call.operation (BoundaryValue.text value)
    (value, { b with session := b.session.note call.settings event })
  | .error error =>
    let event := .failed call.operation error.message
    let b := { b with session := b.session.note call.settings event }
    (BoundaryValue.fallback,
      b.report call.settings thread call.operation call.hasVariable
        error.message)

/-- The three steps without a pause between them are the call as a whole. -/
theorem leave_enter (b : Boundary) (thread : Nat) (call : Invocation) :
    leave thread call (call.body b.session).1
        { b.enter thread call with session := (call.body b.session).2 } =
      (b.updateCaller thread call.prepare).call call.settings thread
        call.operation call.hasVariable call.body := by
  have hsession : (b.updateCaller thread call.prepare).session = b.session :=
    session_updateCaller _
  rcases h : (call.body b.session).1 with error | value
  · rw [call_of_error (hsession ▸ h), hsession]
    rfl
  · rw [call_of_ok (hsession ▸ h), hsession]
    rfl

theorem session_enter : (b.enter thread call).session = b.session := by
  rw [enter, session_cleared, session_updateCaller]

theorem pointer_enter_self :
    ((b.enter thread call).caller thread).pointer = .null := by
  rw [enter, cleared]
  split
  · rw [caller_updateCaller_self]
    rfl
  next hnone =>
    rw [caller_updateCaller_self, Invocation.prepare, if_neg hnone]
    rfl

theorem caller_enter_congr {b' : Boundary}
    (h : b.caller thread = b'.caller thread) :
    (b.enter thread call).caller thread =
      (b'.enter thread call).caller thread := by
  rw [enter, enter, cleared, cleared]
  split <;> simp only [caller_updateCaller_self, h]

theorem caller_enter_of_ne (h : other ≠ thread) :
    (b.enter thread call).caller other = b.caller other := by
  rw [enter, cleared]
  split
  · rw [caller_updateCaller_of_ne _ h, caller_updateCaller_of_ne _ h]
  · rw [caller_updateCaller_of_ne _ h]

theorem fst_leave (outcome : Except Error call.Value) :
    (b.leave thread call outcome).1 = call.result outcome := by
  cases outcome <;> rfl

/-- A call leaves in a variable that is null what its outcome determines. -/
theorem shows_leave_self (h : (b.caller thread).pointer = .null)
    (outcome : Except Error call.Value) :
    ((b.leave thread call outcome).2.caller thread).Shows
      (call.reading outcome) := by
  rcases outcome with error | value
  · rw [leave, Invocation.reading]
    dsimp only
    rw [report, caller_updateCaller_self]
    by_cases hvariable : call.hasVariable = true
    · simp only [if_pos hvariable]
      refine ⟨Caller.read_pointAtLatest_store _ _, ?_⟩
      rintro text ⟨⟩
      exact ⟨rfl, rfl⟩
    · simp only [if_neg hvariable]
      exact Caller.shows_nothing_iff.mpr h
  · exact Caller.shows_nothing_iff.mpr h

theorem caller_leave_congr {b' : Boundary}
    (h : b.caller thread = b'.caller thread)
    (outcome : Except Error call.Value) :
    (b.leave thread call outcome).2.caller thread =
      (b'.leave thread call outcome).2.caller thread := by
  rcases outcome with error | value
  · simp only [leave, report, caller_updateCaller_self, h]
  · exact h

theorem caller_leave_of_ne (h : other ≠ thread)
    (outcome : Except Error call.Value) :
    (b.leave thread call outcome).2.caller other = b.caller other := by
  rcases outcome with error | value
  · simp only [leave, report, caller_updateCaller_of_ne _ h]
  · rfl

end Boundary

/-! ## Threads -/

/-- Where a thread stands. -/
inductive Phase where
  /-- Between two calls. -/
  | idle
  /-- The body of the call is about to run. -/
  | entered (call : Invocation)
  /-- The body has run, and the call is about to return. -/
  | decided (call : Invocation) (outcome : Except Error call.Value)

/-- The call that is being made. -/
def Phase.calls : Phase → List Invocation
  | .idle => []
  | .entered call => [call]
  | .decided call _ => [call]

/-- A call that has returned. -/
structure Return where
  call : Invocation
  outcome : Except Error call.Value
  value : call.Value

/-- A thread with the calls that it has made, the one that it is making and
those that it is going to make. -/
structure Thread where
  returned : List Return
  phase : Phase
  due : List Invocation

namespace Thread

/-- A thread that has not called yet. -/
def start (calls : List Invocation) : Thread := ⟨[], .idle, calls⟩

/-- All calls of the thread, in the order in which it makes them. -/
def calls (thread : Thread) : List Invocation :=
  thread.returned.map Return.call ++ thread.phase.calls ++ thread.due

/-- What the latest call has left in the variable, or nothing while a call is
being made. -/
def reading (thread : Thread) : Reading :=
  match thread.phase with
  | .idle =>
    thread.returned.getLast?.elim .nothing fun latest =>
      latest.call.reading latest.outcome
  | _ => .nothing

/-- The thread has no call left to make. -/
def Finished (thread : Thread) : Prop := thread.phase = .idle ∧ thread.due = []

/-- The next step of the thread of that number. -/
def step (number : Nat) (b : Boundary) : Thread → Boundary × Thread
  | ⟨returned, .idle, []⟩ => (b, ⟨returned, .idle, []⟩)
  | ⟨returned, .idle, call :: due⟩ =>
    (b.enter number call, ⟨returned, .entered call, due⟩)
  | ⟨returned, .entered call, due⟩ =>
    let (outcome, session) := call.body b.session
    ({ b with session := session }, ⟨returned, .decided call outcome, due⟩)
  | ⟨returned, .decided call outcome, due⟩ =>
    let (value, b) := b.leave number call outcome
    (b, ⟨returned ++ [⟨call, outcome, value⟩], .idle, due⟩)

variable {b b' : Boundary} {number other : Nat} {thread : Thread}
  {calls : List Invocation}

theorem step_of_finished (h : thread.Finished) :
    thread.step number b = (b, thread) := by
  obtain ⟨returned, phase, due⟩ := thread
  obtain ⟨rfl, rfl⟩ := h
  rfl

/-- A step touches no caller but that of its thread. -/
theorem caller_step_of_ne (h : other ≠ number) :
    (thread.step number b).1.caller other = b.caller other := by
  obtain ⟨returned, phase, due⟩ := thread
  cases phase with
  | idle =>
      cases due with
      | nil => rfl
      | cons call due => exact Boundary.caller_enter_of_ne h
  | entered call => rfl
  | decided call outcome => exact Boundary.caller_leave_of_ne h outcome

/-- What a step does to its thread depends on the caller of the thread alone, as
long as the outcomes of bodies do not depend on the session. -/
theorem step_congr (h : b.caller number = b'.caller number)
    (hcalls : ∀ call ∈ thread.calls, call.Determinate) :
    (thread.step number b).2 = (thread.step number b').2 ∧
      (thread.step number b).1.caller number =
        (thread.step number b').1.caller number := by
  obtain ⟨returned, phase, due⟩ := thread
  cases phase with
  | idle =>
      cases due with
      | nil => exact ⟨rfl, h⟩
      | cons call due => exact ⟨rfl, Boundary.caller_enter_congr h⟩
  | entered call =>
      have hcall : call.Determinate :=
        hcalls call (by simp [calls, Phase.calls])
      refine ⟨?_, h⟩
      simp only [step]
      rw [hcall b.session b'.session]
  | decided call outcome =>
      refine ⟨?_, Boundary.caller_leave_congr h outcome⟩
      simp only [step, Boundary.fst_leave]

/-- The thread makes these calls in their order, each of them returned what an
outcome of its body determines, and the variable of the thread shows how the
latest one ended. -/
structure Attributed (calls : List Invocation) (thread : Thread)
    (caller : Caller) : Prop where
  calls_eq : thread.calls = calls
  decided : ∀ call outcome, thread.phase = .decided call outcome →
    ∃ s, (call.body s).1 = outcome
  returned : ∀ r ∈ thread.returned,
    (∃ s, (r.call.body s).1 = r.outcome) ∧ r.value = r.call.result r.outcome
  shows : caller.Shows thread.reading

theorem attributed_start {caller : Caller} (h : caller.pointer = .null) :
    Attributed calls (start calls) caller where
  calls_eq := rfl
  decided := by
    rintro call outcome ⟨⟩
  returned := by
    rintro r ⟨⟩
  shows := Caller.shows_nothing_iff.mpr h

/-- A step of the thread keeps its calls attributed. -/
theorem Attributed.step (h : Attributed calls thread (b.caller number)) :
    Attributed calls (thread.step number b).2
      ((thread.step number b).1.caller number) := by
  obtain ⟨returned, phase, due⟩ := thread
  obtain ⟨hcalls, hdecided, hreturned, hshows⟩ := h
  cases phase with
  | idle =>
      cases due with
      | nil => exact ⟨hcalls, hdecided, hreturned, hshows⟩
      | cons call due =>
          refine ⟨?_, ?_, hreturned,
            Caller.shows_nothing_iff.mpr Boundary.pointer_enter_self⟩
          · simpa [Thread.step, Thread.calls, Phase.calls] using hcalls
          · rintro call outcome ⟨⟩
  | entered call =>
      refine ⟨?_, ?_, hreturned, hshows⟩
      · simpa [Thread.step, Thread.calls, Phase.calls] using hcalls
      · rintro _ _ ⟨⟩
        exact ⟨b.session, rfl⟩
  | decided call outcome =>
      -- The variable was set to null when the call began, and no one has
      -- touched it since.
      have hnull : (b.caller number).pointer = .null :=
        Caller.shows_nothing_iff.mp hshows
      refine ⟨?_, ?_, ?_, ?_⟩
      · simpa [Thread.step, Thread.calls, Phase.calls] using hcalls
      · rintro call outcome ⟨⟩
      · intro r hr
        rcases List.mem_append.mp hr with hr | hr
        · exact hreturned r hr
        · obtain rfl := List.mem_singleton.mp hr
          exact ⟨hdecided call outcome rfl, Boundary.fst_leave outcome⟩
      · simpa [Thread.step,
          Thread.reading] using Boundary.shows_leave_self hnull outcome

end Thread
end ColumnBridge
