import ColumnBridge.Learning

/-!
# Dialogues with a foreign library

What an operation asks of the library may depend on every answer before, so the
calls it makes cannot be listed in advance.  A dialogue is the tree of its
requests, one branch for each answer.  It does not mention a library: the same
tree is performed with any of them, and a request that fails ends it.

A library need not remember what it was asked.  `Backend.recorder` is a library
that answers as the given one and lists the exchanges, which shows that an
operation makes no other calls than those of its dialogue.
-/

namespace ColumnBridge

variable {σ Model ForeignArray α : Type}

/-- Every run ends as an outcome does that leaves the library alone. -/
theorem Learning.exists_run_eq (operation : EStateM Error σ α) (s : σ) :
    ∃ outcome s', operation.run s = (ofExcept outcome).run s' := by
  cases h : operation.run s with
  | ok value s' => exact ⟨.ok value, s', rfl⟩
  | error error s' => exact ⟨.error error, s', rfl⟩

/-- An outcome and the state of the library can be told from the end of a
run. -/
theorem Learning.run_ofExcept_inj {outcome outcome' : Except Error α} {s s' : σ}
    (h : (ofExcept outcome).run s = (ofExcept outcome').run s') :
    outcome = outcome' ∧ s = s' := by
  cases outcome with
  | ok value =>
      cases outcome' with
      | ok value' =>
          cases h
          exact ⟨rfl, rfl⟩
      | error error' => cases h
  | error error =>
      cases outcome' with
      | ok value' => cases h
      | error error' =>
          cases h
          exact ⟨rfl, rfl⟩

namespace Backend

/-! ## Requests and answers -/

/-- A call of one of the functions of a library, with its arguments. -/
inductive Request (Model ForeignArray : Type) where
  | exportMatrix (matrix : DenseMatrix)
  | exportVector (matrix : DenseMatrix)
  | importVector (array : ForeignArray) (name : String)
  | importMatrix (array : ForeignArray)
  | fit (model : Model) (xs y : ForeignArray)
  | score (model : Model) (xs y : ForeignArray)
  | predict (model : Model) (xs : ForeignArray)
  | confusionMatrix (truth predicted : ForeignArray)

/-- What a request is answered with if it does not fail. -/
@[reducible]
def Request.Answer : Request Model ForeignArray → Type
  | .exportMatrix _ => ForeignArray
  | .exportVector _ => ForeignArray
  | .importVector _ _ => Column
  | .importMatrix _ => DenseMatrix
  | .fit _ _ _ => Unit
  | .score _ _ _ => Binary64
  | .predict _ _ => ForeignArray
  | .confusionMatrix _ _ => ForeignArray

/-- The library as one function of the request. -/
def ask (backend : Backend σ Model ForeignArray) :
    (request : Request Model ForeignArray) → EStateM Error σ request.Answer
  | .exportMatrix matrix => backend.exportMatrix matrix
  | .exportVector matrix => backend.exportVector matrix
  | .importVector array name => backend.importVector array name
  | .importMatrix array => backend.importMatrix array
  | .fit model xs y => backend.fit model xs y
  | .score model xs y => backend.score model xs y
  | .predict model xs => backend.predict model xs
  | .confusionMatrix truth predicted => backend.confusionMatrix truth predicted

/-- The library given by one function of the request. -/
def ofAsk (ask : (request : Request Model ForeignArray) →
      EStateM Error σ request.Answer) :
    Backend σ Model ForeignArray :=
  { exportMatrix := fun matrix => ask (.exportMatrix matrix)
    exportVector := fun matrix => ask (.exportVector matrix)
    importVector := fun array name => ask (.importVector array name)
    importMatrix := fun array => ask (.importMatrix array)
    fit := fun model xs y => ask (.fit model xs y)
    score := fun model xs y => ask (.score model xs y)
    predict := fun model xs => ask (.predict model xs)
    confusionMatrix :=
      fun truth predicted => ask (.confusionMatrix truth predicted) }

theorem ask_ofAsk (f : (request : Request Model ForeignArray) →
      EStateM Error σ request.Answer)
    (request : Request Model ForeignArray) :
    (ofAsk f).ask request = f request := by
  cases request <;> rfl

/-! ## Exchanges -/

/-- A request, and the answer or the error it met with. -/
structure Exchange (Model ForeignArray : Type) where
  request : Request Model ForeignArray
  answer : Except Error request.Answer

/-- The request did not fail. -/
def Exchange.Succeeded (exchange : Exchange Model ForeignArray) : Prop :=
  ∃ answer, exchange.answer = .ok answer

/-- The library meets the requests in this way, one after the other, and is led
from the first state to the second. -/
inductive Meets (backend : Backend σ Model ForeignArray) :
    List (Exchange Model ForeignArray) → σ → σ → Prop
  | nil (s : σ) : Meets backend [] s s
  | cons {request : Request Model ForeignArray}
      {answer : Except Error request.Answer}
      {log : List (Exchange Model ForeignArray)} {s s₁ s₂ : σ}
      (hrequest : (backend.ask request).run s =
        (Learning.ofExcept answer).run s₁)
      (hlog : Meets backend log s₁ s₂) :
      Meets backend (⟨request, answer⟩ :: log) s s₂

/-- Makes a request of the library and lists the exchange. -/
def record (backend : Backend σ Model ForeignArray)
    (request : Request Model ForeignArray) :
    EStateM Error (σ × List (Exchange Model ForeignArray)) request.Answer :=
  fun (s, log) =>
  match (backend.ask request).run s with
  | .ok answer s => .ok answer (s, log ++ [⟨request, .ok answer⟩])
  | .error error s => .error error (s, log ++ [⟨request, .error error⟩])

/-- The library that also lists the exchanges. -/
def recorder (backend : Backend σ Model ForeignArray) :
    Backend (σ × List (Exchange Model ForeignArray)) Model ForeignArray :=
  ofAsk backend.record

theorem run_ask_recorder {backend : Backend σ Model ForeignArray}
    {request : Request Model ForeignArray}
    {answer : Except Error request.Answer} {s s₁ : σ}
    (h : (backend.ask request).run s = (Learning.ofExcept answer).run s₁)
    (log : List (Exchange Model ForeignArray)) :
    (backend.recorder.ask request).run (s, log) =
      (Learning.ofExcept answer).run (s₁, log ++ [⟨request, answer⟩]) := by
  rw [recorder, ask_ofAsk, EStateM.run, record, h]
  cases answer <;> rfl

/-- An operation, begun with the library in the first state, has this outcome
and leaves the second, and the exchanges on the way are exactly the listed
ones. -/
structure Conducts (backend : Backend σ Model ForeignArray)
    (operation : ∀ τ : Type, Backend τ Model ForeignArray → EStateM Error τ α)
    (s : σ) (log : List (Exchange Model ForeignArray))
    (outcome : Except Error α) (s' : σ) : Prop where
  run_eq : (operation σ backend).run s = (Learning.ofExcept outcome).run s'
  run_recorder_eq : (operation _ backend.recorder).run (s, []) =
    (Learning.ofExcept outcome).run (s', log)
  meets : backend.Meets log s s'

/-- How an operation is conducted can be told from its run with a recorder. -/
theorem Conducts.eq_of_run_recorder {backend : Backend σ Model ForeignArray}
    {operation : ∀ τ : Type, Backend τ Model ForeignArray → EStateM Error τ α}
    {s s' t : σ} {log log' : List (Exchange Model ForeignArray)}
    {outcome outcome' : Except Error α}
    (h : backend.Conducts operation s log outcome s')
    (hrun : (operation _ backend.recorder).run (s, []) =
      (Learning.ofExcept outcome').run (t, log')) :
    log = log' ∧ outcome = outcome' ∧ s' = t := by
  obtain ⟨houtcome, hend⟩ :=
    Learning.run_ofExcept_inj (h.run_recorder_eq.symm.trans hrun)
  obtain ⟨hstate, hlog⟩ := Prod.mk.inj hend
  exact ⟨hlog, houtcome, hstate⟩

end Backend

open Backend

/-! ## Dialogues -/

/-- What an operation asks of a library, step by step. -/
inductive Dialogue (Model ForeignArray α : Type) where
  | done (outcome : Except Error α)
  | ask (request : Request Model ForeignArray)
      (next : request.Answer → Dialogue Model ForeignArray α)

namespace Dialogue

/-- Performs a dialogue with a library. -/
def perform (backend : Backend σ Model ForeignArray) :
    Dialogue Model ForeignArray α → EStateM Error σ α
  | .done outcome => Learning.ofExcept outcome
  | .ask request next => do
    let answer ← backend.ask request
    (next answer).perform backend

/-- A conversion that may fail, and a dialogue about its result. -/
def convert {β : Type} (result : Except Error β)
    (next : β → Dialogue Model ForeignArray α) :
    Dialogue Model ForeignArray α :=
  match result with
  | .ok value => next value
  | .error error => .done (.error error)

/-- A single request, whose answer is the outcome. -/
def single (request : Request Model ForeignArray) :
    Dialogue Model ForeignArray request.Answer :=
  .ask request fun answer => .done (.ok answer)

/-! ## The course of a dialogue -/

/-- The exchanges of a dialogue from its first request on, and the outcome they
lead to. -/
inductive Course : Dialogue Model ForeignArray α →
    List (Exchange Model ForeignArray) → Except Error α → Prop
  | done (outcome : Except Error α) : Course (.done outcome) [] outcome
  | failed {request : Request Model ForeignArray}
      {next : request.Answer → Dialogue Model ForeignArray α} (error : Error) :
      Course (.ask request next) [⟨request, .error error⟩] (.error error)
  | answered {request : Request Model ForeignArray}
      {next : request.Answer → Dialogue Model ForeignArray α}
      (answer : request.Answer)
      {log : List (Exchange Model ForeignArray)} {outcome : Except Error α}
      (hnext : Course (next answer) log outcome) :
      Course (.ask request next) (⟨request, .ok answer⟩ :: log) outcome

theorem Course.of_single {request : Request Model ForeignArray}
    {log : List (Exchange Model ForeignArray)}
    {outcome : Except Error request.Answer}
    (h : (single request).Course log outcome) : log = [⟨request, outcome⟩] := by
  cases h with
  | failed error => rfl
  | answered answer hnext =>
      cases hnext
      rfl

/-! ## Performing a dialogue -/

theorem perform_convert {β : Type} (backend : Backend σ Model ForeignArray)
    (result : Except Error β) (next : β → Dialogue Model ForeignArray α) :
    (convert result next).perform backend =
      Learning.ofExcept result >>= fun value =>
        (next value).perform backend := by
  cases result <;> rfl

theorem perform_single (backend : Backend σ Model ForeignArray)
    (request : Request Model ForeignArray) :
    (single request).perform backend = backend.ask request :=
  bind_pure (backend.ask request)

section

variable {backend : Backend σ Model ForeignArray}
  {request : Request Model ForeignArray} {s s₁ : σ}

theorem run_perform_ask_of_error {error : Error}
    (h : (backend.ask request).run s =
      (Learning.ofExcept (.error error)).run s₁)
    (next : request.Answer → Dialogue Model ForeignArray α) :
    ((ask request next).perform backend).run s =
      (Learning.ofExcept (.error error)).run s₁ := by
  rw [perform, EStateM.run_bind, h]
  rfl

theorem run_perform_ask_of_ok {answer : request.Answer}
    (h : (backend.ask request).run s = (Learning.ofExcept (.ok answer)).run s₁)
    (next : request.Answer → Dialogue Model ForeignArray α) :
    ((ask request next).perform backend).run s =
      ((next answer).perform backend).run s₁ := by
  rw [perform, EStateM.run_bind, h]
  rfl

end

/-- A dialogue that is performed takes one of its courses, and a recorder lists
the exchanges. -/
theorem exists_course (dialogue : Dialogue Model ForeignArray α)
    (backend : Backend σ Model ForeignArray) (s : σ)
    (before : List (Exchange Model ForeignArray)) :
    ∃ log outcome s', dialogue.Course log outcome ∧
      (dialogue.perform backend).run s = (Learning.ofExcept outcome).run s' ∧
      (dialogue.perform backend.recorder).run (s, before) =
        (Learning.ofExcept outcome).run (s', before ++ log) ∧
      backend.Meets log s s' := by
  -- The recorder has listed the exchanges of before when the rest of a dialogue
  -- begins.
  induction dialogue generalizing s before with
  | done outcome =>
      refine ⟨[], outcome, s, .done outcome, rfl, ?_, .nil s⟩
      rw [List.append_nil]
      rfl
  | ask request next ih =>
      obtain ⟨answer, s₁, hrequest⟩ :=
        Learning.exists_run_eq (backend.ask request) s
      have hrecorded := run_ask_recorder hrequest before
      cases answer with
      | error error =>
          exact ⟨[⟨request, .error error⟩], .error error, s₁, .failed error,
            run_perform_ask_of_error hrequest next,
              run_perform_ask_of_error hrecorded next,
            .cons hrequest (.nil s₁)⟩
      | ok answer =>
          obtain ⟨log, outcome, s', hcourse, hrun, hrest, hmeets⟩ :=
            ih answer s₁ (before ++ [⟨request, .ok answer⟩])
          refine ⟨⟨request, .ok answer⟩ :: log, outcome, s',
            .answered answer hcourse, ?_, ?_, .cons hrequest hmeets⟩
          · rw [run_perform_ask_of_ok hrequest, hrun]
          · rw [run_perform_ask_of_ok hrecorded, hrest, List.append_assoc,
              List.singleton_append]

/-- An operation that performs a dialogue conducts one of its courses. -/
theorem exists_conducts {operation : ∀ τ : Type, Backend τ Model ForeignArray →
      EStateM Error τ α}
    {dialogue : Dialogue Model ForeignArray α}
    (h : ∀ τ (backend : Backend τ Model ForeignArray),
      operation τ backend = dialogue.perform backend)
    (backend : Backend σ Model ForeignArray) (s : σ) :
    ∃ log outcome s', dialogue.Course log outcome ∧
      backend.Conducts operation s log outcome s' := by
  obtain ⟨log, outcome, s', hcourse, hrun, hrecorded, hmeets⟩ :=
    dialogue.exists_course backend s []
  rw [← h] at hrun hrecorded
  exact ⟨log, outcome, s', hcourse, hrun, hrecorded, hmeets⟩

/-- An operation that performs no request leaves the library alone. -/
theorem conducts_of_done {operation : ∀ τ : Type, Backend τ Model ForeignArray →
      EStateM Error τ α}
    {outcome : Except Error α}
    (h : ∀ τ (backend : Backend τ Model ForeignArray),
      operation τ backend = (done outcome).perform backend)
    (backend : Backend σ Model ForeignArray) (s : σ) :
    backend.Conducts operation s [] outcome s := by
  obtain ⟨log, outcome', s', hcourse, hconducts⟩ := exists_conducts h backend s
  cases hcourse
  cases hconducts.meets
  exact hconducts

end Dialogue
end ColumnBridge
