import ColumnBridge.Call.Basic
import ColumnBridge.Proofs.Handle.Contents

/-!
# Calls as functions of the live objects

A call is a program of atomic accesses.  Performed without interruption it does
much less than a program could: it reads the live objects, computes, and makes
at most one change to the registry, which comes last.  `Call.effect` is the
computation, a function of the finite map of live objects alone, and
`Effect.enact` makes the change; by `Call.perform_eq_enact` the two together are
all that performing a call does.
-/

namespace ColumnBridge

/-! ## Running actions -/

namespace Action

variable {α β : Type} (settings : Settings) (allocate : Allocator)

@[simp]
theorem run_ofExcept (outcome : Except Error α) (s : Session) :
    (Action.ofExcept outcome).run.run settings allocate s = (outcome, s) := rfl

@[simp]
theorem run_fetch (kind : Kind) (handle : Address) (s : Session) :
    (Action.fetch kind handle).run.run settings allocate s =
      (s.registry.contents.value kind handle, s) := by
  rw [← Registry.fetch_eq_value]
  rfl

@[simp]
theorem run_release (handle : Address) (s : Session) :
    (Action.release handle).run.run settings allocate s =
      s.release settings handle := rfl

/-- An action that continues another one runs where that one ends, and not at
all after an error. -/
theorem run_bind (x : Action α) (f : α → Action β) (s : Session) :
    (x >>= f).run.run settings allocate s =
      match x.run.run settings allocate s with
      | (.ok a, s') => (f a).run.run settings allocate s'
      | (.error error, s') => (.error error, s') := by
  rw [ExceptT.run_bind]
  refine (Program.run_bind settings allocate x.run _ s).trans ?_
  rcases x.run.run settings allocate s with ⟨_ | _, _⟩ <;> rfl

end Action

/-- Resolving several handles reads the map once for each of them, up to the
first failure. -/
theorem Call.run_fetchColumns (settings : Settings) (allocate : Allocator)
    (handles : List Address) (s : Session) :
    (fetchColumns handles).run.run settings allocate s =
      (handles.mapM (s.registry.contents.value .column), s) := by
  induction handles with
  | nil => rfl
  | cons handle rest ih =>
      rw [fetchColumns, List.mapM_cons, Action.run_bind, Action.run_fetch]
      cases s.registry.contents.value .column handle with
      | error error => rfl
      | ok column =>
          simp only [Action.run_bind, ih]
          cases rest.mapM (s.registry.contents.value .column) <;> rfl

/-! ## Effects -/

/-- What a call does once all that can fail has succeeded. -/
inductive Effect (α : Type) where
  /-- It hands out an object, and its answer depends on the new handle. -/
  | create (object : Object) (answer : Address → α)
  /-- It gives up the object behind a live handle. -/
  | remove (handle : Address) (answer : α)
  /-- It answers. -/
  | read (answer : α)

/-- Carries out an effect on a session; a failure leaves the session as it
is. -/
def Effect.enact {α : Type} (settings : Settings) (allocate : Allocator)
    (s : Session) : Except Error (Effect α) → Except Error α × Session
  | .ok (.create object answer) =>
    (.ok (answer (allocate s.registry.issued)),
      (s.adopt settings allocate object).2)
  | .ok (.remove handle answer) => (.ok answer, (s.release settings handle).2)
  | .ok (.read answer) => (.ok answer, s)
  | .error error => (.error error, s)

/-- An action that begins with a computation from the session it is run in, and
then enacts an effect, enacts the effect of the whole computation. -/
theorem Action.run_bind_eq_enact {α β : Type} {settings : Settings}
    {allocate : Allocator} {s : Session} {x : Action α}
    {outcome : Except Error α}
    (hx : x.run.run settings allocate s = (outcome, s)) {f : α → Action β}
    {g : α → Except Error (Effect β)}
    (hf : ∀ a, (f a).run.run settings allocate s =
      Effect.enact settings allocate s (g a)) :
    (x >>= f).run.run settings allocate s =
      Effect.enact settings allocate s (outcome >>= g) := by
  rw [run_bind, hx]
  cases outcome with
  | ok a => exact hf a
  | error error => rfl

namespace Call

/-- What a call does, computed from the live objects. -/
def effect (m : LiveObjects) : (call : Call) → Except Error (Effect call.Result)
  | .oneHotEncode column => do
    let column ← m.value .column column
    let table ← OneHot.encode column
    return .create ⟨.table, table⟩ id
  | .releaseObject handle =>
    if handle ∈ m then
      .ok (.remove handle ())
    else .error (.unknownHandle handle)
  | .columnFromDoubles data name => do
    let values ← data.read
    let name ← name.readName
    return .create ⟨.column, .ofDoubles name values⟩ id
  | .columnFromStrings data name => do
    let arguments ← data.read
    let name ← name.readName
    let texts ← TextArgument.readAll arguments
    return .create ⟨.column, .ofSlots name .string texts⟩ id
  | .tableFromColumns columns => do
    let handles ← columns.read
    let columns ← handles.mapM (m.value .column)
    let table ← tableOf columns
    return .create ⟨.table, table⟩ id
  | .tableNumRows table => do
    let table ← m.value .table table
    return .read table.height
  | .tableNumColumns table => do
    let table ← m.value .table table
    return .read table.width
  | .tableColumnAt table index => do
    let table ← m.value .table table
    let column ← columnAt table index
    return .create ⟨.column, column⟩ id
  | .columnLength column => do
    let column ← m.value .column column
    return .read column.length
  | .columnDoubleAt column index => do
    let column ← m.value .column column
    let x ← column.doubleAt index
    return .read x

/-- Performing a call computes its effect from the live objects and enacts
it. -/
theorem perform_eq_enact (settings : Settings) (allocate : Allocator)
    (call : Call) (s : Session) :
    call.perform settings allocate s =
      Effect.enact settings allocate s (call.effect s.registry.contents) := by
  cases call with
  | oneHotEncode column =>
      refine Action.run_bind_eq_enact (Action.run_fetch _ _ .column column s)
        fun column => ?_
      exact Action.run_bind_eq_enact (Action.run_ofExcept _ _ _ s) fun table =>
        rfl
  | releaseObject handle =>
      simp only [perform, program, effect, Action.run_release]
      by_cases h : handle ∈ s.registry.contents
      · rw [if_pos h, ← Prod.mk.eta (p := s.release settings handle),
          Session.release_of_mem settings h]
        rfl
      · rw [if_neg h, Session.release_of_notMem settings h]
        rfl
  | columnFromDoubles data name =>
      refine Action.run_bind_eq_enact (Action.run_ofExcept _ _ _ s)
        fun values => ?_
      exact Action.run_bind_eq_enact (Action.run_ofExcept _ _ _ s) fun name =>
        rfl
  | columnFromStrings data name =>
      refine Action.run_bind_eq_enact (Action.run_ofExcept _ _ _ s)
        fun arguments => ?_
      refine Action.run_bind_eq_enact (Action.run_ofExcept _ _ _ s) fun name =>
        ?_
      exact Action.run_bind_eq_enact (Action.run_ofExcept _ _ _ s) fun texts =>
        rfl
  | tableFromColumns columns =>
      refine Action.run_bind_eq_enact (Action.run_ofExcept _ _ _ s)
        fun handles => ?_
      refine Action.run_bind_eq_enact (run_fetchColumns _ _ handles s)
        fun columns => ?_
      exact Action.run_bind_eq_enact (Action.run_ofExcept _ _ _ s) fun table =>
        rfl
  | tableNumRows table =>
      exact Action.run_bind_eq_enact (Action.run_fetch _ _ .table table s)
        fun table => rfl
  | tableNumColumns table =>
      exact Action.run_bind_eq_enact (Action.run_fetch _ _ .table table s)
        fun table => rfl
  | tableColumnAt table index =>
      refine Action.run_bind_eq_enact (Action.run_fetch _ _ .table table s)
        fun table => ?_
      exact Action.run_bind_eq_enact (Action.run_ofExcept _ _ _ s) fun column =>
        rfl
  | columnLength column =>
      exact Action.run_bind_eq_enact (Action.run_fetch _ _ .column column s)
        fun column => rfl
  | columnDoubleAt column index =>
      refine Action.run_bind_eq_enact (Action.run_fetch _ _ .column column s)
        fun column => ?_
      simp only [Action.run_ofExcept]
      cases column.doubleAt index <;> rfl

end Call

/-! ## Handles that calls return -/

/-- Whatever a computation returns has a property. -/
def Ensures {α : Type} (P : α → Prop) (x : Except Error α) : Prop :=
  ∀ a, x = .ok a → P a

theorem ensures_pure {α : Type} {P : α → Prop} {a : α} (h : P a) :
    Ensures P (pure a) := by
  intro b hb
  obtain rfl : a = b := Except.ok.inj hb
  exact h

theorem ensures_bind {α β : Type} {P : β → Prop} {x : Except Error α}
    {f : α → Except Error β} (h : ∀ a, Ensures P (f a)) :
    Ensures P (x >>= f) := by
  rcases x with error | a
  · intro b hb
    cases hb
  · exact h a

/-- The handle that an answer consists of, if the call is one that hands out an
object. -/
def Call.returnedHandle? : (call : Call) → call.Result → Option Address
  | .oneHotEncode _, handle => some handle
  | .releaseObject _, _ => none
  | .columnFromDoubles _ _, handle => some handle
  | .columnFromStrings _ _, handle => some handle
  | .tableFromColumns _, handle => some handle
  | .tableNumRows _, _ => none
  | .tableNumColumns _, _ => none
  | .tableColumnAt _ _, handle => some handle
  | .columnLength _, _ => none
  | .columnDoubleAt _ _, _ => none

/-- An effect answers with a handle exactly if it hands out an object, and with
the handle of that object. -/
def Effect.Returns {α : Type} (handle? : α → Option Address) : Effect α → Prop
  | .create _ answer => ∀ handle, handle? (answer handle) = some handle
  | .remove _ answer => handle? answer = none
  | .read answer => handle? answer = none

theorem Call.returns_effect (call : Call) (m : LiveObjects) :
    Ensures (Effect.Returns call.returnedHandle?) (call.effect m) := by
  cases call with
  | oneHotEncode column =>
      exact ensures_bind fun _ => ensures_bind fun _ =>
        ensures_pure fun _ => rfl
  | releaseObject handle =>
      intro e he
      rw [effect] at he
      split at he
      · cases he
        exact Eq.refl none
      · cases he
  | columnFromDoubles data name =>
      exact ensures_bind fun _ => ensures_bind fun _ =>
        ensures_pure fun _ => rfl
  | columnFromStrings data name =>
      exact ensures_bind fun _ => ensures_bind fun _ => ensures_bind fun _ =>
        ensures_pure fun _ => rfl
  | tableFromColumns columns =>
      exact ensures_bind fun _ => ensures_bind fun _ => ensures_bind fun _ =>
        ensures_pure fun _ => rfl
  | tableNumRows table => exact ensures_bind fun _ => ensures_pure rfl
  | tableNumColumns table => exact ensures_bind fun _ => ensures_pure rfl
  | tableColumnAt table index =>
      exact ensures_bind fun _ => ensures_bind fun _ =>
        ensures_pure fun _ => rfl
  | columnLength column => exact ensures_bind fun _ => ensures_pure rfl
  | columnDoubleAt column index =>
      exact ensures_bind fun _ => ensures_bind fun _ => ensures_pure rfl

end ColumnBridge
