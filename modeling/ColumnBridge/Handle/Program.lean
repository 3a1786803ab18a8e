import ColumnBridge.Handle.Session

/-!
# Programs over a registry

A program is a sequence of atomic accesses to a registry, each of which may
depend on the answers of those before.  Calls on handles are written as
programs, so that the accesses of several callers can be interleaved;
`Program.run` performs the accesses of one program without interruption, and
`Program.advance` performs the first of them.
-/

namespace ColumnBridge

/-- A computation that accesses a registry step by step. -/
inductive Program (α : Type) where
  | done (result : α)
  | adopt (object : Object) (next : Address → Program α)
  | fetch (kind : Kind) (handle : Address)
      (next : Except Error kind.Carrier → Program α)
  | release (handle : Address) (next : Except Error Unit → Program α)

namespace Program

/-- Continues a program with one that depends on its result. -/
protected def bind {α β : Type} : Program α → (α → Program β) → Program β
  | .done result, f => f result
  | .adopt object next, f => .adopt object fun handle => (next handle).bind f
  | .fetch kind handle next, f =>
    .fetch kind handle fun answer => (next answer).bind f
  | .release handle next, f =>
    .release handle fun answer => (next answer).bind f

instance : Monad Program where
  pure := .done
  bind := Program.bind

@[simp]
theorem bind_done {α : Type} (p : Program α) : p.bind .done = p := by
  induction p with
  | done result => rfl
  | adopt object next ih => exact congrArg (Program.adopt object) (funext ih)
  | fetch kind handle next ih =>
      exact congrArg (Program.fetch kind handle) (funext ih)
  | release handle next ih =>
      exact congrArg (Program.release handle) (funext ih)

theorem bind_assoc {α β γ : Type} (p : Program α) (f : α → Program β)
    (g : β → Program γ) :
    (p.bind f).bind g = p.bind fun result => (f result).bind g := by
  induction p with
  | done result => rfl
  | adopt object next ih => exact congrArg (Program.adopt object) (funext ih)
  | fetch kind handle next ih =>
      exact congrArg (Program.fetch kind handle) (funext ih)
  | release handle next ih =>
      exact congrArg (Program.release handle) (funext ih)

instance : LawfulMonad Program :=
  LawfulMonad.mk' Program bind_done (fun _ _ => rfl) bind_assoc

/-! ## Execution -/

variable {α : Type} (settings : Settings) (allocate : Allocator)

/-- Performs the first access of a program; a program that is done stays as it
is. -/
def advance (p : Program α) (s : Session) : Program α × Session :=
  match p with
  | .done result => (.done result, s)
  | .adopt object next =>
    let (handle, s) := s.adopt settings allocate object
    (next handle, s)
  | .fetch kind handle next => (next (s.registry.fetch kind handle), s)
  | .release handle next =>
    let (answer, s) := s.release settings handle
    (next answer, s)

/-- Performs all accesses of a program without interruption. -/
def run : Program α → Session → α × Session
  | .done result, s => (result, s)
  | .adopt object next, s =>
    let (handle, s) := s.adopt settings allocate object
    (next handle).run s
  | .fetch kind handle next, s => (next (s.registry.fetch kind handle)).run s
  | .release handle next, s =>
    let (answer, s) := s.release settings handle
    (next answer).run s

/-- A program that continues another one runs after it, in the session that it
leaves. -/
theorem run_bind {β : Type} (p : Program α) (f : α → Program β) (s : Session) :
    (p.bind f).run settings allocate s =
      (f (p.run settings allocate s).1).run settings allocate
        (p.run settings allocate s).2 := by
  induction p generalizing s with
  | done result => rfl
  | adopt object next ih => exact ih _ _
  | fetch kind handle next ih => exact ih _ _
  | release handle next ih => exact ih _ _

/-- Performing the first access does not change what a run of the whole program
does. -/
theorem run_advance (p : Program α) (s : Session) :
    (p.advance settings allocate s).1.run settings allocate
      (p.advance settings allocate s).2 =
      p.run settings allocate s := by
  cases p <;> rfl

/-- The result of a program that is done. -/
def result? : Program α → Option α
  | .done result => some result
  | _ => none

end Program

/-! ## Programs that fail -/

/-- A program that ends with an error or a result. -/
abbrev Action (α : Type) : Type := ExceptT Error Program α

namespace Action

/-- Takes ownership of a value and gives it a handle. -/
def adopt (kind : Kind) (value : kind.Carrier) : Action Address :=
  ExceptT.mk (.adopt ⟨kind, value⟩ fun handle => .done (.ok handle))

/-- The value of the given kind behind a handle. -/
def fetch (kind : Kind) (handle : Address) : Action kind.Carrier :=
  ExceptT.mk (.fetch kind handle .done)

/-- Gives up the object behind a handle. -/
def release (handle : Address) : Action Unit :=
  ExceptT.mk (.release handle .done)

/-- A computation without accesses. -/
def ofExcept {α : Type} (outcome : Except Error α) : Action α :=
  ExceptT.mk (.done outcome)

end Action
end ColumnBridge
