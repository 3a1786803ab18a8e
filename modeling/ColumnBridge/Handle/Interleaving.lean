import ColumnBridge.Handle.Program

/-!
# Interleaved programs

Several threads share one session.  Each runs a program of its own, and a
schedule says whose access comes next; every access is one step.
-/

namespace ColumnBridge

/-- A session that threads share, with what each thread has left to do. -/
structure Machine (α : Type) where
  session : Session
  threads : List (Program α)

namespace Machine

variable {α : Type} (settings : Settings) (allocate : Allocator)

/-- Performs the next access of one thread.  A thread that is done or does not
exist does nothing. -/
def step (m : Machine α) (thread : Nat) : Machine α :=
  match m.threads[thread]? with
  | none => m
  | some p =>
    let (p, session) := p.advance settings allocate m.session
    { session := session, threads := m.threads.set thread p }

/-- Performs accesses in the order of a schedule. -/
def follow (m : Machine α) (schedule : List Nat) : Machine α :=
  schedule.foldl (step settings allocate) m

/-- The results of the threads that are done. -/
def results (m : Machine α) : List α := m.threads.filterMap Program.result?

/-- The schedule in which the threads take turns for a number of rounds. -/
def takingTurns (threads rounds : Nat) : List Nat :=
  (List.replicate rounds (List.range threads)).flatten

end Machine

/-! ## Private objects -/

namespace Program

/-- Adopts an integer, fetches it and releases it, and says whether the same
integer was fetched and then released. -/
def round (value : Int64) : Program Bool :=
  .adopt ⟨.integer, value⟩ fun handle =>
    .fetch .integer handle fun fetched =>
      .release handle fun released =>
        .done <| match fetched, released with
          | .ok found, .ok () => found == value
          | _, _ => false

/-- Performs a number of rounds with different integers, and counts the
successful ones. -/
def rounds (value : Nat → Int64) : Nat → Program Nat
  | 0 => .done 0
  | n + 1 => do
    let succeeded ← round (value n)
    let others ← rounds value n
    pure (others + if succeeded then 1 else 0)

/-- The number of accesses of a round. -/
def roundLength : Nat := 3

end Program
end ColumnBridge
