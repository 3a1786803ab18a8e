import ColumnBridge.Memory

/-!
# Settings of the boundary

Two settings come from the environment of the process: whether to log, and how
long the detail of an error message may be.  A text that is not a word in
decimal leaves the length at its default, and logging lifts the limit
altogether.
-/

namespace ColumnBridge

/-- How the boundary reports. -/
structure Settings where
  /-- Whether events are logged. -/
  verbose : Bool
  /-- The greatest length in bytes of the detail of a message while nothing is
  logged. -/
  limit : Nat
  deriving DecidableEq, Repr

namespace Settings

/-- The number that a decimal digit adds to those before it, if it still fits
into a word. -/
def pushDigit? (value : Nat) (c : Char) : Option Nat :=
  if c.isDigit then
    let next := value * 10 + (c.toNat - '0'.toNat)
    if next < wordBound then some next else none
  else none

/-- The word that a text of decimal digits denotes, which may follow a plus
sign. -/
def parseWord? (text : String) : Option Nat :=
  let digits := match text.toList with
    | '+' :: rest => rest
    | cs => cs
  if digits.isEmpty then none else digits.foldlM pushDigit? 0

/-- The limit that holds when none is set. -/
def defaultLimit : Nat := 4096

/-- The settings that two variables of the environment express, each of which
may be unset. -/
def ofEnvironment (verbosity limit : Option String) : Settings :=
  { verbose := verbosity == some "1"
    limit := (limit.bind parseWord?).getD defaultLimit }

/-- The limit on the detail of a message; there is none while events are
logged. -/
def detailLimit (settings : Settings) : Option Nat :=
  if settings.verbose then none else some settings.limit

end Settings
end ColumnBridge
