import ColumnBridge.Error

/-!
# Foreign arguments

A foreign caller passes texts and sequences by address.  A text ends at its
first NUL byte and has to be UTF-8; a sequence comes with its length, and may be
null when that is zero.
-/

namespace ColumnBridge

/-- The bytes from an address on, unless it is null. -/
structure TextArgument where
  bytes : Option (List UInt8)
  deriving DecidableEq, Repr

namespace TextArgument

/-- The text at the address, if it is not null. -/
def read (argument : TextArgument) : Except Error (Option String) :=
  match argument.bytes with
  | none => .ok none
  | some bytes =>
    match Utf8.decode (bytes.takeWhile (· ≠ 0)) with
    | .ok text => .ok (some text)
    | .error malformation => .error (.malformedText malformation)

/-- The text at the address as the name of a column, which it must not be
without. -/
def readName (argument : TextArgument) : Except Error String :=
  match argument.read with
  | .ok (some name) => .ok name
  | .ok none => .error .nullName
  | .error error => .error error

/-- The texts at several addresses, up to the first that is not UTF-8. -/
def readAll : List TextArgument → Except Error (List (Option String))
  | [] => .ok []
  | argument :: rest =>
    match argument.read with
    | .error error => .error error
    | .ok text =>
      match readAll rest with
      | .error error => .error error
      | .ok texts => .ok (text :: texts)

end TextArgument

/-- A sequence passed as an address, unless it is null, and a length that the
sequence at that address has at least. -/
structure Buffer (α : Type) where
  items : Option (List α)
  length : Nat
  deriving DecidableEq, Repr

/-- The sequence that is passed. -/
def Buffer.read {α : Type} (buffer : Buffer α) : Except Error (List α) :=
  if buffer.length = 0 then .ok []
  else match buffer.items with
    | none => .error (.nullBuffer buffer.length)
    | some items => .ok (items.take buffer.length)

end ColumnBridge
