/-!
# Cutting a text to a number of bytes

A text is cut by the length of its UTF-8 encoding, but never inside a character:
the cut moves back to the last place where a character ends.
-/

namespace ColumnBridge.Truncation

/-- The characters that a number of bytes encode, if the bytes end where a
character does. -/
def takeBytes? : Nat → List Char → Option (List Char)
  | 0, _ => some []
  | _ + 1, [] => none
  | n + 1, c :: rest =>
    if c.utf8Size ≤ n + 1 then
      (takeBytes? (n + 1 - c.utf8Size) rest).map (c :: ·)
    else none

/-- Whether a character ends after a number of bytes, or none has begun. -/
def isBoundary (text : List Char) (bytes : Nat) : Bool :=
  (takeBytes? bytes text).isSome

/-- The last boundary at or before a number of bytes. -/
def floorBoundary (text : List Char) : Nat → Nat
  | 0 => 0
  | n + 1 => if isBoundary text (n + 1) then n + 1 else floorBoundary text n

/-- The text cut to at most `limit` bytes, if there is a limit and the text
exceeds it. -/
def truncate (limit : Option Nat) (text : String) : String :=
  match limit with
  | none => text
  | some limit =>
    if limit < text.utf8ByteSize then
      String.ofList
        ((takeBytes? (floorBoundary text.toList limit) text.toList).getD [])
    else text

end ColumnBridge.Truncation
