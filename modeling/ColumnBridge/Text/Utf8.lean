/-!
# Decoding UTF-8

Bytes are read one at a time.  Between two characters the next byte must be able
to begin one; it then fixes how many bytes are owed and in which range each of
them lies.  The ranges leave out overlong forms, surrogates and values above the
last code point, so every payload that is completed is a character.  A refusal
says where the character it broke began, and how many of its bytes could have
begun one.
-/

namespace ColumnBridge.Utf8

/-- A range of byte values, both ends included. -/
structure ByteRange where
  low : UInt8
  high : UInt8
  deriving DecidableEq, Repr

/-- Whether a byte lies in the range. -/
def ByteRange.contains (r : ByteRange) (b : UInt8) : Bool :=
  r.low ≤ b && b ≤ r.high

/-- The range of a byte that continues a character. -/
def tail : ByteRange := ⟨0x80, 0xBF⟩

/-- A character of which some bytes have been read. -/
structure Opening where
  /-- The bits of the code point read so far. -/
  payload : Nat
  /-- The number of bytes read. -/
  length : Nat
  /-- The ranges of the bytes still owed. -/
  owed : List ByteRange
  deriving DecidableEq, Repr

/-- What a byte begins, if it can begin a character. -/
def Opening.ofByte? (b : UInt8) : Option Opening :=
  if b < 0x80 then some ⟨b.toNat, 1, []⟩
  else if b < 0xC2 then none
  else if b < 0xE0 then some ⟨b.toNat % 32, 1, [tail]⟩
  else if b = 0xE0 then some ⟨b.toNat % 16, 1, [⟨0xA0, 0xBF⟩, tail]⟩
  else if b = 0xED then some ⟨b.toNat % 16, 1, [⟨0x80, 0x9F⟩, tail]⟩
  else if b < 0xF0 then some ⟨b.toNat % 16, 1, [tail, tail]⟩
  else if b = 0xF0 then some ⟨b.toNat % 8, 1, [⟨0x90, 0xBF⟩, tail, tail]⟩
  else if b < 0xF4 then some ⟨b.toNat % 8, 1, [tail, tail, tail]⟩
  else if b = 0xF4 then some ⟨b.toNat % 8, 1, [⟨0x80, 0x8F⟩, tail, tail]⟩
  else none

/-- An open character with one more byte, if the byte lies in the first range
owed. -/
def Opening.push? (o : Opening) (b : UInt8) : Option Opening :=
  match o.owed with
  | [] => none
  | range :: more =>
    if range.contains b then
      some ⟨o.payload * 64 + b.toNat % 64, o.length + 1, more⟩
    else none

/-- Why bytes are not UTF-8. -/
structure Malformation where
  /-- The length of the longest well-formed beginning. -/
  validUpTo : Nat
  /-- The length of the sequence refused, unless the bytes end inside a
  character. -/
  refused : Option Nat
  deriving DecidableEq, Repr

/-- The wording of a refusal. -/
def Malformation.message (m : Malformation) : String :=
  match m.refused with
  | some length =>
    s!"invalid utf-8 sequence of {length} bytes from index {m.validUpTo}"
  | none => s!"incomplete utf-8 byte sequence from index {m.validUpTo}"

/-- Decodes bytes that follow `start` well-formed ones and, if one is open, the
bytes of a character begun. -/
def decodeFrom (start : Nat) (pending : Option Opening) :
    List UInt8 → Except Malformation (List Char)
  | [] =>
    match pending with
    | none => .ok []
    | some _ => .error ⟨start, none⟩
  | b :: bytes =>
    let next := match pending with
      | none => Opening.ofByte? b
      | some o => o.push? b
    match next with
    | none =>
      .error ⟨start, some (match pending with | none => 1 | some o => o.length)⟩
    | some o =>
      if o.owed.isEmpty then
        match decodeFrom (start + o.length) none bytes with
        | .ok rest => .ok (Char.ofNat o.payload :: rest)
        | .error e => .error e
      else decodeFrom start (some o) bytes

/-- The text that the bytes encode. -/
def decode (bytes : List UInt8) : Except Malformation String :=
  (decodeFrom 0 none bytes).map String.ofList

end ColumnBridge.Utf8
