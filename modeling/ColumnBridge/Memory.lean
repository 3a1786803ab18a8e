/-!
# Sizes in memory

Counts of values and bytes are natural numbers in this library.  The bounds that
memory sets to them are collected here: a count fits into a word, and no more
than a signed word of bytes can be asked for at once.
-/

namespace ColumnBridge

/-- Counts and addresses lie below this bound. -/
def wordBound : Nat := Nat.pow 2 64

/-- The greatest number of bytes that can be asked for at once. -/
def greatestAllocation : Nat := Nat.pow 2 63 - 1

/-- The number of bytes of a double. -/
def doubleSize : Nat := 8

end ColumnBridge
