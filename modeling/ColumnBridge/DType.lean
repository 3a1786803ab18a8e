import ColumnBridge.Number.Binary

/-!
# Types of column values

A column holds values of one type.  `DType` lists the types, and `DType.Value`
says which values a type has; an absent value is not among them, since every
slot of a column may be null.
-/

namespace ColumnBridge

/-- The unit that a point in time is counted in. -/
inductive TimeUnit where
  | nanoseconds
  | microseconds
  | milliseconds
  deriving DecidableEq, Repr

/-- The unit as it is written in the name of a type. -/
def TimeUnit.text : TimeUnit → String
  | .nanoseconds => "ns"
  | .microseconds => "μs"
  | .milliseconds => "ms"

/-- The type of the values of a column. -/
inductive DType where
  | float64
  | float32
  | int64
  | int32
  | uint32
  | uint64
  | string
  | boolean
  | binary
  /-- The type without values, whose columns hold nulls only. -/
  | null
  /-- Points in time, counted from the epoch, with the time zone they are shown
  in. -/
  | datetime (unit : TimeUnit) (zone : Option String)
  /-- Lists of nullable values of one type. -/
  | list (inner : DType)
  /-- Any of the remaining types (small integers, dates, times, durations,
  decimals, categories, records and so on), by its name in messages. -/
  | other (name : String)
  deriving DecidableEq, Repr

namespace DType

/-- The name of the type in messages. -/
def text : DType → String
  | .float64 => "f64"
  | .float32 => "f32"
  | .int64 => "i64"
  | .int32 => "i32"
  | .uint32 => "u32"
  | .uint64 => "u64"
  | .string => "str"
  | .boolean => "bool"
  | .binary => "binary"
  | .null => "null"
  | .datetime unit none => s!"datetime[{unit.text}]"
  | .datetime unit (some zone) => s!"datetime[{unit.text}, {zone}]"
  | .list inner => s!"list[{inner.text}]"
  | .other name => name

/-- The values of a type.  Nothing here reads a value of one of the remaining
types, and such a value is no more than its text. -/
@[reducible]
def Value : DType → Type
  | .float64 => Binary64
  | .float32 => Binary32
  | .int64 => Int64
  | .int32 => Int32
  | .uint32 => UInt32
  | .uint64 => UInt64
  | .string => String
  | .boolean => Bool
  | .binary => List UInt8
  | .null => Empty
  | .datetime _ _ => Int64
  | .list inner => List (Option inner.Value)
  | .other _ => String

end DType
end ColumnBridge
