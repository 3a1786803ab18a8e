import ColumnBridge.Table

/-!
# Objects behind handles

An object that is handed out under an address is a value of one of a few kinds.
A look-up names the kind it expects, and only an object of that kind answers it.
-/

namespace ColumnBridge

/-- The kinds of objects. -/
inductive Kind where
  | integer
  | text
  | column
  | table
  /-- Objects of a type of the caller's own, which are told apart by the name of
  that type and never looked into. -/
  | foreign (typeName : String)
  deriving DecidableEq, Repr

namespace Kind

/-- The values of a kind. -/
@[reducible]
def Carrier : Kind → Type
  | .integer => Int64
  | .text => String
  | .column => Column
  | .table => Table
  | .foreign _ => Unit

/-- The name of a kind in messages and log lines. -/
def typeName : Kind → String
  | .integer => "i64"
  | .text => "alloc::string::String"
  | .column => "polars_core::frame::column::Column"
  | .table => "polars_core::frame::DataFrame"
  | .foreign name => name

end Kind

/-- A value with its kind. -/
structure Object where
  kind : Kind
  value : kind.Carrier

/-- The value of an object, if it is of the given kind. -/
def Object.as? (object : Object) (kind : Kind) : Option kind.Carrier :=
  if h : object.kind = kind then some (h ▸ object.value) else none

@[simp]
theorem Object.as?_mk (kind : Kind) (value : kind.Carrier) :
    (Object.mk kind value).as? kind = some value := by
  simp [as?]

theorem Object.as?_eq_none {object : Object} {kind : Kind}
    (h : object.kind ≠ kind) : object.as? kind = none := by
  simp [as?, h]

end ColumnBridge
