import LiveSchema.Number.Binary64
import LiveSchema.Timestamp
/-! Values of database columns, their generic types, and the native types that become values. -/
namespace LiveSchema

inductive ValueType where
  | bool
  | int
  | float
  | text
  | blob
  | timestamp
  deriving DecidableEq, Repr

namespace ValueType

def all : List ValueType := [.bool, .int, .float, .text, .blob, .timestamp]

def tag : ValueType → String
  | .bool => "bool"
  | .int => "int"
  | .float => "float"
  | .text => "text"
  | .blob => "blob"
  | .timestamp => "timestamp"

def ofTag? (s : String) : Option ValueType := all.find? (·.tag == s)

theorem tagReadBack (t : ValueType) : ofTag? t.tag = some t := by
  cases t <;> decide

end ValueType

inductive Value where
  | null
  | bool (b : Bool)
  | int (n : Int64)
  | float (x : Binary64)
  | text (s : String)
  | blob (bytes : List UInt8)
  | timestamp (t : Timestamp)
  deriving DecidableEq, Repr

namespace Value

def isNull : Value → Bool
  | .null => true
  | _ => false

def type? : Value → Option ValueType
  | .null => none
  | .bool _ => some .bool
  | .int _ => some .int
  | .float _ => some .float
  | .text _ => some .text
  | .blob _ => some .blob
  | .timestamp _ => some .timestamp

def int? : Value → Option Int64
  | .int n => some n
  | _ => none

def text? : Value → Option String
  | .text s => some s
  | _ => none

def equal : Value → Value → Bool
  | .float x, .float y => x.equal y
  | .float _, _ | _, .float _ => false
  | v, w => v == w

end Value

class ToValue (α : Type) where
  toValue : α → Value

export ToValue (toValue)

instance : ToValue Value := ⟨id⟩
instance : ToValue Bool := ⟨.bool⟩
instance : ToValue Int64 := ⟨.int⟩
instance : ToValue Int32 := ⟨fun n => .int n.toInt64⟩
instance : ToValue Int16 := ⟨fun n => .int n.toInt64⟩
instance : ToValue Int8 := ⟨fun n => .int n.toInt64⟩
instance : ToValue UInt32 := ⟨fun n => .int n.toUInt64.toInt64⟩
instance : ToValue UInt16 := ⟨fun n => .int n.toUInt64.toInt64⟩
instance : ToValue UInt8 := ⟨fun n => .int n.toUInt64.toInt64⟩
instance : ToValue Binary64 := ⟨.float⟩
instance : ToValue Binary32 := ⟨fun x => .float x.widen⟩
instance : ToValue String := ⟨.text⟩
instance : ToValue (List UInt8) := ⟨.blob⟩
instance : ToValue Timestamp := ⟨.timestamp⟩

instance {α : Type} [ToValue α] : ToValue (Option α) where
  toValue
    | none => .null
    | some a => toValue a

end LiveSchema
