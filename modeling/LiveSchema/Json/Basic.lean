/-! JSON values, with the members of an object in the order of the text and repeated keys kept. -/
namespace LiveSchema

namespace Json

structure Number where
  negative : Bool := false
  whole : List Char
  fraction : Option (List Char) := none
  exponent : Option (Bool × List Char) := none
  deriving DecidableEq, Repr

def natOfDigits (digits : List Char) : Nat :=
  digits.foldl (fun n c => 10 * n + (c.toNat - 48)) 0

def Number.ofNat (n : Nat) : Number := { whole := Nat.toDigits 10 n }

def Number.nat? (n : Number) : Option Nat :=
  if n.negative || n.fraction.isSome || n.exponent.isSome then none else some (natOfDigits n.whole)

def Number.int? (n : Number) : Option Int :=
  if n.fraction.isSome || n.exponent.isSome then none
  else some (if n.negative then -(natOfDigits n.whole : Int) else natOfDigits n.whole)

def Number.ofInt (n : Int) : Number := { Number.ofNat n.natAbs with negative := n < 0 }

end Json

inductive Json where
  | null
  | bool (b : Bool)
  | number (n : Json.Number)
  | string (s : String)
  | array (elements : List Json)
  | object (members : List (String × Json))
  /-- A string that spells no text, or an object with such a key. It may be passed over but not read. -/
  | garbled
  deriving Repr

namespace Json

def nat (n : Nat) : Json := .number (.ofNat n)

def int (n : Int) : Json := .number (.ofInt n)

def strings (texts : List String) : Json := .array (texts.map .string)

def ofOption {α : Type} (write : α → Json) : Option α → Json
  | some a => write a
  | none => .null

def member? (key : String) : List (String × Json) → Option Json
  | [] => none
  | (k, v) :: rest => if k = key then some v else member? key rest

end Json

end LiveSchema
