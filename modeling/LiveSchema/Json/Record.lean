import LiveSchema.Json.Reader
/-! Records in JSON: objects whose unknown members are passed over, or arrays of the fields in order.
A known member may stand once only. -/
namespace LiveSchema.Json

def onceEach (keys : List String) (members : List (String × Json)) : Bool :=
  keys.all fun k => (members.filter (·.1 = k)).length ≤ 1

def fields? (keys : List String) : Json → Option (List (Option Json))
  | .object members =>
    if onceEach keys members then some (keys.map (member? · members)) else none
  | .array elements =>
    if elements.length ≤ keys.length then
      some (elements.map some ++ List.replicate (keys.length - elements.length) none)
    else none
  | _ => none

def string? : Json → Option String
  | .string s => some s
  | _ => none

def bool? : Json → Option Bool
  | .bool b => some b
  | _ => none

def list? {α : Type} (read : Json → Option α) : Json → Option (List α)
  | .array elements => elements.mapM read
  | _ => none

def word32? : Json → Option UInt32
  | .number n => n.nat?.bind fun k => if k < Nat.pow 2 32 then some (UInt32.ofNat k) else none
  | _ => none

section Field

variable {α : Type}

def required (read : Json → Option α) : Option Json → Option α
  | some j => read j
  | none => none

def withDefault (value : α) (read : Json → Option α) : Option Json → Option α
  | some j => read j
  | none => some value

def optional (read : Json → Option α) : Option Json → Option (Option α)
  | some .null | none => some none
  | some j => (read j).map some

end Field

end LiveSchema.Json
