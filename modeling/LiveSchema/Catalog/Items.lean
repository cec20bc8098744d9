import LiveSchema.Text.Blank
/-! The items of a definition's body. Commas inside parentheses and quotes do not separate items; a
parenthesis too many on the right is passed over. -/
namespace LiveSchema.Catalog
open Text

def closingQuote? : Char → Option Char
  | '\'' => some '\''
  | '"' => some '"'
  | '\x60' => some '\x60'
  | '[' => some ']'
  | _ => none

def depthAfter (depth : Nat) : Char → Nat
  | '(' => depth + 1
  | ')' => depth - 1
  | _ => depth

def cutItems : Nat → Option Char → List Char → List (List Char)
  | _, _, [] => [[]]
  | depth, some q, c :: cs => consFirst c (cutItems depth (if c = q then none else some q) cs)
  | depth, none, c :: cs =>
    if c = ',' ∧ depth = 0 then [] :: cutItems 0 none cs
    else consFirst c (cutItems (depthAfter depth c) (closingQuote? c) cs)

def items (body : List Char) : List (List Char) := (cutItems 0 none body).map trim

def unquote (cs : List Char) : List Char :=
  trimBy (fun c => "[]\"'\x60".toList.contains c || isBlank c) cs

def names (cs : List Char) : List String := (pieces ',' cs).map fun p => String.ofList (unquote p)

end LiveSchema.Catalog
