import LiveSchema.Catalog.Grammar
import LiveSchema.Catalog.Items
import LiveSchema.Column
/-! Items of a table definition: a column with its constraints, or a unique group. The constraints of a
column have a fixed order and a default comes last. -/
namespace LiveSchema.Catalog
open Text

def itemName? : List Char → Option (List Char × List Char)
  | [] => none
  | c :: cs =>
    match closingQuote? c with
    | some close => quotedRun? close cs
    | none => run? (fun c => !isBlank c && (closingQuote? c).isNone) (c :: cs)

def endsLiteral : List Char → Bool
  | [] => false
  | '\'' :: [] => true
  | '\'' :: '\'' :: cs => endsLiteral cs
  | '\'' :: _ :: _ => false
  | _ :: cs => endsLiteral cs

/-- The rest of a parenthesised text: balanced, nested at most twice, and closed by its last
character. -/
def endsNested : Bool → List Char → Bool
  | _, [] => false
  | false, c :: cs =>
    if c = ')' then cs.isEmpty else endsNested (c == '(') cs
  | true, c :: cs =>
    if c = '(' then false else endsNested (c != ')') cs

def isDefault : List Char → Bool
  | [] => false
  | '\'' :: cs => endsLiteral cs
  | '"' :: cs => cs.getLast? == some '"' && !cs.dropLast.contains '"'
  | '(' :: cs => endsNested false cs
  | cs => cs.all fun c => !isBlank c && !("'\"(".toList.contains c)

def itemDefault? (cs : List Char) : Option (Option String) :=
  if cs.all isBlank then some none
  else do
    let value := trimEnd (← blanks? (← words? ["default"] cs))
    if isDefault value then some (some (String.ofList value)) else none

def constraint (keywords : List String) (cs : List Char) : Bool × List Char :=
  match words? keywords cs with
  | some rest => (true, rest)
  | none => (false, cs)

def column? (item : List Char) : Option Column := do
  let (name, rest) ← itemName? item
  let (type, rest) ← run? (!isBlank ·) (← blanks? rest)
  let (primaryKey, rest) := constraint ["primary", "key"] rest
  let (autoIncrement, rest) := constraint ["autoincrement"] rest
  let (unique, rest) := constraint ["unique"] rest
  let (notNull, rest) := constraint ["not", "null"] rest
  let default ← itemDefault? rest
  return { Column.introspected (String.ofList name) (String.ofList type) with
    primaryKey, autoIncrement, unique, notNull, default }

def uniqueItem? (item : List Char) : Option (List String) := do
  let inner ← parenthesised? (← word? "unique" item)
  if inner = [] then none else some (names inner)

end LiveSchema.Catalog
