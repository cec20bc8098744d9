import LiveSchema.Catalog.ColumnItem
import LiveSchema.Live
/-! Stored definitions of tables and indices. Of a table the body is read item by item; of an index the
name, which must be that of an index of the table, and the list of columns. -/
namespace LiveSchema.Catalog
open Text

def bareName? (cs : List Char) : Option (List Char) :=
  (run? (fun c => !isBlank c && c != '(') cs).map (·.2)

def quotedName? : List Char → Option (List Char)
  | [] => none
  | c :: cs => do
    let close ← closingQuote? c
    (quotedRun? close cs).map (·.2)

/-- The body of a table definition. A name that begins with a quote is read as quoted if the body
follows, and else as bare. -/
def tableBody? (definition : List Char) : Option (List Char) := do
  let rest ← blanks? (← words? ["table"] (← word? "create" (skipBlanks (trimEnd definition))))
  let rest := optionalIfNotExists rest
  ((quotedName? rest).bind parenthesised?).or ((bareName? rest).bind parenthesised?)

def enterItems : Table → List (List Char) → Option Table
  | t, [] => some t
  | t, item :: rest =>
    match uniqueItem? item with
    | some columns => enterItems { t with uniques := t.uniques ++ [⟨"", columns⟩] } rest
    | none =>
      match column? item with
      | some c => enterItems { t with columns := t.columns ++ [c] } rest
      | none => none

def table? (name definition : String) : Option Table := do
  let body ← tableBody? definition.toList
  let t ← enterItems { name, columns := [] } (items body)
  if t.columns = [] then none else some t

def readTable (name definition : String) : Except SchemaError Table :=
  match table? name definition with
  | some t => .ok t
  | none => .error (.unreadable definition)

def indexParts? (definition : List Char) : Option (List Char × List Char) := do
  let rest ← blanks? (← words? ["index"] (← word? "create" (skipBlanks (trimEnd definition))))
  let (index, rest) ← run? (!isBlank ·) (optionalIfNotExists rest)
  let rest ← blanks? (← words? ["on"] rest)
  let inner ← parenthesised? (← bareName? rest)
  if inner = [] then none else some (index, inner)

/-- The group named by an index: the start that marks indices of the table is compared without regard
to case, and a name must follow it. -/
def groupName? (table : String) (index : List Char) : Option String :=
  match dropStart? ("idx_" ++ table ++ "_").toList (unquote index) with
  | some (c :: cs) => some (String.ofList (c :: cs))
  | _ => none

def index? (table definition : String) : Option ColumnGroup := do
  let (index, columns) ← indexParts? definition.toList
  return ⟨← groupName? table index, names columns⟩

def readIndex (table definition : String) : Except SchemaError ColumnGroup :=
  match index? table definition with
  | some g => .ok g
  | none => .error (.unreadable definition)

end LiveSchema.Catalog
