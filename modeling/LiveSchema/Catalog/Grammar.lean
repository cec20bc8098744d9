import LiveSchema.Text.Blank
import LiveSchema.Text.Letters
/-! Parts of the grammar of stored definitions. Each reader takes what it recognises from the front of
the text and returns the rest. -/
namespace LiveSchema.Catalog
open Text

def blanks? : List Char → Option (List Char)
  | [] => none
  | c :: cs => if isBlank c then some (skipBlanks cs) else none

def word? (keyword : String) (cs : List Char) : Option (List Char) := dropKeyword? keyword.toList cs

def words? : List String → List Char → Option (List Char)
  | [], cs => some cs
  | w :: rest, cs => do words? rest (← word? w (← blanks? cs))

def run? (p : Char → Bool) (cs : List Char) : Option (List Char × List Char) :=
  match cs.span p with
  | ([], _) => none
  | (run, rest) => some (run, rest)

def quotedRun? (close : Char) (cs : List Char) : Option (List Char × List Char) :=
  match run? (· != close) cs with
  | some (run, _ :: rest) => some (run, rest)
  | _ => none

def optionalIfNotExists (cs : List Char) : List Char :=
  (do blanks? (← words? ["not", "exists"] (← word? "if" cs))).getD cs

def parenthesised? (cs : List Char) : Option (List Char) :=
  match skipBlanks cs with
  | '(' :: rest =>
    match rest.reverse with
    | ')' :: inner => some inner.reverse
    | _ => none
  | _ => none

def trimEnd (cs : List Char) : List Char := (cs.reverse.dropWhile isBlank).reverse

end LiveSchema.Catalog
