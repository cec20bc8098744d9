import LiveSchema.Expr
import LiveSchema.Number.Shortest
import LiveSchema.Text.Letters
import LiveSchema.Text.Quoted
/-! The SQL dialects: how names, literals, placeholders, types and functions are spelled. SQL Server has
the spelling of expressions only; its types, definitions and catalog are not implemented. -/
namespace LiveSchema
open Text

inductive Dialect where
  | sqlite
  | sqlServer
  deriving DecidableEq, Repr

inductive RenderError where
  | unsupportedFunction (dialect function : String)
  | functionArity (function expected : String) (actual : Nat)
  | notImplemented (dialect operation : String)
  deriving DecidableEq, Repr

def RenderError.message : RenderError → String
  | .unsupportedFunction dialect function =>
    s!"Function {function} is not supported by the {dialect} dialect"
  | .functionArity function expected actual =>
    s!"Function {function} expects {expected} argument(s), got {actual}"
  | .notImplemented dialect operation =>
    s!"{operation} is not implemented for the {dialect} dialect"

namespace Dialect

def name : Dialect → String
  | .sqlite => "sqlite"
  | .sqlServer => "sqlserver"

def implemented (d : Dialect) (operation : String) : Except RenderError Unit :=
  match d with
  | .sqlite => .ok ()
  | .sqlServer => .error (.notImplemented d.name operation)

def mask (_ : Dialect) (name : String) : String := bracket name

def maskAll (d : Dialect) (names : List String) : String := joinWith "," (names.map d.mask)

/-- SQLite knows no backslash escapes, so a quote is doubled there. -/
def stringLiteral : Dialect → String → String
  | .sqlite, s => quoteDoubled s
  | .sqlServer, s => quoteEscaped s

def placeholder (_ : Dialect) : Parameter → String
  | .positional => "?"
  | .named name => "@" ++ name
  | .indexed index => "@" ++ toString index.toNat

/-- SQL has no literal for infinities and for what is not a number; they are written as NULL. -/
def literal (d : Dialect) : Value → String
  | .null => "NULL"
  | .bool b => if b then "TRUE" else "FALSE"
  | .int n => toString n.toInt
  | .float x => if x.isFinite then Shortest.text x else "NULL"
  | .text s => d.stringLiteral s
  | .blob bytes => "X'" ++ hexBytes bytes ++ "'"
  | .timestamp t => "'" ++ t.text ++ "'"

def typeName (d : Dialect) (type : ValueType) : Except RenderError String := do
  d.implemented "type_name"
  return match type with
    | .bool => "BOOLEAN"
    | .int => "INTEGER"
    | .float => "FLOAT"
    | .text => "TEXT"
    | .blob => "BLOB"
    | .timestamp => "TIMESTAMP"

/-- The class of a type name: character types of any length are one class. -/
def typeClass (type : String) : List Char :=
  let whole := (trim type.toList).map asciiUpper
  let base := trim (whole.takeWhile (· != '('))
  if base = "TEXT".toList ∨ base = "VARCHAR".toList then "TEXT".toList else whole

def typesEquivalent (_ : Dialect) (live target : String) : Bool := typeClass live == typeClass target

def fillValue (_ : Dialect) : Option ValueType → Value
  | some .int => .int 0
  | some .bool => .bool false
  | some .float => .float ⟨0⟩
  | some .blob => .blob []
  | some .timestamp => .timestamp .epoch
  | some .text | none => .text ""

def indexName (_ : Dialect) (table group : String) : String := "idx_" ++ table ++ "_" ++ group

inductive CallForm where
  | word (text : String)
  | named (name : String)
  deriving DecidableEq, Repr

def callForm (d : Dialect) (f : Function) (arguments : Nat) : Except RenderError CallForm :=
  let arity (expected : String) : Except RenderError CallForm :=
    .error (.functionArity f.title expected arguments)
  let one (name : String) := if arguments = 1 then .ok (.named name) else arity "exactly 1"
  match f with
  | .count =>
    if arguments = 0 then .ok (.word "COUNT(*)")
    else if arguments = 1 then .ok (.named "COUNT") else arity "0 or 1"
  | .average => one "AVG"
  | .sum => one "SUM"
  | .min => one "MIN"
  | .max => one "MAX"
  | .coalesce => if arguments = 0 then arity "at least 1" else .ok (.named "COALESCE")
  | .random =>
    match d with
    | .sqlite => if arguments = 0 then .ok (.word "RANDOM()") else arity "no"
    | .sqlServer => .error (.unsupportedFunction d.name f.title)

end Dialect

end LiveSchema
