import LiveSchema.Dialect
/-! Lexemes of SQL text. A rendering is the list of lexemes written so far together with the failure, if
any, that stopped the writing; what comes after a failure is not written. -/
namespace LiveSchema

inductive Lexeme where
  | word (text : String)
  /-- A text of the caller: a table, an alias or a finished command. -/
  | verbatim (text : String)
  | name (column : String)
  | literal (v : Value)
  | placeholder (p : Parameter)
  | sign (op : UnaryOp)
  | operator (op : BinaryOp)
  | nullTest (negated : Bool)
  | isIn
  | openParen
  | closeParen
  | comma
  | dot
  deriving DecidableEq, Repr

def Lexeme.text (d : Dialect) : Lexeme → String
  | .word text => text
  | .verbatim text => text
  | .name column => d.mask column
  | .literal v => d.literal v
  | .placeholder p => d.placeholder p
  | .sign op => op.symbol
  | .operator op => " " ++ op.symbol ++ " "
  | .nullTest negated => if negated then " IS NOT NULL" else " IS NULL"
  | .isIn => " IN "
  | .openParen => "("
  | .closeParen => ")"
  | .comma => ","
  | .dot => "."

def Lexeme.textAll (d : Dialect) : List Lexeme → String
  | [] => ""
  | l :: rest => l.text d ++ textAll d rest

theorem Lexeme.textAllAppend (d : Dialect) (a b : List Lexeme) :
    textAll d (a ++ b) = textAll d a ++ textAll d b := by
  induction a with
  | nil => simp [textAll]
  | cons l rest ih => simp [textAll, ih, String.append_assoc]

structure Rendering where
  lexemes : List Lexeme
  failure : Option RenderError := none
  deriving DecidableEq, Repr

namespace Rendering

def of (lexemes : List Lexeme) : Rendering := ⟨lexemes, none⟩

def failed (e : RenderError) : Rendering := ⟨[], some e⟩

def append (a b : Rendering) : Rendering :=
  match a.failure with
  | none => ⟨a.lexemes ++ b.lexemes, b.failure⟩
  | some _ => a

instance : Append Rendering := ⟨append⟩

theorem appendParts (a b : Rendering) :
    a ++ b = match a.failure with
      | none => ⟨a.lexemes ++ b.lexemes, b.failure⟩
      | some _ => a := rfl

theorem appendAssoc (a b c : Rendering) : a ++ b ++ c = a ++ (b ++ c) := by
  obtain ⟨as, af⟩ := a
  obtain ⟨bs, bf⟩ := b
  cases af <;> cases bf <;> simp [appendParts]

theorem failureAppend (a b : Rendering) : (a ++ b).failure = a.failure.or b.failure := by
  obtain ⟨as, af⟩ := a
  cases af <;> simp [appendParts]

def ofExcept : Except RenderError (List Lexeme) → Rendering
  | .ok lexemes => of lexemes
  | .error e => failed e

def joinWith (separator : Lexeme) : List Rendering → Rendering
  | [] => of []
  | [r] => r
  | r :: rest => r ++ of [separator] ++ joinWith separator rest

def grouped (group : Bool) (r : Rendering) : Rendering :=
  if group then of [.openParen] ++ r ++ of [.closeParen] else r

def text (d : Dialect) (r : Rendering) : String := Lexeme.textAll d r.lexemes

def result (d : Dialect) (r : Rendering) : Except RenderError String :=
  match r.failure with
  | none => .ok (r.text d)
  | some e => .error e

end Rendering

end LiveSchema
