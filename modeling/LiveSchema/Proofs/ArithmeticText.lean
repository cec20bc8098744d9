import LiveSchema.Proofs.Precedence
/-! Arithmetic as text: columns in brackets, signs between blanks, and parentheses. The text is cut into
lexemes before it is read. A closing bracket inside a name would end the name early, so such names are not
read back. -/
namespace LiveSchema

namespace BinaryOp

def arithmetic : List BinaryOp := [.add, .sub, .mul, .div, .modulo, .bitAnd, .bitOr, .bitXor]

def isArithmetic (op : BinaryOp) : Bool := arithmetic.contains op

def ofSign? (sign : Char) : Option BinaryOp := arithmetic.find? (·.symbol.toList == [sign])

end BinaryOp

def cutLexemes : Option (List Char) → List Char → Option (List Lexeme)
  | none, [] => some []
  | none, '(' :: cs => (cutLexemes none cs).map (.openParen :: ·)
  | none, ')' :: cs => (cutLexemes none cs).map (.closeParen :: ·)
  | none, '[' :: cs => cutLexemes (some []) cs
  | none, ' ' :: sign :: ' ' :: cs => do
    let op ← BinaryOp.ofSign? sign
    (cutLexemes none cs).map (.operator op :: ·)
  | some name, c :: cs =>
    if c = ']' then (cutLexemes none cs).map (.name (String.ofList name.reverse) :: ·)
    else cutLexemes (some (c :: name)) cs
  | _, _ => none

def readArithmetic (text : String) : Option Expr := do
  readOperation (← cutLexemes none text.toList)

namespace Lexeme

def isArithmetic : Lexeme → Bool
  | .openParen | .closeParen => true
  | .operator op => op.isArithmetic
  | .name column => !column.toList.contains ']'
  | _ => false

theorem cutName (d : Dialect) {column : String} (closed : ']' ∉ column.toList) (cs : List Char) :
    cutLexemes none (((Lexeme.name column).text d).toList ++ cs) =
      (cutLexemes none cs).map (.name column :: ·) := by
  have inside (name rest : List Char) (closed : ']' ∉ rest) :
      cutLexemes (some name) (rest ++ ']' :: cs) =
        (cutLexemes none cs).map (.name (String.ofList (name.reverse ++ rest)) :: ·) := by
    induction rest generalizing name with
    | nil => simp [cutLexemes]
    | cons c rest ih =>
      simp only [List.mem_cons, not_or] at closed
      simp [cutLexemes, Ne.symm closed.1, ih _ closed.2]
  have bracketed : ((Lexeme.name column).text d).toList ++ cs = '[' :: (column.toList ++ ']' :: cs) := by
    simp [text, Dialect.mask, Text.bracket]
  rw [bracketed, cutLexemes, inside [] _ closed]
  simp

theorem cutOperator (d : Dialect) {op : BinaryOp} (arithmetic : op.isArithmetic = true)
    (cs : List Char) :
    cutLexemes none (((Lexeme.operator op).text d).toList ++ cs) =
      (cutLexemes none cs).map (.operator op :: ·) := by
  have written : ∃ sign, op.symbol.toList = [sign] ∧ BinaryOp.ofSign? sign = some op := by
    cases op <;> first | exact ⟨_, rfl, by decide⟩ | simp [BinaryOp.isArithmetic, BinaryOp.arithmetic] at arithmetic
  obtain ⟨sign, symbol, found⟩ := written
  have spaced : ((Lexeme.operator op).text d).toList ++ cs = ' ' :: sign :: ' ' :: cs := by
    simp [text, symbol]
  rw [spaced, cutLexemes, found]
  rfl

theorem cutText (d : Dialect) {lexemes : List Lexeme}
    (arithmetic : ∀ l ∈ lexemes, l.isArithmetic = true) :
    cutLexemes none (textAll d lexemes).toList = some lexemes := by
  induction lexemes with
  | nil => rfl
  | cons l rest ih =>
    have later := ih fun l' member => arithmetic l' (List.mem_cons_of_mem l member)
    have first := arithmetic l List.mem_cons_self
    rw [textAll, String.toList_append]
    cases l with
    | openParen => simp [text, cutLexemes, later]
    | closeParen => simp [text, cutLexemes, later]
    | operator op => rw [cutOperator d first, later]; rfl
    | name column => rw [cutName d (by simpa [isArithmetic] using first), later]; rfl
    | _ => contradiction

end Lexeme

namespace Expr

def isArithmetic : Expr → Bool
  | .field _ _ | .column _ => true
  | .binary op l r => op.isArithmetic && l.isArithmetic && r.isArithmetic
  | _ => false

def columnNames : Expr → List String
  | .field _ c => [c.name]
  | .column name => [name]
  | .binary _ l r => l.columnNames ++ r.columnNames
  | _ => []

theorem arithmeticOperation {e : Expr} (arithmetic : e.isArithmetic = true) :
    e.isOperation = true := by
  fun_induction isArithmetic e with
  | case1 | case2 => rfl
  | case3 op l r ihl ihr =>
    simp only [Bool.and_eq_true] at arithmetic
    simp [isOperation, ihl arithmetic.1.2, ihr arithmetic.2]
  | case4 => contradiction

theorem arithmeticNullTest {e : Expr} (arithmetic : e.isArithmetic = true) (op : BinaryOp) :
    op.nullTest? e = none := by
  cases e <;> first | rfl | contradiction

theorem arithmeticLexemes {e : Expr} (arithmetic : e.isArithmetic = true)
    (closed : ∀ name ∈ e.columnNames, ']' ∉ name.toList) :
    ∀ lexeme ∈ e.written, lexeme.isArithmetic = true := by
  have grouping (group : Bool) {lexemes : List Lexeme} (all : ∀ l ∈ lexemes, l.isArithmetic = true) :
      ∀ l ∈ parenthesised group lexemes, l.isArithmetic = true := by
    cases group
    · exact all
    · intro l member
      simp only [parenthesised, if_true, List.cons_append, List.mem_cons, List.mem_append,
        List.not_mem_nil, or_false] at member
      rcases member with rfl | inside | rfl
      · rfl
      · exact all l inside
      · rfl
  fun_induction isArithmetic e with
  | case1 | case2 => simpa [written, columnNames, Lexeme.isArithmetic] using closed
  | case3 op l r ihl ihr =>
    simp only [Bool.and_eq_true] at arithmetic
    simp only [columnNames, List.mem_append] at closed
    have left := ihl arithmetic.1.2 fun name member => closed name (.inl member)
    have right := ihr arithmetic.2 fun name member => closed name (.inr member)
    intro lexeme member
    rw [written, arithmeticNullTest arithmetic.2] at member
    rcases List.mem_append.mp member with member | member
    · exact grouping _ left lexeme member
    · rcases List.mem_cons.mp member with rfl | member
      · exact arithmetic.1.1
      · exact grouping _ right lexeme member
  | case4 => contradiction

theorem compileArithmetic {e : Expr} (arithmetic : e.isArithmetic = true) (d : Dialect) :
    e.compile d = .ok (Lexeme.textAll d e.written) := by
  rw [compile, renderWritten (arithmeticOperation arithmetic)]
  rfl

theorem readArithmeticText {e : Expr} (arithmetic : e.isArithmetic = true) (d : Dialect)
    (closed : ∀ name ∈ e.columnNames, ']' ∉ name.toList) :
    readArithmetic (Lexeme.textAll d e.written) = some e.regrouped := by
  rw [readArithmetic, Lexeme.cutText d (arithmeticLexemes arithmetic closed)]
  exact readWritten (arithmeticOperation arithmetic)

end Expr

end LiveSchema
