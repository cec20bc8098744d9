import LiveSchema.Proofs.Outcomes
import LiveSchema.Statement.Insert
import LiveSchema.Statement.Select
/-! The text of a statement, clause by clause. The parts are compiled in the order in which they stand, and the first
that cannot be is told. -/
namespace LiveSchema

namespace Rendering

section
variable {d : Dialect} {a b : Rendering}

theorem resultOf (lexemes : List Lexeme) : (of lexemes).result d = pure (Lexeme.textAll d lexemes) := rfl

theorem resultThen : (a ++ b).result d = do return (← a.result d) ++ (← b.result d) := by
  obtain ⟨front, stopped⟩ := a
  obtain ⟨back, failed⟩ := b
  cases stopped with
  | some e => rfl
  | none =>
    cases failed with
    | some e => rfl
    | none => exact congrArg Except.ok (Lexeme.textAllAppend d front back)

theorem resultJoined (separator : Lexeme) (rs : List Rendering) : (joinWith separator rs).result d = do
    return Text.joinWith (separator.text d) (← rs.mapM (·.result d)) := by
  induction rs with
  | nil => rfl
  | cons r rest ih =>
    cases rest with
    | nil => simp [joinWith, Text.joinWith]
    | cons next rest =>
      have split : joinWith separator (r :: next :: rest) = r ++ of [separator] ++ joinWith separator (next :: rest) :=
        rfl
      rw [split, resultThen, resultThen, ih, resultOf]
      simp [Text.joinWith, Lexeme.textAll]

theorem resultClause {α : Type} (content : Option α) (write : α → List Lexeme) :
    (clause content fun a => of (write a)).result d = pure (content.elim "" fun a => Lexeme.textAll d (write a)) := by
  cases content <;> rfl

end

end Rendering

def clauseText (word : String) (content : Option String) : String := content.elim "" (word ++ ·)

def listText (word : String) (items : List String) : String :=
  if items.isEmpty then "" else word ++ Text.joinWith ", " items

def columnText (items : List String) : String := if items.isEmpty then "*" else Text.joinWith ", " items

def UnionClause.text (u : UnionClause) : String := (if u.all then " UNION ALL " else " UNION ") ++ u.command

def Join.text (d : Dialect) (j : Join) : Except RenderError String := do
  let on ← j.on.mapM (·.compile d)
  return " INNER JOIN " ++ j.table ++ clauseText " AS " j.label ++ clauseText " ON " on

def Select.termText (d : Dialect) (term : Expr × Order) : Except RenderError String := do
  return (← term.1.compile d) ++ (if term.2 = .descending then " DESC" else "")

section
open Rendering
variable {d : Dialect}

theorem tableText (name : String) : (Expr.table name).compile d = pure name := by
  rw [Expr.compile, Expr.render, resultOf]
  simp [Lexeme.textAll, Lexeme.text]

theorem resultLabel (label : Option String) : (clause label asName).result d = pure (clauseText " AS " label) := by
  have text (label : String) : Lexeme.textAll d [.word " AS ", .verbatim label] = " AS " ++ label := by
    simp [Lexeme.textAll, Lexeme.text]
  exact (resultClause label _).trans (by simp only [text, clauseText])

theorem resultWith (word : String) (e : Option Expr) :
    (clause e fun e => of [.word word] ++ e.render d).result d = do
      return clauseText word (← e.mapM (·.compile d)) := by
  cases e with
  | none => rfl
  | some e => simp [clause, resultOf, resultThen, clauseText, Expr.compile, Lexeme.textAll, Lexeme.text]

theorem resultSeparated (es : List Expr) : (separated d es).result d = do
    return Text.joinWith ", " (← es.mapM (·.compile d)) := by
  rw [separated, resultJoined, List.mapM_map]
  rfl

theorem resultColumns (es : List Expr) :
    (if es.isEmpty then of [.word "*"] else separated d es).result d = do
      return columnText (← es.mapM (·.compile d)) := by
  cases es with
  | nil => rfl
  | cons e rest => simp [resultSeparated, columnText]

theorem resultList {α : Type} (word : String) (items : List α) (write : α → Rendering) :
    (if items.isEmpty then of [] else of [.word word] ++ joinWith (.word ", ") (items.map write)).result d = do
      return listText word (← items.mapM fun a => (write a).result d) := by
  cases items with
  | nil => rfl
  | cons a rest => simp [resultOf, resultThen, resultJoined, listText, Lexeme.textAll, Lexeme.text, Function.comp_def]

theorem resultJoins (joins : List Join) :
    (joins.foldr (fun j rest => j.render d ++ rest) (of [])).result d = do
      return String.join (← joins.mapM (·.text d)) := by
  induction joins with
  | nil => rfl
  | cons j rest ih =>
    rw [List.foldr_cons, resultThen, ih]
    simp [Join.render, resultThen, resultLabel, resultWith, Join.text, resultOf, Lexeme.textAll, Lexeme.text]

theorem resultTerm (term : Expr × Order) : (Select.orderTerm d term).result d = Select.termText d term := by
  rw [Select.orderTerm, resultThen, Select.termText, resultOf]
  split <;> rfl

theorem Select.prepared (d : Dialect) (s : Select) : s.prepare d = do
    let columns ← s.columns.mapM (·.compile d)
    let source ← s.source.mapM (·.compile d)
    let joins ← s.joins.mapM (·.text d)
    let filter ← s.filter.mapM (·.compile d)
    let groupBy ← s.groupBy.mapM (·.compile d)
    let orderBy ← s.orderBy.mapM (termText d)
    return "SELECT " ++ columnText columns ++ clauseText " FROM " source ++ clauseText " AS " s.label ++
      String.join joins ++ clauseText " WHERE " filter ++ listText " GROUP BY " groupBy ++
      s.union.elim "" UnionClause.text ++ listText " ORDER BY " orderBy ++
      clauseText " LIMIT " (s.limit.map fun n => toString n.toNat) ++
      clauseText " OFFSET " (s.offset.map fun n => toString n.toNat) := by
  have groupBy : (if s.groupBy.isEmpty then of [] else of [.word " GROUP BY "] ++ separated d s.groupBy).result d = do
      return listText " GROUP BY " (← s.groupBy.mapM (·.compile d)) :=
    resultList " GROUP BY " s.groupBy (·.render d)
  have limit (word : String) (n : Option UInt64) :
      n.elim "" (fun n => Lexeme.textAll d [.word word, .word (toString n.toNat)]) =
        clauseText word (n.map fun n => toString n.toNat) := by
    cases n <;> simp [clauseText, Lexeme.textAll, Lexeme.text]
  have union (u : UnionClause) : Lexeme.textAll d
      [.word (if u.all then " UNION ALL " else " UNION "), .verbatim u.command] = u.text := by
    simp [Lexeme.textAll, Lexeme.text, UnionClause.text]
  simp only [prepare, render, condition, resultThen, resultColumns, resultLabel, resultWith, resultList, resultJoins,
    groupBy, resultTerm, resultClause, resultOf, limit, union, bind_assoc, pure_bind]
  simp only [Lexeme.textAll, Lexeme.text, String.append_empty]

def InsertSource.text (d : Dialect) : InsertSource → Except RenderError String
  | .values es => do return " VALUES (" ++ Text.joinWith "," (← es.mapM (·.compile d)) ++ ")"
  | .query command => return " " ++ command

def Insert.identityText (d : Dialect) (s : Insert) : Except RenderError String :=
  if s.returnIdentity then d.returnIdentity else return ""

theorem Insert.prepared (d : Dialect) (s : Insert) : s.prepare d = do
    let source ← s.source.text d
    let returning ← s.identityText d
    return "INSERT INTO " ++ s.table ++ " (" ++ d.maskAll s.columns ++ ")" ++ source ++ returning := by
  have names : (nameList s.columns).result d = pure (d.maskAll s.columns) := by
    have single (c : String) : (of [.name c]).result d = pure (d.mask c) := by
      simp [resultOf, Lexeme.textAll, Lexeme.text]
    rw [nameList, resultJoined, List.mapM_map]
    simp only [Function.comp_def, single, List.mapM_pure, pure_bind]
    rfl
  have listed (values : List Expr) : (joinWith .comma (values.map (·.render d))).result d = do
      return Text.joinWith "," (← values.mapM (·.compile d)) := by
    rw [resultJoined, List.mapM_map]
    rfl
  have identity : (if s.returnIdentity then ofExcept (d.returnIdentity.map fun t => [.word t]) else of []).result d =
      s.identityText d := by
    rw [identityText]
    split
    · cases d <;> rfl
    · rfl
  rw [prepare, render]
  cases s.source with
  | values values =>
    simp only [resultThen, names, listed, identity, resultOf, InsertSource.text, bind_assoc, pure_bind]
    simp [Lexeme.textAll, Lexeme.text, String.append_assoc]
  | query command =>
    simp only [resultThen, names, identity, resultOf, InsertSource.text, pure_bind]
    simp [Lexeme.textAll, Lexeme.text, String.append_assoc]

end

end LiveSchema
