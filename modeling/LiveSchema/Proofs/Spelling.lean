import LiveSchema.Proofs.MisusedCalls
import Mathlib.Data.List.Forall2
/-! The text of a tree that can be written, put together from the texts of its parts. Each kind of node has
one form, and an operation a second one where it is a test for NULL. -/
namespace LiveSchema

def inParentheses (group : Bool) (text : List Char) : List Char :=
  if group then '(' :: (text ++ [')']) else text

namespace Rendering

def Writes (d : Dialect) (r : Rendering) (text : List Char) : Prop :=
  r.failure = none ∧ (r.text d).toList = text

section
variable {d : Dialect} {a b r : Rendering} {text : List Char}

theorem resultWrites {s : String} : r.result d = .ok s ↔ r.Writes d s.toList := by
  unfold result Writes
  cases r.failure <;> simp [String.toList_inj]

theorem writesOf {lexemes : List Lexeme} :
    (of lexemes).Writes d text ↔ (Lexeme.textAll d lexemes).toList = text := by
  simp [Writes, of, Rendering.text]

theorem writesAppend : (a ++ b).Writes d text ↔
    ∃ first second, a.Writes d first ∧ b.Writes d second ∧ text = first ++ second := by
  unfold Writes
  rw [appendParts]
  cases failed : a.failure with
  | none => simp [Rendering.text, Lexeme.textAllAppend, eq_comm]
  | some err => simp [failed]

theorem writesGrouped {group : Bool} : (grouped group r).Writes d text ↔
    ∃ inner, r.Writes d inner ∧ text = inParentheses group inner := by
  cases group with
  | false => simp [grouped, inParentheses]
  | true => simp [grouped, inParentheses, writesAppend, writesOf, Lexeme.textAll, Lexeme.text]

theorem writesJoined {separator : Lexeme} {rs : List Rendering} :
    (joinWith separator rs).Writes d text ↔
      ∃ parts, List.Forall₂ (Writes d) rs parts ∧ text = (separator.text d).toList.intercalate parts := by
  induction rs generalizing text with
  | nil =>
    rw [joinWith, writesOf]
    simp [Lexeme.textAll, eq_comm]
  | cons r rest ih =>
    cases rest with
    | nil =>
      constructor
      · exact fun written => ⟨[text], .cons written .nil, by simp⟩
      · rintro ⟨parts, each, rfl⟩
        obtain ⟨part, _, written, none, rfl⟩ := List.forall₂_cons_left_iff.mp each
        cases none
        rwa [List.intercalate_singleton]
    | cons next rest =>
      simp only [joinWith, writesAppend, ih, writesOf, Lexeme.textAll, List.forall₂_cons_left_iff]
      constructor
      · rintro ⟨_, _, ⟨head, _, first, rfl, rfl⟩, ⟨_, ⟨part, parts, second, others, rfl⟩, rfl⟩, rfl⟩
        exact ⟨_, ⟨head, _, first, ⟨part, parts, second, others, rfl⟩, rfl⟩, by simp⟩
      · rintro ⟨_, ⟨head, _, first, ⟨part, parts, second, others, rfl⟩, rfl⟩, rfl⟩
        exact ⟨_, _, ⟨head, _, first, rfl, rfl⟩, ⟨_, ⟨part, parts, second, others, rfl⟩, rfl⟩, by simp⟩

end

end Rendering

namespace Expr

inductive Spelled (d : Dialect) : Expr → List Char → Prop
  | value (v : Value) : Spelled d (.value v) (d.literal v).toList
  | unary (op : UnaryOp) {e : Expr} {text : List Char} (operand : Spelled d e text) :
    Spelled d (.unary op e) (op.symbol.toList ++ inParentheses e.groupsUnderSign text)
  | nullTest {op : BinaryOp} {l : Expr} {negated : Bool} {text : List Char}
    (test : op.nullTest? null = some negated) (left : Spelled d l text) :
    Spelled d (.binary op l null)
      (inParentheses (op.groupsLeft l) text ++ ((Lexeme.nullTest negated).text d).toList)
  | binary {op : BinaryOp} {l r : Expr} {first second : List Char} (test : op.nullTest? r = none)
    (left : Spelled d l first) (right : Spelled d r second) :
    Spelled d (.binary op l r) (inParentheses (op.groupsLeft l) first ++
      ' ' :: (op.symbol.toList ++ ' ' :: inParentheses (op.groupsRight r) second))
  | word (f : Function) {word : String} (fixed : word ∈ Dialect.functionWords) :
    Spelled d (.call f []) word.toList
  | named (f : Function) {name : String} (fixed : name ∈ Dialect.functionNames)
    (parts : List (Expr × List Char)) (each : ∀ p ∈ parts, Spelled d p.1 p.2) :
    Spelled d (.call f (parts.map (·.1)))
      (name.toList ++ '(' :: ([','].intercalate (parts.map (·.2)) ++ [')']))
  | parameter (p : Parameter) : Spelled d (.parameter p) (d.placeholder p).toList
  | field (table : String) (column : Column) :
    Spelled d (.field table column) ('[' :: (column.name.toList ++ [']']))
  | column (name : String) : Spelled d (.column name) ('[' :: (name.toList ++ [']']))
  | qualified (qualifier : String) {target : Expr} {text : List Char} (whole : Spelled d target text) :
    Spelled d (.qualified qualifier target) (qualifier.toList ++ '.' :: text)
  | member {item : Expr} {text : List Char} (parts : List (Expr × List Char)) (first : Spelled d item text)
    (each : ∀ p ∈ parts, Spelled d p.1 p.2) :
    Spelled d (.member item (parts.map (·.1))) (inParentheses item.isBinary text ++
      " IN (".toList ++ [','].intercalate (parts.map (·.2)) ++ [')'])
  | subquery (command : String) : Spelled d (.subquery command) ('(' :: (command.toList ++ [')']))
  | table (name : String) : Spelled d (.table name) name.toList

theorem spelledParts {d : Dialect} {es : List Expr} {parts : List (List Char)}
    (each : ∀ e ∈ es, ∀ {text : List Char}, (e.render d).Writes d text → Spelled d e text)
    (written : List.Forall₂ (Rendering.Writes d) (renderAll d es) parts) :
    ∃ pairs : List (Expr × List Char), es = pairs.map (·.1) ∧ parts = pairs.map (·.2) ∧
      ∀ p ∈ pairs, Spelled d p.1 p.2 := by
  induction es generalizing parts with
  | nil =>
    cases written
    exact ⟨[], rfl, rfl, by simp⟩
  | cons e rest ih =>
    obtain ⟨text, later, first, others, rfl⟩ := List.forall₂_cons_left_iff.mp written
    obtain ⟨pairs, rfl, rfl, spelled⟩ := ih (fun a member => each a (List.mem_cons_of_mem e member)) others
    exact ⟨(e, text) :: pairs, rfl, rfl,
      List.forall_mem_cons.mpr ⟨each e List.mem_cons_self first, spelled⟩⟩

open Rendering in
theorem writtenSpelled {d : Dialect} {e : Expr} {text : List Char} (written : (e.render d).Writes d text) :
    Spelled d e text := by
  have one {l : Lexeme} {text : List Char} (written : (of [l]).Writes d text) : text = (l.text d).toList := by
    simpa [Lexeme.textAll] using (writesOf.mp written).symm
  induction e using overTrees generalizing text with
  | value v => obtain rfl := one written; exact .value v
  | parameter p => obtain rfl := one written; exact .parameter p
  | table name => obtain rfl := one written; exact .table name
  | field t c =>
    obtain rfl := one written
    simpa [Lexeme.text, Dialect.mask, Text.bracket] using Spelled.field t c
  | column name =>
    obtain rfl := one written
    simpa [Lexeme.text, Dialect.mask, Text.bracket] using Spelled.column name
  | subquery command =>
    obtain rfl := writesOf.mp written
    simpa [Lexeme.textAll, Lexeme.text] using Spelled.subquery command
  | unary op e ih =>
    obtain ⟨_, _, sign, operand, rfl⟩ := writesAppend.mp written
    obtain ⟨inner, whole, rfl⟩ := writesGrouped.mp operand
    obtain rfl := one sign
    exact .unary op (ih whole)
  | qualified qualifier target ih =>
    obtain ⟨_, whole, front, rest, rfl⟩ := writesAppend.mp written
    obtain rfl := writesOf.mp front
    simpa [Lexeme.textAll, Lexeme.text] using Spelled.qualified qualifier (ih rest)
  | binary op l r left right =>
    obtain ⟨_, _, operand, rest, rfl⟩ := writesAppend.mp written
    obtain ⟨first, front, rfl⟩ := writesGrouped.mp operand
    cases test : op.nullTest? r with
    | some negated =>
      obtain ⟨rfl, -⟩ := nullTestOp test
      rw [test] at rest
      obtain rfl := one rest
      exact .nullTest test (left front)
    | none =>
      rw [test] at rest
      obtain ⟨_, _, operator, operand, rfl⟩ := writesAppend.mp rest
      obtain ⟨second, back, rfl⟩ := writesGrouped.mp operand
      obtain rfl := one operator
      simpa [Lexeme.text] using Spelled.binary test (left front) (right back)
  | member item candidates first rest =>
    obtain ⟨_, _, unclosed, closed, rfl⟩ := writesAppend.mp written
    obtain ⟨_, _, front, list, rfl⟩ := writesAppend.mp unclosed
    obtain ⟨_, _, operand, opened, rfl⟩ := writesAppend.mp front
    obtain ⟨inner, whole, rfl⟩ := writesGrouped.mp operand
    obtain ⟨parts, each, rfl⟩ := writesJoined.mp list
    obtain ⟨pairs, rfl, rfl, spelled⟩ := spelledParts rest each
    obtain rfl := one closed
    obtain rfl := writesOf.mp opened
    simpa [Lexeme.textAll, Lexeme.text] using Spelled.member pairs (first whole) spelled
  | call f arguments each =>
    cases form : d.callForm f arguments.length with
    | error err =>
      rw [render, form] at written
      cases written.1
    | ok called =>
      rw [render, form] at written
      cases called with
      | word word =>
        obtain ⟨none, fixed⟩ | named := Dialect.calledForm form
        · obtain rfl : arguments = [] := List.eq_nil_of_length_eq_zero none
          obtain rfl := one written
          exact .word f (by simpa [Lexeme.text] using fixed)
        · simp at named
      | named name =>
        obtain ⟨-, words⟩ | fixed := Dialect.calledForm form
        · simp at words
        obtain ⟨_, _, front, closed, rfl⟩ := writesAppend.mp written
        obtain ⟨_, _, opened, list, rfl⟩ := writesAppend.mp front
        obtain ⟨parts, whole, rfl⟩ := writesJoined.mp list
        obtain ⟨pairs, rfl, rfl, spelled⟩ := spelledParts each whole
        obtain rfl := one closed
        obtain rfl := writesOf.mp opened
        have named := Spelled.named f (by simpa using fixed) pairs spelled
        simpa [Lexeme.textAll, Lexeme.text] using named

theorem compiledValue (d : Dialect) (v : Value) : (Expr.value v).compile d = .ok (d.literal v) := by
  simp [compile, render, Rendering.result, Rendering.of, Rendering.text, Lexeme.textAll, Lexeme.text]

theorem compiledSpelled {d : Dialect} {e : Expr} {text : String} (compiled : e.compile d = .ok text) :
    Spelled d e text.toList :=
  writtenSpelled (Rendering.resultWrites.mp compiled)

end Expr

end LiveSchema
