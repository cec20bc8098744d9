import LiveSchema.Proofs.LiteralLists
/-! Trees that both dialects write alike. The dialects share their names, placeholders, operators and nearly all
functions, and they differ in what they write for a few characters inside text literals. -/
namespace LiveSchema

namespace Text

def escapable : List Char := ['\'', '%', '_', '\\', '\n', '\r', '\t']

theorem unescaped {s : List Char} (plain : ∀ c ∈ s, c ∉ escapable) : s.flatMap escapeChar = s := by
  have kept : ∀ c ∈ s, escapeChar c = [c] := by
    intro c member
    have other := plain c member
    simp only [escapable, List.mem_cons, List.not_mem_nil, or_false, not_or] at other
    simp [escapeChar, other]
  rw [List.flatMap_congr kept, List.flatMap_singleton']

end Text

namespace Dialect
open Text

theorem literalAlike {v : Value} (plain : ∀ s, v = .text s → ∀ c ∈ s.toList, c ∉ escapable) :
    sqlite.literal v = sqlServer.literal v := by
  cases v with
  | text s =>
    have kept := plain s rfl
    have unquoted : '\'' ∉ s.toList := fun quote => kept '\'' quote (by decide)
    change quoteDoubled s = quoteEscaped s
    rw [quoteDoubled, quoteEscaped, Literal.undoubled unquoted, unescaped kept]
  | _ => rfl

theorem callFormAlike {f : Function} (shared : f ≠ .random) (arguments : Nat) :
    sqlite.callForm f arguments = sqlServer.callForm f arguments := by
  cases f with
  | random => contradiction
  | _ => rfl

end Dialect

theorem Lexeme.textAlike {l : Lexeme} (fixed : ∀ v, l ≠ .literal v) : l.text .sqlite = l.text .sqlServer := by
  cases l with
  | literal v => exact absurd rfl (fixed v)
  | _ => rfl

namespace Rendering

structure Agree (r s : Rendering) : Prop where
  text : r.text .sqlite = s.text .sqlServer
  failure : r.failure = s.failure

section
variable {r s t u : Rendering}

theorem alikeFailed (e : RenderError) : Agree (failed e) (failed e) := ⟨rfl, rfl⟩

theorem alikeOf {lexemes : List Lexeme} (each : ∀ l ∈ lexemes, l.text .sqlite = l.text .sqlServer) :
    Agree (of lexemes) (of lexemes) := by
  refine ⟨?_, rfl⟩
  change Lexeme.textAll .sqlite lexemes = Lexeme.textAll .sqlServer lexemes
  induction lexemes with
  | nil => rfl
  | cons l rest ih =>
    obtain ⟨first, others⟩ := List.forall_mem_cons.mp each
    rw [Lexeme.textAll, Lexeme.textAll, first, ih others]

theorem alikeFixed {lexemes : List Lexeme} (fixed : ∀ l ∈ lexemes, ∀ v, l ≠ .literal v) :
    Agree (of lexemes) (of lexemes) :=
  alikeOf fun l member => Lexeme.textAlike (fixed l member)

theorem alikeThen (front : Agree r s) (back : Agree t u) : Agree (r ++ t) (s ++ u) := by
  rw [appendParts, appendParts, ← front.failure]
  cases stopped : r.failure with
  | some e => exact front
  | none =>
    refine ⟨?_, back.failure⟩
    have first : Lexeme.textAll .sqlite r.lexemes = Lexeme.textAll .sqlServer s.lexemes := front.text
    have second : Lexeme.textAll .sqlite t.lexemes = Lexeme.textAll .sqlServer u.lexemes := back.text
    simp only [Rendering.text, Lexeme.textAllAppend, first, second]

theorem alikeGrouped (group : Bool) (inner : Agree r s) : Agree (grouped group r) (grouped group s) := by
  cases group with
  | false => exact inner
  | true => exact alikeThen (alikeThen (alikeFixed (by simp)) inner) (alikeFixed (by simp))

theorem alikeJoined {α : Type} {parts : List α} {f g : α → Rendering}
    (each : ∀ p ∈ parts, Agree (f p) (g p)) :
    Agree (joinWith .comma (parts.map f)) (joinWith .comma (parts.map g)) := by
  induction parts with
  | nil => exact alikeFixed (by simp)
  | cons p rest ih =>
    obtain ⟨first, others⟩ := List.forall_mem_cons.mp each
    cases rest with
    | nil => exact first
    | cons q rest => exact alikeThen (alikeThen first (alikeFixed (by simp))) (ih others)

theorem alikeResult (alike : Agree r s) : r.result .sqlite = s.result .sqlServer := by
  unfold result
  rw [alike.text, alike.failure]

end

end Rendering

namespace Expr
open Rendering Text

def Portable : Expr → Prop
  | .value (.text s) => ∀ c ∈ s.toList, c ∉ escapable
  | .call f _ => f ≠ .random
  | _ => True

instance : DecidablePred Portable
  | .value (.text s) => List.decidableBAll (· ∉ escapable) s.toList
  | .call f _ => inferInstanceAs (Decidable (f ≠ .random))
  | .value .null | .value (.bool _) | .value (.int _) | .value (.float _) | .value (.blob _)
  | .value (.timestamp _) | .unary .. | .binary .. | .parameter _ | .field .. | .column _
  | .qualified .. | .member .. | .subquery _ | .table _ => isTrue trivial

theorem renderAlike {e : Expr} (portable : e.Everywhere Portable) :
    Agree (e.render .sqlite) (e.render .sqlServer) := by
  induction e using overTrees with
  | value v =>
    have own : Portable (.value v) := portable _ List.mem_cons_self
    refine alikeOf (List.forall_mem_singleton.mpr (Dialect.literalAlike fun s is => ?_))
    subst is
    exact own
  | parameter | field | column | subquery | table => exact alikeFixed (by simp)
  | unary op e ih =>
    obtain ⟨-, operand⟩ := everywhereUnary.mp portable
    exact alikeThen (alikeFixed (by simp)) (alikeGrouped _ (ih operand))
  | binary op l r left right =>
    obtain ⟨-, first, second⟩ := everywhereBinary.mp portable
    rw [render, render]
    refine alikeThen (alikeGrouped _ (left first)) ?_
    cases op.nullTest? r with
    | some negated => exact alikeFixed (by simp)
    | none => exact alikeThen (alikeFixed (by simp)) (alikeGrouped _ (right second))
  | call f arguments each =>
    obtain ⟨shared, parts⟩ := everywhereCall.mp portable
    rw [render, render, Dialect.callFormAlike shared]
    cases Dialect.callForm .sqlServer f arguments.length with
    | error e => exact alikeFailed e
    | ok form =>
      cases form with
      | word text => exact alikeFixed (by simp)
      | named name =>
        simp only [renderAllMap]
        exact alikeThen (alikeThen (alikeFixed (by simp))
          (alikeJoined fun a member => each a member (parts a member))) (alikeFixed (by simp))
  | qualified qualifier target ih =>
    obtain ⟨-, inner⟩ := everywhereQualified.mp portable
    exact alikeThen (alikeFixed (by simp)) (ih inner)
  | member item candidates first each =>
    obtain ⟨-, inner, parts⟩ := everywhereMember.mp portable
    rw [render, render, renderAllMap, renderAllMap]
    exact alikeThen (alikeThen (alikeThen (alikeGrouped _ (first inner)) (alikeFixed (by simp)))
      (alikeJoined fun c member => each c member (parts c member))) (alikeFixed (by simp))

theorem dialectsAgree {e : Expr} (portable : e.Everywhere Portable) :
    e.compile .sqlite = e.compile .sqlServer ∧
      ∀ buffer, e.writeTo .sqlite buffer = e.writeTo .sqlServer buffer := by
  have alike := renderAlike portable
  refine ⟨alikeResult alike, fun buffer => ?_⟩
  unfold writeTo
  dsimp only
  rw [alike.text, alike.failure]

def waitingTasks : Expr :=
  .binary .and (.member (.column "state") [.value (.text "open"), .value (.text "on hold")])
    (.binary .less (.call .max [.column "due"]) (.parameter (.named "today")))

theorem waitingTasksAgree : waitingTasks.Everywhere Portable ∧
    waitingTasks.compile .sqlite = .ok "[state] IN ('open','on hold') AND MAX([due]) < @today" ∧
    waitingTasks.compile .sqlServer = .ok "[state] IN ('open','on hold') AND MAX([due]) < @today" := by
  have portable : waitingTasks.Everywhere Portable := by
    unfold Everywhere
    decide
  have written : waitingTasks.compile .sqlite =
      .ok "[state] IN ('open','on hold') AND MAX([due]) < @today" := by decide
  exact ⟨portable, written, (dialectsAgree portable).1 ▸ written⟩

example : (Expr.value (.text "it's")).compile .sqlite ≠ (Expr.value (.text "it's")).compile .sqlServer := by decide

end Expr

end LiveSchema
