import LiveSchema.Proofs.Nodes
import LiveSchema.Proofs.Precedence
/-! Which trees cannot be written. The only obstacle is a call: of a function that the dialect lacks, or with
a number of arguments that the function does not take. The failure that is told is that of the first such
call on the walk through the tree, where a call is met before its arguments. -/
namespace LiveSchema

namespace Rendering

theorem failureGrouped (group : Bool) (r : Rendering) : (grouped group r).failure = r.failure := by
  cases group with
  | false => rfl
  | true => simp [grouped, failureAppend, of]

theorem failureJoined (separator : Lexeme) (rs : List Rendering) :
    (joinWith separator rs).failure = rs.findSome? (·.failure) := by
  induction rs with
  | nil => rfl
  | cons r rest ih =>
    cases rest with
    | nil => simp [joinWith]
    | cons next rest =>
      have split : joinWith separator (r :: next :: rest) =
          r ++ of [separator] ++ joinWith separator (next :: rest) := rfl
      rw [split, failureAppend, failureAppend, ih]
      cases failed : r.failure <;> simp [of, failed]

end Rendering

namespace Dialect

def functionWords : List String := ["COUNT(*)", "RANDOM()"]

def functionNames : List String := ["COUNT", "AVG", "SUM", "MIN", "MAX", "COALESCE"]

theorem calledForm {d : Dialect} {f : Function} {n : Nat} {form : CallForm}
    (called : d.callForm f n = .ok form) :
    n = 0 ∧ form ∈ functionWords.map CallForm.word ∨ form ∈ functionNames.map CallForm.named := by
  by_cases none : n = 0
  · subst none
    cases f with
    | random =>
      cases d with
      | sqlite => cases called; decide
      | sqlServer => contradiction
    | count => cases called; decide
    | _ => contradiction
  · right
    cases f with
    | random => cases d <;> simp [callForm, none] at called
    | coalesce => simp [callForm, none] at called; subst called; decide
    | _ =>
      by_cases one : n = 1
      · simp [callForm, one] at called; subst called; decide
      · simp [callForm, none, one] at called

end Dialect

namespace Expr

inductive Misused : Dialect → Expr → RenderError → Prop
  | random (arguments : List Expr) :
    Misused .sqlServer (.call .random arguments) (.unsupportedFunction "sqlserver" "Random")
  | randomOf {arguments : List Expr} (given : arguments ≠ []) :
    Misused .sqlite (.call .random arguments) (.functionArity "Random" "no" arguments.length)
  | count (d : Dialect) {arguments : List Expr} (several : 1 < arguments.length) :
    Misused d (.call .count arguments) (.functionArity "Count" "0 or 1" arguments.length)
  | single (d : Dialect) {f : Function} {arguments : List Expr} (is : f ∈ [.average, .sum, .min, .max])
    (other : arguments.length ≠ 1) :
    Misused d (.call f arguments) (.functionArity f.title "exactly 1" arguments.length)
  | coalesce (d : Dialect) :
    Misused d (.call .coalesce []) (.functionArity "Coalesce" "at least 1" 0)

def refusal? (d : Dialect) : Expr → Option RenderError
  | .call f arguments =>
    match d.callForm f arguments.length with
    | .error err => some err
    | .ok _ => none
  | _ => none

theorem singleForm {f : Function} (is : f ∈ [.average, .sum, .min, .max]) (d : Dialect) (n : Nat) :
    ∃ name, d.callForm f n =
      if n = 1 then .ok (.named name) else .error (.functionArity f.title "exactly 1" n) := by
  simp only [List.mem_cons, List.not_mem_nil, or_false] at is
  rcases is with rfl | rfl | rfl | rfl <;> exact ⟨_, rfl⟩

theorem refusedMisused {d : Dialect} {node : Expr} {err : RenderError} :
    node.refusal? d = some err ↔ Misused d node err := by
  constructor
  · intro refused
    cases node with
    | call f arguments =>
      have single (is : f ∈ [.average, .sum, .min, .max]) : Misused d (.call f arguments) err := by
        obtain ⟨name, form⟩ := singleForm is d arguments.length
        by_cases one : arguments.length = 1
        · rw [refusal?, form, if_pos one] at refused
          contradiction
        · rw [refusal?, form, if_neg one] at refused
          cases refused
          exact .single d is one
      cases f with
      | average | sum | max | min => exact single (by decide)
      | count =>
        rcases arguments with _ | ⟨a, _ | ⟨b, rest⟩⟩
        · contradiction
        · contradiction
        · obtain rfl : _ = err := by simpa [refusal?, Dialect.callForm] using refused
          exact .count d (by simp)
      | coalesce =>
        cases arguments with
        | nil => cases refused; exact .coalesce d
        | cons a rest => simp [refusal?, Dialect.callForm] at refused
      | random =>
        cases d with
        | sqlServer => cases refused; exact .random arguments
        | sqlite =>
          cases arguments with
          | nil => contradiction
          | cons a rest =>
            obtain rfl : _ = err := by simpa [refusal?, Dialect.callForm] using refused
            exact .randomOf (List.cons_ne_nil a rest)
    | _ => contradiction
  · intro misused
    cases misused with
    | random | coalesce => rfl
    | randomOf given => simp [refusal?, Dialect.callForm, given, Function.title]
    | @count _ arguments several =>
      have positive : arguments ≠ [] := List.ne_nil_of_length_pos (by omega)
      have other : arguments.length ≠ 1 := by omega
      simp [refusal?, Dialect.callForm, positive, other, Function.title]
    | @single _ f arguments is other =>
      obtain ⟨name, form⟩ := singleForm is d arguments.length
      simp [refusal?, form, other]

theorem renderFailure (d : Dialect) (e : Expr) :
    (e.render d).failure = e.nodes.findSome? (refusal? d) := by
  have listed {es : List Expr} (each : ∀ e ∈ es, (e.render d).failure = e.nodes.findSome? (refusal? d)) :
      (Rendering.joinWith .comma (renderAll d es)).failure = (nodesAll es).findSome? (refusal? d) := by
    rw [Rendering.failureJoined]
    induction es with
    | nil => rfl
    | cons e rest ih =>
      have later := ih fun a member => each a (List.mem_cons_of_mem e member)
      rw [renderAll, nodesAll, List.findSome?_append, ← each e List.mem_cons_self, ← later,
        List.findSome?_cons]
      cases (e.render d).failure <;> rfl
  induction e using overTrees with
  | value | parameter | field | column | subquery | table => rfl
  | unary op e ih =>
    rw [render, Rendering.failureAppend, Rendering.failureGrouped, ih]
    rfl
  | qualified qualifier target ih =>
    rw [render, Rendering.failureAppend, ih]
    rfl
  | binary op l r left right =>
    have walk : (Expr.binary op l r).nodes.findSome? (refusal? d) =
        (l.nodes.findSome? (refusal? d)).or (r.nodes.findSome? (refusal? d)) := List.findSome?_append
    rw [walk, render, Rendering.failureAppend, Rendering.failureGrouped, left]
    cases test : op.nullTest? r with
    | some negated =>
      obtain ⟨rfl, -⟩ := nullTestOp test
      rfl
    | none =>
      rw [Rendering.failureAppend, Rendering.failureGrouped, right]
      rfl
  | member item candidates first rest =>
    have walk : (Expr.member item candidates).nodes.findSome? (refusal? d) =
        (item.nodes.findSome? (refusal? d)).or ((nodesAll candidates).findSome? (refusal? d)) :=
      List.findSome?_append
    rw [walk, render, Rendering.failureAppend, Rendering.failureAppend, Rendering.failureAppend,
      Rendering.failureGrouped, first, listed rest]
    simp [Rendering.of]
  | call f arguments each =>
    cases form : d.callForm f arguments.length with
    | error err => simp [render, nodes, refusal?, form, Rendering.failed]
    | ok called =>
      have walk : (Expr.call f arguments).nodes.findSome? (refusal? d) =
          (nodesAll arguments).findSome? (refusal? d) := by
        simp [nodes, refusal?, form]
      cases called with
      | word text =>
        obtain ⟨none, -⟩ | named := Dialect.calledForm form
        · obtain rfl : arguments = [] := List.eq_nil_of_length_eq_zero none
          rw [walk, render, form]
          rfl
        · simp at named
      | named name =>
        rw [walk, ← listed each, render, form]
        simp [Rendering.failureAppend, Rendering.of]

theorem firstMisuseTold (d : Dialect) (e : Expr) :
    ((∃ err, e.compile d = .error err) ↔ ∃ node ∈ e.nodes, ∃ err, Misused d node err) ∧
    ∀ err, e.compile d = .error err ↔
      ∃ before node after, e.nodes = before ++ node :: after ∧ Misused d node err ∧
        ∀ earlier ∈ before, ∀ other, ¬ Misused d earlier other := by
  have told (err : RenderError) : e.compile d = .error err ↔ e.nodes.findSome? (refusal? d) = some err := by
    rw [← renderFailure, compile, Rendering.result]
    cases (e.render d).failure <;> simp
  refine ⟨?_, fun err => ?_⟩
  · simp only [told, ← refusedMisused]
    constructor
    · rintro ⟨err, found⟩
      obtain ⟨node, member, refused⟩ := List.exists_of_findSome?_eq_some found
      exact ⟨node, member, err, refused⟩
    · rintro ⟨node, member, err, refused⟩
      exact Option.isSome_iff_exists.mp (List.findSome?_isSome_iff.mpr ⟨node, member, by rw [refused]; rfl⟩)
  · rw [told, List.findSome?_eq_some_iff]
    simp only [← refusedMisused, Option.eq_none_iff_forall_ne_some, ne_eq]

example :
    (Expr.binary .or (.call .sum [.call .coalesce []]) (.call .max [])).compile .sqlite =
      .error (.functionArity "Coalesce" "at least 1" 0) := rfl

end Expr

end LiveSchema
