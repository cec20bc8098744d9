import LiveSchema.Expr.Render
/-! Trees node by node. A walk meets a node before its parts and goes from left to right, which is the order
in which a tree is written. -/
namespace LiveSchema

namespace Expr

mutual
def nodes : Expr → List Expr
  | .unary op e => .unary op e :: e.nodes
  | .binary op l r => .binary op l r :: (l.nodes ++ r.nodes)
  | .call f arguments => .call f arguments :: nodesAll arguments
  | .qualified qualifier target => .qualified qualifier target :: target.nodes
  | .member item candidates => .member item candidates :: (item.nodes ++ nodesAll candidates)
  | e => [e]

def nodesAll : List Expr → List Expr
  | [] => []
  | e :: rest => e.nodes ++ nodesAll rest
end

theorem nodesAllFlat (es : List Expr) : nodesAll es = es.flatMap nodes := by
  induction es with
  | nil => rfl
  | cons e rest ih => rw [nodesAll, ih, List.flatMap_cons]

@[elab_as_elim]
theorem overTrees {motive : Expr → Prop}
    (value : ∀ v, motive (.value v))
    (unary : ∀ op e, motive e → motive (.unary op e))
    (binary : ∀ op l r, motive l → motive r → motive (.binary op l r))
    (call : ∀ f arguments, (∀ a ∈ arguments, motive a) → motive (.call f arguments))
    (parameter : ∀ p, motive (.parameter p))
    (field : ∀ table column, motive (.field table column))
    (column : ∀ name, motive (.column name))
    (qualified : ∀ qualifier target, motive target → motive (.qualified qualifier target))
    (member : ∀ item candidates, motive item → (∀ c ∈ candidates, motive c) →
      motive (.member item candidates))
    (subquery : ∀ command, motive (.subquery command))
    (table : ∀ name, motive (.table name)) (e : Expr) : motive e :=
  @Expr.rec motive (fun es => ∀ e ∈ es, motive e) value unary binary call parameter field column
    qualified member subquery table (fun _ none => by cases none)
    (fun _ _ first rest => List.forall_mem_cons.mpr ⟨first, rest⟩) e

section
variable {P : Expr → Prop}

def Everywhere (P : Expr → Prop) (e : Expr) : Prop := ∀ node ∈ e.nodes, P node

theorem everywhereAll {es : List Expr} :
    (∀ node ∈ nodesAll es, P node) ↔ ∀ e ∈ es, e.Everywhere P := by
  rw [nodesAllFlat]
  simp only [List.mem_flatMap, Everywhere]
  exact ⟨fun all e listed node inside => all node ⟨e, listed, inside⟩,
    fun all node ⟨e, listed, inside⟩ => all e listed node inside⟩

@[simp] theorem everywhereUnary {op : UnaryOp} {e : Expr} :
    (Expr.unary op e).Everywhere P ↔ P (.unary op e) ∧ e.Everywhere P :=
  List.forall_mem_cons

@[simp] theorem everywhereBinary {op : BinaryOp} {l r : Expr} :
    (Expr.binary op l r).Everywhere P ↔ P (.binary op l r) ∧ l.Everywhere P ∧ r.Everywhere P := by
  simp only [Everywhere, nodes, List.forall_mem_cons, List.forall_mem_append]

@[simp] theorem everywhereCall {f : Function} {arguments : List Expr} :
    (Expr.call f arguments).Everywhere P ↔
      P (.call f arguments) ∧ ∀ a ∈ arguments, a.Everywhere P := by
  rw [Everywhere, nodes, List.forall_mem_cons, everywhereAll]

@[simp] theorem everywhereQualified {qualifier : String} {target : Expr} :
    (Expr.qualified qualifier target).Everywhere P ↔
      P (.qualified qualifier target) ∧ target.Everywhere P :=
  List.forall_mem_cons

@[simp] theorem everywhereMember {item : Expr} {candidates : List Expr} :
    (Expr.member item candidates).Everywhere P ↔
      P (.member item candidates) ∧ item.Everywhere P ∧ ∀ c ∈ candidates, c.Everywhere P := by
  rw [Everywhere, nodes, List.forall_mem_cons, List.forall_mem_append, everywhereAll]
  rfl

end

def ownTexts : Expr → List String
  | .value (.text s) => [s]
  | .parameter (.named name) => [name]
  | .field _ c => [c.name]
  | .column name => [name]
  | .qualified qualifier _ => [qualifier]
  | .subquery command => [command]
  | .table name => [name]
  | _ => []

theorem ownText {P : String → Prop} {e : Expr} (all : e.Everywhere fun node => ∀ text ∈ node.ownTexts, P text) :
    ∀ text ∈ e.ownTexts, P text :=
  all e (by cases e <;> exact List.mem_cons_self)

def Lacks (c : Char) (e : Expr) : Prop := e.Everywhere fun node => ∀ text ∈ node.ownTexts, c ∉ text.toList

instance (c : Char) (e : Expr) : Decidable (e.Lacks c) :=
  inferInstanceAs (Decidable (∀ node ∈ e.nodes, ∀ text ∈ node.ownTexts, c ∉ text.toList))

end Expr

end LiveSchema
