import LiveSchema.Proofs.Grouping
import LiveSchema.Proofs.PhraseText
/-! Conditions as text. What is read is the condition that was written, with a comparison with the NULL
literal as a test for NULL; only a chain of ANDs or of ORs may come back grouped otherwise. -/
namespace LiveSchema

namespace BinaryOp

def isCondition : BinaryOp → Bool
  | .and | .or | .equals | .notEqual | .like | .greater | .greaterEqual | .less | .lessEqual => true
  | _ => false

def SameJunction (op o : BinaryOp) : Prop := op = o ∧ (op = .and ∨ op = .or)

theorem sameJunction {op o : BinaryOp} (first : op.isCondition = true) (second : o.isCondition = true)
    (associative : op.isAssociative = true) (same : o.rank = op.rank) : op.SameJunction o := by
  have junction : op = .and ∨ op = .or := by
    revert first associative
    cases op <;> decide
  refine ⟨?_, junction⟩
  revert second same
  rcases junction with rfl | rfl <;> cases o <;> decide

end BinaryOp

namespace Expr

def isCondition : Expr → Bool
  | .value .null | .parameter _ | .field _ _ | .column _ => true
  | .binary op l r => op.isCondition && l.isCondition && r.isCondition
  | _ => false

variable {e : Expr}

theorem conditionEdge {op : BinaryOp} (is : op.isCondition = true) (associative : op.isAssociative = true)
    (condition : e.isCondition = true) : e.Edge op.SameJunction op.rank := by
  fun_induction isCondition e with
  | case1 | case2 | case3 | case4 => trivial
  | case5 o a b iha _ =>
    simp only [Bool.and_eq_true] at condition
    exact fun same => ⟨BinaryOp.sameJunction is condition.1.1 associative same, iha condition.1.2⟩
  | case6 => contradiction

theorem conditionPlain (condition : e.isCondition = true) : e.Plain BinaryOp.SameJunction := by
  fun_induction isCondition e with
  | case1 | case2 | case3 | case4 => exact .leaf rfl
  | case5 op l r ihl ihr =>
    simp only [Bool.and_eq_true] at condition
    exact .binary (ihl condition.1.2) (ihr condition.2) fun joined =>
      conditionEdge condition.1.1 (joinsAssociative joined) condition.2
  | case6 => contradiction

theorem conditionKept (condition : e.isCondition = true) (free : Bool) :
    e.itemsKept free = true := by
  fun_induction isCondition e generalizing free with
  | case1 | case2 | case3 | case4 => rfl
  | case5 op l r ihl ihr =>
    simp only [Bool.and_eq_true] at condition
    simp [itemsKept, ihl condition.1.2, ihr condition.2]
  | case6 => contradiction

theorem conditionReadBack (condition : e.isCondition = true) (d : Dialect) :
    ∃ p, e.TextReads d p ∧ Regrouped BinaryOp.SameJunction p e.asPhrase := by
  have plain := conditionPlain condition
  exact ⟨_, textReadsPlain plain d, wholeAlike (plainMeant plain) (conditionKept condition true)⟩

def filter : Expr :=
  .binary .and (.binary .equals (.binary .notEqual (.column "a") .null) .null)
    (.binary .and (.binary .or (.binary .greater (.column "b") (.parameter .positional))
        (.binary .less .null (.parameter (.indexed 2))))
      (.binary .notEqual (.column "c") (.binary .like (.column "d") (.parameter (.named "form")))))

theorem filterReadBack :
    filter.isCondition = true ∧
    filter.compile .sqlite =
      .ok "[a] IS NOT NULL IS NULL AND ([b] > ? OR NULL < @2) AND [c] <> ([d] LIKE @form)" ∧
    ∃ p, filter.TextReads .sqlite p ∧ Regrouped BinaryOp.SameJunction p filter.asPhrase :=
  ⟨by decide, by decide, conditionReadBack (by decide) .sqlite⟩

end Expr

end LiveSchema
