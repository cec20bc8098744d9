import LiveSchema.Proofs.ArithmeticText
import Mathlib.Data.Int.Bitwise
import Mathlib.Logic.Encodable.Basic
import Mathlib.Tactic.Linarith
/-! What arithmetic is worth. Columns hold integers; division truncates, and neither it nor the remainder
has a value for a divisor of zero. A text keeps the value of its tree unless an operand that was joined
without parentheses begins with another operator of the same rank. -/
namespace LiveSchema

namespace BinaryOp

def compute? : BinaryOp → Int → Int → Option Int
  | .add, a, b => some (a + b)
  | .sub, a, b => some (a - b)
  | .mul, a, b => some (a * b)
  | .div, a, b => if b = 0 then none else some (a.tdiv b)
  | .modulo, a, b => if b = 0 then none else some (a.tmod b)
  | .bitAnd, a, b => some (a.land b)
  | .bitOr, a, b => some (a.lor b)
  | .bitXor, a, b => some (a.xor b)
  | _, _, _ => none

def combine? (op : BinaryOp) (x y : Option Int) : Option Int := do op.compute? (← x) (← y)

@[simp]
theorem combineSome (op : BinaryOp) (a b : Int) : op.combine? (some a) (some b) = op.compute? a b := rfl

@[simp]
theorem combineNoneLeft (op : BinaryOp) (y : Option Int) : op.combine? none y = none := rfl

@[simp]
theorem combineNoneRight (op : BinaryOp) (x : Option Int) : op.combine? x none = none := by
  cases x <;> rfl

end BinaryOp

section Bits

theorem bitsDetermine {a b : Int} (same : ∀ k, a.testBit k = b.testBit k) : a = b := by
  have apart (m n : Nat) : ∃ k, (Int.ofNat m).testBit k ≠ (Int.negSucc n).testBit k := by
    have left : m.testBit (m + n) = false :=
      Nat.testBit_lt_two_pow (Nat.lt_of_le_of_lt (Nat.le_add_right m n) Nat.lt_two_pow_self)
    have right : n.testBit (m + n) = false :=
      Nat.testBit_lt_two_pow (Nat.lt_of_le_of_lt (Nat.le_add_left n m) Nat.lt_two_pow_self)
    exact ⟨m + n, by simp [Int.testBit, left, right]⟩
  cases a with
  | ofNat m =>
    cases b with
    | ofNat n => exact congrArg Int.ofNat (Nat.eq_of_testBit_eq fun k => same k)
    | negSucc n =>
      obtain ⟨k, differs⟩ := apart m n
      exact absurd (same k) differs
  | negSucc m =>
    cases b with
    | ofNat n =>
      obtain ⟨k, differs⟩ := apart n m
      exact absurd (same k).symm differs
    | negSucc n =>
      refine congrArg Int.negSucc (Nat.eq_of_testBit_eq fun k => ?_)
      simpa [Int.testBit] using same k

theorem landAssoc (a b c : Int) : (a.land b).land c = a.land (b.land c) :=
  bitsDetermine fun k => by simp [Bool.and_assoc]

theorem lorAssoc (a b c : Int) : (a.lor b).lor c = a.lor (b.lor c) :=
  bitsDetermine fun k => by simp [Bool.or_assoc]

@[simp] theorem testBitZero (k : Nat) : Int.testBit 0 k = false := by simp [Int.testBit]
@[simp] theorem testBitOnes (k : Nat) : Int.testBit (-1) k = true := by
  show Int.testBit (Int.negSucc 0) k = true
  simp [Int.testBit]

@[simp] theorem landOnes (a : Int) : a.land (-1) = a := bitsDetermine fun k => by simp
@[simp] theorem onesLand (a : Int) : Int.land (-1) a = a := bitsDetermine fun k => by simp
@[simp] theorem landZero (a : Int) : a.land 0 = 0 := bitsDetermine fun k => by simp
@[simp] theorem zeroLand (a : Int) : Int.land 0 a = 0 := bitsDetermine fun k => by simp
@[simp] theorem lorZero (a : Int) : a.lor 0 = a := bitsDetermine fun k => by simp
@[simp] theorem zeroLor (a : Int) : Int.lor 0 a = a := bitsDetermine fun k => by simp
@[simp] theorem lorSelf (a : Int) : a.lor a = a := bitsDetermine fun k => by simp
@[simp] theorem xorZero (a : Int) : a.xor 0 = a := bitsDetermine fun k => by simp
@[simp] theorem zeroXor (a : Int) : Int.xor 0 a = a := bitsDetermine fun k => by simp
@[simp] theorem xorSelf (a : Int) : a.xor a = 0 := bitsDetermine fun k => by simp

end Bits

namespace Expr

def amount? (row : String → Int) : Expr → Option Int
  | .field _ c => some (row c.name)
  | .column name => some (row name)
  | .binary op l r => op.combine? (l.amount? row) (r.amount? row)
  | _ => none

def edge? (row : String → Int) (x : Option Int) (op : BinaryOp) : Expr → Option Int
  | .binary o a b =>
    if o.rank = op.rank then o.combine? (edge? row x op a) (b.amount? row)
    else op.combine? x ((Expr.binary o a b).amount? row)
  | e => op.combine? x (e.amount? row)

variable {row : String → Int} {op o : BinaryOp} {e f l r : Expr}

theorem graftAmount (l : Expr) (op : BinaryOp) (e : Expr) :
    (graft l op e).amount? row = edge? row (l.amount? row) op e := by
  fun_induction graft l op e with
  | case1 q a b same ih => simp [edge?, same, amount?, ih]
  | case2 q a b other => simp [edge?, other, amount?]
  | case3 e leaf =>
    cases e with
    | binary q a b => exact (leaf q a b rfl).elim
    | _ => simp [edge?, amount?]

theorem edgeGraft (same : op.rank = o.rank) (x : Option Int) (a b : Expr) :
    edge? row x op (graft a o b) = edge? row (edge? row x op a) o b := by
  fun_induction graft a o b with
  | case1 q u v edge ih => simp [edge?, edge, same, ih]
  | case2 q u v other => simp [edge?, other, same]
  | case3 e leaf =>
    cases e with
    | binary q a b => exact (leaf q a b rfl).elim
    | _ => simp [edge?, same]

theorem edgeOther (other : e.rank ≠ op.rank) (x : Option Int) :
    edge? row x op e = op.combine? x (e.amount? row) := by
  cases e with
  | binary o a b =>
    have differs : o.rank ≠ op.rank := other
    simp [edge?, differs]
  | _ => rfl

theorem edgeNone (op : BinaryOp) (e : Expr) : edge? row none op e = none := by
  fun_induction edge? row none op e with
  | case1 q a b same ih => simp [ih]
  | case2 | case3 => rfl

theorem regroupedAmount (op : BinaryOp) (l r : Expr) :
    (Expr.binary op l r).regrouped.amount? row =
      if op.joins r then edge? row (l.regrouped.amount? row) op r.regrouped
      else op.combine? (l.regrouped.amount? row) (r.regrouped.amount? row) := by
  simp only [regrouped]
  split
  · exact graftAmount _ _ _
  · rfl

def onlyChain (op : BinaryOp) : Expr → Bool
  | .binary o a _ => if o.rank = op.rank then o == op && a.onlyChain op else true
  | _ => true

/-- What is joined may be regrouped: a sum may begin with sums and differences, and any other joined
operand begins with its own operator only. -/
def chainsAlike : Expr → Bool
  | .binary op l r =>
    l.chainsAlike && r.chainsAlike && (!op.joins r || op == .add || r.onlyChain op)
  | _ => true

theorem onlyChainGraft (a b : Expr) :
    (graft a op b).onlyChain op = (a.onlyChain op && b.onlyChain op) := by
  fun_induction graft a op b with
  | case1 q u v same ih => simp [onlyChain, same, ih, Bool.and_left_comm]
  | case2 q u v other => simp [onlyChain, other]
  | case3 e leaf =>
    cases e with
    | binary q a b => exact (leaf q a b rfl).elim
    | _ => simp [onlyChain]

theorem onlyChainOther (other : e.rank ≠ op.rank) : e.onlyChain op = true := by
  cases e with
  | binary o a b =>
    have differs : o.rank ≠ op.rank := other
    simp [onlyChain, differs]
  | _ => rfl

theorem onlyChainRegrouped (alike : e.chainsAlike = true) (only : e.onlyChain op = true)
    (notSum : op ≠ .add) : e.regrouped.onlyChain op = true := by
  fun_induction regrouped e with
  | case1 => rfl
  | case2 q a b joined iha ihb =>
    by_cases same : q.rank = op.rank
    · simp only [onlyChain, same, if_true, Bool.and_eq_true, beq_iff_eq] at only
      obtain ⟨rfl, left⟩ := only
      simp only [chainsAlike, joined, Bool.not_true, Bool.false_or, Bool.and_eq_true, Bool.or_eq_true,
        beq_iff_eq, notSum, false_or] at alike
      rw [onlyChainGraft, iha alike.1.1 left, ihb alike.1.2 alike.2]
      rfl
    · refine onlyChainOther ?_
      rwa [graftRank _ _ _ (by rw [regroupedRank, (BinaryOp.joinedRank joined).1])]
  | case3 q a b open_ iha ihb =>
    by_cases same : q.rank = op.rank
    · simp only [onlyChain, same, if_true, Bool.and_eq_true] at only ⊢
      simp only [chainsAlike, Bool.and_eq_true] at alike
      exact ⟨only.1, iha alike.1.1 only.2⟩
    · exact onlyChainOther same
  | case4 => exact only

end Expr

namespace BinaryOp

def Regroups (op q : BinaryOp) : Prop :=
  op = .add ∧ (q = .add ∨ q = .sub) ∨ q = op ∧ (op = .mul ∨ op = .bitAnd ∨ op = .bitOr)

theorem chainRegroups {op q : BinaryOp} (associative : op.isAssociative = true)
    (arithmetic : op.isArithmetic = true) (same : q.rank = op.rank) (chain : op = .add ∨ q = op) :
    op.Regroups q := by
  have four : op = .add ∨ op = .mul ∨ op = .bitAnd ∨ op = .bitOr := by
    revert associative arithmetic
    cases op <;> decide
  rcases four with rfl | others
  · refine .inl ⟨rfl, ?_⟩
    revert same
    cases q <;> decide
  · refine .inr ⟨chain.resolve_left ?_, others⟩
    rintro rfl
    simp at others

theorem combineRegrouped {op q : BinaryOp} (regroups : op.Regroups q) (x y z : Option Int) :
    q.combine? (op.combine? x y) z = op.combine? x (q.combine? y z) := by
  have values (a b c : Int) : (op.compute? a b).bind (q.compute? · c) =
      (q.compute? b c).bind (op.compute? a ·) := by
    rcases regroups with ⟨rfl, rfl | rfl⟩ | ⟨rfl, rfl | rfl | rfl⟩
    · simp [compute?, Int.add_assoc]
    · simp [compute?, Int.add_sub_assoc]
    · simp [compute?, Int.mul_assoc]
    · simp [compute?, landAssoc]
    · simp [compute?, lorAssoc]
  cases x with
  | none => rfl
  | some a =>
    cases z with
    | none => simp
    | some c =>
      cases y with
      | none => rfl
      | some b => exact values a b c

end BinaryOp

namespace Expr
variable {row : String → Int} {op o : BinaryOp} {e f l r : Expr}

theorem edgeAmount (arithmetic : e.isArithmetic = true) (associative : op.isAssociative = true)
    (arithmeticOp : op.isArithmetic = true) (chain : op = .add ∨ e.onlyChain op = true)
    (x : Option Int) : edge? row x op e = op.combine? x (e.amount? row) := by
  fun_induction edge? row x op e with
  | case1 q a b same ih =>
    simp only [isArithmetic, Bool.and_eq_true] at arithmetic
    simp only [onlyChain, same, if_true, Bool.and_eq_true, beq_iff_eq] at chain
    have regroups := BinaryOp.chainRegroups associative arithmeticOp same (chain.imp_right And.left)
    rw [ih arithmetic.1.2 (chain.imp_right And.right), BinaryOp.combineRegrouped regroups]
    rfl
  | case2 | case3 => rfl

theorem graftArithmetic (l : Expr) (op : BinaryOp) (e : Expr) :
    (graft l op e).isArithmetic = (op.isArithmetic && l.isArithmetic && e.isArithmetic) := by
  fun_induction graft l op e with
  | case1 q a b same ih => simp [isArithmetic, ih, Bool.and_left_comm, Bool.and_assoc]
  | case2 q a b other => simp [isArithmetic]
  | case3 e leaf => simp [isArithmetic]

theorem arithmeticRegrouped (arithmetic : e.isArithmetic = true) :
    e.regrouped.isArithmetic = true := by
  fun_induction isArithmetic e with
  | case1 | case2 => rfl
  | case3 q a b iha ihb =>
    simp only [Bool.and_eq_true] at arithmetic
    have left := iha arithmetic.1.2
    have right := ihb arithmetic.2
    simp only [regrouped]
    split
    · simp [graftArithmetic, arithmetic.1.1, left, right]
    · simp [isArithmetic, arithmetic.1.1, left, right]
  | case4 => contradiction

theorem regroupedAmountAlike (arithmetic : e.isArithmetic = true) (alike : e.chainsAlike = true)
    (row : String → Int) : e.regrouped.amount? row = e.amount? row := by
  fun_induction isArithmetic e with
  | case1 | case2 => rfl
  | case3 q a b iha ihb =>
    simp only [Bool.and_eq_true] at arithmetic
    simp only [chainsAlike, Bool.and_eq_true, Bool.or_eq_true, Bool.not_eq_true', beq_iff_eq] at alike
    have left := iha arithmetic.1.2 alike.1.1
    have right := ihb arithmetic.2 alike.1.2
    rw [regroupedAmount, amount?]
    split
    · rename_i joined
      have chain : q = .add ∨ b.regrouped.onlyChain q = true := by
        rcases alike.2 with (open_ | sum) | only
        · simp [open_] at joined
        · exact .inl sum
        · by_cases sum : q = .add
          · exact .inl sum
          · exact .inr (onlyChainRegrouped alike.1.2 only sum)
      rw [edgeAmount (arithmeticRegrouped arithmetic.2) (joinsAssociative joined) arithmetic.1.1 chain,
        left, right]
    · rw [left, right]
  | case4 => contradiction

end Expr

end LiveSchema
