import LiveSchema.Proofs.ArithmeticValue
import Mathlib.Algebra.Order.Ring.Int
import Mathlib.Tactic.Linarith
import Mathlib.Tactic.NormNum
/-! For which trees the text keeps the value. If a joined operand begins with an operator that cannot be
regrouped, some choice of columns and values tells the text from the tree: the operands beside the joined
one are made neutral, and so is everything between it and the top. -/
namespace LiveSchema

namespace Expr

def isColumn : Expr → Bool
  | .field _ _ | .column _ => true
  | _ => false

inductive SameShape : Expr → Expr → Prop where
  | column {e f} (left : e.isColumn = true) (right : f.isColumn = true) : SameShape e f
  | binary {op l r l' r'} (left : SameShape l l') (right : SameShape r r') :
    SameShape (.binary op l r) (.binary op l' r')

section Shape
variable {op : BinaryOp} {e f : Expr}

theorem shapeArithmetic (shape : SameShape e f) : e.isArithmetic = f.isArithmetic := by
  induction shape with
  | @column e f left right =>
    cases e <;> cases f <;> first | rfl | contradiction
  | binary _ _ left right => simp [isArithmetic, left, right]

theorem shapeJoins (shape : SameShape e f) : op.joins e = op.joins f := by
  cases shape with
  | column left right => cases e <;> cases f <;> first | rfl | contradiction
  | binary => rfl

theorem shapeOnlyChain (shape : SameShape e f) : e.onlyChain op = f.onlyChain op := by
  induction shape with
  | @column e f left right => cases e <;> cases f <;> first | rfl | contradiction
  | binary _ _ left _ => simp [onlyChain, left]

theorem shapeChainsAlike (shape : SameShape e f) : e.chainsAlike = f.chainsAlike := by
  induction shape with
  | @column e f left right => cases e <;> cases f <;> first | rfl | contradiction
  | binary _ shape left right =>
    simp [chainsAlike, left, right, shapeJoins shape, shapeOnlyChain shape]

theorem shapeSelf (arithmetic : e.isArithmetic = true) : SameShape e e := by
  fun_induction isArithmetic e with
  | case1 | case2 => exact .column rfl rfl
  | case3 q a b iha ihb =>
    simp only [Bool.and_eq_true] at arithmetic
    exact .binary (iha arithmetic.1.2) (ihb arithmetic.2)
  | case4 => contradiction

end Shape

end Expr

namespace BinaryOp

def rightNeutral (bound : Int) : BinaryOp → Int
  | .mul | .div => 1
  | .modulo => bound + 1
  | .bitAnd => -1
  | _ => 0

def leftNeutral : BinaryOp → Int
  | .mul => 1
  | .bitAnd => -1
  | _ => 0

theorem remainderSmall {a b : Int} (small : |a| ≤ b) : a.tmod (b + 1) = a := by
  have bounds := abs_le.mp small
  rcases le_total 0 a with positive | negative
  · exact Int.tmod_eq_of_lt positive (by omega)
  · have opposite : (-a).tmod (b + 1) = -a := Int.tmod_eq_of_lt (by omega) (by omega)
    rw [Int.neg_tmod] at opposite
    omega

theorem computeRight {op : BinaryOp} (arithmetic : op.isArithmetic = true) {a bound : Int}
    (small : |a| ≤ bound) : op.compute? a (op.rightNeutral bound) = some a := by
  have positive : bound + 1 ≠ 0 := by
    have := abs_nonneg a
    omega
  cases op <;> first
    | contradiction
    | simp [compute?, rightNeutral, positive, remainderSmall small]

theorem rightNeutralSmall (op : BinaryOp) {bound : Int} (positive : 0 ≤ bound) :
    |op.rightNeutral bound| ≤ bound + 1 := by
  have whole : 0 ≤ bound + 1 := Int.le_add_one positive
  have one : |(1 : Int)| = 1 := rfl
  cases op with
  | modulo => exact (abs_of_nonneg whole).le
  | mul | div | bitAnd => simpa [rightNeutral, one] using positive
  | _ => simpa [rightNeutral] using whole

theorem computeLeft {op : BinaryOp} (arithmetic : op.isArithmetic = true)
    (commutes : op ≠ .sub ∧ op ≠ .div ∧ op ≠ .modulo) (a : Int) :
    op.compute? op.leftNeutral a = some a := by
  cases op <;> first
    | contradiction
    | simp [compute?, leftNeutral]

end BinaryOp

namespace Expr

def Covers (row : String → Int) : Prop := ∀ v : Int, ∃ name, row name = v

def columnOf (v : Int) : String := String.ofList (List.replicate (Encodable.encode v) 'c')

theorem someRowCovers : ∃ row, Covers row := by
  have distinct : Function.Injective columnOf := by
    intro v w same
    have lengths := congrArg (fun s : String => s.toList.length) same
    simpa [columnOf] using lengths
  exact ⟨Function.invFun columnOf, fun v => ⟨columnOf v, Function.leftInverse_invFun distinct v⟩⟩

/-- The tree and its text both have the value, and an operand hung into the left edge of what the text
stands for meets it as a whole, as long as the result is within the bound. -/
structure Valued (row : String → Int) (e : Expr) (v bound : Int) : Prop where
  value : e.amount? row = some v
  read : e.regrouped.amount? row = some v
  edge : ∀ op x y, op.compute? x v = some y → |y| ≤ bound →
    edge? row (some x) op e.regrouped = some y

section
variable {row : String → Int} {op o : BinaryOp} {e l r : Expr}

theorem edgeRegrouped (same : o.rank = op.rank) (x : Option Int) (l r : Expr) :
    edge? row x op (Expr.binary o l r).regrouped =
      if o.joins r then edge? row (edge? row x op l.regrouped) o r.regrouped
      else o.combine? (edge? row x op l.regrouped) (r.regrouped.amount? row) := by
  simp only [regrouped]
  split
  · exact edgeGraft same.symm _ _ _
  · simp [edge?, same]

theorem besideNeutral (arithmetic : op.isArithmetic = true) {bound : Int}
    (neutral : Valued row r (op.rightNeutral bound) (bound + 1)) {x : Option Int}
    (small : ∀ y ∈ x, |y| ≤ bound) :
    op.combine? x (r.amount? row) = x ∧ op.combine? x (r.regrouped.amount? row) = x ∧
      edge? row x op r.regrouped = x := by
  cases x with
  | none => exact ⟨rfl, rfl, edgeNone op _⟩
  | some y =>
    have kept := BinaryOp.computeRight arithmetic (small y rfl)
    have le : |y| ≤ bound + 1 := by
      have := small y rfl
      omega
    rw [neutral.value, neutral.read, neutral.edge op y y kept le]
    exact ⟨kept, kept, rfl⟩

theorem besideNeutralRead (arithmetic : op.isArithmetic = true) {bound : Int}
    (neutral : Valued row r (op.rightNeutral bound) (bound + 1))
    (small : ∀ y ∈ l.regrouped.amount? row, |y| ≤ bound) :
    (Expr.binary op l r).regrouped.amount? row = l.regrouped.amount? row := by
  have beside := besideNeutral arithmetic neutral small
  rw [regroupedAmount, beside.2.1, beside.2.2, ite_self]

theorem besideNeutralEdge (arithmetic : o.isArithmetic = true) {bound : Int}
    (neutral : Valued row r (o.rightNeutral bound) (bound + 1)) (same : o.rank = op.rank)
    {x : Option Int} (small : ∀ y ∈ edge? row x op l.regrouped, |y| ≤ bound) :
    edge? row x op (Expr.binary o l r).regrouped = edge? row x op l.regrouped := by
  have beside := besideNeutral arithmetic neutral small
  rw [edgeRegrouped same, beside.2.1, beside.2.2, ite_self]

theorem valuedTree (covers : Covers row) (arithmetic : e.isArithmetic = true) {v bound : Int}
    (small : |v| ≤ bound) : ∃ f, SameShape e f ∧ Valued row f v bound := by
  fun_induction isArithmetic e generalizing v bound with
  | case1 | case2 =>
    obtain ⟨name, rfl⟩ := covers v
    exact ⟨.column name, .column rfl rfl, rfl, rfl, fun _ _ _ value _ => value⟩
  | case3 q a b iha ihb =>
    simp only [Bool.and_eq_true] at arithmetic
    have positive : 0 ≤ bound := le_trans (abs_nonneg v) small
    obtain ⟨a', left, valued⟩ := iha arithmetic.1.2 small
    obtain ⟨b', right, neutral⟩ := ihb arithmetic.2 (q.rightNeutralSmall positive)
    refine ⟨.binary q a' b', .binary left right, ?_, ?_, ?_⟩
    · have beside := besideNeutral arithmetic.1.1 neutral (x := a'.amount? row) (by simpa [valued.value])
      rw [amount?, beside.1, valued.value]
    · rw [besideNeutralRead arithmetic.1.1 neutral (by simpa [valued.read]), valued.read]
    · intro op x y value within
      by_cases same : q.rank = op.rank
      · have edge := valued.edge op x y value within
        rw [besideNeutralEdge arithmetic.1.1 neutral same (by simpa [edge]), edge]
      · have other : (Expr.binary q a' b').regrouped.rank ≠ op.rank := by rwa [regroupedRank]
        rw [edgeOther other, besideNeutralRead arithmetic.1.1 neutral (by simpa [valued.read]),
          valued.read]
        exact value
  | case4 => contradiction

theorem neutralTree (covers : Covers row) (arithmetic : r.isArithmetic = true) (op : BinaryOp)
    {bound : Int} (positive : 0 ≤ bound) :
    ∃ r', SameShape r r' ∧ Valued row r' (op.rightNeutral bound) (bound + 1) :=
  valuedTree covers arithmetic (op.rightNeutralSmall positive)

theorem edgeNeutral (row : String → Int) (arithmeticOp : op.isArithmetic = true)
    (commutes : op ≠ .sub ∧ op ≠ .div ∧ op ≠ .modulo) (e : Expr) :
    edge? row (some op.leftNeutral) op e = e.amount? row := by
  have kept (x : Option Int) : op.combine? (some op.leftNeutral) x = x := by
    cases x with
    | none => rfl
    | some a => exact BinaryOp.computeLeft arithmeticOp commutes a
  fun_induction edge? row (some op.leftNeutral) op e with
  | case1 q a b same ih => rw [ih, amount?]
  | case2 | case3 => exact kept _

end

def Apart (n : Int) (x y : Option Int) : Prop :=
  x = some n ∧ (y = none ∨ y = some 0) ∨ y = some n ∧ (x = none ∨ x = some 0)

section
variable {row : String → Int} {op o : BinaryOp} {e l r : Expr} {n : Int}

theorem apartSmall (positive : 0 ≤ n) {x y : Option Int} (apart : Apart n x y) :
    (∀ v ∈ x, |v| ≤ n) ∧ ∀ v ∈ y, |v| ≤ n := by
  rcases apart with ⟨rfl, rfl | rfl⟩ | ⟨rfl, rfl | rfl⟩ <;> simp [abs_of_nonneg positive, positive]

theorem apartSwap {x y : Option Int} (apart : Apart n x y) : Apart n y x := Or.symm apart

theorem apartRight (arithmetic : op.isArithmetic = true) (atLeast : 2 ≤ n) :
    ∃ m, 2 ≤ m ∧ ∀ x y, Apart m x y →
      ∃ s, Apart n (op.combine? (some s) x) (op.combine? (some s) y) := by
  have chosen (m : Int)
      (carried : ∀ y, (y = none ∨ y = some 0) → ∃ s,
        Apart n (op.compute? s m) (op.combine? (some s) y)) (x y : Option Int) (apart : Apart m x y) :
      ∃ s, Apart n (op.combine? (some s) x) (op.combine? (some s) y) := by
    rcases apart with ⟨rfl, other⟩ | ⟨rfl, other⟩
    · exact carried y other
    · obtain ⟨s, apart⟩ := carried x other
      exact ⟨s, apartSwap apart⟩
  have nonzero : n ≠ 0 := by omega
  by_cases commutes : op ≠ .sub ∧ op ≠ .div ∧ op ≠ .modulo
  · refine ⟨n, atLeast, chosen n fun y other => ⟨op.leftNeutral, ?_⟩⟩
    have kept := BinaryOp.computeLeft arithmetic commutes
    rw [kept]
    refine .inl ⟨rfl, other.imp ?_ ?_⟩
    · rintro rfl
      rfl
    · rintro rfl
      exact kept 0
  · obtain rfl | rfl | rfl : op = .sub ∨ op = .div ∨ op = .modulo := by
      revert commutes
      cases op <;> decide
    · refine ⟨n, atLeast, chosen n ?_⟩
      rintro y (rfl | rfl)
      · exact ⟨n + n, .inl ⟨by simp [BinaryOp.compute?], .inl rfl⟩⟩
      · exact ⟨n, .inr ⟨by simp [BinaryOp.compute?], .inr (by simp [BinaryOp.compute?])⟩⟩
    · refine ⟨n, atLeast, chosen n ?_⟩
      have quotient : BinaryOp.div.compute? (n * n) n = some n := by
        simp [BinaryOp.compute?, nonzero]
      rintro y (rfl | rfl)
      · exact ⟨n * n, .inl ⟨quotient, .inl rfl⟩⟩
      · exact ⟨n * n, .inl ⟨quotient, .inl rfl⟩⟩
    · refine ⟨n + 1, by omega, chosen (n + 1) ?_⟩
      have remainder : BinaryOp.modulo.compute? n (n + 1) = some n :=
        have small : |n| ≤ n := (abs_of_nonneg (by omega)).le
        BinaryOp.computeRight arithmetic small
      rintro y (rfl | rfl)
      · exact ⟨n, .inl ⟨remainder, .inl rfl⟩⟩
      · exact ⟨n, .inl ⟨remainder, .inl rfl⟩⟩

theorem foreignValues (joiner : op = .mul ∨ op = .bitAnd ∨ op = .bitOr)
    (arithmetic : o.isArithmetic = true) (same : o.rank = op.rank) (foreign : o ≠ op)
    (atLeast : 2 ≤ n) :
    ∃ x u w v y z, o.compute? u w = some v ∧ op.compute? x u = some y ∧ o.compute? y w = some z ∧
      Apart n (op.compute? x v) (some z) := by
  have pairs : op = .mul ∧ (o = .div ∨ o = .modulo) ∨ op = .bitAnd ∧ (o = .bitOr ∨ o = .bitXor) ∨
      op = .bitOr ∧ (o = .bitAnd ∨ o = .bitXor) := by
    revert arithmetic same foreign
    rcases joiner with rfl | rfl | rfl <;> cases o <;> decide
  have nonzero : n ≠ 0 := by omega
  rcases pairs with ⟨rfl, rfl | rfl⟩ | ⟨rfl, rfl | rfl⟩ | ⟨rfl, rfl | rfl⟩
  · refine ⟨2 * n, 1, 2, 0, 2 * n, n, rfl, ?_, ?_, .inr ⟨rfl, .inr ?_⟩⟩ <;>
      simp [BinaryOp.compute?]
  · have one : (1 : Int).tmod n = 1 := Int.tmod_eq_of_lt (by omega) (by omega)
    refine ⟨n, 1, n, 1, n, 0, ?_, ?_, ?_, .inl ⟨?_, .inr rfl⟩⟩ <;>
      simp [BinaryOp.compute?, nonzero, one]
  · refine ⟨0, 0, n, n, 0, n, ?_, ?_, ?_, .inr ⟨rfl, .inr ?_⟩⟩ <;> simp [BinaryOp.compute?]
  · refine ⟨0, 0, n, n, 0, n, ?_, ?_, ?_, .inr ⟨rfl, .inr ?_⟩⟩ <;> simp [BinaryOp.compute?]
  · refine ⟨n, 0, 0, 0, n, 0, ?_, ?_, ?_, .inl ⟨?_, .inr rfl⟩⟩ <;> simp [BinaryOp.compute?]
  · refine ⟨n, 0, n, n, n, 0, ?_, ?_, ?_, .inl ⟨?_, .inr rfl⟩⟩ <;> simp [BinaryOp.compute?]

theorem valuedEdge {u w x y z bound : Int} (left : Valued row l u bound) (right : Valued row r w bound)
    (same : o.rank = op.rank) (first : op.compute? x u = some y) (second : o.compute? y w = some z)
    (small : |y| ≤ bound ∧ |z| ≤ bound) :
    edge? row (some x) op (Expr.binary o l r).regrouped = some z := by
  rw [edgeRegrouped same, left.edge op x y first small.1, right.edge o y z second small.2, right.read,
    BinaryOp.combineSome, second, ite_self]

theorem mixedEdge (covers : Covers row) (arithmetic : r.isArithmetic = true)
    (joiner : op = .mul ∨ op = .bitAnd ∨ op = .bitOr) (mixed : r.onlyChain op = false)
    (atLeast : 2 ≤ n) :
    ∃ r' x v, SameShape r r' ∧ r'.amount? row = some v ∧
      Apart n (op.compute? x v) (edge? row (some x) op r'.regrouped) := by
  fun_induction isArithmetic r with
  | case1 | case2 => contradiction
  | case3 q a b iha _ =>
    simp only [Bool.and_eq_true] at arithmetic
    have same : q.rank = op.rank := by
      by_contra other
      simp [onlyChain, other] at mixed
    simp only [onlyChain, same, if_true, Bool.and_eq_false_iff, beq_eq_false_iff_ne] at mixed
    rcases mixed with foreign | deeper
    · obtain ⟨x, u, w, v, y, z, tree, first, second, apart⟩ :=
        foreignValues joiner arithmetic.1.1 same foreign atLeast
      let bound := |u| + |w| + |y| + |z|
      have sizes := And.intro (And.intro (abs_nonneg u) (abs_nonneg w))
        (And.intro (abs_nonneg y) (abs_nonneg z))
      have small : (|u| ≤ bound ∧ |w| ≤ bound) ∧ |y| ≤ bound ∧ |z| ≤ bound := by
        refine ⟨⟨?_, ?_⟩, ?_, ?_⟩ <;> omega
      obtain ⟨a', left, valuedLeft⟩ := valuedTree covers arithmetic.1.2 small.1.1
      obtain ⟨b', right, valuedRight⟩ := valuedTree covers arithmetic.2 small.1.2
      refine ⟨.binary q a' b', x, v, .binary left right, ?_, ?_⟩
      · rw [amount?, valuedLeft.value, valuedRight.value, BinaryOp.combineSome, tree]
      · rwa [valuedEdge valuedLeft valuedRight same first second small.2]
    · obtain ⟨a', x, v, left, value, apart⟩ := iha arithmetic.1.2 deeper
      have bounds : |v| ≤ |v| + n ∧ n ≤ |v| + n := by
        have := abs_nonneg v
        omega
      obtain ⟨b', right, neutral⟩ :=
        neutralTree covers arithmetic.2 q (le_trans (by omega : 0 ≤ n) bounds.2)
      have near := (apartSmall (by omega) apart).2
      refine ⟨.binary q a' b', x, v, .binary left right, ?_, ?_⟩
      · rw [amount?, value, (besideNeutral arithmetic.1.1 neutral (by simpa using bounds.1)).1]
      · rwa [besideNeutralEdge arithmetic.1.1 neutral same fun y at_ => le_trans (near y at_) bounds.2]
  | case4 => contradiction

theorem joinedCommutes (joined : op.joins r = true) : op ≠ .sub ∧ op ≠ .div ∧ op ≠ .modulo := by
  have associative := joinsAssociative joined
  refine ⟨?_, ?_, ?_⟩ <;> rintro rfl <;> contradiction

theorem differsAbove (covers : Covers row) (arithmeticOp : op.isArithmetic = true)
    (arithmetic : l.isArithmetic = true) (atLeast : 2 ≤ n)
    (below : ∀ m, 2 ≤ m → ∃ r', SameShape r r' ∧ Apart m (r'.amount? row) (r'.regrouped.amount? row)) :
    ∃ f, SameShape (.binary op l r) f ∧ Apart n (f.amount? row) (f.regrouped.amount? row) := by
  cases joined : op.joins r with
  | true =>
    obtain ⟨r', right, apart⟩ := below n atLeast
    have commutes := joinedCommutes joined
    obtain ⟨l', left, valued⟩ := valuedTree covers arithmetic (le_refl |op.leftNeutral|)
    have kept := edgeNeutral row arithmeticOp commutes
    have whole : op.combine? (some op.leftNeutral) (r'.amount? row) = r'.amount? row := by
      cases r'.amount? row with
      | none => rfl
      | some a => exact BinaryOp.computeLeft arithmeticOp commutes a
    refine ⟨.binary op l' r', .binary left right, ?_⟩
    rwa [regroupedAmount, ← shapeJoins right, joined, if_pos rfl, amount?, valued.value, valued.read,
      whole, kept]
  | false =>
    obtain ⟨m, large, carried⟩ := apartRight arithmeticOp atLeast
    obtain ⟨r', right, apart⟩ := below m large
    obtain ⟨s, apart⟩ := carried _ _ apart
    obtain ⟨l', left, valued⟩ := valuedTree covers arithmetic (le_refl |s|)
    refine ⟨.binary op l' r', .binary left right, ?_⟩
    rwa [regroupedAmount, ← shapeJoins right, joined, if_neg Bool.false_ne_true, amount?, valued.value,
      valued.read]

theorem textMayDiffer (covers : Covers row) (arithmetic : e.isArithmetic = true)
    (unlike : e.chainsAlike = false) (atLeast : 2 ≤ n) :
    ∃ f, SameShape e f ∧ Apart n (f.amount? row) (f.regrouped.amount? row) := by
  fun_induction isArithmetic e generalizing n with
  | case1 | case2 => simp [chainsAlike] at unlike
  | case3 q a b iha ihb =>
    simp only [Bool.and_eq_true] at arithmetic
    simp only [chainsAlike, Bool.and_eq_false_iff, Bool.or_eq_false_iff, Bool.not_eq_false',
      beq_eq_false_iff_ne] at unlike
    rcases unlike with (left | right) | ⟨⟨joined, notSum⟩, mixed⟩
    · obtain ⟨a', shape, apart⟩ := iha arithmetic.1.2 left atLeast
      have positive : 0 ≤ n := by omega
      obtain ⟨b', right, neutral⟩ := neutralTree covers arithmetic.2 q positive
      have near := apartSmall positive apart
      refine ⟨.binary q a' b', .binary shape right, ?_⟩
      rwa [amount?, (besideNeutral arithmetic.1.1 neutral near.1).1,
        besideNeutralRead arithmetic.1.1 neutral near.2]
    · exact differsAbove covers arithmetic.1.1 arithmetic.1.2 atLeast fun m large =>
        ihb arithmetic.2 right large
    · have joiner : q = .mul ∨ q = .bitAnd ∨ q = .bitOr := by
        have associative := joinsAssociative joined
        have operator := arithmetic.1.1
        revert associative operator notSum
        cases q <;> decide
      obtain ⟨b', x, v, right, value, apart⟩ := mixedEdge covers arithmetic.2 joiner mixed atLeast
      obtain ⟨a', left, valued⟩ := valuedTree covers arithmetic.1.2 (le_refl |x|)
      refine ⟨.binary q a' b', .binary left right, ?_⟩
      rwa [regroupedAmount, ← shapeJoins right, joined, if_pos rfl, amount?, valued.value, valued.read,
        value, BinaryOp.combineSome]
  | case4 => contradiction

end

section
variable {e f g : Expr} {d : Dialect}

/-- The second tree is what the text of the first one is read as. Names with a closing bracket are taken
as the renderer wrote them, since the text does not tell where such a name ends. -/
def Denotes (d : Dialect) (e g : Expr) : Prop :=
  ∃ lexemes, e.compile d = .ok (Lexeme.textAll d lexemes) ∧ e.render d = .of lexemes ∧
    readOperation lexemes = some g ∧
    ((∀ name ∈ e.columnNames, ']' ∉ name.toList) →
      readArithmetic (Lexeme.textAll d lexemes) = some g)

theorem denotesRegrouped (arithmetic : e.isArithmetic = true) (d : Dialect) :
    e.Denotes d e.regrouped :=
  ⟨e.written, compileArithmetic arithmetic d, renderWritten (arithmeticOperation arithmetic) d,
    readWritten (arithmeticOperation arithmetic), readArithmeticText arithmetic d⟩

theorem denotesOne (arithmetic : e.isArithmetic = true) (denotes : e.Denotes d g) :
    g = e.regrouped := by
  obtain ⟨lexemes, _, rendered, read, _⟩ := denotes
  rw [renderWritten (arithmeticOperation arithmetic), Rendering.of, Rendering.of,
    Rendering.mk.injEq] at rendered
  rw [← rendered.1, readWritten (arithmeticOperation arithmetic), Option.some.injEq] at read
  exact read.symm

theorem textKeepsValue (arithmetic : e.isArithmetic = true) (d : Dialect) :
    (∃ g, e.Denotes d g) ∧
    ((∀ f g, SameShape e f → f.Denotes d g → ∀ row, g.amount? row = f.amount? row) ↔
      e.chainsAlike = true) := by
  refine ⟨⟨_, denotesRegrouped arithmetic d⟩, fun kept => ?_, fun alike f g shape denotes row => ?_⟩
  · by_contra unlike
    obtain ⟨row, covers⟩ := someRowCovers
    obtain ⟨f, shape, apart⟩ :=
      textMayDiffer covers arithmetic (Bool.eq_false_iff.mpr unlike) (le_refl 2)
    have arithmeticF : f.isArithmetic = true := shapeArithmetic shape ▸ arithmetic
    have same := kept f _ shape (denotesRegrouped arithmeticF d) row
    rw [same] at apart
    rcases apart with ⟨two, none | zero⟩ | ⟨two, none | zero⟩ <;> simp_all
  · rw [denotesOne (shapeArithmetic shape ▸ arithmetic) denotes]
    exact regroupedAmountAlike (shapeArithmetic shape ▸ arithmetic)
      (shapeChainsAlike shape ▸ alike) row

def chained : Expr :=
  .binary .add (.binary .mul (.column "a") (.binary .mul (.column "b") (.column "c")))
    (.binary .add (.binary .sub (.column "d") (.binary .sub (.column "e") (.column "f")))
      (.column "g"))

theorem chainedKeepsValue :
    chained.isArithmetic = true ∧ chained.chainsAlike = true ∧
    chained.compile .sqlite = .ok "[a] * [b] * [c] + [d] - ([e] - [f]) + [g]" ∧
    ∃ g, chained.Denotes .sqlite g ∧ ∀ row, g.amount? row = chained.amount? row := by
  have keeps := textKeepsValue (e := chained) (by decide) .sqlite
  obtain ⟨g, denotes⟩ := keeps.1
  exact ⟨by decide, by decide, by decide, g, denotes,
    keeps.2.mpr (by decide) chained g (shapeSelf (by decide)) denotes⟩

def product : Expr :=
  .binary .mul (.column "a") (.binary .mul (.binary .div (.column "b") (.column "c")) (.column "d"))

def twosAndOnes (name : String) : Int := if name = "a" ∨ name = "c" then 2 else 1

/-- A joined product that begins with a quotient is multiplied before it is divided. -/
theorem textMayRegroup : ¬ ∀ (e : Expr) (d : Dialect) (text : String), e.isArithmetic = true →
    (∀ name ∈ e.columnNames, ']' ∉ name.toList) → e.compile d = .ok text →
    ∃ g, readArithmetic text = some g ∧ ∀ row, g.amount? row = e.amount? row := by
  intro always
  obtain ⟨g, read, kept⟩ := always product .sqlite "[a] * [b] / [c] * [d]" (by decide) (by decide)
    (by decide)
  have written : Lexeme.textAll .sqlite product.written = "[a] * [b] / [c] * [d]" := by decide
  rw [← written, readArithmeticText (e := product) (by decide) .sqlite (by decide), Option.some.injEq] at read
  have same := kept twosAndOnes
  rw [← read] at same
  have differ : product.regrouped.amount? twosAndOnes ≠ product.amount? twosAndOnes := by decide
  exact differ same

end

end Expr

end LiveSchema
