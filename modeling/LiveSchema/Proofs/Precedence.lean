import LiveSchema.Expr.Render
/-! Reading operations back. The reader knows the ranks of the operators and nothing of how a rendering
chooses its parentheses: what binds tighter is put together first, operators of equal rank group to the
left, and parentheses begin a reading of their own. -/
namespace LiveSchema

abbrev Waiting := List (Expr × BinaryOp)

namespace Waiting

def reduce (rank : Nat) : Waiting → Expr → Waiting × Expr
  | [], e => ([], e)
  | (l, op) :: rest, e =>
    if rank ≤ op.rank then reduce rank rest (.binary op l e) else ((l, op) :: rest, e)

def Below (w : Waiting) (rank : Nat) : Prop := ∀ entry ∈ w.head?, entry.2.rank < rank

theorem reduceBelow {w : Waiting} {rank : Nat} (below : w.Below rank) (e : Expr) :
    reduce rank w e = (w, e) := by
  cases w with
  | nil => rfl
  | cons entry rest =>
    obtain ⟨l, op⟩ := entry
    have lower : op.rank < rank := below (l, op) rfl
    simp [reduce, Nat.not_le.mpr lower]

theorem belowMono {w : Waiting} {rank higher : Nat} (below : w.Below rank) (le : rank ≤ higher) :
    w.Below higher :=
  fun entry top => Nat.lt_of_lt_of_le (below entry top) le

end Waiting

/-- Reads lexemes from left to right: the levels that parentheses have left open, what waits on the present
level, and the operand at hand, if the last lexeme ended one. -/
def readLexemes : List Waiting → Waiting → Option Expr → List Lexeme → Option Expr
  | [], w, some e, [] => some (w.reduce 0 e).2
  | outer, w, none, .name n :: rest => readLexemes outer w (some (.column n)) rest
  | outer, w, none, .literal v :: rest => readLexemes outer w (some (.value v)) rest
  | outer, w, none, .placeholder p :: rest => readLexemes outer w (some (.parameter p)) rest
  | outer, w, none, .openParen :: rest => readLexemes (w :: outer) [] none rest
  | outer, w, some e, .operator op :: rest =>
    readLexemes outer (((w.reduce op.rank e).2, op) :: (w.reduce op.rank e).1) none rest
  | outer, w, some e, .nullTest negated :: rest =>
    let op := if negated then BinaryOp.notEqual else .equals
    readLexemes outer (w.reduce op.rank e).1 (some (.binary op (w.reduce op.rank e).2 .null)) rest
  | w :: outer, inner, some e, .closeParen :: rest =>
    readLexemes outer w (some (inner.reduce 0 e).2) rest
  | _, _, _, _ => none

def readOperation (lexemes : List Lexeme) : Option Expr := readLexemes [] [] none lexemes

namespace Expr

def isOperation : Expr → Bool
  | .value _ | .parameter _ | .field _ _ | .column _ => true
  | .binary _ l r => l.isOperation && r.isOperation
  | _ => false

def rank : Expr → Nat
  | .binary op _ _ => op.rank
  | _ => 8

def parenthesised (group : Bool) (lexemes : List Lexeme) : List Lexeme :=
  if group then .openParen :: lexemes ++ [.closeParen] else lexemes

def written : Expr → List Lexeme
  | .value v => [.literal v]
  | .parameter p => [.placeholder p]
  | .field _ c => [.name c.name]
  | .column name => [.name name]
  | .binary op l r =>
    parenthesised (op.groupsLeft l) l.written ++
      match op.nullTest? r with
      | some negated => [.nullTest negated]
      | none => .operator op :: parenthesised (op.groupsRight r) r.written
  | _ => []

theorem renderWritten {e : Expr} (operation : e.isOperation = true) (d : Dialect) :
    e.render d = .of e.written := by
  have grouping (group : Bool) (lexemes : List Lexeme) :
      Rendering.grouped group (.of lexemes) = .of (parenthesised group lexemes) := by
    cases group <;> simp [Rendering.grouped, parenthesised, Rendering.appendParts, Rendering.of]
  fun_induction isOperation e with
  | case1 | case2 | case3 | case4 => rfl
  | case5 op l r ihl ihr =>
    simp only [Bool.and_eq_true] at operation
    rw [render, ihl operation.1, ihr operation.2, grouping, grouping, written]
    cases op.nullTest? r <;> simp [Rendering.appendParts, Rendering.of]
  | case6 => contradiction

def graft (l : Expr) (op : BinaryOp) : Expr → Expr
  | .binary o a b =>
    if o.rank = op.rank then .binary o (graft l op a) b else .binary op l (.binary o a b)
  | e => .binary op l e

end Expr

namespace BinaryOp

def joins (op : BinaryOp) : Expr → Bool
  | .binary o _ _ => o == op && op.isAssociative
  | _ => false

end BinaryOp

namespace Expr

def regrouped : Expr → Expr
  | .field _ c => .column c.name
  | .binary op l r =>
    if op.joins r then graft l.regrouped op r.regrouped else .binary op l.regrouped r.regrouped
  | e => e

end Expr

namespace BinaryOp
variable {op : BinaryOp} {l r : Expr}

theorem rankLt (op : BinaryOp) : op.rank < 8 := by
  cases op <;> decide

theorem openLeftRank (bare : op.groupsLeft l = false) : op.rank ≤ l.rank := by
  cases l with
  | binary o a b => simpa [groupsLeft, Expr.rank] using bare
  | _ => exact Nat.le_of_lt op.rankLt

theorem groupedLeftRank (grouped : op.groupsLeft l = true) : l.rank < op.rank := by
  cases l with
  | binary o a b => simpa [groupsLeft, Expr.rank] using grouped
  | _ => simp [groupsLeft] at grouped

theorem openRightRank (bare : op.groupsRight r = false) :
    op.rank < r.rank ∨ op.rank = r.rank ∧ op.joins r = true := by
  cases r with
  | binary o a b =>
    simp only [groupsRight, Bool.or_eq_false_iff, decide_eq_false_iff_not, Bool.and_eq_false_iff,
      beq_eq_false_iff_ne, Bool.not_eq_false', Bool.and_eq_true, beq_iff_eq] at bare
    obtain ⟨notLower, other | ⟨rfl, associative⟩⟩ := bare
    · exact .inl (by simp only [Expr.rank]; omega)
    · exact .inr ⟨rfl, by simp [joins, associative]⟩
  | _ => exact .inl op.rankLt

theorem joinedRank (joined : op.joins r = true) : op.rank = r.rank ∧ op.groupsRight r = false := by
  cases r with
  | binary o a b =>
    simp only [joins, Bool.and_eq_true, beq_iff_eq] at joined
    obtain ⟨rfl, associative⟩ := joined
    simp [groupsRight, Expr.rank, associative]
  | _ => simp [joins] at joined

end BinaryOp

namespace Expr

theorem graftRank (l : Expr) (op : BinaryOp) (e : Expr) (same : e.rank = op.rank) :
    (graft l op e).rank = op.rank := by
  cases e with
  | binary o a b =>
    have edge : o.rank = op.rank := same
    simp [graft, edge, rank]
  | _ => rfl

theorem regroupedRank (e : Expr) : e.regrouped.rank = e.rank := by
  fun_induction regrouped e with
  | case1 => rfl
  | case2 op l r joined _ ihr => exact graftRank _ _ _ (ihr.trans (BinaryOp.joinedRank joined).1.symm)
  | case3 => rfl
  | case4 => rfl

theorem graftOther {op : BinaryOp} {e : Expr} (other : e.rank ≠ op.rank) (l : Expr) :
    graft l op e = .binary op l e := by
  cases e with
  | binary o a b =>
    have edge : o.rank ≠ op.rank := other
    simp [graft, edge]
  | _ => rfl

theorem graftGraft {op o : BinaryOp} (same : op.rank = o.rank) (l a b : Expr) :
    graft l op (graft a o b) = graft (graft l op a) o b := by
  fun_induction graft a o b with
  | case1 q x y edge ih => simp [graft, edge, same, ih]
  | case2 q x y edge => simp [graft, edge, same]
  | case3 e leaf =>
    have higher : graft (graft l op a) o e = .binary o (graft l op a) e := by
      cases e with
      | binary q x y => exact (leaf q x y rfl).elim
      | _ => rfl
    simp [graft, same, higher]

def Reads (lexemes : List Lexeme) (w w' : Waiting) (x : Expr) : Prop :=
  ∀ outer rest, readLexemes outer w none (lexemes ++ rest) = readLexemes outer w' (some x) rest

/-- What is read behind a waiting operand of lower rank is the tree, and behind one of at most its own
rank the tree with that operand at its left edge; to see it, everything of that rank is put together. -/
structure ReadBack (e : Expr) : Prop where
  alone : ∀ w : Waiting, w.Below e.rank → ∃ w' x, Reads e.written w w' x ∧
    ∀ k ≤ e.rank, w'.reduce k x = w.reduce k e.regrouped
  behind : ∀ l op (w : Waiting), op.rank ≤ e.rank → w.Below op.rank →
    ∃ w' x, Reads e.written ((l, op) :: w) w' x ∧
      ∀ k ≤ op.rank, w'.reduce k x = w.reduce k (graft l op e.regrouped)

theorem reduceWaiting {op : BinaryOp} {k : Nat} (le : k ≤ op.rank) (w : Waiting) (l e : Expr) :
    Waiting.reduce k ((l, op) :: w) e = w.reduce k (.binary op l e) := by
  simp [Waiting.reduce, le]

theorem operandReadBack {e : Expr} {lexeme : Lexeme} (written : e.written = [lexeme])
    (read : ∀ w, Reads [lexeme] w w e.regrouped) (leaf : e.rank = 8) : ReadBack e where
  alone w _ := ⟨w, e.regrouped, written ▸ read w, fun _ _ => rfl⟩
  behind l op w _ _ := by
    refine ⟨(l, op) :: w, e.regrouped, written ▸ read _, fun k le => ?_⟩
    have other : e.regrouped.rank ≠ op.rank := by
      have := op.rankLt
      rw [regroupedRank]
      omega
    rw [reduceWaiting le, graftOther other]

theorem groupReads {e : Expr} (readBack : ReadBack e) (w : Waiting) :
    Reads (parenthesised true e.written) w w e.regrouped := by
  intro outer rest
  obtain ⟨w', x, reads, whole⟩ := readBack.alone [] (fun _ none => by cases none)
  have closed : w'.reduce 0 x = ([], e.regrouped) := whole 0 (Nat.zero_le _)
  have opened := reads (w :: outer) (.closeParen :: rest)
  simpa [parenthesised, readLexemes, closed] using opened

section
variable {op : BinaryOp} {l r : Expr}

theorem leftReads (readBack : ReadBack l) {w : Waiting} (below : w.Below op.rank) :
    ∃ w' x, Reads (parenthesised (op.groupsLeft l) l.written) w w' x ∧
      w'.reduce op.rank x = (w, l.regrouped) := by
  cases group : op.groupsLeft l with
  | true => exact ⟨w, _, groupReads readBack w, Waiting.reduceBelow below _⟩
  | false =>
    have rank := BinaryOp.openLeftRank group
    obtain ⟨w', x, reads, whole⟩ := readBack.alone w (Waiting.belowMono below rank)
    exact ⟨w', x, reads, (whole _ rank).trans (Waiting.reduceBelow below _)⟩

theorem leftReadsBehind (readBack : ReadBack l) {w : Waiting} {o : BinaryOp} (same : o.rank = op.rank)
    (below : w.Below op.rank) (first : Expr) :
    ∃ w' x, Reads (parenthesised (op.groupsLeft l) l.written) ((first, o) :: w) w' x ∧
      w'.reduce op.rank x = (w, graft first o l.regrouped) := by
  cases group : op.groupsLeft l with
  | true =>
    have lower := BinaryOp.groupedLeftRank group
    have other : l.regrouped.rank ≠ o.rank := by
      rw [regroupedRank]
      omega
    refine ⟨_, _, groupReads readBack _, ?_⟩
    rw [reduceWaiting (Nat.le_of_eq same.symm), graftOther other, Waiting.reduceBelow below]
  | false =>
    have rank := BinaryOp.openLeftRank group
    obtain ⟨w', x, reads, whole⟩ := readBack.behind first o w (same ▸ rank) (same ▸ below)
    exact ⟨w', x, reads, (whole _ (Nat.le_of_eq same.symm)).trans (Waiting.reduceBelow below _)⟩

def hang (op : BinaryOp) (l r : Expr) : Expr :=
  if op.joins r then graft l op r.regrouped else .binary op l r.regrouped

theorem hangGrouped (group : op.groupsRight r = true) (l : Expr) :
    hang op l r = .binary op l r.regrouped := by
  cases joined : op.joins r with
  | false => simp [hang, joined]
  | true => simp [(BinaryOp.joinedRank joined).2] at group

theorem hangOpen (bare : op.groupsRight r = false) (l : Expr) :
    hang op l r = graft l op r.regrouped := by
  cases joined : op.joins r with
  | true => simp [hang, joined]
  | false =>
    have other : r.regrouped.rank ≠ op.rank := by
      have higher : op.rank < r.rank := by
        simpa [joined] using BinaryOp.openRightRank bare
      rw [regroupedRank]
      exact Nat.ne_of_gt higher
    simp [hang, joined, graftOther other]

theorem joinsAssociative (joined : op.joins r = true) : op.isAssociative = true := by
  cases r with
  | binary q a b =>
    simp only [BinaryOp.joins, Bool.and_eq_true] at joined
    exact joined.2
  | _ => contradiction

theorem nullTestOp {negated : Bool} (test : op.nullTest? r = some negated) :
    r = .null ∧ (if negated then BinaryOp.notEqual else .equals) = op := by
  have null : r = .null := by
    cases r with
    | value v => cases v <;> first | rfl | simp [BinaryOp.nullTest?, isNull, Value.isNull] at test
    | _ => simp [BinaryOp.nullTest?, isNull] at test
  subst null
  cases op <;> simp [BinaryOp.nullTest?, isNull, Value.isNull, Expr.null] at test <;> subst test <;>
    exact ⟨rfl, rfl⟩

def writtenRight (op : BinaryOp) (r : Expr) : List Lexeme :=
  match op.nullTest? r with
  | some negated => [.nullTest negated]
  | none => .operator op :: parenthesised (op.groupsRight r) r.written

theorem rightReads (readBack : ReadBack r) {w w₁ : Waiting} {x y : Expr}
    (left : w₁.reduce op.rank x = (w, y)) (below : w.Below op.rank) :
    ∃ w' z, (∀ outer rest, readLexemes outer w₁ (some x) (writtenRight op r ++ rest) =
        readLexemes outer w' (some z) rest) ∧
      ∀ k ≤ op.rank, w'.reduce k z = w.reduce k (hang op y r) := by
  unfold writtenRight
  cases test : op.nullTest? r with
  | some negated =>
    obtain ⟨rfl, same⟩ := nullTestOp test
    refine ⟨w, .binary op y .null, fun outer rest => ?_, fun k _ => rfl⟩
    have rank : BinaryOp.equals.rank = op.rank := by
      subst same
      cases negated <;> rfl
    simp only [List.singleton_append, readLexemes, same, left]
  | none =>
    have operator (outer : List Waiting) (rest : List Lexeme) :
        readLexemes outer w₁ (some x) (.operator op :: rest) =
          readLexemes outer ((y, op) :: w) none rest := by
      simp only [readLexemes, left]
    cases group : op.groupsRight r with
    | true =>
      refine ⟨(y, op) :: w, r.regrouped, fun outer rest => ?_, fun k le => ?_⟩
      · dsimp only
        rw [List.cons_append, operator, groupReads readBack]
      · rw [reduceWaiting le, hangGrouped group]
    | false =>
      have rank : op.rank ≤ r.rank := by
        have := BinaryOp.openRightRank group
        omega
      obtain ⟨w', z, reads, whole⟩ := readBack.behind y op w rank below
      refine ⟨w', z, fun outer rest => ?_, fun k le => ?_⟩
      · dsimp only
        rw [List.cons_append, operator]
        exact reads outer rest
      · rw [whole k le, hangOpen group]

theorem operationReadBack (left : ReadBack l) (right : ReadBack r) : ReadBack (.binary op l r) := by
  have split : (Expr.binary op l r).written =
      parenthesised (op.groupsLeft l) l.written ++ writtenRight op r := rfl
  have hung : (Expr.binary op l r).regrouped = hang op l.regrouped r := by
    simp [regrouped, hang]
  have alone (w : Waiting) (below : w.Below op.rank) :
      ∃ w' z, Reads (Expr.binary op l r).written w w' z ∧
        ∀ k ≤ op.rank, w'.reduce k z = w.reduce k (Expr.binary op l r).regrouped := by
    obtain ⟨w₁, x, first, reduced⟩ := leftReads left below
    obtain ⟨w', z, second, whole⟩ := rightReads right reduced below
    refine ⟨w', z, fun outer rest => ?_, hung ▸ whole⟩
    rw [split, List.append_assoc, first, second]
  refine ⟨alone, fun before o w le below => ?_⟩
  rcases Nat.lt_or_eq_of_le le with lower | same
  · -- The waiting operator binds looser: the tree is finished first and then taken as its operand.
    obtain ⟨w', z, reads, whole⟩ := alone ((before, o) :: w) fun _ top => by cases top; exact lower
    have other : (Expr.binary op l r).regrouped.rank ≠ o.rank := by
      rw [regroupedRank]
      exact Nat.ne_of_gt lower
    refine ⟨w', z, reads, fun k atMost => ?_⟩
    rw [whole k (Nat.le_trans atMost le), reduceWaiting atMost, graftOther other]
  · have same : o.rank = op.rank := same
    have below' : w.Below op.rank := same ▸ below
    obtain ⟨w₁, x, first, reduced⟩ := leftReadsBehind left same below' before
    obtain ⟨w', z, second, whole⟩ := rightReads right reduced below'
    have edge : hang op (graft before o l.regrouped) r = graft before o (hang op l.regrouped r) := by
      unfold hang
      split
      · exact (graftGraft same _ _ _).symm
      · simp [graft, same]
    refine ⟨w', z, fun outer rest => ?_, fun k atMost => ?_⟩
    · rw [split, List.append_assoc, first, second]
    · rw [whole k (same ▸ atMost), edge, hung]

end

theorem readBackAll {e : Expr} (operation : e.isOperation = true) : ReadBack e := by
  fun_induction isOperation e with
  | case1 | case2 | case3 | case4 =>
    exact operandReadBack rfl (fun _ _ _ => by simp [readLexemes, regrouped]) rfl
  | case5 op l r ihl ihr =>
    simp only [Bool.and_eq_true] at operation
    exact operationReadBack (ihl operation.1) (ihr operation.2)
  | case6 => contradiction

theorem readWritten {e : Expr} (operation : e.isOperation = true) :
    readOperation e.written = some e.regrouped := by
  obtain ⟨w, x, reads, whole⟩ := (readBackAll operation).alone [] (fun _ none => by cases none)
  have finished : w.reduce 0 x = ([], e.regrouped) := whole 0 (Nat.zero_le _)
  have all := reads [] []
  rw [List.append_nil] at all
  rw [readOperation, all, readLexemes, finished]

end Expr

end LiveSchema
