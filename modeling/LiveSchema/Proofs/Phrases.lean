import LiveSchema.Proofs.Precedence
/-! Reading expressions back as SQL is read. A sign binds its operand tightest; IS NULL, IS NOT NULL and
IN follow what they test and rank with equality; operators of equal rank group to the left, and parentheses
begin a reading of their own. What is read is a phrase, which tells a test for NULL from a comparison with
the literal. The reader knows nothing of how a rendering chooses its parentheses. -/
namespace LiveSchema

inductive Phrase where
  | operand (lexeme : Lexeme)
  | signed (op : UnaryOp) (p : Phrase)
  | operation (op : BinaryOp) (l r : Phrase)
  | nullTest (negated : Bool) (p : Phrase)
  | isIn (item : Phrase) (candidates : List Phrase)

inductive Start where
  | sign (op : UnaryOp)
  | left (l : Phrase) (op : BinaryOp)

namespace Start

def rank : Start → Nat
  | .sign _ => 8
  | .left _ op => op.rank

def finish : Start → Phrase → Phrase
  | .sign op, p => .signed op p
  | .left l op, p => .operation op l p

end Start

abbrev Starts := List Start

def equalityRank : Nat := BinaryOp.equals.rank

namespace Starts

def settle (rank : Nat) : Starts → Phrase → Starts × Phrase
  | [], p => ([], p)
  | s :: rest, p => if rank ≤ s.rank then settle rank rest (s.finish p) else (s :: rest, p)

def whole (s : Starts × Phrase) : Phrase := (settle 0 s.1 s.2).2

def Below (w : Starts) (rank : Nat) : Prop := ∀ s ∈ w.head?, s.rank < rank

theorem settleBelow {w : Starts} {rank : Nat} (below : w.Below rank) (p : Phrase) :
    settle rank w p = (w, p) := by
  cases w with
  | nil => rfl
  | cons s rest =>
    have lower : s.rank < rank := below s rfl
    simp [settle, Nat.not_le.mpr lower]

theorem settleStart {s : Start} {rank : Nat} (le : rank ≤ s.rank) (w : Starts) (p : Phrase) :
    settle rank (s :: w) p = settle rank w (s.finish p) := by
  simp [settle, le]

theorem belowLe {w : Starts} {rank higher : Nat} (below : w.Below rank) (le : rank ≤ higher) :
    w.Below higher :=
  fun s top => Nat.lt_of_lt_of_le (below s top) le

theorem settledBelow (rank : Nat) (w : Starts) (p : Phrase) : (settle rank w p).1.Below rank := by
  induction w generalizing p with
  | nil => exact fun _ none => by cases none
  | cons s rest ih =>
    by_cases le : rank ≤ s.rank
    · rw [settleStart le]
      exact ih _
    · simp only [settle, le, if_false]
      intro top same
      cases same
      exact Nat.not_le.mp le

theorem settleAgain {rank lower : Nat} (le : lower ≤ rank) (w : Starts) (p : Phrase) :
    settle lower (settle rank w p).1 (settle rank w p).2 = settle lower w p := by
  induction w generalizing p with
  | nil => rfl
  | cons s rest ih =>
    by_cases atLeast : rank ≤ s.rank
    · rw [settleStart atLeast, settleStart (Nat.le_trans le atLeast), ih]
    · simp only [settle, atLeast, if_false]

theorem wholeSettled (w : Starts) (p : Phrase) : settle 0 w p = ([], whole (w, p)) := by
  have all : (settle 0 w p).1 = [] := by
    cases left : (settle 0 w p).1 with
    | nil => rfl
    | cons s rest =>
      have below : s.rank < 0 := settledBelow 0 w p s (by rw [left]; rfl)
      omega
  exact Prod.ext all rfl

end Starts

inductive Level where
  | group (before : Starts)
  | list (before : Starts) (item : Phrase) (done : List Phrase)

/-- Reads lexemes from left to right: the levels left open, what waits on the present one, and the phrase
at hand, if the last lexeme ended one. -/
def readPhrase : List Level → Starts → Option Phrase → List Lexeme → Option Phrase
  | [], w, some p, [] => some (Starts.whole (w, p))
  | outer, w, none, .name n :: rest => readPhrase outer w (some (.operand (.name n))) rest
  | outer, w, none, .literal v :: rest => readPhrase outer w (some (.operand (.literal v))) rest
  | outer, w, none, .placeholder q :: rest => readPhrase outer w (some (.operand (.placeholder q))) rest
  | outer, w, none, .sign op :: rest => readPhrase outer (.sign op :: w) none rest
  | outer, w, none, .openParen :: rest => readPhrase (.group w :: outer) [] none rest
  | outer, w, some p, .operator op :: rest =>
    readPhrase outer (.left (w.settle op.rank p).2 op :: (w.settle op.rank p).1) none rest
  | outer, w, some p, .nullTest negated :: rest =>
    readPhrase outer (w.settle equalityRank p).1 (some (.nullTest negated (w.settle equalityRank p).2)) rest
  | outer, w, some p, .isIn :: .openParen :: rest =>
    readPhrase (.list (w.settle equalityRank p).1 (w.settle equalityRank p).2 [] :: outer) [] none rest
  | .list w item done :: outer, inner, some p, .comma :: rest =>
    readPhrase (.list w item (done ++ [Starts.whole (inner, p)]) :: outer) [] none rest
  | .group w :: outer, inner, some p, .closeParen :: rest =>
    readPhrase outer w (some (Starts.whole (inner, p))) rest
  | .list w item done :: outer, inner, some p, .closeParen :: rest =>
    readPhrase outer w (some (.isIn item (done ++ [Starts.whole (inner, p)]))) rest
  | .list w item [] :: outer, [], none, .closeParen :: rest =>
    readPhrase outer w (some (.isIn item [])) rest
  | _, _, _, _ => none

namespace Expr

theorem nullTestRank {op : BinaryOp} {r : Expr} {negated : Bool} (test : op.nullTest? r = some negated) :
    op.rank = equalityRank := by
  obtain ⟨-, rfl⟩ := nullTestOp test
  cases negated <;> rfl

def leaf? : Expr → Option Lexeme
  | .value v => some (.literal v)
  | .parameter q => some (.placeholder q)
  | .field _ c => some (.name c.name)
  | .column name => some (.name name)
  | _ => none

def Edge (may : BinaryOp → Prop) (rank : Nat) : Expr → Prop
  | .binary o a _ => o.rank = rank → may o ∧ a.Edge may rank
  | _ => True

/-- Trees of signs, operators and IN over leaves. Where a right operand is joined without parentheses, the
operators that may come to stand beside each other are in a relation. -/
inductive Plain (chain : BinaryOp → BinaryOp → Prop) : Expr → Prop
  | leaf {e : Expr} {lexeme : Lexeme} (one : e.leaf? = some lexeme) : Plain chain e
  | unary (op : UnaryOp) {e : Expr} (operand : Plain chain e) : Plain chain (.unary op e)
  | binary {op : BinaryOp} {l r : Expr} (left : Plain chain l) (right : Plain chain r)
    (joined : op.joins r = true → r.Edge (chain op) op.rank) : Plain chain (.binary op l r)
  | member {item : Expr} {candidates : List Expr} (first : Plain chain item)
    (rest : ∀ c ∈ candidates, Plain chain c) : Plain chain (.member item candidates)

mutual
def lexemes : Expr → List Lexeme
  | .unary op e => .sign op :: parenthesised e.groupsUnderSign e.lexemes
  | .binary op l r =>
    parenthesised (op.groupsLeft l) l.lexemes ++
      match op.nullTest? r with
      | some negated => [.nullTest negated]
      | none => .operator op :: parenthesised (op.groupsRight r) r.lexemes
  | .member item candidates =>
    parenthesised item.isBinary item.lexemes ++ .isIn :: .openParen ::
      (candidateLexemes candidates ++ [.closeParen])
  | e => e.leaf?.toList

def candidateLexemes : List Expr → List Lexeme
  | [] => []
  | [e] => e.lexemes
  | e :: rest => e.lexemes ++ .comma :: candidateLexemes rest
end

theorem appendOf (a b : List Lexeme) : Rendering.of a ++ Rendering.of b = .of (a ++ b) := rfl

theorem groupedOf (group : Bool) (written : List Lexeme) :
    Rendering.grouped group (.of written) = .of (parenthesised group written) := by
  cases group <;> rfl

theorem joinedOf {candidates : List Expr} {d : Dialect}
    (each : ∀ c ∈ candidates, c.render d = .of c.lexemes) :
    Rendering.joinWith .comma (renderAll d candidates) = .of (candidateLexemes candidates) := by
  induction candidates with
  | nil => rfl
  | cons e rest ih =>
    have first := each e List.mem_cons_self
    have later := ih fun c member => each c (List.mem_cons_of_mem e member)
    cases rest with
    | nil => simpa [renderAll, Rendering.joinWith, candidateLexemes] using first
    | cons next rest =>
      rw [renderAll] at later
      simp [renderAll, Rendering.joinWith, candidateLexemes, first, later, appendOf]

theorem renderPlain {chain : BinaryOp → BinaryOp → Prop} {e : Expr}
    (plain : e.Plain chain) (d : Dialect) :
    e.render d = .of e.lexemes := by
  induction plain with
  | @leaf e _ one =>
    cases e with
    | value | parameter | field | column => rfl
    | _ => simp [leaf?] at one
  | unary op _ operand => simp [render, lexemes, operand, groupedOf, appendOf]
  | @binary op l r _ _ _ left right =>
    rw [render, left, right, groupedOf, groupedOf, lexemes]
    cases op.nullTest? r <;> simp [appendOf]
  | member _ _ first rest => simp [render, lexemes, first, groupedOf, joinedOf rest, appendOf]

end Expr

abbrev Reading := Starts → Starts × Phrase

def Reading.grouped (group : Bool) (read : Reading) : Reading := fun w =>
  if group then (w, Starts.whole (read [])) else read w

namespace Expr

mutual
def enter : Expr → Reading
  | .unary op e => fun w => Reading.grouped e.groupsUnderSign e.enter (.sign op :: w)
  | .binary op l r => fun w =>
    let first := Reading.grouped (op.groupsLeft l) l.enter w
    let settled := first.1.settle op.rank first.2
    match op.nullTest? r with
    | some negated => (settled.1, .nullTest negated settled.2)
    | none => Reading.grouped (op.groupsRight r) r.enter (.left settled.2 op :: settled.1)
  | .member item candidates => fun w =>
    let first := Reading.grouped item.isBinary item.enter w
    let settled := first.1.settle equalityRank first.2
    (settled.1, .isIn settled.2 (candidatePhrases candidates))
  | e => fun w => (w, .operand (e.leaf?.getD .dot))

def candidatePhrases : List Expr → List Phrase
  | [] => []
  | e :: rest => Starts.whole (e.enter []) :: candidatePhrases rest
end

theorem leafLexemes {e : Expr} {lexeme : Lexeme} (one : e.leaf? = some lexeme) :
    e.lexemes = [lexeme] := by
  cases e with
  | value | parameter | field | column => simp [lexemes, one]
  | _ => simp [leaf?] at one

theorem leafEnter {e : Expr} {lexeme : Lexeme} (one : e.leaf? = some lexeme) (w : Starts) :
    e.enter w = (w, .operand lexeme) := by
  cases e with
  | value | parameter | field | column => simp [enter, one]
  | _ => simp [leaf?] at one

def ReadAs (written : List Lexeme) (reading : Reading) : Prop :=
  ∀ levels w rest, readPhrase levels w none (written ++ rest) =
    readPhrase levels (reading w).1 (some (reading w).2) rest

theorem readGrouped {written : List Lexeme} {reading : Reading} (read : ReadAs written reading)
    (group : Bool) : ReadAs (parenthesised group written) (reading.grouped group) := by
  cases group with
  | false => exact read
  | true =>
    intro levels w rest
    simp [parenthesised, Reading.grouped, readPhrase, read (.group w :: levels) []]

theorem readCandidates {candidates : List Expr} (each : ∀ c ∈ candidates, ReadAs c.lexemes c.enter)
    (levels : List Level) (w : Starts) (item : Phrase) (rest : List Lexeme) :
    readPhrase (.list w item [] :: levels) [] none (candidateLexemes candidates ++ .closeParen :: rest) =
      readPhrase levels w (some (.isIn item (candidatePhrases candidates))) rest := by
  have onward (c : Expr) (others : List Expr) (each : ∀ e ∈ c :: others, ReadAs e.lexemes e.enter)
      (done : List Phrase) :
      readPhrase (.list w item done :: levels) [] none
          (candidateLexemes (c :: others) ++ .closeParen :: rest) =
        readPhrase levels w (some (.isIn item (done ++ candidatePhrases (c :: others)))) rest := by
    induction others generalizing c done with
    | nil =>
      rw [candidateLexemes, each c List.mem_cons_self]
      simp [readPhrase, candidatePhrases]
    | cons next others ih =>
      have later := ih next fun e member => each e (List.mem_cons_of_mem c member)
      rw [candidateLexemes, List.append_assoc, each c List.mem_cons_self]
      · simp [readPhrase, candidatePhrases, later]
      · simp
  cases candidates with
  | nil => simp [candidateLexemes, candidatePhrases, readPhrase]
  | cons c others => exact onward c others each []

theorem readPlain {chain : BinaryOp → BinaryOp → Prop} {e : Expr}
    (plain : e.Plain chain) :
    ReadAs e.lexemes e.enter := by
  induction plain with
  | @leaf e lexeme one =>
    intro levels w rest
    rw [leafLexemes one, leafEnter one]
    cases e with
    | value | parameter | field | column => cases one; simp [readPhrase]
    | _ => simp [leaf?] at one
  | @unary op e _ operand =>
    intro levels w rest
    have inner := readGrouped operand e.groupsUnderSign levels (.sign op :: w) rest
    simpa [lexemes, enter, readPhrase] using inner
  | @binary op l r _ _ _ left right =>
    intro levels w rest
    rw [lexemes, List.append_assoc, readGrouped left]
    cases test : op.nullTest? r with
    | some negated => simp [enter, test, readPhrase, nullTestRank test]
    | none => simp [enter, test, readPhrase, readGrouped right (op.groupsRight r) levels]
  | @member item candidates _ _ first rest =>
    intro levels w after
    rw [lexemes, List.append_assoc, readGrouped first]
    simp [enter, readPhrase, readCandidates rest]

end Expr

end LiveSchema
