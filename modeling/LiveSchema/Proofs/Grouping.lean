import LiveSchema.Proofs.Phrases
import Mathlib.Data.List.Forall2
/-! What a text is read as and the tree behind it. The renderer leaves out the parentheses of a right
operand with the same associative operator, so the two agree up to the grouping of such chains, as long as
no IN takes up more than its item. -/
namespace LiveSchema

inductive Regrouped (chain : BinaryOp → BinaryOp → Prop) : Phrase → Phrase → Prop
  | refl (p : Phrase) : Regrouped chain p p
  | symm {p q : Phrase} (same : Regrouped chain p q) : Regrouped chain q p
  | trans {p q s : Phrase} (first : Regrouped chain p q) (second : Regrouped chain q s) :
    Regrouped chain p s
  | shift {op o : BinaryOp} (chained : chain op o) (a b c : Phrase) :
    Regrouped chain (.operation op a (.operation o b c)) (.operation o (.operation op a b) c)
  | signed (op : UnaryOp) {p q : Phrase} (same : Regrouped chain p q) :
    Regrouped chain (.signed op p) (.signed op q)
  | operation (op : BinaryOp) {l m r s : Phrase} (left : Regrouped chain l m)
    (right : Regrouped chain r s) : Regrouped chain (.operation op l r) (.operation op m s)
  | nullTest (negated : Bool) {p q : Phrase} (same : Regrouped chain p q) :
    Regrouped chain (.nullTest negated p) (.nullTest negated q)
  | item {p q : Phrase} (same : Regrouped chain p q) (candidates : List Phrase) :
    Regrouped chain (.isIn p candidates) (.isIn q candidates)
  | candidate (item : Phrase) (before after : List Phrase) {p q : Phrase} (same : Regrouped chain p q) :
    Regrouped chain (.isIn item (before ++ p :: after)) (.isIn item (before ++ q :: after))

structure Alike (chain : BinaryOp → BinaryOp → Prop) (a b : Starts × Phrase) : Prop where
  waiting : a.1 = b.1
  phrase : Regrouped chain a.2 b.2

section
variable {chain : BinaryOp → BinaryOp → Prop}

theorem Regrouped.isIn {p q : Phrase} {done done' : List Phrase} (item : Regrouped chain p q)
    (candidates : List.Forall₂ (Regrouped chain) done done') :
    Regrouped chain (.isIn p done) (.isIn q done') := by
  have onward (before : List Phrase) :
      Regrouped chain (.isIn q (before ++ done)) (.isIn q (before ++ done')) := by
    induction candidates generalizing before with
    | nil => exact .refl _
    | @cons c c' rest rest' same _ ih =>
      have later := ih (before ++ [c'])
      rw [List.append_assoc, List.append_assoc] at later
      exact (Regrouped.candidate q before rest same).trans later
  exact (item.item done).trans (onward [])

theorem Alike.trans {a b c : Starts × Phrase} (first : Alike chain a b) (second : Alike chain b c) :
    Alike chain a c :=
  ⟨first.waiting.trans second.waiting, first.phrase.trans second.phrase⟩

theorem finishAlike (s : Start) {p q : Phrase} (same : Regrouped chain p q) :
    Regrouped chain (s.finish p) (s.finish q) := by
  cases s with
  | sign op => exact same.signed op
  | left l op => exact .operation op (.refl l) same

theorem settleAlike (rank : Nat) (w : Starts) {p q : Phrase} (same : Regrouped chain p q) :
    Alike chain (w.settle rank p) (w.settle rank q) := by
  induction w generalizing p q with
  | nil => exact ⟨rfl, same⟩
  | cons s rest ih =>
    by_cases le : rank ≤ s.rank
    · rw [Starts.settleStart le, Starts.settleStart le]
      exact ih (finishAlike s same)
    · simp only [Starts.settle, le, if_false]
      exact ⟨rfl, same⟩

end

def Starts.free : Starts → Bool
  | [] => true
  | s :: _ => s.rank < equalityRank

theorem Starts.freeBelow {w : Starts} (free : w.free = true) : w.Below equalityRank := by
  intro s top
  cases w with
  | nil => cases top
  | cons t rest =>
    cases top
    simpa [Starts.free] using free

namespace Expr

mutual
def asPhrase : Expr → Phrase
  | .unary op e => .signed op e.asPhrase
  | .binary op l r =>
    match op.nullTest? r with
    | some negated => .nullTest negated l.asPhrase
    | none => .operation op l.asPhrase r.asPhrase
  | .member item candidates => .isIn item.asPhrase (asPhrases candidates)
  | e => .operand (e.leaf?.getD .dot)

def asPhrases : List Expr → List Phrase
  | [] => []
  | e :: rest => e.asPhrase :: asPhrases rest
end

mutual
/-- Every IN is written where it takes up its own item only; `free` tells that what stands before the tree
on the same level binds looser than IN. -/
def itemsKept (free : Bool) : Expr → Bool
  | .unary _ e => e.itemsKept e.groupsUnderSign
  | .binary op l r =>
    l.itemsKept (op.groupsLeft l || free) && r.itemsKept (op.groupsRight r || op.rank < equalityRank)
  | .member item candidates => free && item.itemsKept true && candidatesKept candidates
  | _ => true

def candidatesKept : List Expr → Bool
  | [] => true
  | e :: rest => e.itemsKept true && candidatesKept rest
end

theorem leafPhrase {e : Expr} {lexeme : Lexeme} (one : e.leaf? = some lexeme) :
    e.asPhrase = .operand lexeme := by
  cases e with
  | value | parameter | field | column => simp [asPhrase, one]
  | _ => simp [leaf?] at one

end Expr

theorem associativeRank {op : BinaryOp} (associative : op.isAssociative = true) :
    op.rank ≠ equalityRank := by
  revert associative
  cases op <;> decide

namespace Expr

/-- Where a tree may be read as it is meant: an operation only where all that waits binds looser, or where it
was joined to an associative operator of its rank. -/
def Fits (chain : BinaryOp → BinaryOp → Prop) (e : Expr) (w : Starts) : Prop :=
  e.isBinary = true → w.Below e.rank ∨ ∃ x op rest, w = .left x op :: rest ∧
    op.isAssociative = true ∧ op.rank = e.rank ∧ e.Edge (chain op) op.rank ∧ Starts.Below rest e.rank

def Meant (chain : BinaryOp → BinaryOp → Prop) (e : Expr) : Prop :=
  ∀ w, e.Fits chain w → e.itemsKept w.free = true → ∀ k ≤ e.rank,
    Alike chain ((e.enter w).1.settle k (e.enter w).2) (w.settle k e.asPhrase)

section
variable {chain : BinaryOp → BinaryOp → Prop} {e l r : Expr} {op : BinaryOp} {w : Starts}

theorem fitsAlone (e : Expr) : e.Fits chain [] := fun _ => .inl fun _ top => by cases top

theorem fitsOperand (other : e.isBinary = false) (w : Starts) : e.Fits chain w := fun binary => by
  simp [other] at binary

theorem operandRank (other : e.isBinary = false) : e.rank = 8 := by
  cases e with
  | binary => simp [isBinary] at other
  | _ => rfl

theorem fitsEquality (fits : (Expr.binary op l r).Fits chain w) (equality : op.rank = equalityRank) :
    w.Below equalityRank := by
  rcases fits rfl with below | ⟨x, before, rest, rfl, associative, same, _⟩
  · exact equality ▸ below
  · exact absurd (same.trans equality) (associativeRank associative)

theorem fitsLeft (fits : (Expr.binary op l r).Fits chain w) (rank : op.rank ≤ l.rank) :
    l.Fits chain w := by
  intro binary
  rcases fits rfl with below | ⟨x, before, rest, rfl, associative, same, edge, below⟩
  · exact .inl (Starts.belowLe below rank)
  · rcases Nat.lt_or_eq_of_le rank with lower | equal
    · refine .inl fun s top => ?_
      cases top
      exact Nat.lt_of_le_of_lt (Nat.le_of_eq same) lower
    · have further := (edge same.symm).2
      exact .inr ⟨x, before, rest, rfl, associative, same.trans equal, further, equal ▸ below⟩

theorem fitsRight (joined : op.joins r = true → r.Edge (chain op) op.rank)
    (bare : op.groupsRight r = false) (below : w.Below op.rank) (p : Phrase) :
    r.Fits chain (.left p op :: w) ∧ op.rank ≤ r.rank := by
  rcases BinaryOp.openRightRank bare with lower | ⟨same, joins⟩
  · exact ⟨fun _ => .inl fun s top => by cases top; exact lower, Nat.le_of_lt lower⟩
  · have behind := And.intro (joined joins) (same ▸ below)
    exact ⟨fun _ => .inr ⟨p, op, w, rfl, joinsAssociative joins, same, behind⟩, Nat.le_of_eq same⟩

theorem leftBecomes (fits : (Expr.binary op l r).Fits chain w) (p : Phrase) :
    ∃ w' q, w.settle op.rank p = (w', q) ∧ w'.Below op.rank ∧ ∀ k ≤ op.rank, ∀ s,
      Alike chain (w'.settle k (.operation op q s)) (w.settle k (.operation op p s)) := by
  rcases fits rfl with below | ⟨x, before, rest, rfl, _, same, edge, below⟩
  · exact ⟨w, p, Starts.settleBelow below p, below, fun _ _ _ => ⟨rfl, .refl _⟩⟩
  · have below : Starts.Below rest op.rank := below
    refine ⟨rest, .operation before x p, ?_, below, fun k le s => ?_⟩
    · rw [Starts.settleStart (Nat.le_of_eq same.symm), Starts.settleBelow below]
      rfl
    · have reached : k ≤ (Start.left x before).rank := Nat.le_trans le (Nat.le_of_eq same.symm)
      rw [Starts.settleStart reached]
      exact settleAlike k rest (Regrouped.shift (edge same.symm).1 x p s).symm

theorem wholeAlike (meant : e.Meant chain) (kept : e.itemsKept true = true) :
    Regrouped chain (Starts.whole (e.enter [])) e.asPhrase :=
  (meant [] (fitsAlone e) kept 0 (Nat.zero_le _)).phrase

theorem groupedAlike (meant : e.Meant chain) {group : Bool}
    (kept : e.itemsKept (group || w.free) = true) {k : Nat}
    (fits : group = false → e.Fits chain w ∧ k ≤ e.rank) :
    Alike chain ((e.enter.grouped group w).1.settle k (e.enter.grouped group w).2)
      (w.settle k e.asPhrase) := by
  cases group with
  | true => exact settleAlike k w (wholeAlike meant kept)
  | false => exact meant w (fits rfl).1 kept k (fits rfl).2

theorem bareUnderSign (bare : e.groupsUnderSign = false) : e.isBinary = false := by
  cases e with
  | binary => simp [groupsUnderSign] at bare
  | _ => rfl

theorem unaryMeant (op : UnaryOp) (operand : e.Meant chain) : (Expr.unary op e).Meant chain := by
  intro w _ kept k le
  have sign : k ≤ (Start.sign op).rank := le
  have under : e.itemsKept (e.groupsUnderSign || Starts.free (.sign op :: w)) = true := by
    simpa [itemsKept, Starts.free, Start.rank, equalityRank, BinaryOp.rank] using kept
  have alike := groupedAlike operand under (k := k) fun bare =>
    have other := bareUnderSign bare
    ⟨fitsOperand other _, operandRank other ▸ le⟩
  rwa [Starts.settleStart sign] at alike

theorem candidatesAlike {candidates : List Expr} (each : ∀ c ∈ candidates, c.Meant chain)
    (kept : candidatesKept candidates = true) :
    List.Forall₂ (Regrouped chain) (candidatePhrases candidates) (asPhrases candidates) := by
  induction candidates with
  | nil => simp [candidatePhrases, asPhrases]
  | cons c rest ih =>
    simp only [candidatesKept, Bool.and_eq_true] at kept
    have later := ih (fun e member => each e (List.mem_cons_of_mem c member)) kept.2
    rw [candidatePhrases, asPhrases]
    exact .cons (wholeAlike (each c List.mem_cons_self) kept.1) later

theorem itemAlike (meant : e.Meant chain) (free : w.free = true) (kept : e.itemsKept true = true) :
    Alike chain ((e.enter.grouped e.isBinary w).1.settle equalityRank (e.enter.grouped e.isBinary w).2)
      (w, e.asPhrase) := by
  have tight : equalityRank ≤ 8 := by decide
  have inner : e.itemsKept (e.isBinary || w.free) = true := by rwa [free, Bool.or_true]
  have alike := groupedAlike meant inner (k := equalityRank) fun other =>
    ⟨fitsOperand other w, operandRank other ▸ tight⟩
  rwa [Starts.settleBelow (Starts.freeBelow free)] at alike

theorem memberMeant {item : Expr} {candidates : List Expr} (first : item.Meant chain)
    (each : ∀ c ∈ candidates, c.Meant chain) : (Expr.member item candidates).Meant chain := by
  intro w _ kept k _
  simp only [itemsKept, Bool.and_eq_true] at kept
  obtain ⟨waiting, phrase⟩ := itemAlike first kept.1.1 kept.1.2
  have whole := settleAlike k w (phrase.isIn (candidatesAlike each kept.2))
  rw [enter, asPhrase]
  dsimp only
  rwa [waiting]

theorem binaryMeant (left : l.Meant chain) (right : r.Meant chain)
    (joined : op.joins r = true → r.Edge (chain op) op.rank) :
    (Expr.binary op l r).Meant chain := by
  intro w fits kept k le
  simp only [itemsKept, Bool.and_eq_true] at kept
  have first : Alike chain _ (w.settle op.rank l.asPhrase) :=
    groupedAlike left kept.1 fun bare =>
      have rank := BinaryOp.openLeftRank bare
      ⟨fitsLeft fits rank, rank⟩
  obtain ⟨w', q, settled, below, becomes⟩ := leftBecomes fits l.asPhrase
  rw [enter, asPhrase]
  dsimp only
  generalize Starts.settle op.rank _ _ = standing at first ⊢
  obtain ⟨waiting, p⟩ := standing
  rw [settled] at first
  obtain ⟨rfl, phrase⟩ : waiting = w' ∧ Regrouped chain p q := ⟨first.waiting, first.phrase⟩
  cases test : op.nullTest? r with
  | some negated =>
    have equality := nullTestRank test
    have same : w.settle op.rank l.asPhrase = (w, l.asPhrase) :=
      Starts.settleBelow (equality ▸ fitsEquality fits equality) _
    obtain ⟨rfl, rfl⟩ := Prod.mk.inj (settled.symm.trans same)
    exact settleAlike k waiting (phrase.nullTest negated)
  | none =>
    have second := groupedAlike right (w := .left p op :: waiting) kept.2 (k := k) fun bare =>
      have behind := fitsRight joined bare below p
      ⟨behind.1, Nat.le_trans le behind.2⟩
    have reached : k ≤ (Start.left p op).rank := le
    rw [Starts.settleStart reached] at second
    exact (second.trans (settleAlike k waiting (.operation op phrase (.refl _)))).trans
      (becomes k le r.asPhrase)

theorem plainMeant (plain : e.Plain chain) : e.Meant chain := by
  induction plain with
  | leaf one =>
    intro w _ _ k _
    rw [leafEnter one, leafPhrase one]
    exact ⟨rfl, .refl _⟩
  | unary op _ operand => exact unaryMeant op operand
  | binary _ _ joined left right => exact binaryMeant left right joined
  | member _ _ first each => exact memberMeant first each

end

end Expr

end LiveSchema
