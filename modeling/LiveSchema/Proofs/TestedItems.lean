import LiveSchema.Proofs.Grouping
import LiveSchema.Proofs.PhraseText
import Mathlib.Data.List.TakeWhile
/-! What IN tests. An IN that stands behind a sign, or behind an operator that binds at least as tightly as
equality, takes up what waits there together with its item; the renderer puts no parentheses around it. -/
namespace LiveSchema

namespace Phrase

mutual
def tested : Phrase → List Phrase
  | .operand _ => []
  | .signed _ p => p.tested
  | .operation _ l r => l.tested ++ r.tested
  | .nullTest _ p => p.tested
  | .isIn item candidates => item.tested ++ item :: testedAll candidates

def testedAll : List Phrase → List Phrase
  | [] => []
  | p :: rest => p.tested ++ testedAll rest
end

mutual
def size : Phrase → Nat
  | .operand _ => 1
  | .signed _ p => p.size + 1
  | .operation _ l r => l.size + r.size + 1
  | .nullTest _ p => p.size + 1
  | .isIn item candidates => item.size + sizes candidates + 1

def sizes : List Phrase → Nat
  | [] => 0
  | p :: rest => p.size + sizes rest
end

theorem sizesAppend (before after : List Phrase) :
    sizes (before ++ after) = sizes before + sizes after := by
  induction before with
  | nil => simp [sizes]
  | cons p rest ih => simp [sizes, ih, Nat.add_assoc]

end Phrase

theorem regroupedSize {chain : BinaryOp → BinaryOp → Prop} {p q : Phrase}
    (same : Regrouped chain p q) : p.size = q.size := by
  induction same with
  | refl => rfl
  | symm _ ih => exact ih.symm
  | trans _ _ first second => exact first.trans second
  | shift => simp [Phrase.size]; omega
  | signed _ _ ih | nullTest _ _ ih | item _ _ ih => simp [Phrase.size, ih]
  | operation _ _ _ left right => simp [Phrase.size, left, right]
  | candidate _ _ _ _ ih => simp [Phrase.size, Phrase.sizesAppend, Phrase.sizes, ih]

namespace Start

def tested : Start → List Phrase
  | .sign _ => []
  | .left l _ => l.tested

def size : Start → Nat
  | .sign _ => 1
  | .left l _ => l.size + 1

theorem finishTested (s : Start) (p : Phrase) : (s.finish p).tested = s.tested ++ p.tested := by
  cases s <;> simp [finish, Phrase.tested, tested]

theorem finishSize (s : Start) (p : Phrase) : (s.finish p).size = s.size + p.size := by
  cases s <;> simp only [finish, Phrase.size, size] <;> omega

end Start

namespace Starts

def tested : Starts → List Phrase
  | [] => []
  | s :: rest => tested rest ++ s.tested

def size : Starts → Nat
  | [] => 0
  | s :: rest => s.size + size rest

theorem settleTested (rank : Nat) (w : Starts) (p : Phrase) :
    (settle rank w p).1.tested ++ (settle rank w p).2.tested = w.tested ++ p.tested := by
  induction w generalizing p with
  | nil => rfl
  | cons s rest ih =>
    by_cases le : rank ≤ s.rank
    · rw [settleStart le, ih, s.finishTested, tested, List.append_assoc]
    · simp only [settle, le, if_false]

theorem settleSize (rank : Nat) (w : Starts) (p : Phrase) :
    (settle rank w p).1.size + (settle rank w p).2.size = w.size + p.size := by
  induction w generalizing p with
  | nil => rfl
  | cons s rest ih =>
    by_cases le : rank ≤ s.rank
    · rw [settleStart le, ih, s.finishSize, size]
      omega
    · simp only [settle, le, if_false]

theorem wholeTested (s : Starts × Phrase) : (whole s).tested = s.1.tested ++ s.2.tested := by
  have kept := settleTested 0 s.1 s.2
  rwa [wholeSettled] at kept

theorem wholeSize (s : Starts × Phrase) : (whole s).size = s.1.size + s.2.size := by
  have kept := settleSize 0 s.1 s.2
  rw [wholeSettled] at kept
  simpa [size] using kept

def tight (s : Start) : Bool := equalityRank ≤ s.rank

theorem settleSplit (w : Starts) (p : Phrase) :
    settle equalityRank w p =
      (w.dropWhile tight, (settle equalityRank (w.takeWhile tight) p).2) := by
  induction w generalizing p with
  | nil => rfl
  | cons s rest ih =>
    by_cases le : equalityRank ≤ s.rank
    · have holds : tight s = true := by simpa [tight] using le
      rw [settleStart le, ih, List.dropWhile_cons_of_pos holds, List.takeWhile_cons_of_pos holds,
        settleStart le]
    · have fails : ¬ tight s = true := by simpa [tight] using le
      rw [List.dropWhile_cons_of_neg fails, List.takeWhile_cons_of_neg fails]
      simp only [settle, le, if_false]

theorem freeSplit {w : Starts} (free : w.free = true) :
    w.dropWhile tight = w ∧ w.takeWhile tight = [] := by
  cases w with
  | nil => exact ⟨rfl, rfl⟩
  | cons s rest =>
    have fails : ¬ tight s = true := by simpa [Starts.free, tight] using free
    exact ⟨List.dropWhile_cons_of_neg fails, List.takeWhile_cons_of_neg fails⟩

theorem startSize (s : Start) : 0 < s.size := by
  cases s <;> simp [Start.size]

theorem takenSize {w : Starts} (free : w.free = false) : size (w.dropWhile tight) < w.size := by
  have smaller (w : Starts) : size (w.dropWhile tight) ≤ w.size := by
    induction w with
    | nil => exact Nat.le_refl _
    | cons s rest ih =>
      by_cases holds : tight s = true
      · rw [List.dropWhile_cons_of_pos holds, size]
        omega
      · exact Nat.le_of_eq (by rw [List.dropWhile_cons_of_neg holds])
  cases w with
  | nil => simp [Starts.free] at free
  | cons s rest =>
    have holds : tight s = true := by simpa [Starts.free, tight] using free
    have positive := startSize s
    have later := smaller rest
    rw [List.dropWhile_cons_of_pos holds, size]
    omega

end Starts

def Reading.Splits (read : Reading) : Prop :=
  ∀ w, (read w).1.settle equalityRank (read w).2 =
    (w.dropWhile Starts.tight,
      ((read (w.takeWhile Starts.tight)).1.settle equalityRank (read (w.takeWhile Starts.tight)).2).2)

theorem groupSplits {read : Reading} (group : Bool) (splits : group = false → read.Splits) :
    (read.grouped group).Splits := by
  cases group with
  | true => exact fun w => Starts.settleSplit w _
  | false => exact splits rfl

theorem splitSigned (op : UnaryOp) {read : Reading} (splits : read.Splits) :
    Reading.Splits fun w => read (.sign op :: w) := by
  intro w
  have holds : Starts.tight (.sign op) = true := rfl
  have split := splits (.sign op :: w)
  rwa [List.dropWhile_cons_of_pos holds, List.takeWhile_cons_of_pos holds] at split

namespace Expr

mutual
def items : Expr → List Expr
  | .unary _ e => e.items
  | .binary _ l r => l.items ++ r.items
  | .member item candidates => item.items ++ item :: itemsAll candidates
  | _ => []

def itemsAll : List Expr → List Expr
  | [] => []
  | e :: rest => e.items ++ itemsAll rest
end

section
variable {chain : BinaryOp → BinaryOp → Prop} {e : Expr}

theorem operandSplits (plain : e.Plain chain) (other : e.isBinary = false) : e.enter.Splits := by
  induction plain with
  | leaf one =>
    intro w
    simp only [leafEnter one]
    exact Starts.settleSplit w _
  | @unary op e _ operand =>
    have inner := groupSplits e.groupsUnderSign fun bare => operand (bareUnderSign bare)
    simpa [enter] using splitSigned op inner
  | binary => simp [isBinary] at other
  | @member item candidates _ _ first _ =>
    intro w
    have inner := groupSplits item.isBinary first
    have taken : (w.takeWhile Starts.tight).dropWhile Starts.tight = [] :=
      List.dropWhile_eq_nil_iff.mpr fun _ member => List.mem_takeWhile_imp member
    have left := Starts.settledBelow equalityRank w (.operand .dot)
    rw [Starts.settleSplit] at left
    simp only [enter, inner w, inner (w.takeWhile Starts.tight), taken]
    rw [Starts.settleBelow left]
    rfl

theorem itemSettled (plain : e.Plain chain) {w : Starts} (free : w.free = true) :
    (e.enter.grouped e.isBinary w).1.settle equalityRank (e.enter.grouped e.isBinary w).2 =
      (w, Starts.whole (e.enter [])) := by
  have split := groupSplits e.isBinary (operandSplits plain) w
  obtain ⟨left, taken⟩ := Starts.freeSplit free
  rw [split, left, taken]
  cases other : e.isBinary with
  | true => rfl
  | false =>
    have alone := operandSplits plain other []
    have whole := Starts.settleAgain (Nat.zero_le equalityRank) (e.enter []).1 (e.enter []).2
    rw [alone] at whole
    have phrase := congrArg Prod.snd whole
    exact Prod.ext rfl phrase

def Weighs (e : Expr) : Prop :=
  ∀ w, (e.enter w).1.size + (e.enter w).2.size = w.size + e.asPhrase.size

theorem wholeWeight (weighs : e.Weighs) : (Starts.whole (e.enter [])).size = e.asPhrase.size := by
  rw [Starts.wholeSize, weighs, Starts.size, Nat.zero_add]

theorem groupedWeight (weighs : e.Weighs) (group : Bool) (w : Starts) :
    (e.enter.grouped group w).1.size + (e.enter.grouped group w).2.size = w.size + e.asPhrase.size := by
  cases group with
  | true => exact congrArg (w.size + ·) (wholeWeight weighs)
  | false => exact weighs w

theorem candidatesWeight {candidates : List Expr} (each : ∀ c ∈ candidates, c.Weighs) :
    Phrase.sizes (candidatePhrases candidates) = Phrase.sizes (asPhrases candidates) := by
  induction candidates with
  | nil => rfl
  | cons c rest ih =>
    have first := wholeWeight (each c List.mem_cons_self)
    have later := ih fun e member => each e (List.mem_cons_of_mem c member)
    rw [candidatePhrases, asPhrases, Phrase.sizes, Phrase.sizes, first, later]

theorem plainWeight (plain : e.Plain chain) : e.Weighs := by
  induction plain with
  | leaf one =>
    intro w
    rw [leafEnter one, leafPhrase one]
  | @unary op e _ operand =>
    intro w
    have inner := groupedWeight operand e.groupsUnderSign (.sign op :: w)
    rw [enter, asPhrase, inner, Starts.size, Phrase.size, Start.size]
    omega
  | @binary op l r _ _ _ left right =>
    intro w
    have first := groupedWeight left (op.groupsLeft l) w
    rw [← Starts.settleSize op.rank] at first
    rw [enter, asPhrase]
    dsimp only
    generalize Starts.settle op.rank _ _ = standing at first ⊢
    cases op.nullTest? r with
    | some negated =>
      simp only [Phrase.size]
      omega
    | none =>
      have second := groupedWeight right (op.groupsRight r) (.left standing.2 op :: standing.1)
      simp only [Starts.size, Start.size, Phrase.size] at second ⊢
      omega
  | @member item candidates _ _ first each =>
    intro w
    have before := groupedWeight first item.isBinary w
    rw [← Starts.settleSize equalityRank] at before
    rw [enter, asPhrase]
    simp only [Phrase.size, candidatesWeight each]
    omega

theorem itemOutweighed (plain : e.Plain chain) {w : Starts} (free : w.free = false) :
    e.asPhrase.size < ((e.enter.grouped e.isBinary w).1.settle equalityRank
      (e.enter.grouped e.isBinary w).2).2.size := by
  have weight := groupedWeight (plainWeight plain) e.isBinary w
  rw [← Starts.settleSize equalityRank] at weight
  have split := groupSplits e.isBinary (operandSplits plain) w
  have taken := Starts.takenSize free
  rw [split] at weight ⊢
  dsimp only at weight ⊢
  omega

end

structure Recognises (chain : BinaryOp → BinaryOp → Prop) (test : Phrase → Expr → Prop) : Prop where
  own : ∀ {e : Expr} {w : Starts}, e.Plain chain → w.free = true → e.itemsKept true = true →
    test ((e.enter.grouped e.isBinary w).1.settle equalityRank (e.enter.grouped e.isBinary w).2).2 e
  other : ∀ {e : Expr} {w : Starts}, e.Plain chain → w.free = false →
    ¬ test ((e.enter.grouped e.isBinary w).1.settle equalityRank (e.enter.grouped e.isBinary w).2).2 e

def Tests (test : Phrase → Expr → Prop) (w : Starts) (s : Starts × Phrase) (items : List Expr)
    (kept : Bool) : Prop :=
  ∃ t, s.1.tested ++ s.2.tested = w.tested ++ t ∧ t.length = items.length ∧
    (List.Forall₂ test t items ↔ kept = true)

section
variable {chain : BinaryOp → BinaryOp → Prop} {test : Phrase → Expr → Prop} {e : Expr}

theorem bothTested {first second : List Phrase} {items others : List Expr}
    (length : first.length = items.length) :
    List.Forall₂ test (first ++ second) (items ++ others) ↔
      List.Forall₂ test first items ∧ List.Forall₂ test second others := by
  induction first generalizing items with
  | nil =>
    cases items with
    | nil => simp
    | cons => simp at length
  | cons p rest ih =>
    cases items with
    | nil => simp at length
    | cons item items =>
      have later := ih (Nat.succ.inj length)
      simp [later, and_assoc]

theorem groupedTests (tests : ∀ w, Tests test w (e.enter w) e.items (e.itemsKept w.free)) (group : Bool)
    (w : Starts) : Tests test w (e.enter.grouped group w) e.items (e.itemsKept (group || w.free)) := by
  cases group with
  | true =>
    obtain ⟨t, alone, same⟩ := tests []
    exact ⟨t, congrArg (w.tested ++ ·) ((Starts.wholeTested _).trans alone), same⟩
  | false => exact tests w

theorem settledTests {w : Starts} {s : Starts × Phrase} {items : List Expr} {kept : Bool}
    (tests : Tests test w s items kept) (rank : Nat) :
    Tests test w (s.1.settle rank s.2) items kept := by
  obtain ⟨t, all, same⟩ := tests
  exact ⟨t, (Starts.settleTested rank s.1 s.2).trans all, same⟩

theorem candidatesTested {candidates : List Expr}
    (each : ∀ c ∈ candidates, ∀ w, Tests test w (c.enter w) c.items (c.itemsKept w.free)) :
    (Phrase.testedAll (candidatePhrases candidates)).length = (itemsAll candidates).length ∧
      (List.Forall₂ test (Phrase.testedAll (candidatePhrases candidates)) (itemsAll candidates) ↔
        candidatesKept candidates = true) := by
  induction candidates with
  | nil => simp [candidatePhrases, Phrase.testedAll, itemsAll, candidatesKept]
  | cons c rest ih =>
    obtain ⟨t, alone, length, same⟩ := each c List.mem_cons_self []
    have later := ih fun e member => each e (List.mem_cons_of_mem c member)
    have whole : (Starts.whole (c.enter [])).tested = t := (Starts.wholeTested _).trans alone
    rw [candidatePhrases, Phrase.testedAll, itemsAll, whole, candidatesKept, Bool.and_eq_true]
    refine ⟨by simp [length, later.1], ?_⟩
    rw [bothTested length, same, later.2]
    rfl

theorem plainTests (recognises : Recognises chain test) (plain : e.Plain chain) (w : Starts) :
    Tests test w (e.enter w) e.items (e.itemsKept w.free) := by
  induction plain generalizing w with
  | @leaf e _ one =>
    rw [leafEnter one]
    cases e with
    | value | parameter | field | column => exact ⟨[], rfl, rfl, by simp [items, itemsKept]⟩
    | _ => simp [leaf?] at one
  | @unary op e _ operand =>
    obtain ⟨t, all, same⟩ := groupedTests operand e.groupsUnderSign (.sign op :: w)
    have behind : Starts.free (.sign op :: w) = false := rfl
    rw [behind, Bool.or_false] at same
    exact ⟨t, by simpa [enter, Starts.tested, Start.tested] using all, same⟩
  | @binary op l r _ _ _ left right =>
    obtain ⟨t, first, length, same⟩ := settledTests (groupedTests left (op.groupsLeft l) w) op.rank
    rw [enter, items, itemsKept]
    dsimp only
    generalize Starts.settle op.rank _ _ = standing at first ⊢
    cases nullTest : op.nullTest? r with
    | some negated =>
      obtain ⟨rfl, -⟩ := nullTestOp nullTest
      exact ⟨t, first, by simp [items, null, length], by simp [items, itemsKept, null, same]⟩
    | none =>
      obtain ⟨u, second, lengthRight, sameRight⟩ :=
        groupedTests right (op.groupsRight r) (.left standing.2 op :: standing.1)
      refine ⟨t ++ u, ?_, by simp [length, lengthRight], ?_⟩
      · rw [second, Starts.tested, Start.tested, first, List.append_assoc]
      · rw [bothTested length, same, sameRight, Bool.and_eq_true]
        rfl
  | @member item candidates plain _ first each =>
    obtain ⟨t, before, length, same⟩ :=
      settledTests (groupedTests first item.isBinary w) equalityRank
    obtain ⟨lengthAll, sameAll⟩ := candidatesTested each
    have own := recognises.own plain (w := w)
    have other := recognises.other plain (w := w)
    rw [enter, items, itemsKept]
    dsimp only
    generalize Starts.settle equalityRank _ _ = standing at before own other ⊢
    refine ⟨t ++ standing.2 :: Phrase.testedAll (candidatePhrases candidates), ?_, ?_, ?_⟩
    · rw [Phrase.tested, ← List.append_assoc, before, List.append_assoc]
    · simp [length, lengthAll]
    · rw [bothTested length, List.forall₂_cons, same, sameAll]
      cases free : w.free with
      | true =>
        rw [Bool.or_true]
        simp only [Bool.true_and, Bool.and_eq_true]
        exact ⟨fun all => ⟨all.1, all.2.2⟩, fun kept => ⟨kept.1, own free kept.1, kept.2⟩⟩
      | false => simp [other free]

theorem regroupedRecognises (chain : BinaryOp → BinaryOp → Prop) :
    Recognises chain fun p e => Regrouped chain p e.asPhrase where
  own plain free kept := (itemAlike (plainMeant plain) free kept).phrase
  other plain free same :=
    absurd (regroupedSize same) (Nat.ne_of_gt (itemOutweighed plain free))

theorem textRecognises (chain : BinaryOp → BinaryOp → Prop) (d : Dialect) :
    Recognises chain fun p e => e.TextReads d p where
  own plain free _ := by
    rw [itemSettled plain free]
    exact textReadsPlain plain d
  other {e w} plain free reads := by
    have same := textReadsOne reads (textReadsPlain plain d)
    have weight := wholeWeight (plainWeight plain)
    rw [← same] at weight
    exact absurd weight (Nat.ne_of_gt (itemOutweighed plain free))

end

mutual
def isPlain : Expr → Bool
  | .unary _ e => e.isPlain
  | .binary _ l r => l.isPlain && r.isPlain
  | .member item candidates => item.isPlain && allPlain candidates
  | e => e.leaf?.isSome

def allPlain : List Expr → Bool
  | [] => true
  | e :: rest => e.isPlain && allPlain rest
end

def Beside (op o : BinaryOp) : Prop := op.isAssociative = true ∧ o.rank = op.rank

theorem edgeBeside {op : BinaryOp} (associative : op.isAssociative = true) (e : Expr) :
    e.Edge (Beside op) op.rank := by
  fun_induction Edge (Beside op) op.rank e with
  | case1 o a b ih => exact fun same => ⟨⟨associative, same⟩, ih⟩
  | case2 => trivial

mutual
theorem plainBeside : ∀ {e : Expr}, e.isPlain = true → e.Plain Beside
  | .unary op _, plain => .unary op (plainBeside plain)
  | .binary _ _ r, plain => by
    simp only [isPlain, Bool.and_eq_true] at plain
    exact .binary (plainBeside plain.1) (plainBeside plain.2) fun joined =>
      edgeBeside (joinsAssociative joined) r
  | .member _ _, plain => by
    simp only [isPlain, Bool.and_eq_true] at plain
    exact .member (plainBeside plain.1) (allBeside plain.2)
  | .value _, _ | .parameter _, _ | .field _ _, _ | .column _, _ => .leaf rfl

theorem allBeside : ∀ {candidates : List Expr}, allPlain candidates = true →
    ∀ c ∈ candidates, c.Plain Beside
  | [], _ => fun _ none => by cases none
  | c :: rest, plain => by
    simp only [allPlain, Bool.and_eq_true] at plain
    exact List.forall_mem_cons.mpr ⟨plainBeside plain.1, allBeside plain.2⟩
end

/-- Every tested phrase is what the text of its own item is read as, and is the item up to the grouping of
chains, just if the items are kept. -/
theorem itemsTested {e : Expr} (plain : e.isPlain = true) (d : Dialect) :
    e.Plain Beside ∧ ∃ p, e.TextReads d p ∧
      (List.Forall₂ (fun q item => item.TextReads d q) p.tested e.items ↔ e.itemsKept true = true) ∧
      ∀ chain, e.Plain chain →
        (List.Forall₂ (fun q item => Regrouped chain q item.asPhrase) p.tested e.items ↔
          e.itemsKept true = true) := by
  have counted {chain : BinaryOp → BinaryOp → Prop} {test : Phrase → Expr → Prop}
      (recognises : Recognises chain test) (plain : e.Plain chain) :
      List.Forall₂ test (Starts.whole (e.enter [])).tested e.items ↔ e.itemsKept true = true := by
    obtain ⟨t, alone, _, same⟩ := plainTests recognises plain []
    rw [Starts.wholeTested, alone]
    exact same
  have beside := plainBeside plain
  exact ⟨beside, _, textReadsPlain beside d, counted (textRecognises Beside d) beside,
    fun chain plain => counted (regroupedRecognises chain) plain⟩

def listed : Expr :=
  .binary .or (.member (.binary .add (.column "a") (.value (.int 1))) [.value (.int 2), .column "b"])
    (.unary .not (.binary .and (.member (.unary .negate (.column "c")) [])
      (.member (.member (.column "d") [.value (.int 3)]) [.unary .complement (.column "e")])))

theorem listedItemsTested :
    listed.isPlain = true ∧
    listed.compile .sqlite =
      .ok "([a] + 1) IN (2,[b]) OR !(-[c] IN () AND [d] IN (3) IN (~[e]))" ∧
    ∃ p, listed.TextReads .sqlite p ∧
      List.Forall₂ (fun q item => item.TextReads .sqlite q) p.tested listed.items ∧
      List.Forall₂ (fun q item => Regrouped Beside q item.asPhrase) p.tested listed.items := by
  obtain ⟨beside, p, reads, own, same⟩ := itemsTested (e := listed) (by decide) .sqlite
  exact ⟨by decide, by decide, p, reads, own.mpr (by decide), (same Beside beside).mpr (by decide)⟩

/-- The text does not tell whether a sign stands before an IN or before its item. -/
theorem signBeforeItem {item : Expr} (bare : item.groupsUnderSign = item.isBinary) (op : UnaryOp)
    (candidates : List Expr) (d : Dialect) :
    (Expr.unary op (.member item candidates)).compile d =
      (Expr.member (.unary op item) candidates).compile d := by
  have same : (Expr.unary op (.member item candidates)).render d =
      (Expr.member (.unary op item) candidates).render d := by
    have outer : (Expr.member item candidates).groupsUnderSign = false := rfl
    have inner : (Expr.unary op item).isBinary = false := rfl
    have ungrouped (r : Rendering) : Rendering.grouped false r = r := rfl
    simp only [render, outer, inner, bare, ungrouped, Rendering.appendAssoc]
  rw [compile, compile, same]

def denied : Expr := .unary .not (.member (.column "a") [.value (.int 1)])

theorem itemsMayBeLost :
    (Expr.unary .not (.member (.column "a") [.value (.int 1)])).compile .sqlite =
      (Expr.member (.unary .not (.column "a")) [.value (.int 1)]).compile .sqlite ∧
    ¬ ∀ (e : Expr) (d : Dialect) (p : Phrase), e.isPlain = true → e.TextReads d p →
      List.Forall₂ (fun q item => Regrouped Beside q item.asPhrase) p.tested e.items := by
  refine ⟨signBeforeItem rfl _ _ _, fun always => ?_⟩
  have plain : denied.Plain Beside := plainBeside rfl
  have tested := always denied .sqlite _ rfl (textReadsPlain plain .sqlite)
  obtain ⟨t, alone, _, same⟩ := plainTests (regroupedRecognises Beside) plain []
  rw [Starts.wholeTested, alone] at tested
  have kept := same.mp tested
  contradiction

end Expr

end LiveSchema
