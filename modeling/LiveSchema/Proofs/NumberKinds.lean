import LiveSchema.Proofs.NullComparisons
import LiveSchema.Proofs.ShortestDecimal
/-! Floats in the place of integers. A number is written without a mark of its kind, so a whole float may be
written like an integer; two trees that differ only in the kinds of their numbers have one text exactly if this
is so of each of these numbers. -/
namespace LiveSchema

def numberCharacter (c : Char) : Bool := c.isDigit || c == '-' || c == '.'

theorem integerCharacters (n : Int64) : ∀ c ∈ (toString n.toInt).toList, numberCharacter c = true := by
  intro c member
  rw [integerText] at member
  rcases List.mem_append.mp member with sign | shown
  · obtain rfl : c = '-' := by grind
    rfl
  · simp [numberCharacter, Lexeme.digitsOf _ c shown]

theorem floatCharacters (x : Binary64) : ∀ c ∈ (Shortest.text x).toList, numberCharacter c = true := by
  intro c member
  rw [Shortest.text, String.toList_ofList] at member
  rcases List.mem_append.mp member with sign | shown
  · obtain rfl : c = '-' := by grind
    rfl
  · rcases Shortest.decimalCharacters _ c shown with digit | rfl
    · simp [numberCharacter, digit]
    · rfl

namespace Rendering

def Ended (rest : List Char) : Prop := ∀ c ∈ rest.head?, c ∈ [' ', ',', ')']

def Closes (d : Dialect) (r : Rendering) : Prop := ∀ text, r.Writes d text → text ≠ [] ∧ Ended text

/-- Where the texts of two renderings are the same with what stands behind them, they are the same without it, and
then a property holds. -/
def Told (d : Dialect) (r s : Rendering) (P : Prop) : Prop :=
  ∀ a b behind rest : List Char, r.Writes d a → s.Writes d b → Ended behind → Ended rest →
    a ++ behind = b ++ rest → a = b ∧ P

section
variable {d : Dialect} {r s t u : Rendering} {P Q : Prop}

theorem endedNotNumber {rest : List Char} (ends : Ended rest) :
    ∀ c ∈ rest.head?, numberCharacter c = false := by
  intro c first
  have closing := ends c first
  simp only [List.mem_cons, List.not_mem_nil, or_false] at closing
  rcases closing with rfl | rfl | rfl <;> rfl

theorem numbersEnd {a b behind rest : List Char} (first : ∀ c ∈ a, numberCharacter c = true)
    (second : ∀ c ∈ b, numberCharacter c = true) (ends : Ended behind) (stops : Ended rest)
    (same : a ++ behind = b ++ rest) : a = b := by
  have cut := congrArg (List.takeWhile numberCharacter) same
  rwa [List.takeWhile_append_of_pos first, List.takeWhile_append_of_pos second,
    (kindStops (endedNotNumber ends)).1, (kindStops (endedNotNumber stops)).1, List.append_nil,
    List.append_nil] at cut

theorem numberUnopened {a rest : List Char} (number : ∀ c ∈ a, numberCharacter c = true) (ends : Ended rest) :
    (a ++ rest).head? ≠ some '(' := by
  intro opened
  cases a with
  | nil => exact absurd (ends '(' opened) (by decide)
  | cons c cs =>
    obtain rfl := Option.some.inj opened
    exact absurd (number '(' List.mem_cons_self) (by decide)

theorem closesOf {l : Lexeme} {c : Char} (first : (l.text d).toList.head? = some c)
    (closing : c ∈ [' ', ',', ')']) (lexemes : List Lexeme) : Closes d (of (l :: lexemes)) := by
  intro text written
  obtain ⟨cs, shown⟩ := List.head?_eq_some_iff.mp first
  have begins : text = c :: (cs ++ (Lexeme.textAll d lexemes).toList) := by
    rw [← writesOf.mp written, Lexeme.textAll, String.toList_append, shown, List.cons_append]
  rw [begins]
  exact ⟨List.cons_ne_nil _ _, fun b is => Option.some.inj is ▸ closing⟩

theorem endedThen {a b : List Char} (closed : a ≠ [] ∧ Ended a) : Ended (a ++ b) := by
  unfold Ended
  rw [List.head?_append_of_ne_nil _ closed.1]
  exact closed.2

theorem closesThen (closes : Closes d r) : Closes d (r ++ s) := by
  intro text written
  obtain ⟨a, b, front, -, rfl⟩ := writesAppend.mp written
  exact ⟨List.append_ne_nil_of_left_ne_nil (closes a front).1 b, endedThen (closes a front)⟩

theorem toldImp (told : Told d r s P) (imp : P → Q) : Told d r s Q :=
  fun a b behind rest first second ends stops same =>
    (told a b behind rest first second ends stops same).imp_right imp

theorem toldSame (r : Rendering) : Told d r r True :=
  fun _ _ _ _ first second _ _ _ => ⟨first.2.symm.trans second.2, trivial⟩

theorem toldFront (lexemes : List Lexeme) (told : Told d r s P) :
    Told d (of lexemes ++ r) (of lexemes ++ s) P := by
  intro a b behind rest first second ends stops same
  obtain ⟨_, x, front, inner, rfl⟩ := writesAppend.mp first
  obtain ⟨_, y, head, other, rfl⟩ := writesAppend.mp second
  obtain rfl := (writesOf.mp front).symm.trans (writesOf.mp head)
  rw [List.append_assoc, List.append_assoc, List.append_cancel_left_eq] at same
  obtain ⟨rfl, holds⟩ := told x y behind rest inner other ends stops same
  exact ⟨rfl, holds⟩

theorem toldThen (front : Told d r s P) (back : Told d t u Q) (closes : Closes d t) (shuts : Closes d u) :
    Told d (r ++ t) (s ++ u) (P ∧ Q) := by
  intro a b behind rest first second ends stops same
  obtain ⟨v, x, before, after, rfl⟩ := writesAppend.mp first
  obtain ⟨w, y, head, tail, rfl⟩ := writesAppend.mp second
  rw [List.append_assoc, List.append_assoc] at same
  obtain ⟨rfl, left⟩ := front v w _ _ before head (endedThen (closes x after)) (endedThen (shuts y tail)) same
  obtain ⟨rfl, right⟩ := back x y _ _ after tail ends stops (List.append_cancel_left same)
  exact ⟨rfl, left, right⟩

theorem parenCloses : Closes d (of [.closeParen]) := closesOf (c := ')') (by simp [Lexeme.text]) (by decide) []

theorem toldGrouped (group : Bool) (told : Told d r s P) : Told d (grouped group r) (grouped group s) P := by
  cases group with
  | false => exact told
  | true => exact toldImp (toldThen (toldFront _ told) (toldSame _) parenCloses parenCloses) And.left

theorem toldJoined {α : Type} {parts : List α} {f g : α → Rendering} {P : α → Prop}
    (each : ∀ p ∈ parts, Told d (f p) (g p) (P p)) :
    Told d (joinWith .comma (parts.map f)) (joinWith .comma (parts.map g)) (∀ p ∈ parts, P p) := by
  have comma (r : Rendering) : Closes d (of [.comma] ++ r) :=
    closesThen (closesOf (c := ',') (by simp [Lexeme.text]) (by decide) [])
  induction parts with
  | nil => exact toldImp (toldSame _) fun _ => by simp
  | cons p rest ih =>
    obtain ⟨first, others⟩ := List.forall_mem_cons.mp each
    cases rest with
    | nil => exact toldImp first fun holds => by simpa using holds
    | cons q rest =>
      simp only [List.map_cons, joinWith, appendAssoc]
      exact toldImp (toldThen first (toldFront _ (ih others)) (comma _) (comma _)) List.forall_mem_cons.mpr

def Copies (d : Dialect) (r s : Rendering) : Prop := ∀ text, r.Writes d text → s.Writes d text

theorem copiesResult (same : r.result d = s.result d) : Copies d r s := by
  intro text written
  have result : r.result d = .ok (String.ofList text) := resultWrites.mpr (by simpa using written)
  have other := resultWrites.mp (same ▸ result)
  rwa [String.toList_ofList] at other

theorem copiesSame (r : Rendering) : Copies d r r := fun _ => id

theorem copiesThen (front : Copies d r s) (back : Copies d t u) : Copies d (r ++ t) (s ++ u) := by
  intro text written
  obtain ⟨a, b, first, second, rfl⟩ := writesAppend.mp written
  exact writesAppend.mpr ⟨a, b, front a first, back b second, rfl⟩

theorem copiesGrouped (group : Bool) (copies : Copies d r s) : Copies d (grouped group r) (grouped group s) := by
  intro text written
  obtain ⟨inner, shown, rfl⟩ := writesGrouped.mp written
  exact writesGrouped.mpr ⟨inner, copies inner shown, rfl⟩

theorem copiesJoined {α : Type} {parts : List α} {f g : α → Rendering} {separator : Lexeme}
    (each : ∀ p ∈ parts, Copies d (f p) (g p)) :
    Copies d (joinWith separator (parts.map f)) (joinWith separator (parts.map g)) := by
  induction parts with
  | nil => exact copiesSame _
  | cons p rest ih =>
    obtain ⟨first, others⟩ := List.forall_mem_cons.mp each
    cases rest with
    | nil => exact first
    | cons q rest => exact copiesThen (copiesThen first (copiesSame _)) (ih others)

end

end Rendering

namespace Expr
open Rendering

inductive Retyped (R : Int64 → Binary64 → Prop) : Expr → Expr → Prop
  | same (e : Expr) : Retyped R e e
  | float {n : Int64} {x : Binary64} (related : R n x) : Retyped R (.value (.int n)) (.value (.float x))
  | unary (op : UnaryOp) {e f : Expr} (operand : Retyped R e f) : Retyped R (.unary op e) (.unary op f)
  | binary (op : BinaryOp) {l m r s : Expr} (left : Retyped R l m) (right : Retyped R r s) :
    Retyped R (.binary op l r) (.binary op m s)
  | call (f : Function) (parts : List (Expr × Expr)) (each : ∀ p ∈ parts, Retyped R p.1 p.2) :
    Retyped R (.call f (parts.map (·.1))) (.call f (parts.map (·.2)))
  | qualified (qualifier : String) {e f : Expr} (target : Retyped R e f) :
    Retyped R (.qualified qualifier e) (.qualified qualifier f)
  | member {e f : Expr} (item : Retyped R e f) (parts : List (Expr × Expr))
    (each : ∀ p ∈ parts, Retyped R p.1 p.2) :
    Retyped R (.member e (parts.map (·.1))) (.member f (parts.map (·.2)))

def WrittenAlike (d : Dialect) (n : Int64) (x : Binary64) : Prop :=
  (Expr.value (.float x)).compile d = (Expr.value (.int n)).compile d

def FiniteFloats (e f : Expr) : Prop := Retyped (fun _ x => x.isFinite = true) e f

section
variable {R : Int64 → Binary64 → Prop} {d : Dialect} {e f : Expr}

theorem retypedShape (retyped : Retyped R e f) : f.isNull = e.isNull ∧ f.isBinary = e.isBinary ∧
    (∀ op : BinaryOp, op.groupsLeft f = op.groupsLeft e) ∧
    ∀ op : BinaryOp, op.groupsRight f = op.groupsRight e := by
  cases retyped <;> exact ⟨rfl, rfl, fun _ => rfl, fun _ => rfl⟩

theorem retypedUnderSign (retyped : Retyped R e f) : f.groupsUnderSign = e.groupsUnderSign ∨
    ∃ n x, e = .value (.int n) ∧ f = .value (.float x) ∧ R n x := by
  cases retyped with
  | float related => exact .inr ⟨_, _, rfl, rfl, related⟩
  | _ => exact .inl rfl

theorem retypedTest (retyped : Retyped R e f) (op : BinaryOp) : op.nullTest? f = op.nullTest? e := by
  simp [BinaryOp.nullTest?, (retypedShape retyped).1]

theorem writtenAlike {n : Int64} {x : Binary64} (finite : x.isFinite = true) :
    WrittenAlike d n x ↔ Shortest.text x = toString n.toInt := by
  rw [WrittenAlike, compiledValue, compiledValue, Except.ok.injEq, Dialect.literal, Dialect.literal, if_pos finite]

theorem toldNumbers {n : Int64} {x : Binary64} (finite : x.isFinite = true) (g h : Bool) :
    Told d (grouped g ((Expr.value (.int n)).render d)) (grouped h ((Expr.value (.float x)).render d))
      (WrittenAlike d n x) := by
  have integer {text : List Char} (written : ((Expr.value (.int n)).render d).Writes d text) :
      text = (toString n.toInt).toList := by
    simpa [render, Lexeme.textAll, Lexeme.text, Dialect.literal, eq_comm] using writesOf.mp written
  have float {text : List Char} (written : ((Expr.value (.float x)).render d).Writes d text) :
      text = (Shortest.text x).toList := by
    simpa [render, Lexeme.textAll, Lexeme.text, Dialect.literal, finite, eq_comm] using writesOf.mp written
  have bare : Told d ((Expr.value (.int n)).render d) ((Expr.value (.float x)).render d)
      (WrittenAlike d n x) := by
    intro a b behind rest first second ends stops same
    obtain rfl := integer first
    obtain rfl := float second
    have alike := numbersEnd (integerCharacters n) (floatCharacters x) ends stops same
    exact ⟨alike, (writtenAlike finite).mpr (String.toList_inj.mp alike.symm)⟩
  -- With parentheses about one of the two only, the texts differ in their first character.
  intro a b behind rest first second ends stops same
  by_cases both : g = h
  · subst both
    exact toldGrouped g bare a b behind rest first second ends stops same
  · obtain ⟨inner, number, rfl⟩ := writesGrouped.mp first
    obtain ⟨other, another, rfl⟩ := writesGrouped.mp second
    obtain rfl := integer number
    obtain rfl := float another
    cases g with
    | true =>
      obtain rfl : h = false := by simpa using Ne.symm both
      exact absurd (congrArg List.head? same).symm (numberUnopened (floatCharacters x) stops)
    | false =>
      obtain rfl : h = true := by simpa using Ne.symm both
      exact absurd (congrArg List.head? same) (numberUnopened (integerCharacters n) ends)

theorem toldRetyped (retyped : FiniteFloats e f) :
    Told d (e.render d) (f.render d) (Retyped (WrittenAlike d) e f) := by
  have list {parts : List (Expr × Expr)}
      (each : ∀ p ∈ parts, Told d (p.1.render d) (p.2.render d) (Retyped (WrittenAlike d) p.1 p.2)) :
      Told d (joinWith .comma (renderAll d (parts.map (·.1))) ++ of [.closeParen])
        (joinWith .comma (renderAll d (parts.map (·.2))) ++ of [.closeParen])
        (∀ p ∈ parts, Retyped (WrittenAlike d) p.1 p.2) := by
    rw [renderAllMap, renderAllMap, List.map_map, List.map_map]
    exact toldImp (toldThen (toldJoined each) (toldSame _) parenCloses parenCloses) And.left
  induction retyped with
  | same e => exact toldImp (toldSame _) fun _ => .same e
  | float finite => exact toldImp (toldNumbers finite false false) .float
  | unary op operand ih =>
    refine toldFront _ ?_
    obtain same | ⟨n, x, rfl, rfl, finite⟩ := retypedUnderSign operand
    · rw [same]
      exact toldImp (toldGrouped _ ih) (.unary op)
    · exact toldImp (toldNumbers finite _ _) fun alike => .unary op (.float alike)
  | qualified qualifier target ih => exact toldImp (toldFront _ ih) (.qualified qualifier)
  | @binary op l m r s left right first second =>
    have operand := toldGrouped (op.groupsLeft l) first
    have alike := retypedTest right op
    rw [render, render, (retypedShape left).2.2.1, (retypedShape right).2.2.2, alike]
    cases test : op.nullTest? r with
    | some negated =>
      -- The right side is NULL in both trees and is not written.
      have closes : Closes d (of [.nullTest negated]) :=
        closesOf (c := ' ') (by cases negated <;> simp [Lexeme.text]) (by decide) []
      obtain ⟨rfl, -⟩ := nullTestOp test
      obtain ⟨rfl, -⟩ := nullTestOp (alike.trans test)
      exact toldImp (toldThen operand (toldSame _) closes closes) fun both => .binary op both.1 (.same null)
    | none =>
      have closes (r : Rendering) : Closes d (of [.operator op] ++ r) :=
        closesThen (closesOf (c := ' ') (by simp [Lexeme.text]) (by decide) [])
      have other := toldFront [.operator op] (toldGrouped (op.groupsRight r) second)
      exact toldImp (toldThen operand other (closes _) (closes _)) fun both => .binary op both.1 both.2
  | call f parts each ih =>
    have same : (parts.map (·.2)).length = (parts.map (·.1)).length := by simp
    rw [render, render, same]
    cases form : d.callForm f (parts.map (·.1)).length with
    | error err =>
      intro a b behind rest written
      exact absurd written.1 (Option.some_ne_none err)
    | ok called =>
      cases called with
      | word word =>
        obtain ⟨none, -⟩ | named := Dialect.calledForm form
        · obtain rfl : parts = [] := by simpa using none
          exact toldImp (toldSame _) fun _ => Retyped.call f [] (by simp)
        · simp at named
      | named name =>
        simp only [appendAssoc]
        exact toldImp (toldFront _ (list ih)) (Retyped.call f parts)
  | @member e f item parts each first ih =>
    have opened (r : Rendering) : Closes d (of [.isIn, .openParen] ++ r) :=
      closesThen (closesOf (c := ' ') (by simp [Lexeme.text]) (by decide) _)
    have operand := toldGrouped e.isBinary first
    rw [render, render, (retypedShape item).2.1]
    simp only [appendAssoc]
    refine toldImp (toldThen operand (toldFront _ (list ih)) (opened _) (opened _)) ?_
    exact fun both => .member both.1 parts both.2

theorem alikeUnderSign {n : Int64} {x : Binary64} (alike : WrittenAlike d n x) :
    (Expr.value (.float x)).groupsUnderSign = (Expr.value (.int n)).groupsUnderSign := by
  cases finite : x.isFinite with
  | true =>
    have signs := (Shortest.writtenLike.mp ((writtenAlike finite).mp alike)).1
    simp only [groupsUnderSign, finite, Bool.and_true]
    exact Bool.eq_iff_iff.mpr (by simpa using signs)
  | false =>
    rw [WrittenAlike, compiledValue, compiledValue, Except.ok.injEq, Dialect.literal, Dialect.literal,
      finite] at alike
    exact absurd alike.symm (integerNotNull n)

theorem copiesRetyped (retyped : Retyped (WrittenAlike d) e f) : Copies d (e.render d) (f.render d) := by
  have list {parts : List (Expr × Expr)} (each : ∀ p ∈ parts, Copies d (p.1.render d) (p.2.render d)) :
      Copies d (joinWith .comma (renderAll d (parts.map (·.1))))
        (joinWith .comma (renderAll d (parts.map (·.2)))) := by
    rw [renderAllMap, renderAllMap, List.map_map, List.map_map]
    exact copiesJoined each
  induction retyped with
  | same e => exact copiesSame _
  | float alike => exact copiesResult alike.symm
  | @unary op e f operand ih =>
    have group : f.groupsUnderSign = e.groupsUnderSign := by
      obtain same | ⟨n, x, rfl, rfl, alike⟩ := retypedUnderSign operand
      · exact same
      · exact alikeUnderSign alike
    rw [render, render, group]
    exact copiesThen (copiesSame _) (copiesGrouped _ ih)
  | qualified qualifier target ih => exact copiesThen (copiesSame _) ih
  | @binary op l m r s left right first second =>
    rw [render, render, (retypedShape left).2.2.1, (retypedShape right).2.2.2, retypedTest right]
    refine copiesThen (copiesGrouped _ first) ?_
    cases op.nullTest? r with
    | some negated => exact copiesSame _
    | none => exact copiesThen (copiesSame _) (copiesGrouped _ second)
  | call f parts each ih =>
    have same : (parts.map (·.2)).length = (parts.map (·.1)).length := by simp
    rw [render, render, same]
    cases d.callForm f (parts.map (·.1)).length with
    | error err => exact copiesSame _
    | ok called =>
      cases called with
      | word word => exact copiesSame _
      | named name => exact copiesThen (copiesThen (copiesSame _) (list ih)) (copiesSame _)
  | member item parts each first ih =>
    rw [render, render, (retypedShape item).2.1]
    exact copiesThen (copiesThen (copiesThen (copiesGrouped _ first) (copiesSame _)) (list ih)) (copiesSame _)

/-- A float is told from all integers unless it is a whole number below their limit, other than the zero with a
sign; and trees with floats instead of integers have different texts unless each of the floats is written like
the integer in its place. -/
theorem numberKindsTold (d : Dialect) :
    (∀ x : Binary64, x.isFinite = true →
      ((∀ n : Int64, (Expr.value (.float x)).compile d ≠ (Expr.value (.int n)).compile d) ↔
        ¬(x.IsWhole ∧ x.magnitude < 2 ^ 63 ∧ ¬(x.isNegative = true ∧ x.significand = 0)))) ∧
    ∀ (e f : Expr) (text : String), FiniteFloats e f → e.compile d = .ok text →
      (f.compile d ≠ .ok text ↔ ¬ Retyped (WrittenAlike d) e f) := by
  refine ⟨fun x finite => ?_, fun e f text retyped compiled => not_congr ⟨fun same => ?_, fun alike => ?_⟩⟩
  · rw [← Shortest.writtenAsInteger finite, not_exists]
    exact forall_congr' fun n => not_congr (writtenAlike finite)
  · have written := resultWrites.mp compiled
    have other := resultWrites.mp same
    exact (toldRetyped retyped _ _ [] [] written other (by simp [Ended]) (by simp [Ended]) rfl).2
  · exact resultWrites.mpr (copiesRetyped alike _ (resultWrites.mp compiled))

end

def halved (v : Value) : Expr := .binary .div (.value v) (.value (.int 2))

def sevenAndHalf : Binary64 := ⟨0x401e000000000000⟩

theorem fractionsTold :
    sevenAndHalf.isFinite = true ∧
    (Expr.value (.float sevenAndHalf)).compile .sqlite ≠ (Expr.value (.int 7)).compile .sqlite ∧
    FiniteFloats (halved (.int 7)) (halved (.float sevenAndHalf)) ∧
    (halved (.int 7)).compile .sqlite = .ok "7 / 2" ∧
    (halved (.float sevenAndHalf)).compile .sqlite ≠ .ok "7 / 2" := by
  have finite : sevenAndHalf.isFinite = true := by decide
  have retyped : FiniteFloats (halved (.int 7)) (halved (.float sevenAndHalf)) :=
    .binary .div (.float finite) (.same _)
  have compiled : (halved (.int 7)).compile .sqlite = .ok "7 / 2" := by decide
  obtain ⟨literals, trees⟩ := numberKindsTold .sqlite
  have part : ¬ sevenAndHalf.IsWhole := by
    rintro ⟨k, same⟩
    have significand : sevenAndHalf.significand = 15 * 2 ^ 49 := by decide +kernel
    have exponent : sevenAndHalf.exponent = -50 := by decide
    rw [Binary64.magnitude, significand, exponent] at same
    have doubled : (15 : ℚ) = (2 * k : Nat) := by
      push_cast
      rw [← same]
      norm_num
    have whole : 15 = 2 * k := by exact_mod_cast doubled
    omega
  have told := (literals sevenAndHalf finite).mpr (fun whole => part whole.1)
  have untyped : ¬ Retyped (WrittenAlike .sqlite) (halved (.int 7)) (halved (.float sevenAndHalf)) := by
    intro alike
    cases alike with
    | binary _ left _ => cases left with | float same => exact told 7 same
  exact ⟨finite, told 7, retyped, compiled, (trees _ _ _ retyped compiled).mpr untyped⟩

def seven : Binary64 := ⟨0x401c000000000000⟩

theorem quotientsMayCoincide :
    (halved (.int 7)).compile .sqlite = .ok "7 / 2" ∧ (halved (.float seven)).compile .sqlite = .ok "7 / 2" ∧
    (¬ ∀ (d : Dialect) (n : Int64) (x : Binary64), x.isFinite = true →
      (Expr.value (.float x)).compile d ≠ (Expr.value (.int n)).compile d) ∧
    ¬ ∀ (d : Dialect) (e f : Expr) (text : String), FiniteFloats e f → e ≠ f →
      e.compile d = .ok text → f.compile d ≠ .ok text := by
  have finite : seven.isFinite = true := by decide
  have integer : (halved (.int 7)).compile .sqlite = .ok "7 / 2" := by decide
  have float : (halved (.float seven)).compile .sqlite = .ok "7 / 2" := by decide +kernel
  refine ⟨integer, float, fun told => ?_, fun told => ?_⟩
  · have alike : (Expr.value (.float seven)).compile .sqlite = (Expr.value (.int 7)).compile .sqlite := by
      decide +kernel
    exact told .sqlite 7 seven finite alike
  · have retyped : FiniteFloats (halved (.int 7)) (halved (.float seven)) := .binary .div (.float finite) (.same _)
    exact told .sqlite _ _ "7 / 2" retyped (by simp [halved]) integer float

end Expr

end LiveSchema
