import LiveSchema.Proofs.LiteralText
import LiveSchema.Proofs.Spelling
/-! Comparisons with what is written as NULL. A comparison for equality becomes a test for NULL where the right
side is the NULL value; a float that is no number is written as NULL too, but compared like any other value. -/
namespace LiveSchema

theorem integerNotNull (n : Int64) : toString n.toInt ≠ "NULL" := by
  intro same
  obtain ⟨c, cs, shown, start⟩ := integerStart n
  rw [same] at shown
  obtain ⟨rfl, -⟩ := List.cons.inj shown
  rcases start with sign | digit <;> contradiction

theorem Shortest.textNotNull (x : Binary64) : Shortest.text x ≠ "NULL" := by
  intro same
  have member : 'N' ∈ (Shortest.text x).toList := same ▸ List.mem_cons_self
  rw [Shortest.text, String.toList_ofList] at member
  rcases List.mem_append.mp member with sign | shown
  · split at sign <;> simp at sign
  · rcases Shortest.decimalCharacters _ _ shown with digit | point <;> contradiction

theorem Dialect.nullText {d : Dialect} {v : Value} :
    d.literal v = "NULL" ↔ v = .null ∨ ∃ x, v = .float x ∧ x.isFinite = false := by
  constructor
  · intro same
    have starts (c : Char) (shown : (d.literal v).toList.head? = some c) : c = 'N' := by
      rw [same] at shown
      exact (Option.some.inj shown).symm
    cases v with
    | null => exact .inl rfl
    | bool b =>
      cases b with
      | false => exact absurd (starts 'F' (by simp [literal])) (by decide)
      | true => exact absurd (starts 'T' (by simp [literal])) (by decide)
    | int n => exact absurd same (integerNotNull n)
    | float x =>
      cases finite : x.isFinite with
      | false => exact .inr ⟨x, rfl, finite⟩
      | true =>
        rw [literal, if_pos finite] at same
        exact absurd same (Shortest.textNotNull x)
    | text s =>
      have quoted : (d.literal (.text s)).toList.head? = some '\'' := by
        cases d <;> simp [literal, stringLiteral, Text.quoteDoubled, Text.quoteEscaped]
      exact absurd (starts '\'' quoted) (by decide)
    | blob bytes => exact absurd (starts 'X' (by simp [literal])) (by decide)
    | timestamp t => exact absurd (starts '\'' (by simp [literal])) (by decide)
  · rintro (rfl | ⟨x, rfl, infinite⟩)
    · rfl
    · simp [literal, infinite]

namespace Expr

def comparedText (l : Expr) (text : String) : String :=
  if BinaryOp.equals.groupsLeft l then "(" ++ text ++ ")" else text

section
variable {d : Dialect} {l : Expr} {left : String} {op : BinaryOp}

theorem comparedWritten (written : l.compile d = .ok left) (comparison : op = .equals ∨ op = .notEqual) :
    (Rendering.grouped (op.groupsLeft l) (l.render d)).Writes d (comparedText l left).toList := by
  have alike : op.groupsLeft l = BinaryOp.equals.groupsLeft l := by
    rcases comparison with rfl | rfl
    · rfl
    · cases l <;> rfl
  rw [alike, comparedText]
  refine Rendering.writesGrouped.mpr ⟨_, Rendering.resultWrites.mp written, ?_⟩
  cases BinaryOp.equals.groupsLeft l <;> simp [inParentheses]

theorem testedCompiled (written : l.compile d = .ok left) {r : Expr} (negated : Bool)
    (comparison : op = .equals ∨ op = .notEqual) (test : op.nullTest? r = some negated) :
    (Expr.binary op l r).compile d = .ok (comparedText l left ++ (Lexeme.nullTest negated).text d) := by
  rw [compile, Rendering.resultWrites, render, test, Rendering.writesAppend]
  exact ⟨_, _, comparedWritten written comparison, Rendering.writesOf.mpr rfl, by simp [Lexeme.textAll]⟩

theorem comparedCompiled (written : l.compile d = .ok left) {v : Value}
    (comparison : op = .equals ∨ op = .notEqual) (other : v.isNull = false) :
    (Expr.binary op l (.value v)).compile d =
      .ok (comparedText l left ++ " " ++ op.symbol ++ " " ++ d.literal v) := by
  have untested : op.nullTest? (.value v) = none := by simp [BinaryOp.nullTest?, isNull, other]
  have right : Rendering.grouped (op.groupsRight (.value v)) ((Expr.value v).render d) = .of [.literal v] := rfl
  rw [compile, Rendering.resultWrites, render, untested, right, Rendering.writesAppend]
  refine ⟨_, _, comparedWritten written comparison, Rendering.writesAppend.mpr
    ⟨_, _, Rendering.writesOf.mpr rfl, Rendering.writesOf.mpr rfl, rfl⟩, ?_⟩
  simp [Lexeme.textAll, Lexeme.text]

theorem nullComparisonsTested (written : l.compile d = .ok left) (v : Value) :
    (((Expr.value v).compile d = .ok "NULL" →
        (Expr.binary .equals l (.value v)).compile d = .ok (comparedText l left ++ " IS NULL") ∧
        (Expr.binary .notEqual l (.value v)).compile d = .ok (comparedText l left ++ " IS NOT NULL")) ↔
      ∀ x, v = .float x → x.isFinite = true) ∧
    ∀ x, v = .float x → x.isFinite = false →
      (Expr.binary .equals l (.value v)).compile d = .ok (comparedText l left ++ " = NULL") ∧
      (Expr.binary .notEqual l (.value v)).compile d = .ok (comparedText l left ++ " <> NULL") := by
  have bare (x : Binary64) (infinite : x.isFinite = false) :
      (Expr.binary .equals l (.value (.float x))).compile d = .ok (comparedText l left ++ " = NULL") ∧
      (Expr.binary .notEqual l (.value (.float x))).compile d = .ok (comparedText l left ++ " <> NULL") := by
    have null : d.literal (.float x) = "NULL" := Dialect.nullText.mpr (.inr ⟨x, rfl, infinite⟩)
    rw [comparedCompiled written (.inl rfl) rfl, comparedCompiled written (.inr rfl) rfl, null]
    simp [BinaryOp.symbol, String.append_assoc]
  refine ⟨⟨fun tested x same => ?_, fun finite null => ?_⟩, fun x same infinite => same ▸ bare x infinite⟩
  · subst same
    refine Bool.of_not_eq_false fun infinite => ?_
    have null : d.literal (.float x) = "NULL" := Dialect.nullText.mpr (.inr ⟨x, rfl, infinite⟩)
    have told := (tested (by rw [compiledValue, null])).1
    rw [(bare x infinite).1] at told
    have behind := (String.append_right_inj _).mp (Except.ok.inj told)
    exact absurd behind (by decide)
  · rw [compiledValue] at null
    obtain rfl | ⟨x, rfl, infinite⟩ := Dialect.nullText.mp (Except.ok.inj null)
    · exact ⟨testedCompiled written false (.inl rfl) rfl, testedCompiled written true (.inr rfl) rfl⟩
    · rw [finite x rfl] at infinite
      contradiction

end

def eitherDue : Expr := .binary .or (.column "due") (.column "paid")

theorem eitherDueTested :
    eitherDue.compile .sqlServer = .ok "[due] OR [paid]" ∧
      (Expr.value .null).compile .sqlServer = .ok "NULL" ∧
      (Expr.binary .equals eitherDue null).compile .sqlServer = .ok "([due] OR [paid]) IS NULL" ∧
      (Expr.binary .notEqual eitherDue null).compile .sqlServer = .ok "([due] OR [paid]) IS NOT NULL" := by
  have written : eitherDue.compile .sqlServer = .ok "[due] OR [paid]" := rfl
  have null : (Expr.value .null).compile .sqlServer = .ok "NULL" := rfl
  obtain ⟨equals, notEqual⟩ :=
    (nullComparisonsTested written .null).1.mpr (fun x same => nomatch same) null
  exact ⟨written, null, equals, notEqual⟩

/-- What is no number is written as NULL, and as that it equals no value of the column. -/
def notANumber : Binary64 := ⟨0x7ff8000000000000⟩

theorem comparisonMayMatchNothing :
    (Expr.value (.float notANumber)).compile .sqlite = .ok "NULL" ∧
    (Expr.binary .equals (.column "rate") (.value (.float notANumber))).compile .sqlite = .ok "[rate] = NULL" ∧
    ¬ ∀ (d : Dialect) (l : Expr) (left : String) (v : Value), l.compile d = .ok left →
      (Expr.value v).compile d = .ok "NULL" →
      (Expr.binary .equals l (.value v)).compile d = .ok (comparedText l left ++ " IS NULL") ∧
      (Expr.binary .notEqual l (.value v)).compile d = .ok (comparedText l left ++ " IS NOT NULL") := by
  have null : (Expr.value (.float notANumber)).compile .sqlite = .ok "NULL" := by decide
  have bare : (Expr.binary .equals (.column "rate") (.value (.float notANumber))).compile .sqlite =
    .ok "[rate] = NULL" := by decide
  refine ⟨null, bare, fun tested => ?_⟩
  have told := (tested .sqlite (.column "rate") "[rate]" (.float notANumber) rfl null).1
  rw [bare] at told
  exact absurd told (by decide)

end Expr

end LiveSchema
