import LiveSchema.Definition
import LiveSchema.Proofs.ColumnForm
import LiveSchema.Proofs.DeclaredColumns
import LiveSchema.Proofs.ItemCuts
/-! A column's definition in SQLite as text, and the column that is read from it. Names stand in brackets
and are read up to the closing one; the constraints have a fixed order, and a default comes last. -/
namespace LiveSchema
open Text Catalog

def isEdge (c : Char) : Bool := "[]\"'\x60".toList.contains c || isBlank c

structure LegibleName (name : String) : Prop where
  nonempty : name ≠ ""
  closed : ']' ∉ name.toList
  whole : ',' ∉ name.toList
  first : ∀ c ∈ name.toList.head?, isEdge c = false
  last : ∀ c ∈ name.toList.getLast?, isEdge c = false

instance (name : String) : Decidable (LegibleName name) :=
  decidable_of_iff (name ≠ "" ∧ ']' ∉ name.toList ∧ ',' ∉ name.toList ∧
    (∀ c ∈ name.toList.head?, isEdge c = false) ∧ ∀ c ∈ name.toList.getLast?, isEdge c = false)
    ⟨fun ⟨nonempty, closed, whole, first, last⟩ => ⟨nonempty, closed, whole, first, last⟩,
      fun ⟨nonempty, closed, whole, first, last⟩ => ⟨nonempty, closed, whole, first, last⟩⟩

def isToken (c : Char) : Bool := !isBlank c && isInner c && c != ','

theorem tokenNotBlank {c : Char} (token : isToken c = true) : isBlank c = false := by
  simp only [isToken, Bool.and_eq_true, Bool.not_eq_true'] at token
  exact token.1.1

theorem lettersAreTokens {c : Char} (plain : c.isAlphanum = true ∨ c ∈ "+-._".toList) :
    isToken c = true := by
  have ascii : ∀ n < 128, (Char.ofNat n).isAlphanum = true ∨ Char.ofNat n ∈ "+-._".toList →
      isToken (Char.ofNat n) = true := by
    decide
  have small : c.toNat < 128 := by
    rcases plain with letter | sign
    · have value : c.toNat = c.val.toNat := rfl
      change (decide (c.val ≥ 'A'.val ∧ c.val ≤ 'Z'.val) || decide (c.val ≥ 'a'.val) && decide (c.val ≤ 'z'.val)
        || decide (c.val ≥ '0'.val) && decide (c.val ≤ '9'.val)) = true at letter
      simp only [ge_iff_le, Bool.or_eq_true, Bool.and_eq_true, decide_eq_true_eq,
        UInt32.le_iff_toNat_le] at letter
      have bounds : c.val.toNat ≤ 122 := by
        rcases letter with (⟨_, le⟩ | ⟨_, le⟩) | ⟨_, le⟩ <;> exact Nat.le_trans le (by decide)
      omega
    · have signs : ∀ sign ∈ "+-._".toList, sign.toNat < 128 := by decide
      exact signs c sign
  have here := ascii c.toNat small
  rw [Char.ofNat_toNat] at here
  exact here plain

inductive Nested : List Char → Prop where
  | nil : Nested []
  | char {c cs} (inner : isInner c = true) (rest : Nested cs) : Nested (c :: cs)
  | parens {inside cs} (inner : ∀ c ∈ inside, isInner c = true) (rest : Nested cs) :
    Nested ('(' :: inside ++ [')'] ++ cs)

inductive LegibleDefault : String → Prop where
  | token {s : String} (nonempty : s ≠ "") (token : ∀ c ∈ s.toList, isToken c = true) : LegibleDefault s
  | literal (s : String) : LegibleDefault (quoteDoubled s)
  | parens {inside} (nested : Nested inside) : LegibleDefault (String.ofList ('(' :: inside ++ [')']))

theorem plainIsLegible {s : String} (nonempty : s ≠ "")
    (plain : ∀ c ∈ s.toList, c.isAlphanum = true ∨ c ∈ "+-._".toList) : LegibleDefault s :=
  .token nonempty fun c member => lettersAreTokens (plain c member)

example : LegibleDefault "-1.5" := plainIsLegible (by decide) (by decide)

section Default
variable {s : String} {inside : List Char}

theorem nestedPasses (nested : Nested inside) (depth : Nat) : Passes (depth + 1) (depth + 1) inside := by
  have within {depth : Nat} {cs : List Char} (inner : ∀ c ∈ cs, isInner c = true) :
      Passes (depth + 1) (depth + 1) cs :=
    passesInner fun c member => ⟨inner c member, fun _ => Nat.succ_ne_zero depth⟩
  induction nested with
  | nil => exact passesNil
  | @char c cs inner _ ih => 
    have one : Passes (depth + 1) (depth + 1) [c] := within (by simpa using inner)
    exact passesAppend one ih
  | parens inner _ ih => exact passesAppend (passesParens (within inner)) ih

theorem nestedEnds (nested : Nested inside) : endsNested false (inside ++ [')']) = true := by
  have other {c : Char} (inner : isInner c = true) : c ≠ '(' ∧ c ≠ ')' :=
    ⟨fun same => by subst same; contradiction, fun same => by subst same; contradiction⟩
  induction nested with
  | nil => rfl
  | @char c cs inner _ ih =>
    have notOpen : (c == '(') = false := beq_false_of_ne (other inner).1
    rw [List.cons_append, endsNested, if_neg (other inner).2, notOpen, ih]
  | @parens inside cs inner _ ih =>
    have through : endsNested true (inside ++ ([')'] ++ (cs ++ [')']))) = true := by
      induction inside with
      | nil => simpa [endsNested] using ih
      | cons c inside step =>
        have here := other (inner c List.mem_cons_self)
        have later := step fun d member => inner d (List.mem_cons_of_mem c member)
        have notClose : (c != ')') = true := bne_iff_ne.mpr here.2
        rw [List.cons_append, endsNested, if_neg here.1, notClose, later]
    simpa [endsNested] using through

theorem literalEnds (cs : List Char) : endsLiteral (doubleQuotes cs ++ ['\'']) = true := by
  fun_induction doubleQuotes cs with
  | case1 => rfl
  | case2 cs ih => simpa [endsLiteral] using ih
  | case3 c cs notQuote ih =>
    have other : c ≠ '\'' := fun same => notQuote same
    simpa [endsLiteral, other] using ih

theorem literalText (s : String) : (quoteDoubled s).toList = '\'' :: doubleQuotes s.toList ++ ['\''] := by
  simp [quoteDoubled]

theorem defaultPasses (legible : LegibleDefault s) : Passes 0 0 s.toList := by
  cases legible with
  | token _ token =>
    refine passesInner fun c member => ?_
    have here := token c member
    simp only [isToken, Bool.and_eq_true, bne_iff_ne] at here
    exact ⟨here.1.2, fun comma => absurd comma here.2⟩
  | literal s => exact literalText s ▸ passesLiteral _
  | parens nested => exact String.toList_ofList ▸ passesParens (nestedPasses nested 0)

theorem defaultAccepted (legible : LegibleDefault s) : isDefault s.toList = true := by
  cases legible with
  | token nonempty token =>
    have plain : ∀ c ∈ s.toList, (!isBlank c && !"'\"(".toList.contains c) = true := by
      intro c member
      have here := token c member
      have differs (q : Char) (other : isToken q = false) : c ≠ q := by
        rintro rfl
        rw [here] at other
        contradiction
      simp [tokenNotBlank here, differs '\'' (by decide), differs '"' (by decide), differs '(' (by decide)]
    unfold isDefault
    split
    · exact absurd (String.toList_inj.mp (by assumption)) nonempty
    · rename_i same
      exact absurd (plain '\'' (same ▸ List.mem_cons_self)) (by decide)
    · rename_i same
      exact absurd (plain '"' (same ▸ List.mem_cons_self)) (by decide)
    · rename_i same
      exact absurd (plain '(' (same ▸ List.mem_cons_self)) (by decide)
    · exact List.all_eq_true.mpr plain
  | literal s => exact literalText s ▸ literalEnds _
  | parens nested => exact String.toList_ofList ▸ nestedEnds nested

theorem defaultEdges (legible : LegibleDefault s) :
    (∀ c ∈ s.toList.head?, isBlank c = false) ∧ ∀ c ∈ s.toList.getLast?, isBlank c = false :=
  defaultEnds (defaultAccepted legible)

end Default

namespace Column

def typeText (c : Column) : String := (c.resolvedType .sqlite).toOption.getD ""

def definitionText (c : Column) : String := bracket c.name ++ " " ++ c.typeText ++ c.constraints

def stored (c : Column) : Column :=
  { introspected c.name c.typeText with
    primaryKey := c.primaryKey
    unique := c.unique
    autoIncrement := c.autoIncrement
    notNull := c.notNull
    default := c.default }

theorem typeResolved (c : Column) : c.resolvedType .sqlite = .ok c.typeText := by
  unfold typeText resolvedType
  split
  · split <;> rfl
  · rfl

theorem definitionWritten (c : Column) : c.definition .sqlite = .ok c.definitionText := by
  rw [definition, typeResolved]
  rfl

structure Formed (c : Column) : Prop where
  named : c.name ≠ ""
  typed : c.typeText.toList ≠ []
  solid : ∀ t ∈ c.typeText.toList, isBlank t = false
  default : ∀ s ∈ c.default, isDefault s.toList = true

structure Legible (c : Column) : Prop where
  declared : c.IsDeclared
  name : LegibleName c.name
  default : ∀ s ∈ c.default, LegibleDefault s

section
variable {c : Column}

theorem typeTokens (declared : c.IsDeclared) :
    c.typeText.toList ≠ [] ∧ ∀ t ∈ c.typeText.toList, isToken t = true := by
  obtain ⟨⟨type, typed⟩, generic⟩ := declared
  have text : c.typeText = ((Dialect.sqlite.typeName type).toOption.getD "") := by
    simp [typeText, resolvedType, typed, generic]
  rw [text]
  cases type <;> decide

theorem constraintsText (c : Column) : c.constraints.toList =
    (if c.primaryKey then " PRIMARY KEY" else "").toList ++
      ((if c.autoIncrement then " AUTOINCREMENT" else "").toList ++
        ((if c.unique then " UNIQUE" else "").toList ++
          ((if c.notNull then " NOT NULL" else "").toList ++
            (c.default.elim "" (" DEFAULT " ++ ·)).toList))) := by
  simp only [constraints, String.toList_append, List.append_assoc]

theorem flagWritten {keywords : List String} {text : String} {behind : List Char → Prop} {rest : List Char}
    (spaced : Spaced keywords text.toList) (holds : behind rest) (b : Bool) :
    Flagged keywords behind b ((if b then text else "").toList ++ rest) := by
  cases b with
  | true => exact .given spaced holds
  | false => exact .absent holds

theorem defaultWritten (accepted : ∀ s ∈ c.default, isDefault s.toList = true) :
    DefaultForm c.default (c.default.elim "" (" DEFAULT " ++ ·)).toList := by
  cases given : c.default with
  | none => exact .absent fun t none => nomatch none
  | some s =>
    have keyword : Spaced ["default"] " DEFAULT".toList := spacedRead (by decide) rfl
    have text : (" DEFAULT " ++ s).toList = " DEFAULT".toList ++ ([' '] ++ (s.toList ++ [])) := by
      simp [String.toList_append]
    have apart : Gap [' '] := ⟨List.cons_ne_nil _ _, by decide⟩
    have form := DefaultForm.given keyword apart (accepted s given) (List.forall_mem_nil _)
    rw [String.ofList_toList] at form
    rw [Option.elim_some, text]
    exact form

theorem constraintsWritten (accepted : ∀ s ∈ c.default, isDefault s.toList = true) :
    TailForm c c.constraints.toList := by
  rw [constraintsText]
  refine flagWritten (spacedRead (by decide) rfl) ?_ c.primaryKey
  refine flagWritten (spacedRead (by decide) rfl) ?_ c.autoIncrement
  refine flagWritten (spacedRead (by decide) rfl) ?_ c.unique
  exact flagWritten (spacedRead (by decide) rfl) (defaultWritten accepted) c.notNull

theorem definitionForm (formed : c.Formed) (closed : ']' ∉ c.name.toList) :
    ColumnForm c.definitionText.toList c.stored := by
  have filled : c.name.toList ≠ [] := by simpa using formed.named
  have text : c.definitionText.toList = '[' :: (c.name.toList ++ [']']) ++
      ([' '] ++ (c.typeText.toList ++ c.constraints.toList)) := by
    simp [definitionText, bracket, List.append_assoc]
  rw [text]
  refine .item (.quoted rfl filled closed) ⟨List.cons_ne_nil _ _, by decide⟩ formed.typed formed.solid
    (constraintsWritten formed.default) ?_
  exact ⟨String.ofList_toList.symm, String.ofList_toList.symm, rfl, rfl⟩

theorem columnWritten (declared : c.IsDeclared) (named : c.name ≠ "") (closed : ']' ∉ c.name.toList)
    (legible : ∀ s ∈ c.default, LegibleDefault s) : ColumnForm c.definitionText.toList c.stored := by
  obtain ⟨typed, tokens⟩ := typeTokens declared
  have solid : ∀ t ∈ c.typeText.toList, isBlank t = false := fun t member => tokenNotBlank (tokens t member)
  exact definitionForm ⟨named, typed, solid, fun s given => defaultAccepted (legible s given)⟩ closed

theorem columnRead (legible : c.Legible) : column? c.definitionText.toList = some c.stored :=
  columnForm.mpr (columnWritten legible.declared legible.name.nonempty legible.name.closed legible.default)

theorem flagPasses (text : String) (plain : ∀ t ∈ text.toList, isInner t = true ∧ t ≠ ',')
    (b : Bool) : Passes 0 0 (if b then text else "").toList := by
  cases b with
  | true => exact passesInner fun t member => ⟨(plain t member).1, fun comma => absurd comma (plain t member).2⟩
  | false => exact passesNil

theorem constraintsPass (legible : ∀ s ∈ c.default, LegibleDefault s) :
    Passes 0 0 c.constraints.toList := by
  rw [constraintsText]
  refine passesAppend (flagPasses _ (by decide) _) <| passesAppend (flagPasses _ (by decide) _) <|
    passesAppend (flagPasses _ (by decide) _) <| passesAppend (flagPasses _ (by decide) _) ?_
  cases given : c.default with
  | none => exact passesNil
  | some s =>
    rw [Option.elim_some, String.toList_append]
    exact passesAppend (flagPasses " DEFAULT " (by decide) true)
      (defaultPasses (legible s given))

theorem definitionPasses (legible : c.Legible) : Passes 0 0 c.definitionText.toList := by
  have text : c.definitionText.toList =
      ('[' :: c.name.toList ++ [']']) ++ ([' '] ++ (c.typeText.toList ++ c.constraints.toList)) := by
    simp [definitionText, bracket, List.append_assoc]
  have type : Passes 0 0 c.typeText.toList := passesInner fun t member => by
    have token := (typeTokens legible.declared).2 t member
    simp only [isToken, Bool.and_eq_true, bne_iff_ne] at token
    exact ⟨token.1.2, fun comma => absurd comma token.2⟩
  rw [text]
  exact passesAppend (passesBracketed legible.name.closed) <|
    passesAppend (passesInner (by decide)) <| passesAppend type (constraintsPass legible.default)

theorem definitionTrimmed (legible : c.Legible) :
    trim c.definitionText.toList = c.definitionText.toList := by
  have flag {text : String} (last : ∀ t ∈ text.toList.getLast?, isBlank t = false) (b : Bool) :
      ∀ t ∈ (if b then text else "").toList.getLast?, isBlank t = false := by
    cases b with
    | true => exact last
    | false => exact fun t none => nomatch none
  have default : ∀ t ∈ (c.default.elim "" (" DEFAULT " ++ ·)).toList.getLast?, isBlank t = false := by
    cases given : c.default with
    | none => exact fun t none => nomatch none
    | some s =>
      have form := legible.default s given
      have filled : s.toList ≠ [] := by
        intro empty
        have accepted := defaultAccepted form
        rw [empty] at accepted
        contradiction
      rw [Option.elim_some, String.toList_append]
      exact lastRight filled (defaultEdges form).2
  have constraints : ∀ t ∈ c.constraints.toList.getLast?, isBlank t = false := by
    rw [constraintsText]
    exact lastAppend (flag (by decide) _) <| lastAppend (flag (by decide) _) <|
      lastAppend (flag (by decide) _) <| lastAppend (flag (by decide) _) default
  have type : ∀ t ∈ c.typeText.toList.getLast?, isBlank t = false := fun t last =>
    tokenNotBlank ((typeTokens legible.declared).2 t (List.mem_of_mem_getLast? last))
  have text : c.definitionText.toList =
      ('[' :: c.name.toList ++ [']', ' ']) ++ (c.typeText.toList ++ c.constraints.toList) := by
    simp [definitionText, bracket, List.append_assoc]
  rw [text]
  refine trimByKeeps (by simp; decide) (lastRight ?_ (lastAppend type constraints))
  simp [(typeTokens legible.declared).1]
end

end Column

end LiveSchema
