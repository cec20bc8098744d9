import LiveSchema.Proofs.LiteralText
import LiveSchema.Proofs.Spelling
import Mathlib.Data.List.Chain
/-! Where two minus signs meet. They would begin a comment. A minus stands at the start of negative numbers
and of negated operands; an operand that begins with one is put in parentheses behind a sign, but an IN is
not, and what begins its item then meets the sign. -/
namespace LiveSchema

def MinusesApart (text : List Char) : Prop := text.IsChain fun a b => a = '-' → b ≠ '-'

theorem minusesApartIff (text : List Char) : MinusesApart text ↔ ¬ ['-', '-'] <:+: text := by
  rw [MinusesApart, List.isChain_iff_forall_rel_of_append_cons_cons]
  constructor
  · rintro apart ⟨before, after, rfl⟩
    have shown : before ++ ['-', '-'] ++ after = before ++ '-' :: '-' :: after := by simp
    exact apart shown rfl rfl
  · rintro none a b before after rfl rfl rfl
    exact none ⟨before, after, by simp⟩

section
variable {a b text : List Char}

theorem apartCons {c : Char} (other : c ≠ '-') : MinusesApart (c :: text) ↔ MinusesApart text := by
  simp [MinusesApart, List.isChain_cons, other]

theorem apartMinus : MinusesApart ('-' :: text) ↔ text.head? ≠ some '-' ∧ MinusesApart text := by
  rw [MinusesApart, List.isChain_cons]
  exact and_congr_left fun _ => ⟨fun apart starts => apart '-' starts rfl rfl,
    fun other _ starts _ same => other (same ▸ starts)⟩

theorem apartAppend (starts : b.head? ≠ some '-') :
    MinusesApart (a ++ b) ↔ MinusesApart a ∧ MinusesApart b := by
  rw [MinusesApart, List.isChain_append, ← and_assoc]
  exact and_iff_left fun _ _ _ top _ same => starts (same ▸ top)

theorem apartBehind (lacks : '-' ∉ a) : MinusesApart (a ++ b) ↔ MinusesApart b := by
  induction a with
  | nil => rfl
  | cons c rest ih =>
    simp only [List.mem_cons, not_or] at lacks
    rw [List.cons_append, apartCons (Ne.symm lacks.1), ih lacks.2]

theorem apartLacks (lacks : '-' ∉ text) : MinusesApart text := by
  rw [← List.append_nil text, apartBehind lacks]
  exact .nil

theorem startLacks (lacks : '-' ∉ a) : a.head? ≠ some '-' :=
  fun starts => lacks (List.mem_of_mem_head? starts)

theorem headFollowed (starts : b.head? ≠ some '-') : (a ++ b).head? = some '-' ↔ a.head? = some '-' := by
  cases a with
  | nil => simpa using starts
  | cons c rest => rfl

theorem apartParentheses (group : Bool) : MinusesApart (inParentheses group text) ↔ MinusesApart text := by
  cases group with
  | false => rfl
  | true =>
    rw [inParentheses, if_pos rfl, apartCons (by decide), apartAppend (by decide)]
    exact and_iff_left (apartLacks (by decide))

theorem headOperand {group begins : Bool} (starts : b.head? ≠ some '-')
    (same : a.head? = some '-' ↔ begins = true) :
    (inParentheses group a ++ b).head? = some '-' ↔ (!group && begins) = true := by
  rw [headFollowed starts]
  cases group <;> simp [inParentheses, same]

theorem apartJoined (parts : List (List Char)) :
    MinusesApart ([','].intercalate parts) ↔ ∀ part ∈ parts, MinusesApart part := by
  induction parts with
  | nil => simpa using apartLacks (by simp)
  | cons part rest ih =>
    cases rest with
    | nil => simp
    | cons next rest =>
      rw [List.forall_mem_cons, ← ih, List.intercalate_cons_cons, List.append_assoc,
        apartAppend (by simp), List.singleton_append, apartCons (by decide)]

end

theorem digitsLack {digits : List Char} (all : ∀ c ∈ digits, c.isDigit = true) : '-' ∉ digits :=
  fun minus => by simpa using all '-' minus

theorem timestampApart (t : Timestamp) : MinusesApart t.chars := by
  have lacks (width n : Nat) : '-' ∉ Timestamp.padded width n := digitsLack (zerosBefore _ n)
  have behind (width n : Nat) (rest : List Char) :
      MinusesApart ('-' :: (Timestamp.padded width n ++ rest)) ↔ MinusesApart rest := by
    have some_ : Timestamp.padded width n ≠ [] :=
      List.append_ne_nil_of_right_ne_nil _ Nat.toDigits_ne_nil
    rw [apartMinus, apartBehind (lacks width n), List.head?_append_of_ne_nil _ some_]
    exact and_iff_right (startLacks (lacks width n))
  obtain ⟨sign, is, written⟩ := Timestamp.yearSigned t.year
  have year (rest : List Char) :
      MinusesApart (sign ++ (Timestamp.padded 4 t.year.natAbs ++ rest)) ↔ MinusesApart rest := by
    simp only [List.mem_cons, List.not_mem_nil, or_false] at is
    rcases is with rfl | rfl | rfl
    · exact apartBehind (lacks _ _)
    · exact behind _ _ rest
    · exact (apartCons (by decide)).trans (apartBehind (lacks _ _))
  rw [Timestamp.chars, written]
  simp only [List.append_assoc, List.cons_append]
  rw [year, behind, behind, apartCons (by decide), apartBehind (lacks _ _), apartCons (by decide),
    apartBehind (lacks _ _), apartCons (by decide)]
  exact apartLacks (lacks _ _)

theorem signedApart {negative : Prop} [Decidable negative] {digits : List Char} (lacks : '-' ∉ digits) :
    MinusesApart ((if negative then ['-'] else []) ++ digits) ∧
      (((if negative then ['-'] else []) ++ digits).head? = some '-' ↔ negative) := by
  by_cases is : negative
  · rw [if_pos is, List.singleton_append, apartMinus]
    exact ⟨⟨startLacks lacks, apartLacks lacks⟩, by simp [is]⟩
  · rw [if_neg is, List.nil_append]
    exact ⟨apartLacks lacks, by simp [is, startLacks lacks]⟩

theorem quotedLacks (d : Dialect) {s : String} (lacks : '-' ∉ s.toList) : '-' ∉ (d.stringLiteral s).toList := by
  cases d with
  | sqlite =>
    have inner : '-' ∉ Text.doubleQuotes s.toList := mt (Text.doubledCharacters _ '-') lacks
    simp [Dialect.stringLiteral, Text.quoteDoubled, inner]
  | sqlServer =>
    have inner : '-' ∉ s.toList.flatMap Text.escapeChar := fun shown =>
      (Text.escapedCharacters _ '-' shown).elim lacks (by decide)
    simp only [Dialect.stringLiteral, Text.quoteEscaped, String.toList_append, String.toList_ofList,
      List.mem_append, inner, or_false, not_or]
    decide

namespace Expr

def beginsWithMinus : Expr → Bool
  | .value (.int n) => n < 0
  | .value (.float x) => x.isNegative && x.isFinite
  | .unary op _ => op == .negate
  | .binary op l _ => !op.groupsLeft l && l.beginsWithMinus
  | .member item _ => !item.isBinary && item.beginsWithMinus
  | _ => false

def meetsMinus : Expr → Bool
  | .unary .negate (.member item candidates) => (Expr.member item candidates).beginsWithMinus
  | _ => false

theorem literalMinus (d : Dialect) {v : Value} (lacks : (Expr.value v).Lacks '-') :
    MinusesApart (d.literal v).toList ∧
      ((d.literal v).toList.head? = some '-' ↔ (Expr.value v).beginsWithMinus = true) := by
  have unsigned {text : String} (lacks : '-' ∉ text.toList) :
      MinusesApart text.toList ∧ (text.toList.head? = some '-' ↔ false = true) :=
    ⟨apartLacks lacks, by simp [startLacks lacks]⟩
  cases v with
  | null => exact @unsigned "NULL" (by decide)
  | bool b =>
    cases b with
    | false => exact @unsigned "FALSE" (by decide)
    | true => exact @unsigned "TRUE" (by decide)
  | int n =>
    rw [Dialect.literal, integerText, beginsWithMinus, decide_eq_true_iff]
    exact signedApart (digitsLack (Lexeme.digitsOf _))
  | float x =>
    rw [Dialect.literal, beginsWithMinus]
    cases x.isFinite with
    | false =>
      rw [if_neg Bool.false_ne_true, Bool.and_false]
      exact @unsigned "NULL" (by decide)
    | true =>
      rw [if_pos rfl, Bool.and_true, Shortest.text, String.toList_ofList]
      refine signedApart fun minus => ?_
      have shown := Shortest.decimalCharacters _ '-' minus
      contradiction
  | text s => exact unsigned (quotedLacks d (ownText lacks s List.mem_cons_self))
  | blob bytes =>
    have inner : '-' ∉ bytes.flatMap Text.hexByte := fun minus => by
      simpa using Text.hexCharacters bytes '-' minus
    have whole : '-' ∉ (d.literal (.blob bytes)).toList := by simp [Dialect.literal, Text.hexBytes, inner]
    exact unsigned whole
  | timestamp t =>
    have written : (d.literal (.timestamp t)).toList = '\'' :: (t.chars ++ ['\'']) := by
      simp [Dialect.literal, Timestamp.text]
    rw [written, apartCons (by decide), apartAppend (by decide)]
    exact ⟨⟨timestampApart t, apartLacks (by decide)⟩, by simp [beginsWithMinus]⟩

theorem nullTestStart (d : Dialect) (negated : Bool) :
    ((Lexeme.nullTest negated).text d).toList.head? ≠ some '-' := by
  cases negated <;> simp [Lexeme.text]

theorem wordsLack : ∀ word ∈ Dialect.functionWords, '-' ∉ word.toList := by decide

theorem namesLack : ∀ name ∈ Dialect.functionNames, '-' ∉ name.toList := by decide

theorem firstMinus {d : Dialect} {e : Expr} {text : List Char} (spelled : Spelled d e text)
    (lacks : e.Lacks '-') : text.head? = some '-' ↔ e.beginsWithMinus = true := by
  have never {a : List Char} (lacks : '-' ∉ a) : a.head? = some '-' ↔ false = true := by
    simpa using startLacks lacks
  induction spelled with
  | value v => exact (literalMinus d lacks).2
  | unary op operand ih => cases op <;> simp [UnaryOp.symbol, beginsWithMinus]
  | nullTest test left ih =>
    obtain ⟨-, lacksLeft, -⟩ := everywhereBinary.mp lacks
    exact headOperand (nullTestStart d _) (ih lacksLeft)
  | binary test left right ihl ihr =>
    obtain ⟨-, lacksLeft, -⟩ := everywhereBinary.mp lacks
    exact headOperand (by simp) (ihl lacksLeft)
  | word f fixed => exact never (wordsLack _ fixed)
  | named f fixed parts each ih => exact (headFollowed (by simp)).trans (never (namesLack _ fixed))
  | parameter p => cases p <;> simp [Dialect.placeholder, beginsWithMinus]
  | field table column => simp [beginsWithMinus]
  | column name => simp [beginsWithMinus]
  | qualified qualifier whole ih =>
    obtain ⟨own, -⟩ := everywhereQualified.mp lacks
    exact (headFollowed (by simp)).trans (never (own qualifier List.mem_cons_self))
  | member parts first each ih =>
    obtain ⟨-, lacksItem, -⟩ := everywhereMember.mp lacks
    rw [List.append_assoc, List.append_assoc]
    exact headOperand (by simp) (ih lacksItem)
  | subquery command => simp [beginsWithMinus]
  | table name => exact never (ownText lacks name List.mem_cons_self)

theorem bareMinus (e : Expr) :
    (!e.groupsUnderSign && e.beginsWithMinus) = (Expr.unary .negate e).meetsMinus := by
  cases e with
  | value v =>
    cases v with
    | int n => simp [groupsUnderSign, beginsWithMinus, meetsMinus]
    | float x => simp [groupsUnderSign, beginsWithMinus, meetsMinus, Bool.and_comm]
    | _ => rfl
  | _ => rfl

def SignsApart (e : Expr) : Prop := e.Everywhere fun node => node.meetsMinus = false

section
variable {e l r item target : Expr} {es : List Expr} {text : List Char}

theorem signsLeaf (alone : e.nodes = [e]) (clear : e.meetsMinus = false) : e.SignsApart := by
  intro node inside
  rw [alone, List.mem_singleton] at inside
  exact inside ▸ clear

theorem signsUnary {op : UnaryOp} :
    (unary op e).SignsApart ↔ (unary op e).meetsMinus = false ∧ e.SignsApart :=
  everywhereUnary

theorem signsBinary {op : BinaryOp} : (binary op l r).SignsApart ↔ l.SignsApart ∧ r.SignsApart :=
  everywhereBinary.trans (and_iff_right rfl)

theorem signsCall {f : Function} : (call f es).SignsApart ↔ ∀ a ∈ es, a.SignsApart :=
  everywhereCall.trans (and_iff_right rfl)

theorem signsQualified {qualifier : String} : (qualified qualifier target).SignsApart ↔ target.SignsApart :=
  everywhereQualified.trans (and_iff_right rfl)

theorem signsMember : (member item es).SignsApart ↔ item.SignsApart ∧ ∀ c ∈ es, c.SignsApart :=
  everywhereMember.trans (and_iff_right rfl)

theorem apartSigned {d : Dialect} (op : UnaryOp) (operand : Spelled d e text) (lacks : e.Lacks '-')
    (inner : MinusesApart text ↔ e.SignsApart) :
    MinusesApart (op.symbol.toList ++ inParentheses e.groupsUnderSign text) ↔ (unary op e).SignsApart := by
  rw [signsUnary]
  cases op with
  | negate =>
    have bare : (inParentheses e.groupsUnderSign text ++ []).head? = some '-' ↔ _ :=
      headOperand (by simp) (firstMinus operand lacks)
    rw [List.append_nil, bareMinus] at bare
    have sign : UnaryOp.negate.symbol.toList ++ inParentheses e.groupsUnderSign text =
      '-' :: inParentheses e.groupsUnderSign text := rfl
    rw [sign, apartMinus, apartParentheses, inner, Ne, bare, Bool.not_eq_true]
  | not | complement =>
    rw [apartBehind (by decide), apartParentheses, inner]
    exact (and_iff_right rfl).symm

theorem apartListed {parts : List (Expr × List Char)} (lacks : ∀ e ∈ parts.map (·.1), e.Lacks '-')
    (each : ∀ p ∈ parts, p.1.Lacks '-' → (MinusesApart p.2 ↔ p.1.SignsApart)) :
    MinusesApart ([','].intercalate (parts.map (·.2)) ++ [')']) ↔ ∀ e ∈ parts.map (·.1), e.SignsApart := by
  rw [apartAppend (by decide), and_iff_left (apartLacks (by decide)), apartJoined, List.forall_mem_map,
    List.forall_mem_map]
  exact forall₂_congr fun p member => each p member (lacks p.1 (List.mem_map_of_mem member))

theorem symbolApart (op : BinaryOp) : MinusesApart op.symbol.toList := by
  rw [minusesApartIff]
  cases op <;> decide

theorem placeholderLacks (d : Dialect) {p : Parameter} (lacks : (Expr.parameter p).Lacks '-') :
    '-' ∉ (d.placeholder p).toList := by
  cases p with
  | positional => simp [Dialect.placeholder]
  | named name => simpa [Dialect.placeholder] using ownText lacks name List.mem_cons_self
  | indexed index =>
    have digits : '-' ∉ (toString index.toNat).toList := digitsLack (Lexeme.digitsOf _)
    simpa [Dialect.placeholder] using digits

theorem apartNodes {d : Dialect} (spelled : Spelled d e text) (lacks : e.Lacks '-') :
    MinusesApart text ↔ e.SignsApart := by
  have leaf {e : Expr} {text : List Char} (alone : e.nodes = [e]) (clear : e.meetsMinus = false)
      (apart : MinusesApart text) : MinusesApart text ↔ e.SignsApart :=
    iff_of_true apart (signsLeaf alone clear)
  have bracketed {name : String} (lacks : '-' ∉ name.toList) {opens closes : Char}
      (other : '-' ∉ [opens, closes]) : MinusesApart (opens :: (name.toList ++ [closes])) :=
    apartLacks (by simp_all)
  induction spelled with
  | value v => exact leaf rfl rfl (literalMinus d lacks).1
  | unary op operand ih =>
    obtain ⟨-, lacksOperand⟩ := everywhereUnary.mp lacks
    exact apartSigned op operand lacksOperand (ih lacksOperand)
  | @nullTest op l negated text test left ih =>
    obtain ⟨-, lacksLeft, -⟩ := everywhereBinary.mp lacks
    have inner : MinusesApart text ↔ _ := ih lacksLeft
    have words : MinusesApart ((Lexeme.nullTest negated).text d).toList := by
      cases negated <;> exact apartLacks (by simp [Lexeme.text])
    have right : null.SignsApart := signsLeaf rfl rfl
    rw [apartAppend (nullTestStart d _), apartParentheses, inner, and_iff_left words, signsBinary,
      and_iff_left right]
  | @binary op l r first second test left right ihl ihr =>
    obtain ⟨-, lacksLeft, lacksRight⟩ := everywhereBinary.mp lacks
    have before : MinusesApart first ↔ _ := ihl lacksLeft
    have after : MinusesApart second ↔ _ := ihr lacksRight
    rw [apartAppend (by simp), apartParentheses, apartCons (by decide), apartAppend (by simp),
      and_iff_right (symbolApart op), apartCons (by decide), apartParentheses, before, after, signsBinary]
  | word f fixed => exact leaf rfl rfl (apartLacks (wordsLack _ fixed))
  | named f fixed parts each ih =>
    obtain ⟨-, lacksAll⟩ := everywhereCall.mp lacks
    rw [apartBehind (namesLack _ fixed), apartCons (by decide), apartListed lacksAll ih, signsCall]
  | parameter p => exact leaf rfl rfl (apartLacks (placeholderLacks d lacks))
  | field table column => exact leaf rfl rfl (bracketed (ownText lacks _ List.mem_cons_self) (by decide))
  | column name => exact leaf rfl rfl (bracketed (ownText lacks name List.mem_cons_self) (by decide))
  | @qualified qualifier _ text whole ih =>
    obtain ⟨shown, lacksTarget⟩ := everywhereQualified.mp lacks
    have inner : MinusesApart text ↔ _ := ih lacksTarget
    rw [apartBehind (shown qualifier List.mem_cons_self), apartCons (by decide), inner, signsQualified]
  | @member _ text parts first each ihFirst ih =>
    obtain ⟨-, lacksItem, lacksAll⟩ := everywhereMember.mp lacks
    have inner : MinusesApart text ↔ _ := ihFirst lacksItem
    rw [List.append_assoc, List.append_assoc, apartAppend (by simp), apartParentheses, inner,
      apartBehind (by decide), apartListed lacksAll ih, signsMember]
  | subquery command => exact leaf rfl rfl (bracketed (ownText lacks command List.mem_cons_self) (by decide))
  | table name => exact leaf rfl rfl (apartLacks (ownText lacks name List.mem_cons_self))

end

theorem noCommentMarker {d : Dialect} {e : Expr} {text : String} (written : e.compile d = .ok text)
    (lacks : e.Lacks '-') : ¬ ['-', '-'] <:+: text.toList ↔ ∀ node ∈ e.nodes, node.meetsMinus = false := by
  rw [← minusesApartIff]
  exact apartNodes (compiledSpelled written) lacks

def balance : Expr :=
  .member (.unary .negate (.unary .negate (.column "due")))
    [.value (.int (-4)), .binary .sub (.value (.int (-1))) (.unary .negate (.value (.int (-2))))]

theorem balanceUnmarked :
    balance.compile .sqlite = .ok "-(-[due]) IN (-4,-1 - -(-2))" ∧ balance.Lacks '-' ∧
      ¬ ['-', '-'] <:+: "-(-[due]) IN (-4,-1 - -(-2))".toList := by
  have written : balance.compile .sqlite = .ok "-(-[due]) IN (-4,-1 - -(-2))" := by decide
  have lacks : balance.Lacks '-' := by decide
  exact ⟨written, lacks, (noCommentMarker written lacks).mpr (by decide)⟩

/-- The parentheses are left out where an IN stands behind the sign, though its item is a negative number. -/
theorem commentMarkerMayAppear :
    (Expr.unary .negate (.member (.value (.int (-4))) [.value (.int 1)])).compile .sqlite =
      .ok "--4 IN (1)" ∧
    ¬ ∀ (e : Expr) (d : Dialect) (text : String), e.Lacks '-' → e.compile d = .ok text →
      ¬ ['-', '-'] <:+: text.toList := by
  have written : (Expr.unary .negate (.member (.value (.int (-4))) [.value (.int 1)])).compile .sqlite =
    .ok "--4 IN (1)" := by decide
  exact ⟨written, fun never => never _ _ _ (by decide) written (by decide)⟩

end Expr

end LiveSchema
