import LiveSchema.Proofs.LiteralText
import LiveSchema.Proofs.Spelling
import LiveSchema.Statement.Select
/-! The placeholders of a text and the parameters they stand for. Each placeholder begins with a mark, and
where no text of the caller has one, the marks are those of the parameters, in the order of the walk. -/
namespace LiveSchema

def isMark (c : Char) : Bool := c == '?' || c == '@'

def Unmarked (text : List Char) : Prop := ∀ c ∈ text, isMark c = false

instance (text : List Char) : Decidable (Unmarked text) :=
  List.decidableBAll (isMark · = false) text

def marked : List Char → List (List Char)
  | [] => []
  | c :: cs => if isMark c then (c :: cs) :: marked cs else marked cs

def nameCharacter (c : Char) : Bool := !([' ', ',', ')'].contains c)

def placeholders (text : List Char) : List (List Char) := (marked text).map (·.takeWhile nameCharacter)

def Delimited (rest : List Char) : Prop := ∀ c ∈ rest.head?, nameCharacter c = false

/-- The marks of a text are those of these parameters, one by one, and nothing is joined to their names. -/
def Shows (d : Dialect) (ps : List Parameter) (text : List Char) : Prop :=
  List.Forall₂ (fun p left => ∃ rest, left = (d.placeholder p).toList ++ rest ∧ Delimited rest) ps (marked text)

theorem markedAppend (a b : List Char) : marked (a ++ b) = (marked a).map (· ++ b) ++ marked b := by
  induction a with
  | nil => rfl
  | cons c rest ih =>
    rw [List.cons_append, marked, marked, ih]
    split <;> rfl

theorem markedNone {text : List Char} (unmarked : Unmarked text) : marked text = [] := by
  induction text with
  | nil => rfl
  | cons c rest ih =>
    obtain ⟨other, later⟩ := List.forall_mem_cons.mp unmarked
    rw [marked, other, ih later]
    rfl

theorem notMark {c : Char} (question : c ≠ '?') (named : c ≠ '@') : isMark c = false := by
  simp [isMark, question, named]

theorem kindUnmarked {kind : Char → Bool} (question : kind '?' = false) (named : kind '@' = false)
    {text : List Char} (all : ∀ c ∈ text, kind c = true) : Unmarked text := fun c member =>
  notMark (fun same => by simp [same ▸ all c member] at question)
    (fun same => by simp [same ▸ all c member] at named)

theorem digitsUnmarked (n : Nat) : Unmarked (toString n).toList := kindUnmarked rfl rfl (Lexeme.digitsOf n)

theorem delimitedAppend {a b : List Char} (first : Delimited a) (second : Delimited b) : Delimited (a ++ b) := by
  cases a with
  | nil => exact second
  | cons c rest => exact first

section
variable {d : Dialect} {ps qs : List Parameter} {a b text : List Char}

theorem showsNone (unmarked : Unmarked text) : Shows d [] text := by
  rw [Shows, markedNone unmarked]
  exact .nil

theorem showsBehind (unmarked : Unmarked a) (shown : Shows d ps b) : Shows d ps (a ++ b) := by
  rwa [Shows, markedAppend, markedNone unmarked]

theorem showsCons {c : Char} (other : isMark c = false) (shown : Shows d ps b) : Shows d ps (c :: b) := by
  rwa [Shows, marked, if_neg (Bool.eq_false_iff.mp other)]

theorem showsAppend (first : Shows d ps a) (second : Shows d qs b) (ends : Delimited b) :
    Shows d (ps ++ qs) (a ++ b) := by
  rw [Shows, markedAppend]
  refine List.rel_append (List.forall₂_map_right_iff.mpr (first.imp ?_)) second
  rintro p _ ⟨rest, rfl, delimited⟩
  exact ⟨rest ++ b, List.append_assoc _ _ _, delimitedAppend delimited ends⟩

theorem showsBefore (shown : Shows d ps a) (unmarked : Unmarked b) (ends : Delimited b) :
    Shows d ps (a ++ b) := by
  simpa using showsAppend shown (showsNone unmarked) ends

theorem showsParentheses (group : Bool) (shown : Shows d ps text) : Shows d ps (inParentheses group text) := by
  cases group with
  | false => exact shown
  | true => exact showsCons rfl (showsBefore shown (by decide) (by simp [Delimited, nameCharacter]))

theorem showsJoined {separator : List Char} (some_ : separator ≠ []) (unmarked : Unmarked separator)
    (ends : Delimited separator) {pss : List (List Parameter)} {parts : List (List Char)}
    (each : List.Forall₂ (Shows d) pss parts) : Shows d pss.flatten (separator.intercalate parts) := by
  induction each with
  | nil => exact showsNone (by simp [Unmarked])
  | @cons ps part pss parts first others ih =>
    cases others with
    | nil => simpa using first
    | @cons _ next _ parts second others =>
      rw [List.flatten_cons, List.intercalate_cons_cons, List.append_assoc]
      refine showsAppend first (showsBehind unmarked ih) ?_
      obtain ⟨c, cs, rfl⟩ := List.exists_cons_of_ne_nil some_
      exact ends

theorem nameRead {rest : List Char} (ends : Delimited rest) (name : List Char) :
    (name ++ rest).takeWhile nameCharacter = name.takeWhile nameCharacter := by
  rw [List.takeWhile_append, (kindStops ends).1, List.append_nil]
  split
  · next whole => exact ((List.takeWhile_prefix _).eq_of_length whole).symm
  · rfl

theorem showsRead (shown : Shows d ps text) :
    placeholders text = ps.map fun p => (d.placeholder p).toList.takeWhile nameCharacter := by
  rw [Shows] at shown
  rw [placeholders]
  generalize marked text = left at shown ⊢
  induction shown with
  | nil => rfl
  | cons first others ih =>
    obtain ⟨rest, rfl, ends⟩ := first
    rw [List.map_cons, List.map_cons, ih, nameRead ends]

end

namespace Expr

def parameter? : Expr → Option Parameter
  | .parameter p => some p
  | _ => none

def parameters (e : Expr) : List Parameter := e.nodes.filterMap parameter?

theorem parametersAll (es : List Expr) : (nodesAll es).filterMap parameter? = es.flatMap parameters := by
  rw [nodesAllFlat, List.filterMap_flatMap]
  rfl

@[simp] theorem parametersUnary (op : UnaryOp) (e : Expr) : (unary op e).parameters = e.parameters := rfl

@[simp] theorem parametersBinary (op : BinaryOp) (l r : Expr) :
    (binary op l r).parameters = l.parameters ++ r.parameters := by
  rw [parameters, nodes, List.filterMap_cons_none rfl, List.filterMap_append]
  rfl

@[simp] theorem parametersCall (f : Function) (arguments : List Expr) :
    (call f arguments).parameters = arguments.flatMap parameters := by
  rw [parameters, nodes, List.filterMap_cons_none rfl, parametersAll]

@[simp] theorem parametersQualified (qualifier : String) (target : Expr) :
    (qualified qualifier target).parameters = target.parameters := rfl

@[simp] theorem parametersMember (item : Expr) (candidates : List Expr) :
    (member item candidates).parameters = item.parameters ++ candidates.flatMap parameters := by
  rw [parameters, nodes, List.filterMap_cons_none rfl, List.filterMap_append, parametersAll]
  rfl

def TextsUnmarked (e : Expr) : Prop := e.Everywhere fun node => ∀ text ∈ node.ownTexts, Unmarked text.toList

theorem lacksMarks {e : Expr} (question : e.Lacks '?') (named : e.Lacks '@') : e.TextsUnmarked :=
  fun node inside text shown _ member => notMark (fun same => question node inside text shown (same ▸ member))
    (fun same => named node inside text shown (same ▸ member))

theorem literalUnmarked (d : Dialect) {v : Value} (unmarked : (Expr.value v).TextsUnmarked) :
    Unmarked (d.literal v).toList := by
  intro c member
  obtain own | ⟨s, rfl, shown⟩ := literalCharacters d v c member
  · have alone := @kindUnmarked literalCharacter rfl rfl [c] (by simpa using own)
    exact alone c List.mem_cons_self
  · exact ownText unmarked s List.mem_cons_self c shown

theorem placeholderShown (d : Dialect) {p : Parameter} (unmarked : (Expr.parameter p).TextsUnmarked) :
    Shows d [p] (d.placeholder p).toList := by
  have alone {c : Char} {name : List Char} (mark : isMark c = true) (unmarked : Unmarked name)
      (written : (d.placeholder p).toList = c :: name) : Shows d [p] (d.placeholder p).toList := by
    rw [Shows, written, marked, if_pos mark, markedNone unmarked]
    exact .cons ⟨[], by simp [written], by simp [Delimited]⟩ .nil
  cases p with
  | positional => exact @alone '?' [] rfl (by decide) (by simp [Dialect.placeholder])
  | named name =>
    have own := ownText unmarked name List.mem_cons_self
    exact @alone '@' _ rfl own (by simp [Dialect.placeholder])
  | indexed index => exact @alone '@' _ rfl (digitsUnmarked index.toNat) (by simp [Dialect.placeholder])

theorem listShown {d : Dialect} {parts : List (Expr × List Char)}
    (unmarked : ∀ e ∈ parts.map (·.1), e.TextsUnmarked)
    (each : ∀ p ∈ parts, p.1.TextsUnmarked → Shows d p.1.parameters p.2) :
    Shows d ((parts.map (·.1)).flatMap parameters) ([','].intercalate (parts.map (·.2)) ++ [')']) := by
  have all : Shows d ((parts.map (·.1)).flatMap parameters) ([','].intercalate (parts.map (·.2))) := by
    rw [List.flatMap_def, List.map_map]
    refine showsJoined (by simp) (by decide) (by simp [Delimited, nameCharacter]) ?_
    rw [List.forall₂_map_left_iff, List.forall₂_map_right_iff, List.forall₂_same]
    exact fun p member => each p member (unmarked p.1 (List.mem_map_of_mem member))
  exact showsBefore all (by decide) (by simp [Delimited, nameCharacter])

theorem spelledShows {d : Dialect} {e : Expr} {text : List Char} (spelled : Spelled d e text)
    (unmarked : e.TextsUnmarked) : Shows d e.parameters text := by
  have enclosed {name : List Char} (unmarked : Unmarked name) {opens closes : Char}
      (others : Unmarked [opens, closes]) : Shows d [] (opens :: (name ++ [closes])) :=
    have ⟨first, last⟩ := List.forall_mem_cons.mp others
    showsCons first (showsNone (List.forall_mem_append.mpr ⟨unmarked, last⟩))
  induction spelled with
  | value v => exact showsNone (literalUnmarked d unmarked)
  | unary op operand ih =>
    obtain ⟨-, inner⟩ := everywhereUnary.mp unmarked
    have sign : Unmarked op.symbol.toList := by cases op <;> decide
    rw [parametersUnary]
    exact showsBehind sign (showsParentheses _ (ih inner))
  | @nullTest _ _ negated _ test left ih =>
    obtain ⟨-, inner, -⟩ := everywhereBinary.mp unmarked
    have words : Unmarked ((Lexeme.nullTest negated).text d).toList := by
      cases d <;> cases negated <;> decide
    rw [parametersBinary]
    refine showsAppend (showsParentheses _ (ih inner)) (showsNone words) ?_
    cases negated <;> simp [Lexeme.text, Delimited, nameCharacter]
  | @binary op _ r _ _ test left right ihl ihr =>
    obtain ⟨-, first, second⟩ := everywhereBinary.mp unmarked
    have symbol : Unmarked op.symbol.toList := by cases op <;> decide
    have behind := showsCons (c := ' ') rfl (showsParentheses (op.groupsRight r) (ihr second))
    rw [parametersBinary]
    exact showsAppend (showsParentheses _ (ihl first)) (showsCons rfl (showsBehind symbol behind))
      (by simp [Delimited, nameCharacter])
  | word f fixed =>
    have words : ∀ word ∈ Dialect.functionWords, Unmarked word.toList := by decide
    exact showsNone (words _ fixed)
  | named f fixed parts each ih =>
    obtain ⟨-, arguments⟩ := everywhereCall.mp unmarked
    have names : ∀ name ∈ Dialect.functionNames, Unmarked name.toList := by decide
    rw [parametersCall]
    exact showsBehind (names _ fixed) (showsCons rfl (listShown arguments ih))
  | parameter p => exact placeholderShown d unmarked
  | field table column => exact enclosed (ownText unmarked _ List.mem_cons_self) (by decide)
  | column name => exact enclosed (ownText unmarked name List.mem_cons_self) (by decide)
  | qualified qualifier whole ih =>
    obtain ⟨shown, inner⟩ := everywhereQualified.mp unmarked
    rw [parametersQualified]
    exact showsBehind (shown qualifier List.mem_cons_self) (showsCons rfl (ih inner))
  | member parts first each ihFirst ih =>
    obtain ⟨-, item, candidates⟩ := everywhereMember.mp unmarked
    have behind := @showsBehind d _ " IN (".toList _ (by decide) (listShown candidates ih)
    rw [parametersMember, List.append_assoc, List.append_assoc]
    exact showsAppend (showsParentheses _ (ihFirst item)) behind (by simp [Delimited, nameCharacter])
  | subquery command => exact enclosed (ownText unmarked command List.mem_cons_self) (by decide)
  | table name => exact showsNone (ownText unmarked name List.mem_cons_self)

end Expr

namespace Rendering

section
variable {d : Dialect} {a b r : Rendering} {ps qs : List Parameter}

def Shows (d : Dialect) (r : Rendering) (ps : List Parameter) : Prop :=
  ∀ text, r.Writes d text → LiveSchema.Shows d ps text

def Follows (d : Dialect) (r : Rendering) (ps : List Parameter) : Prop :=
  ∀ text, r.Writes d text → LiveSchema.Shows d ps text ∧ Delimited text

theorem showsThen (first : a.Shows d ps) (second : b.Follows d qs) : (a ++ b).Shows d (ps ++ qs) := by
  intro text written
  obtain ⟨_, _, before, behind, rfl⟩ := writesAppend.mp written
  obtain ⟨shown, ends⟩ := second _ behind
  exact showsAppend (first _ before) shown ends

theorem followsThen (first : a.Follows d ps) (second : b.Follows d qs) :
    (a ++ b).Follows d (ps ++ qs) := by
  intro text written
  obtain ⟨_, _, before, behind, rfl⟩ := writesAppend.mp written
  obtain ⟨shown, ends⟩ := second _ behind
  obtain ⟨begins, delimited⟩ := first _ before
  exact ⟨showsAppend begins shown ends, delimitedAppend delimited ends⟩

theorem followsNothing : (of []).Follows d [] := by
  intro text written
  obtain rfl := writesOf.mp written
  exact ⟨showsNone (by simp [Lexeme.textAll, Unmarked]), by simp [Lexeme.textAll, Delimited]⟩

theorem textUnmarked {lexemes : List Lexeme} (each : ∀ l ∈ lexemes, Unmarked (l.text d).toList) :
    Unmarked (Lexeme.textAll d lexemes).toList := by
  induction lexemes with
  | nil => simp [Lexeme.textAll, Unmarked]
  | cons l rest ih =>
    obtain ⟨first, others⟩ := List.forall_mem_cons.mp each
    rw [Lexeme.textAll, String.toList_append]
    exact List.forall_mem_append.mpr ⟨first, ih others⟩

theorem showsWords {lexemes : List Lexeme} (each : ∀ l ∈ lexemes, Unmarked (l.text d).toList) :
    (of lexemes).Shows d [] := by
  intro text written
  obtain rfl := writesOf.mp written
  exact showsNone (textUnmarked each)

theorem showsFirst {lexemes : List Lexeme} (each : ∀ l ∈ lexemes, Unmarked (l.text d).toList)
    (shown : r.Shows d ps) : (of lexemes ++ r).Shows d ps := by
  intro text written
  obtain ⟨_, _, front, behind, rfl⟩ := writesAppend.mp written
  obtain rfl := writesOf.mp front
  exact showsBehind (textUnmarked each) (shown _ behind)

theorem blankDelimits {word : String} (blank : word.toList.head? = some ' ') (rest : List Char) :
    Delimited (word.toList ++ rest) := by
  obtain ⟨others, same⟩ := List.head?_eq_some_iff.mp blank
  simp [Delimited, same, nameCharacter]

theorem followsWords {word : String} (blank : word.toList.head? = some ' ') (unmarked : Unmarked word.toList)
    {rest : List Lexeme} (each : ∀ l ∈ rest, Unmarked (l.text d).toList) :
    (of (.word word :: rest)).Follows d [] := by
  intro text written
  obtain rfl := writesOf.mp written
  rw [Lexeme.textAll, String.toList_append]
  exact ⟨showsNone (List.forall_mem_append.mpr ⟨unmarked, textUnmarked each⟩), blankDelimits blank _⟩

theorem followsClause {word : String} (blank : word.toList.head? = some ' ') (unmarked : Unmarked word.toList)
    (shown : r.Shows d ps) : (of [.word word] ++ r).Follows d ps := by
  intro text whole
  have each : ∀ l ∈ [Lexeme.word word], Unmarked (l.text d).toList := List.forall_mem_singleton.mpr unmarked
  have shows := showsFirst each shown text whole
  obtain ⟨_, _, front, -, rfl⟩ := writesAppend.mp whole
  obtain rfl := writesOf.mp front
  rw [Lexeme.textAll, String.toList_append, List.append_assoc] at shows ⊢
  exact ⟨shows, blankDelimits blank _⟩

theorem followsOptional {α : Type} {content : Option α} {write : α → Rendering} {ps : α → List Parameter}
    (each : ∀ x ∈ content, (write x).Follows d (ps x)) :
    (clause content write).Follows d (content.toList.flatMap ps) := by
  cases content with
  | none => exact followsNothing
  | some x =>
    rw [Option.toList_some, List.flatMap_singleton]
    exact each x rfl

theorem followsPlain {α : Type} {content : Option α} {write : α → Rendering}
    (each : ∀ x ∈ content, (write x).Follows d []) : (clause content write).Follows d [] := by
  cases content with
  | none => exact followsNothing
  | some x => exact each x rfl

theorem followsLabel {label : Option String} (unmarked : ∀ text ∈ label.toList, Unmarked text.toList) :
    (clause label asName).Follows d [] :=
  followsPlain fun text shown => followsWords (by decide) (by decide)
    (List.forall_mem_singleton.mpr (unmarked text (Option.mem_toList.mpr shown)))

theorem showsList {α : Type} {items : List α} {write : α → Rendering} {ps : α → List Parameter}
    (each : ∀ x ∈ items, (write x).Shows d (ps x)) :
    (joinWith (.word ", ") (items.map write)).Shows d (items.flatMap ps) := by
  intro text written
  obtain ⟨parts, all, rfl⟩ := writesJoined.mp written
  rw [List.flatMap_def]
  refine showsJoined (by simp [Lexeme.text]) (by simp [Lexeme.text, Unmarked, isMark])
    (by simp [Lexeme.text, Delimited, nameCharacter]) ?_
  rw [List.forall₂_map_left_iff] at all ⊢
  exact ((List.forall₂_and_left _ _).mpr ⟨each, all⟩).imp fun _ _ both => both.1 _ both.2

theorem showsTree {e : Expr} (unmarked : e.TextsUnmarked) : (e.render d).Shows d e.parameters :=
  fun _ written => Expr.spelledShows (Expr.writtenSpelled written) unmarked

end

end Rendering

namespace Select

def expressions (s : Select) : List Expr :=
  s.columns ++ s.joins.flatMap (·.on.toList) ++ s.filter.toList ++ s.groupBy ++ s.orderBy.map (·.1)

def parameters (s : Select) : List Parameter := s.expressions.flatMap Expr.parameters

def texts (s : Select) : List String :=
  s.label.toList ++ s.joins.flatMap (fun j => j.table :: j.label.toList) ++ s.union.toList.map (·.command)

def Lacks (c : Char) (s : Select) : Prop :=
  (∀ e ∈ s.source.toList ++ s.expressions, e.Lacks c) ∧ ∀ text ∈ s.texts, c ∉ text.toList

instance (c : Char) (s : Select) : Decidable (s.Lacks c) :=
  inferInstanceAs (Decidable ((∀ e ∈ s.source.toList ++ s.expressions, e.Lacks c) ∧
    ∀ text ∈ s.texts, c ∉ text.toList))

def Sourced (s : Select) : Prop :=
  ∀ e ∈ s.source, (∃ name, e = .table name) ∨ ∃ command, e = .subquery command

theorem stepsSourced (s : Select) :
    ({} : Select).Sourced ∧ (∀ table, (s.fromTable table).Sourced) ∧ ∀ command, (s.fromQuery command).Sourced := by
  refine ⟨?empty, fun table => ?table, fun command => ?query⟩
  case empty =>
    rintro _ ⟨⟩
  case table =>
    rintro _ ⟨⟩
    exact .inl ⟨table, rfl⟩
  case query =>
    rintro _ ⟨⟩
    exact .inr ⟨command, rfl⟩

def TextsUnmarked (s : Select) : Prop :=
  (∀ e ∈ s.source.toList ++ s.expressions, e.TextsUnmarked) ∧ ∀ text ∈ s.texts, Unmarked text.toList

section
open Rendering
variable {d : Dialect}

theorem joinFollows {j : Join} (texts : ∀ text ∈ j.table :: j.label.toList, Unmarked text.toList)
    (on : ∀ e ∈ j.on.toList, e.TextsUnmarked) :
    (j.render d).Follows d (j.on.toList.flatMap Expr.parameters) := by
  obtain ⟨table, label⟩ := List.forall_mem_cons.mp texts
  have joined : (of [.word " INNER JOIN ", .verbatim j.table]).Follows d [] :=
    followsWords (by decide) (by decide) (List.forall_mem_singleton.mpr table)
  have condition : (clause j.on fun e => of [.word " ON "] ++ e.render d).Follows d
      (j.on.toList.flatMap Expr.parameters) :=
    followsOptional fun e shown => followsClause (by decide) (by decide)
      (showsTree (on e (Option.mem_toList.mpr shown)))
  exact followsThen (followsThen joined (followsLabel label)) condition

theorem joinsFollow {joins : List Join}
    (texts : ∀ text ∈ joins.flatMap fun j => j.table :: j.label.toList, Unmarked text.toList)
    (on : ∀ e ∈ joins.flatMap (·.on.toList), e.TextsUnmarked) :
    (joins.foldr (fun j rest => j.render d ++ rest) (of [])).Follows d
      ((joins.flatMap (·.on.toList)).flatMap Expr.parameters) := by
  induction joins with
  | nil => exact followsNothing
  | cons j rest ih =>
    rw [List.flatMap_cons, List.forall_mem_append] at texts on
    rw [List.foldr_cons, List.flatMap_cons, List.flatMap_append]
    exact followsThen (joinFollows texts.1 on.1) (ih texts.2 on.2)

theorem sourceFollows {source : Option Expr}
    (set : ∀ e ∈ source, (∃ name, e = .table name) ∨ ∃ command, e = .subquery command)
    (unmarked : ∀ e ∈ source.toList, e.TextsUnmarked) :
    (clause source fun e => of [.word " FROM "] ++ e.render d).Follows d [] := by
  refine followsPlain fun e shown => followsClause (by decide) (by decide) ?_
  have tree := showsTree (d := d) (unmarked e (Option.mem_toList.mpr shown))
  rcases set e shown with ⟨name, rfl⟩ | ⟨command, rfl⟩ <;> exact tree

theorem numberFollows (word : String) (blank : word.toList.head? = some ' ') (unmarked : Unmarked word.toList)
    (n : Option UInt64) : (clause n fun n => of [.word word, .word (toString n.toNat)]).Follows d [] :=
  followsPlain fun n _ => followsWords blank unmarked (List.forall_mem_singleton.mpr (digitsUnmarked n.toNat))

theorem termShows {term : Expr × Order} (unmarked : term.1.TextsUnmarked) :
    (orderTerm d term).Shows d term.1.parameters := by
  have word : (of (if term.2 = .descending then [.word " DESC"] else [])).Follows d [] := by
    split
    · exact followsWords (by decide) (by decide) (by simp)
    · exact followsNothing
  rw [orderTerm, ← List.append_nil term.1.parameters]
  exact showsThen (showsTree unmarked) word

theorem renderShows {s : Select} (sourced : s.Sourced) (unmarked : s.TextsUnmarked) :
    (s.render d).Shows d s.parameters := by
  obtain ⟨trees, texts⟩ := unmarked
  simp only [expressions, Select.texts, List.forall_mem_append] at trees texts
  obtain ⟨source, ⟨⟨⟨columns, joins⟩, filter⟩, groupBy⟩, orderBy⟩ := trees
  obtain ⟨⟨label, joined⟩, union⟩ := texts
  have selected : (of [.word "SELECT "] ++
      (if s.columns.isEmpty then of [.word "*"] else separated d s.columns)).Shows d
        (s.columns.flatMap Expr.parameters) := by
    refine showsFirst (by simp [Lexeme.text, Unmarked, isMark]) ?_
    split
    · next none =>
      rw [List.isEmpty_iff.mp none]
      exact showsWords (by simp [Lexeme.text, Unmarked, isMark])
    · exact showsList fun e listed => showsTree (columns e listed)
  have filtered : (condition d s.filter).Follows d (s.filter.toList.flatMap Expr.parameters) :=
    followsOptional fun e shown => followsClause (by decide) (by decide)
      (showsTree (filter e (Option.mem_toList.mpr shown)))
  have grouped : (if s.groupBy.isEmpty then of [] else of [.word " GROUP BY "] ++ separated d s.groupBy).Follows d
      (s.groupBy.flatMap Expr.parameters) := by
    split
    · next none =>
      rw [List.isEmpty_iff.mp none]
      exact followsNothing
    · exact followsClause (by decide) (by decide)
        (showsList fun e listed => showsTree (groupBy e listed))
  have united : (clause s.union fun u =>
      of [.word (if u.all then " UNION ALL " else " UNION "), .verbatim u.command]).Follows d [] := by
    refine followsPlain fun u shown => ?_
    have command := union u.command (List.mem_map_of_mem (Option.mem_toList.mpr shown))
    cases u.all <;>
      exact followsWords (by decide) (by decide) (List.forall_mem_singleton.mpr command)
  have ordered : (if s.orderBy.isEmpty then of []
      else of [.word " ORDER BY "] ++ joinWith (.word ", ") (s.orderBy.map (orderTerm d))).Follows d
        ((s.orderBy.map (·.1)).flatMap Expr.parameters) := by
    split
    · next none =>
      rw [List.isEmpty_iff.mp none]
      exact followsNothing
    · rw [List.flatMap_map]
      exact followsClause (by decide) (by decide) (showsList fun term listed =>
        termShows (orderBy _ (List.mem_map_of_mem listed)))
  have whole := showsThen (showsThen (showsThen (showsThen (showsThen (showsThen (showsThen (showsThen (showsThen
    selected (sourceFollows sourced source)) (followsLabel label)) (joinsFollow joined joins)) filtered) grouped)
    united) ordered) (numberFollows " LIMIT " (by decide) (by decide) s.limit))
    (numberFollows " OFFSET " (by decide) (by decide) s.offset)
  simpa [parameters, expressions, render] using whole

end

theorem lacksMarks {s : Select} (question : s.Lacks '?') (named : s.Lacks '@') : s.TextsUnmarked :=
  ⟨fun e inside => Expr.lacksMarks (question.1 e inside) (named.1 e inside), fun text shown _ member =>
    notMark (fun same => question.2 text shown (same ▸ member)) (fun same => named.2 text shown (same ▸ member))⟩

end Select

def InOrder (d : Dialect) (ps : List Parameter) (text : List Char) : Prop :=
  Shows d ps text ∧
    placeholders text = ps.map fun p => (d.placeholder p).toList.takeWhile nameCharacter

theorem placeholdersInOrder (d : Dialect) :
    (∀ (e : Expr) (text : String), e.compile d = .ok text → e.Lacks '?' → e.Lacks '@' →
      InOrder d e.parameters text.toList) ∧
    ∀ (s : Select) (text : String), s.Sourced → s.prepare d = .ok text → s.Lacks '?' → s.Lacks '@' →
      InOrder d s.parameters text.toList := by
  constructor
  · intro e text written question named
    have shown := Expr.spelledShows (Expr.compiledSpelled written) (Expr.lacksMarks question named)
    exact ⟨shown, showsRead shown⟩
  · intro s text sourced written question named
    have shown := Select.renderShows sourced (Select.lacksMarks question named) _
      (Rendering.resultWrites.mp written)
    exact ⟨shown, showsRead shown⟩

def today : Expr :=
  .binary .and (.binary .equals (.parameter .positional) .null)
    (.member (.parameter (.named "day")) [.unary .negate (.parameter .positional), .column "due"])

def overdue : Select :=
  ({} : Select).ordered (.parameter (.indexed 2)) .descending
    |>.filtered today
    |>.join { table := "person", on := some (.binary .equals (.column "id") (.parameter (.named "who"))) }
    |>.addColumns [.call .coalesce [.parameter .positional, .value (.text "x")], .column "due"]
    |>.fromTable "loan" |>.limited 5

def overdueText : String :=
  "SELECT COALESCE(?,'x'), [due] FROM loan INNER JOIN person ON [id] = @who " ++
    "WHERE ? IS NULL AND @day IN (-?,[due]) ORDER BY @2 DESC LIMIT 5"

theorem overdueInOrder :
    (today.compile .sqlServer = .ok "? IS NULL AND @day IN (-?,[due])" ∧
      InOrder .sqlServer [.positional, .named "day", .positional] "? IS NULL AND @day IN (-?,[due])".toList) ∧
    overdue.prepare .sqlite = .ok overdueText ∧
      InOrder .sqlite [.positional, .named "who", .positional, .named "day", .positional, .indexed 2]
        overdueText.toList := by
  have compiled : today.compile .sqlServer = .ok "? IS NULL AND @day IN (-?,[due])" := by decide
  have prepared : overdue.prepare .sqlite = .ok overdueText := by decide +kernel
  have sourced : overdue.Sourced := (Select.stepsSourced overdue).2.1 "loan"
  exact ⟨⟨compiled, (placeholdersInOrder .sqlServer).1 today _ compiled (by decide) (by decide)⟩, prepared,
    (placeholdersInOrder .sqlite).2 overdue _ sourced prepared (by decide) (by decide)⟩

end LiveSchema
