import LiveSchema.Proofs.ColumnText
/-! Columns that were read from the items of a definition. Such a column can be written and is read again from
what is written, unless its name cannot stand in brackets. A default is the end of its item: behind it only blanks
are read. -/
namespace LiveSchema
open Text Catalog

section Split
variable {c : Column} {cs : List Char} {keywords : List String} {given : Bool} {behind : List Char → Prop}

theorem flaggedSplit {alone later : List Char → Prop}
    (parts : ∀ rest, behind rest → ∃ front back, rest = front ++ back ∧ alone front ∧ later back)
    (flagged : Flagged keywords behind given cs) :
    ∃ front back, cs = front ++ back ∧ Flagged keywords alone given front ∧ later back := by
  cases flagged with
  | @given text _ spaced holds =>
    obtain ⟨front, back, rfl, here, there⟩ := parts _ holds
    exact ⟨text ++ front, back, (List.append_assoc _ _ _).symm, .given spaced here, there⟩
  | absent holds =>
    obtain ⟨front, back, rfl, here, there⟩ := parts _ holds
    exact ⟨front, back, rfl, .absent here, there⟩

theorem constrainedSplit (tail : Constrained c behind cs) :
    ∃ front back, cs = front ++ back ∧ Constrained c (DefaultForm none) front ∧ behind back :=
  flaggedSplit (fun _ => flaggedSplit fun _ => flaggedSplit fun _ => flaggedSplit fun rest holds =>
    ⟨[], rest, rfl, .absent (List.forall_mem_nil _), holds⟩) tail

end Split

section Written
variable {c : Column} {item cs : List Char}

theorem defaultFormed {default : Option String} (form : DefaultForm default cs) :
    ∀ s ∈ default, isDefault s.toList = true := by
  cases form with
  | absent => exact fun s none => nomatch none
  | given _ _ form =>
    intro s same
    obtain rfl := Option.some.inj same
    rwa [String.toList_ofList]

theorem readFormed (read : column? item = some c) : c.Formed ∧ c.stored = c := by
  cases columnForm.mp read with
  | @item written name gap type tail _ named apart filled solid behind facts =>
    obtain ⟨isName, isType, noField, noValueType⟩ := facts
    have typeText : c.typeText = c.dbType := by
      simp [Column.typeText, Column.resolvedType, noValueType, Except.toOption]
    have constrained : Constrained c (DefaultForm c.default) tail := behind
    obtain ⟨_, _, _, _, default⟩ := constrainedSplit constrained
    have nonempty : name ≠ [] := by
      cases named with
      | quoted _ filled => exact filled
      | bare filled => exact filled
    refine ⟨⟨?_, ?_, ?_, defaultFormed default⟩, ?_⟩
    · simpa [isName] using nonempty
    · simpa [typeText, isType] using filled
    · simpa [typeText, isType] using solid
    · rw [Column.stored, typeText]
      cases c
      simp_all [Column.introspected]

theorem bracketedClosed {rest : List Char} (read : column? ('[' :: rest) = some c) : ']' ∉ c.name.toList := by
  generalize same : '[' :: rest = text at read
  cases columnForm.mp read with
  | @item written name gap type tail _ named _ _ _ _ facts =>
    rw [facts.1, String.toList_ofList]
    cases named with
    | quoted quotes _ closed =>
      obtain ⟨rfl, -⟩ := List.cons.inj same
      obtain rfl := Option.some.inj quotes
      exact closed
    | bare filled plain =>
      obtain ⟨first, others, rfl⟩ := List.exists_cons_of_ne_nil filled
      obtain ⟨rfl, -⟩ := List.cons.inj same
      have opening := plain _ List.mem_cons_self
      contradiction

theorem columnWrittenBack (read : column? item = some c) :
    ∃ text, c.definition .sqlite = .ok text ∧ (column? text.toList = some c ↔ ']' ∉ c.name.toList) := by
  obtain ⟨formed, same⟩ := readFormed read
  refine ⟨_, c.definitionWritten, ?_, ?_⟩
  · intro again
    have text : c.definitionText.toList = '[' :: (c.name.toList ++ (']' :: ' ' ::
        (c.typeText.toList ++ c.constraints.toList))) := by
      simp [Column.definitionText, bracket]
    rw [text] at again
    exact bracketedClosed again
  · intro closed
    rw [columnForm.mpr (Column.definitionForm formed closed), same]

def dueItem : List Char := "\"due [day\"\tVARCHAR(20)  primary KEY not\n null Default 'it''s; NOT NULL' ".toList

def dueColumn : Column :=
  { Column.introspected "due [day" "VARCHAR(20)" with
    primaryKey := true, notNull := true, default := some "'it''s; NOT NULL'" }

theorem dueColumnWrittenBack :
    column? dueItem = some dueColumn ∧ ']' ∉ dueColumn.name.toList ∧
    dueColumn.definition .sqlite = .ok "[due [day] VARCHAR(20) PRIMARY KEY NOT NULL DEFAULT 'it''s; NOT NULL'" ∧
    ∃ text, dueColumn.definition .sqlite = .ok text ∧ column? text.toList = some dueColumn := by
  have read : column? dueItem = some dueColumn := by decide +kernel
  have closed : ']' ∉ dueColumn.name.toList := by decide
  obtain ⟨text, written, again⟩ := columnWrittenBack read
  exact ⟨read, closed, by rfl, text, written, again.mpr closed⟩

/-- Other quotes than brackets can hold a closing bracket, brackets cannot. -/
theorem bracketMayBeLost : ¬ ∀ (item : List Char) (c : Column) (text : String), column? item = some c →
    c.definition .sqlite = .ok text → column? text.toList = some c := by
  intro all
  have read : column? "\"a]b\" TEXT".toList = some (Column.introspected "a]b" "TEXT") := by decide +kernel
  have refused : column? "[a]b] TEXT".toList = none := by decide +kernel
  have again := all _ _ "[a]b] TEXT" read (by rfl)
  rw [refused] at again
  contradiction

end Written

section Ended
variable {c : Column} {item cs value more : List Char} {b : Char}

theorem trimEndLast (cs : List Char) : ∀ t ∈ (trimEnd cs).getLast?, isBlank t = false := by
  intro t last
  rw [trimEnd, List.getLast?_reverse] at last
  exact headOfDropWhile isBlank _ t last

theorem trimEndBehind (first : ∀ t ∈ more.head?, isBlank t = true) (solid : ∃ t ∈ more, isBlank t = false) :
    ∃ d others, isBlank d = true ∧ trimEnd (cs ++ more) = cs ++ d :: others := by
  obtain ⟨ending, split, blanks⟩ := trimEndForm more
  have filled : trimEnd more ≠ [] := by
    intro none
    rw [none, List.nil_append] at split
    obtain ⟨t, inside, notBlank⟩ := solid
    rw [blanks t (split ▸ inside)] at notBlank
    contradiction
  obtain ⟨d, others, shown⟩ := List.exists_cons_of_ne_nil filled
  have head : more.head? = some d := by rw [split, shown, List.cons_append, List.head?_cons]
  have whole : cs ++ more = cs ++ trimEnd more ++ ending := by rw [List.append_assoc, ← split]
  refine ⟨d, others, first d head, ?_⟩
  rw [whole, trimEndRead (lastRight filled (trimEndLast more)) blanks, shown]

theorem literalStops (ends : endsLiteral cs = true) (other : b ≠ '\'') :
    endsLiteral (cs ++ b :: more) = false := by
  fun_induction endsLiteral cs with
  | case1 => contradiction
  | case2 => simp [endsLiteral]
  | case3 cs ih => simpa [endsLiteral] using ih ends
  | case4 => contradiction
  | case5 c cs notLast notPair notQuote ih =>
    have plain : c ≠ '\'' := by
      rintro rfl
      cases cs with
      | nil => exact notLast rfl rfl
      | cons d cs => exact notQuote d cs rfl rfl
    simpa [endsLiteral, plain] using ih ends

theorem nestedStops {inside : Bool} (ends : endsNested inside cs = true) (filled : more ≠ []) :
    endsNested inside (cs ++ more) = false := by
  fun_induction endsNested inside cs with
  | case1 => contradiction
  | case2 cs => simp_all [endsNested]
  | case3 c cs other ih => simpa [endsNested, other] using ih ends
  | case4 => contradiction
  | case5 c cs other ih => simpa [endsNested, other] using ih ends

theorem defaultStops (form : isDefault value = true) (blank : isBlank b = true) :
    isDefault (value ++ b :: more) = false := by
  unfold isDefault at form
  split at form
  · contradiction
  · have other : b ≠ '\'' := by
      rintro rfl
      contradiction
    exact literalStops form other
  · rename_i cs
    simp only [Bool.and_eq_true, beq_iff_eq] at form
    have quote : (cs ++ b :: more).dropLast.contains '"' = true := by
      rw [List.dropLast_append_of_ne_nil (List.cons_ne_nil b more), List.contains_iff_mem]
      exact List.mem_append_left _ (List.mem_of_getLast? form.1)
    rw [List.cons_append, isDefault, quote, Bool.not_true, Bool.and_false]
  · exact nestedStops form (List.cons_ne_nil b more)
  · rename_i filled _ _ _
    obtain ⟨c, cs, rfl⟩ := List.exists_cons_of_ne_nil filled
    have plain := List.all_eq_true.mp form c List.mem_cons_self
    unfold isDefault
    split
    · rfl
    · rename_i start
      obtain ⟨rfl, -⟩ := List.cons.inj start
      contradiction
    · rename_i start
      obtain ⟨rfl, -⟩ := List.cons.inj start
      contradiction
    · rename_i start
      obtain ⟨rfl, -⟩ := List.cons.inj start
      contradiction
    · simp [blank]

theorem defaultOverlong {s : String} (form : DefaultForm (some s) cs) (blank : isBlank b = true)
    (solid : ∃ t ∈ more, isBlank t = false) : itemDefault? (cs ++ b :: more) = none := by
  cases form with
  | @given front gap value back keyword apart form blanks =>
    have filled : value ≠ [] := by
      rintro rfl
      contradiction
    obtain ⟨t, inside, notBlank⟩ := solid
    generalize behind : back ++ b :: more = rest
    have text : front ++ (gap ++ (value ++ back)) ++ b :: more = front ++ (gap ++ (value ++ rest)) := by
      simp only [← behind, List.append_assoc]
    have words : words? ["default"] (front ++ (gap ++ (value ++ rest))) = some (gap ++ (value ++ rest)) :=
      (wordsForm (by decide)).mpr ⟨front, keyword, rfl⟩
    have atValue : blanks? (gap ++ (value ++ rest)) = some (value ++ rest) :=
      blanksForm.mpr ⟨gap, apart, rfl, firstLeft filled (defaultEnds form).1⟩
    have notAll : ¬ (front ++ (gap ++ (value ++ rest))).all isBlank = true := by
      intro all
      have here := List.all_eq_true.mp all t (by simp [← behind, inside])
      rw [notBlank] at here
      contradiction
    have first : ∀ t ∈ rest.head?, isBlank t = true := by
      have between : Gap (back ++ [b]) := ⟨by simp, by simpa [or_imp, forall_and] using ⟨blanks, blank⟩⟩
      have here := gapFirst between more
      rwa [List.append_assoc, List.singleton_append, behind] at here
    have solid : ∃ t ∈ rest, isBlank t = false := ⟨t, by simp [← behind, inside], notBlank⟩
    have trimmed : ∃ d others, isBlank d = true ∧ trimEnd (value ++ rest) = value ++ d :: others :=
      trimEndBehind first solid
    obtain ⟨d, others, still, shown⟩ := trimmed
    rw [text, itemDefault?, if_neg notAll, words, Option.bind_eq_bind, Option.bind_some, atValue]
    simp [shown, defaultStops form still]

def Overlong (s : String) (b : Char) (more rest : List Char) : Prop :=
  ∃ front, DefaultForm (some s) front ∧ rest = front ++ b :: more

theorem overlongLeads {s : String} : ∀ rest, Overlong s b more rest → Leads ['d'] rest := by
  rintro _ ⟨front, form, rfl⟩
  cases form with
  | given keyword =>
    rw [List.append_assoc]
    exact spacedLeads (by decide) keyword rfl _

theorem defaultEndsItem (read : column? item = some c) (given : c.default ≠ none) :
    (∀ b more, isBlank b = true → (∃ t ∈ more, isBlank t = false) → column? (item ++ b :: more) = none) ∧
    ∃ front keyword gap value back, item = front ++ (keyword ++ (gap ++ (value ++ back))) ∧
      column? front = some { c with default := none } ∧ Spaced ["default"] keyword ∧ Gap gap ∧
      c.default = some (String.ofList value) ∧ isDefault value = true ∧ ∀ t ∈ back, isBlank t = true := by
  obtain ⟨s, default⟩ := Option.ne_none_iff_exists'.mp given
  cases columnForm.mp read with
  | @item written name gap type tail _ named apart filled solid behind facts =>
    have constrained : Constrained c (DefaultForm c.default) tail := behind
    rw [default] at constrained
    constructor
    · intro b more blank visible
      have longer : Constrained c (Overlong s b more) (tail ++ b :: more) :=
        constrainedThen (fun rest form => ⟨rest, form, rfl⟩) constrained
      obtain ⟨_, ⟨front, form, rfl⟩, made⟩ := columnUpTo named apart filled solid overlongLeads longer
      have text : written ++ (gap ++ (type ++ tail)) ++ b :: more =
          written ++ (gap ++ (type ++ (tail ++ b :: more))) := by
        simp only [List.append_assoc]
      rw [text, made, defaultOverlong form blank visible, Option.map_none]
    · obtain ⟨front, rest, rfl, alone, form⟩ := constrainedSplit constrained
      have before : column? (written ++ (gap ++ (type ++ front))) = some { c with default := none } :=
        columnForm.mpr (.item named apart filled solid alone facts)
      cases form with
      | @given keyword between value back spaced gapped form blanks =>
        refine ⟨_, keyword, between, value, back, ?_, before, spaced, gapped, default, form, blanks⟩
        simp only [List.append_assoc]

def weightItem : List Char := "weight FLOAT NOT NULL DEFAULT (1 + (2))\t".toList

def weightColumn : Column :=
  { Column.introspected "weight" "FLOAT" with notNull := true, default := some "(1 + (2))" }

theorem weightEndsItem :
    column? weightItem = some weightColumn ∧ column? (weightItem ++ ' ' :: "CHECK (weight > 0)".toList) = none ∧
    ∃ front keyword gap value back, weightItem = front ++ (keyword ++ (gap ++ (value ++ back))) ∧
      column? front = some { Column.introspected "weight" "FLOAT" with notNull := true } ∧
      String.ofList value = "(1 + (2))" := by
  have read : column? weightItem = some weightColumn := by decide +kernel
  obtain ⟨longer, front, keyword, gap, value, back, text, before, _, _, default, _⟩ :=
    defaultEndsItem read (by decide)
  refine ⟨read, longer ' ' _ (by decide) ⟨'C', by decide, by decide⟩,
    front, keyword, gap, value, back, text, before, ?_⟩
  exact (Option.some.inj default).symm

end Ended

end LiveSchema
