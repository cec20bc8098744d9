import LiveSchema.Proofs.StoredDefinition
/-! An index's definition in SQLite: as it is written when the index is made, and the group that is read from
it. The name of the index holds the table's, so the group's is what stands behind that. -/
namespace LiveSchema
open Text Catalog

def indexHead? (definition : List Char) : Option (List Char × List Char) := do
  let rest ← blanks? (← words? ["index"] (← word? "create" (skipBlanks definition)))
  let (index, rest) ← run? (!isBlank ·) (optionalIfNotExists rest)
  return (index, ← bareName? (← blanks? (← words? ["on"] rest)))

def opened? (cs : List Char) : Option (List Char) :=
  match skipBlanks cs with
  | '(' :: rest => some rest
  | _ => none

def openedList? (definition : List Char) : Option (List Char × List Char) := do
  let (index, rest) ← indexHead? definition
  return (index, ← opened? rest)

section Parts
variable {cs inner index definition : List Char}

theorem openedForm {rest : List Char} : opened? cs = some rest ↔ skipBlanks cs = '(' :: rest := by
  constructor
  · intro found
    unfold opened? at found
    split at found
    · rename_i form
      rw [form, Option.some.inj found]
    · contradiction
  · intro form
    simp only [opened?, form]

theorem parenthesisedForm : parenthesised? cs = some inner ↔ opened? cs = some (inner ++ [')']) := by
  rw [openedForm]
  constructor
  · intro found
    unfold parenthesised? at found
    split at found
    · rename_i rest form
      split at found
      · rename_i back reversed
        rw [form, ← Option.some.inj found, ← List.reverse_cons, ← reversed, List.reverse_reverse]
      · contradiction
    · contradiction
  · intro form
    simp [parenthesised?, form]

theorem indexPartsForm : indexParts? definition = some (index, inner) ↔
    openedList? (trimEnd definition) = some (index, inner ++ [')']) ∧ inner ≠ [] := by
  have parts : indexParts? definition = (indexHead? (trimEnd definition)).bind fun head =>
      (parenthesised? head.2).bind fun inner => if inner = [] then none else some (head.1, inner) := by
    simp only [indexParts?, indexHead?, Option.bind_eq_bind, Option.bind_assoc, Option.pure_def,
      Option.bind_some]
  rw [parts, openedList?]
  cases indexHead? (trimEnd definition) with
  | none => simp
  | some head =>
    obtain ⟨name, rest⟩ := head
    simp only [Option.bind_eq_bind, Option.bind_some, Option.bind_eq_some_iff, parenthesisedForm,
      Option.pure_def, Option.some_inj, Prod.mk.injEq]
    constructor
    · rintro ⟨found, parens, made⟩
      split at made
      · contradiction
      · rename_i filled
        cases made
        exact ⟨⟨_, parens, rfl, rfl⟩, filled⟩
    · rintro ⟨⟨_, parens, rfl, rfl⟩, filled⟩
      exact ⟨inner, parens, if_neg filled⟩

theorem indexForm {table definition : String} {g : ColumnGroup} : index? table definition = some g ↔
    ∃ index inner, openedList? (trimEnd definition.toList) = some (index, inner ++ [')']) ∧ inner ≠ [] ∧
      groupName? table index = some g.name ∧ names inner = g.columns := by
  simp only [index?, Option.bind_eq_bind, Option.bind_eq_some_iff, Option.pure_def, Prod.exists]
  constructor
  · rintro ⟨index, inner, parts, name, named, made⟩
    cases made
    obtain ⟨opened, filled⟩ := indexPartsForm.mp parts
    exact ⟨index, inner, opened, filled, named, rfl⟩
  · rintro ⟨index, inner, opened, filled, named, columns⟩
    exact ⟨index, inner, indexPartsForm.mpr ⟨opened, filled⟩, g.name, named, by rw [columns]⟩

end Parts

section Name
variable {table other name : String} {start text : List Char}

theorem startRead (same : text.map asciiLower = start.map asciiLower) (rest : List Char) :
    dropStart? start (text ++ rest) = some rest := by
  induction start generalizing text with
  | nil =>
    cases text with
    | nil => rfl
    | cons => contradiction
  | cons k start ih =>
    cases text with
    | nil => contradiction
    | cons c text =>
      obtain ⟨first, later⟩ := List.cons.inj same
      rw [List.cons_append, dropStart?, if_pos first, ih later]

theorem indexNameChars (table name : String) : (Dialect.sqlite.indexName table name).toList =
    ("idx_" ++ table ++ "_").toList ++ name.toList := by
  simp [Dialect.indexName]

theorem indexNameSolid (tableName : LegibleTable table) (solid : ∀ c ∈ name.toList, isEdge c = false) :
    ∀ c ∈ (Dialect.sqlite.indexName table name).toList, isEdge c = false := by
  have around : ∀ c ∈ "idx__".toList, isEdge c = false := by decide
  intro c member
  simp only [Dialect.indexName, String.toList_append, List.mem_append] at member
  rcases member with ((start | inTable) | between) | inName
  · exact around c (by simp_all)
  · exact (tableName.plain c inTable).1
  · exact around c (by simp_all)
  · exact solid c inName

theorem groupNamed (tableName : LegibleTable table) (same : nameKey other = nameKey table)
    (named : name ≠ "") (solid : ∀ c ∈ name.toList, isEdge c = false) :
    groupName? other (Dialect.sqlite.indexName table name).toList = some name := by
  have inner := indexNameSolid tableName solid
  have bare : unquote (Dialect.sqlite.indexName table name).toList =
      (Dialect.sqlite.indexName table name).toList :=
    trimByKeeps (fun c head => inner c (List.mem_of_mem_head? head))
      fun c last => inner c (List.mem_of_mem_getLast? last)
  have start : ("idx_" ++ table ++ "_").toList.map asciiLower =
      ("idx_" ++ other ++ "_").toList.map asciiLower := by
    have keys : table.toList.map asciiLower = other.toList.map asciiLower := same.symm
    simp [keys]
  have filled : name.toList ≠ [] := by simpa using named
  obtain ⟨c, cs, form⟩ := List.exists_cons_of_ne_nil filled
  have whole : String.ofList (c :: cs) = name := by rw [← form, String.ofList_toList]
  rw [groupName?, bare, indexNameChars, startRead start, form]
  exact congrArg some whole

end Name

section Text
variable {table other name : String} {columns : List String}

def indexText (table name : String) (columns : List String) : String :=
  "CREATE INDEX " ++ Dialect.sqlite.indexName table name ++ " ON " ++ table ++
    " (" ++ Dialect.sqlite.maskAll columns ++ ")"

theorem indexTextChars (table name : String) (columns : List String) :
    (indexText table name columns).toList = "CREATE INDEX ".toList ++
      ((Dialect.sqlite.indexName table name).toList ++ (" ON ".toList ++
        (table.toList ++ ' ' :: '(' :: ((Dialect.sqlite.maskAll columns).toList ++ [')'])))) := by
  unfold indexText
  simp

theorem indexTextEnd (table name : String) (columns : List String) :
    trimEnd (indexText table name columns).toList = (indexText table name columns).toList := by
  have last : ∀ c ∈ (indexText table name columns).toList.getLast?, isBlank c = false := by
    unfold indexText
    rw [String.toList_append]
    exact lastRight (List.cons_ne_nil _ _) fun c last => Option.some.inj last ▸ rfl
  have kept := trimEndRead last (List.forall_mem_nil _)
  rwa [List.append_nil] at kept

/-- The name of an index begins with "id", so it is not taken for "if not exists". -/
theorem indexNoOption (table name : String) (rest : List Char) :
    optionalIfNotExists ((Dialect.sqlite.indexName table name).toList ++ rest) =
      (Dialect.sqlite.indexName table name).toList ++ rest := by
  rw [indexNameChars, String.toList_append, String.toList_append, List.append_assoc, List.append_assoc,
    List.append_assoc]
  rfl

theorem headRead (tableName : LegibleTable table) (solid : ∀ c ∈ name.toList, isEdge c = false) :
    indexHead? (indexText table name columns).toList = some ((Dialect.sqlite.indexName table name).toList,
      ' ' :: '(' :: ((Dialect.sqlite.maskAll columns).toList ++ [')'])) := by
  have before (tail : List Char) : skipBlanks ("CREATE INDEX ".toList ++ tail) =
      "CREATE INDEX ".toList ++ tail ∧
      word? "create" ("CREATE INDEX ".toList ++ tail) = some (" INDEX ".toList ++ tail) ∧
      words? ["index"] (" INDEX ".toList ++ tail) = some (' ' :: tail) := ⟨rfl, rfl, rfl⟩
  have between (tail : List Char) : words? ["on"] (" ON ".toList ++ tail) = some (' ' :: tail) := rfl
  have filled : (Dialect.sqlite.indexName table name).toList ≠ [] := by simp [Dialect.indexName]
  have noBlank (c : Char) (member : c ∈ (Dialect.sqlite.indexName table name).toList) : isBlank c = false :=
    (Definition.innerEdge (indexNameSolid tableName solid c member)).1
  have first (rest : List Char) :
      ∀ c ∈ ((Dialect.sqlite.indexName table name).toList ++ rest).head?, isBlank c = false :=
    firstLeft filled fun c head => noBlank c (List.mem_of_mem_head? head)
  have run (tail : List Char) : run? (!isBlank ·)
      ((Dialect.sqlite.indexName table name).toList ++ (" ON ".toList ++ tail)) =
      some ((Dialect.sqlite.indexName table name).toList, " ON ".toList ++ tail) := by
    refine runRead filled (fun c member => by rw [noBlank c member]; rfl) fun c head => ?_
    cases head
    rfl
  rw [indexTextChars, indexHead?, (before _).1, (before _).2.1]
  simp only [Option.bind_eq_bind, Option.bind_some, (before _).2.2, blanksRead (first _), indexNoOption, run,
    between, blanksRead (Definition.tableStart tableName _), Definition.tableNameRead tableName, Option.pure_def]

theorem readIndexDefinition {g : ColumnGroup} (tableName : LegibleTable table)
    (same : nameKey other = nameKey table) (named : g.name ≠ "")
    (solid : ∀ c ∈ g.name.toList, isEdge c = false) (legible : g.Legible) :
    ∃ definition, (Change.createIndex table g).sql .sqlite = .ok definition ∧
      Catalog.readIndex other definition = .ok g := by
  refine ⟨indexText table g.name g.columns, rfl, ?_⟩
  have read : names (Dialect.sqlite.maskAll g.columns).toList = g.columns :=
    namesRead legible.filled legible.names
  have filled : (Dialect.sqlite.maskAll g.columns).toList ≠ [] :=
    maskedFilled legible.filled legible.names
  have opened : openedList? (trimEnd (indexText table g.name g.columns).toList) =
      some ((Dialect.sqlite.indexName table g.name).toList,
        (Dialect.sqlite.maskAll g.columns).toList ++ [')']) := by
    rw [indexTextEnd, openedList?, headRead tableName solid]
    rfl
  have group := indexForm.mpr ⟨_, _, opened, filled, groupNamed tableName same named solid, read⟩
  rw [readIndex, group]

end Text

def visitGroup : ColumnGroup := ⟨"by_City", ["home town", "it's (new)"]⟩

def visitDefinition : String :=
  "CREATE INDEX idx_Visit_Log_by_City ON Visit_Log ([home town],[it's (new)])"

theorem visitIndexRead : nameKey "visit_log" = nameKey "Visit_Log" ∧
    (Change.createIndex "Visit_Log" visitGroup).sql .sqlite = .ok visitDefinition ∧
    Catalog.readIndex "visit_log" visitDefinition = .ok visitGroup := by
  have same : nameKey "visit_log" = nameKey "Visit_Log" := by decide
  obtain ⟨definition, written, read⟩ := @readIndexDefinition "Visit_Log" "visit_log" visitGroup
    ⟨by decide, by decide⟩ same (by decide) (by decide) ⟨by decide, by decide⟩
  have text : (Change.createIndex "Visit_Log" visitGroup).sql .sqlite = .ok visitDefinition := by
    decide +kernel
  cases Except.ok.inj (written.symm.trans text)
  exact ⟨same, text, read⟩

end LiveSchema
