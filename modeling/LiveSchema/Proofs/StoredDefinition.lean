import LiveSchema.Catalog.Definition
import LiveSchema.Proofs.ColumnText
/-! A table's definition in SQLite: as it is written when the table is made, as it grows by the columns
that are added, and the table that is read from it. -/
namespace LiveSchema
open Text Catalog

theorem parenthesisedRead (cs : List Char) : parenthesised? ('(' :: (cs ++ [')'])) = some cs := by
  have bare : skipBlanks ('(' :: (cs ++ [')'])) = '(' :: (cs ++ [')']) := rfl
  simp [parenthesised?, bare]

section Names
variable {first name : String} {rest columns : List String} {cs : List Char}

theorem pieceEnds (whole : ',' ∉ cs) (rest : List Char) :
    pieces ',' cs = [cs] ∧ pieces ',' (cs ++ ',' :: rest) = cs :: pieces ',' rest := by
  induction cs with
  | nil => simp [pieces]
  | cons c cs ih =>
    simp only [List.mem_cons, not_or] at whole
    simp [pieces, Ne.symm whole.1, ih whole.2, consFirst]

theorem piecesJoined (whole : ∀ s ∈ first :: rest, ',' ∉ s.toList) :
    pieces ',' (joinWith "," (first :: rest)).toList = (first :: rest).map (·.toList) := by
  induction rest generalizing first with
  | nil => exact (pieceEnds (whole first List.mem_cons_self) []).1
  | cons second rest ih =>
    have later := ih fun s member => whole s (List.mem_cons_of_mem first member)
    have here := (pieceEnds (whole first List.mem_cons_self)
      (joinWith "," (second :: rest)).toList).2
    simpa [joinWith, later] using here

theorem unquoteBracket (legible : LegibleName name) : unquote (bracket name).toList = name.toList := by
  have text : (bracket name).toList = ['['] ++ name.toList ++ [']'] := by simp [bracket]
  have named : name.toList ≠ [] := by simpa using legible.nonempty
  rw [text, unquote]
  exact trimByInner named legible.first legible.last (by decide)

theorem bracketsWhole (legible : ∀ n ∈ columns, LegibleName n) :
    ∀ s ∈ columns.map bracket, ',' ∉ s.toList := by
  intro s member
  obtain ⟨n, inside, rfl⟩ := List.mem_map.mp member
  simpa [bracket] using (legible n inside).whole

theorem namesRead (filled : columns ≠ []) (legible : ∀ n ∈ columns, LegibleName n) :
    names (joinWith "," (columns.map bracket)).toList = columns := by
  have cut : pieces ',' (joinWith "," (columns.map bracket)).toList =
      columns.map fun n => (bracket n).toList := by
    cases columns with
    | nil => contradiction
    | cons n more =>
      have joined := piecesJoined (bracketsWhole legible)
      rw [← List.map_cons, List.map_map] at joined
      exact joined
  have same : ∀ n ∈ columns, String.ofList (unquote (bracket n).toList) = n := fun n member => by
    rw [unquoteBracket (legible n member), String.ofList_toList]
  rw [names, cut, List.map_map]
  exact (List.map_congr_left same).trans (List.map_id _)

theorem maskedFilled (filled : columns ≠ []) (legible : ∀ n ∈ columns, LegibleName n) :
    (joinWith "," (columns.map bracket)).toList ≠ [] := by
  intro empty
  have read := namesRead filled legible
  rw [empty] at read
  have blank : "" ∈ columns := read ▸ List.mem_cons_self
  exact (legible "" blank).nonempty rfl

end Names

namespace ColumnGroup

structure Legible (g : ColumnGroup) : Prop where
  filled : g.columns ≠ []
  names : ∀ n ∈ g.columns, LegibleName n

def uniqueText (g : ColumnGroup) : String := Change.uniqueItem .sqlite g

section
variable {g : ColumnGroup}

theorem uniqueTextChars (g : ColumnGroup) : g.uniqueText.toList =
    "UNIQUE".toList ++ ('(' :: (joinWith "," (g.columns.map bracket)).toList ++ [')']) := by
  have masked : Dialect.sqlite.maskAll g.columns = joinWith "," (g.columns.map bracket) := rfl
  simp [uniqueText, Change.uniqueItem, masked]

theorem uniqueRead (legible : g.Legible) : uniqueItem? g.uniqueText.toList = some g.columns := by
  have read := namesRead legible.filled legible.names
  have inner := maskedFilled legible.filled legible.names
  have keyword (cs : List Char) : word? "unique" ("UNIQUE".toList ++ cs) = some cs := rfl
  rw [uniqueItem?, uniqueTextChars, keyword, Option.bind_eq_bind, Option.bind_some, List.cons_append,
    parenthesisedRead, Option.bind_some, if_neg inner, read]

theorem joinedPasses {depth : Nat} {texts : List String}
    (each : ∀ s ∈ texts, Passes (depth + 1) (depth + 1) s.toList) :
    Passes (depth + 1) (depth + 1) (joinWith "," texts).toList := by
  fun_induction joinWith "," texts with
  | case1 => exact passesNil
  | case2 s => exact each s List.mem_cons_self
  | case3 s rest _ ih =>
    have later := ih fun t member => each t (List.mem_cons_of_mem s member)
    have comma : Passes (depth + 1) (depth + 1) ",".toList := by
      refine passesInner fun c member => ⟨?_, fun _ => Nat.succ_ne_zero depth⟩
      exact List.mem_singleton.mp member ▸ rfl
    rw [String.toList_append, String.toList_append]
    exact passesAppend (passesAppend (each s List.mem_cons_self) comma) later

theorem uniquePasses (legible : g.Legible) : Passes 0 0 g.uniqueText.toList := by
  have bracketed : ∀ s ∈ g.columns.map bracket, Passes 1 1 s.toList := by
    intro s member
    obtain ⟨n, inside, rfl⟩ := List.mem_map.mp member
    have text : (bracket n).toList = '[' :: n.toList ++ [']'] := by simp [bracket]
    exact text ▸ passesBracketed (legible.names n inside).closed
  rw [uniqueTextChars]
  exact passesAppend (passesInner (by decide)) (passesParens (joinedPasses bracketed))

theorem uniqueTrimmed (g : ColumnGroup) : trim g.uniqueText.toList = g.uniqueText.toList := by
  rw [uniqueTextChars]
  refine trimByKeeps (by simp; decide) (lastRight (by simp) (lastRight (by simp) ?_))
  decide

theorem uniqueListed (legible : g.Legible) : Lists (' ' :: g.uniqueText.toList) [g.uniqueText.toList] := by
  have listed := listsBlankItem (uniquePasses legible)
  rwa [uniqueTrimmed] at listed

end

end ColumnGroup

structure LegibleTable (table : String) : Prop where
  nonempty : table ≠ ""
  plain : ∀ c ∈ table.toList, isEdge c = false ∧ c ≠ '('

namespace Definition

def tableText (table body : String) : String := "CREATE TABLE " ++ table ++ " (" ++ body ++ ")"

/-- SQLite writes the definition of an added column before the final parenthesis. -/
def appendItem (definition item : String) : String :=
  String.ofList definition.toList.dropLast ++ ", " ++ item ++ ")"

theorem tableTextEnd (table body : String) : (tableText table body).toList =
    ("CREATE TABLE " ++ table ++ " (" ++ body).toList ++ [')'] := String.toList_append

theorem appendItemText (table body item : String) :
    appendItem (tableText table body) item = tableText table (body ++ ", " ++ item) := by
  unfold appendItem
  rw [tableTextEnd, List.dropLast_concat, String.ofList_toList]
  unfold tableText
  simp only [String.append_assoc]

theorem writtenTable (m : Model) : (Change.ofModel m).sql .sqlite = .ok (tableText m.table
    (Change.tableItems .sqlite (m.columns.map Column.definitionText) m.uniques)) := by
  have definitions : m.columns.mapM (·.definition .sqlite) =
      .ok (m.columns.map Column.definitionText) := by
    rw [funext Column.definitionWritten]
    exact List.mapM_pure
  simp only [Change.ofModel, Change.sql, definitions]
  rfl

section Body
variable {table : String} {rest : List Char}

theorem innerEdge {c : Char} (inner : isEdge c = false) :
    isBlank c = false ∧ closingQuote? c = none := by
  simp only [isEdge, Bool.or_eq_false_iff] at inner
  refine ⟨inner.2, ?_⟩
  unfold closingQuote?
  split <;> first | rfl | simp at inner

theorem tableFirst (legible : LegibleTable table) :
    ∃ c cs, table.toList = c :: cs ∧ isEdge c = false ∧ ∀ d ∈ cs, isEdge d = false := by
  cases form : table.toList with
  | nil => exact absurd (String.toList_inj.mp form) legible.nonempty
  | cons c cs =>
    have plain (d : Char) (member : d ∈ c :: cs) : isEdge d = false :=
      (legible.plain d (form ▸ member)).1
    exact ⟨c, cs, rfl, plain c List.mem_cons_self, fun d member => plain d (List.mem_cons_of_mem c member)⟩

/-- A table may be called "if", but "not exists" does not follow. -/
theorem noOption (legible : LegibleTable table) :
    optionalIfNotExists (table.toList ++ ' ' :: '(' :: rest) = table.toList ++ ' ' :: '(' :: rest := by
  obtain ⟨c, cs, form, _, others⟩ := tableFirst legible
  have absent (cs : List Char) (inner : ∀ d ∈ cs, isEdge d = false) :
      words? ["not", "exists"] (cs ++ ' ' :: '(' :: rest) = none := by
    cases cs with
    | nil => rfl
    | cons d ds => simp [words?, blanks?, (innerEdge (inner d List.mem_cons_self)).1]
  have noWords : (do blanks? (← words? ["not", "exists"]
      (← word? "if" (table.toList ++ ' ' :: '(' :: rest)))) = none := by
    cases begins : word? "if" (table.toList ++ ' ' :: '(' :: rest) with
    | none => rfl
    | some tail =>
      have suffix : ∃ ds, tail = ds ++ ' ' :: '(' :: rest ∧ ∀ d ∈ ds, isEdge d = false := by
        rw [form] at begins
        cases cs with
        | nil => simp [word?, dropKeyword?, foldLetter, asciiLower] at begins
        | cons d ds =>
          have keyword : "if".toList = ['i', 'f'] := rfl
          simp only [word?, keyword, List.cons_append, dropKeyword?] at begins
          split at begins
          · split at begins
            · exact ⟨ds, (Option.some.inj begins).symm, fun e member => others e (List.mem_cons_of_mem d member)⟩
            · contradiction
          · contradiction
      obtain ⟨ds, rfl, inner⟩ := suffix
      simp [absent ds inner]
  rw [optionalIfNotExists, noWords]
  rfl

theorem tableStart (legible : LegibleTable table) (rest : List Char) :
    ∀ c ∈ (table.toList ++ rest).head?, isBlank c = false := by
  obtain ⟨c, cs, form, edge, _⟩ := tableFirst legible
  rw [form]
  exact fun d first => Option.some.inj first ▸ (innerEdge edge).1

theorem tableNameRead (legible : LegibleTable table) :
    bareName? (table.toList ++ ' ' :: rest) = some (' ' :: rest) := by
  have nonempty : table.toList ≠ [] := by simpa using legible.nonempty
  rw [bareName?, runRead nonempty]
  · rfl
  · intro c member
    have plain := legible.plain c member
    simp [(innerEdge plain.1).1, plain.2]
  · exact fun c first => Option.some.inj first ▸ rfl

theorem bodyRead (legible : LegibleTable table) (body : String) :
    tableBody? (tableText table body).toList = some body.toList := by
  have text : (tableText table body).toList =
      "CREATE TABLE ".toList ++ (table.toList ++ ' ' :: '(' :: (body.toList ++ [')'])) := by
    unfold tableText
    simp
  obtain ⟨c, cs, form, edge, _⟩ := tableFirst legible
  have trimmed : trimEnd (tableText table body).toList = (tableText table body).toList := by
    have last : ∀ c ∈ (tableText table body).toList.reverse.head?, isBlank c = false := by
      rw [tableTextEnd, List.reverse_append]
      exact fun c closing => Option.some.inj closing ▸ rfl
    rw [trimEnd, dropWhileKeeps last, List.reverse_reverse]
  have words (tail : List Char) : skipBlanks ("CREATE TABLE ".toList ++ tail) =
      "CREATE TABLE ".toList ++ tail ∧
      word? "create" ("CREATE TABLE ".toList ++ tail) = some (" TABLE ".toList ++ tail) ∧
      words? ["table"] (" TABLE ".toList ++ tail) = some (' ' :: tail) := ⟨rfl, rfl, rfl⟩
  have unquoted : quotedName? (table.toList ++ ' ' :: '(' :: (body.toList ++ [')'])) = none := by
    rw [form, List.cons_append, quotedName?, (innerEdge edge).2]
    rfl
  have inside : parenthesised? (' ' :: '(' :: (body.toList ++ [')'])) = some body.toList :=
    parenthesisedRead body.toList
  rw [tableBody?, trimmed, text, (words _).1, (words _).2.1]
  simp only [Option.bind_eq_bind, Option.bind_some, (words _).2.2, blanksRead (tableStart legible _),
    noOption legible, unquoted, tableNameRead legible, inside, Option.bind_none, Option.none_or]

end Body

section Items
variable {columns extra : List Column} {uniques : List ColumnGroup} {body : String}
  {texts : List (List Char)}

theorem columnsListed (filled : columns ≠ []) (legible : ∀ c ∈ columns, c.Legible) :
    Lists (joinWith "," (columns.map Column.definitionText)).toList
      (columns.map (·.definitionText.toList)) := by
  have trimmed : columns.map (trim ·.definitionText.toList) = columns.map (·.definitionText.toList) :=
    List.map_congr_left fun c member => Column.definitionTrimmed (legible c member)
  cases columns with
  | nil => contradiction
  | cons c rest =>
    have passes : ∀ s ∈ (c :: rest).map Column.definitionText, Passes 0 0 s.toList := by
      intro s member
      obtain ⟨c', inside, rfl⟩ := List.mem_map.mp member
      exact Column.definitionPasses (legible c' inside)
    have listed := listsJoined passes
    rw [← List.map_cons, List.map_map] at listed
    rw [← trimmed]
    exact listed

theorem uniquesListed (listed : Lists body.toList texts) (legible : ∀ g ∈ uniques, g.Legible) :
    Lists (body ++ String.join (uniques.map fun g => ", " ++ g.uniqueText)).toList
      (texts ++ uniques.map (·.uniqueText.toList)) := by
  induction uniques generalizing body texts with
  | nil => simpa using listed
  | cons g rest ih =>
    have here := listsAppend listed (ColumnGroup.uniqueListed (legible g List.mem_cons_self))
    have grown : body.toList ++ ',' :: ' ' :: g.uniqueText.toList =
        (body ++ (", " ++ g.uniqueText)).toList := by simp
    rw [grown] at here
    have all := ih here fun h member => legible h (List.mem_cons_of_mem g member)
    simpa [String.join_cons, String.append_assoc] using all

theorem extraListed (table : String) (listed : Lists body.toList texts)
    (legible : ∀ c ∈ extra, c.Legible) :
    ∃ grown : String, (extra.map Column.definitionText).foldl appendItem (tableText table body) =
      tableText table grown ∧
      Lists grown.toList (texts ++ extra.map (·.definitionText.toList)) := by
  induction extra generalizing body texts with
  | nil => exact ⟨body, rfl, by simpa using listed⟩
  | cons c rest ih =>
    have ok := legible c List.mem_cons_self
    have item := listsBlankItem (Column.definitionPasses ok)
    rw [Column.definitionTrimmed ok] at item
    have here := listsAppend listed item
    have text : body.toList ++ ',' :: ' ' :: c.definitionText.toList =
        (body ++ ", " ++ c.definitionText).toList := by simp
    rw [text] at here
    obtain ⟨grown, same, all⟩ := ih here fun d member => legible d (List.mem_cons_of_mem c member)
    refine ⟨grown, ?_, by simpa using all⟩
    rw [List.map_cons, List.foldl_cons, appendItemText, same]

theorem enterColumns (legible : ∀ c ∈ columns, c.Legible) (t : Table) (rest : List (List Char)) :
    enterItems t (columns.map (·.definitionText.toList) ++ rest) =
      enterItems { t with columns := t.columns ++ columns.map Column.stored } rest := by
  induction columns generalizing t with
  | nil => simp
  | cons c others ih =>
    have ok := legible c List.mem_cons_self
    have noGroup : uniqueItem? c.definitionText.toList = none := by
      have text : c.definitionText.toList = '[' :: (c.name ++ "] " ++ c.typeText ++ c.constraints).toList := by
        simp [Column.definitionText, bracket]
      rw [text]
      rfl
    rw [List.map_cons, List.cons_append, enterItems, noGroup, Column.columnRead ok]
    dsimp only
    rw [ih fun d member => legible d (List.mem_cons_of_mem c member)]
    simp

theorem enterUniques (legible : ∀ g ∈ uniques, g.Legible) (t : Table) (rest : List (List Char)) :
    enterItems t (uniques.map (·.uniqueText.toList) ++ rest) =
      enterItems { t with uniques := t.uniques ++ uniques.map fun g => ⟨"", g.columns⟩ } rest := by
  induction uniques generalizing t with
  | nil => simp
  | cons g others ih =>
    rw [List.map_cons, List.cons_append, enterItems,
      ColumnGroup.uniqueRead (legible g List.mem_cons_self)]
    dsimp only
    rw [ih fun h member => legible h (List.mem_cons_of_mem g member)]
    simp

end Items

end Definition

theorem readTableDefinition {table name : String} {fields : List FieldSpec} {m : Model}
    {extra : List Column} (built : Model.build table none fields = .ok m) (filled : m.columns ≠ [])
    (declared : ∀ c ∈ extra, c.IsDeclared) (tableName : LegibleTable table)
    (names : ∀ c ∈ m.columns ++ extra, LegibleName c.name)
    (defaults : ∀ c ∈ m.columns ++ extra, ∀ s ∈ c.default, LegibleDefault s) :
    ∃ definition items, (Change.ofModel m).sql .sqlite = .ok definition ∧
      extra.mapM (·.definition .sqlite) = .ok items ∧
      Catalog.readTable name (items.foldl Definition.appendItem definition) =
        .ok { name
              columns := (m.columns ++ extra).map Column.stored
              uniques := m.uniques.map fun g => ⟨"", g.columns⟩ } := by
  have legible : ∀ c ∈ m.columns ++ extra, c.Legible := by
    intro c member
    refine ⟨?_, names c member, defaults c member⟩
    rcases List.mem_append.mp member with ofModel | further
    · exact Model.builtDeclared built c ofModel
    · exact declared c further
  have ofModel (c : Column) (member : c ∈ m.columns) := legible c (List.mem_append_left _ member)
  have further (c : Column) (member : c ∈ extra) := legible c (List.mem_append_right _ member)
  have groups : ∀ g ∈ m.uniques, g.Legible := by
    intro g member
    have built := (Model.builtGroups built).2
    refine ⟨built.filled g member, fun n inside => ?_⟩
    obtain ⟨c, isColumn, rfl⟩ := List.mem_map.mp (built.within g member n inside)
    exact (ofModel c isColumn).name
  have columns := Definition.columnsListed filled ofModel
  have body := Definition.uniquesListed columns groups
  obtain ⟨grown, same, listed⟩ := Definition.extraListed m.table body further
  have items : extra.mapM (·.definition .sqlite) = .ok (extra.map Column.definitionText) := by
    rw [funext Column.definitionWritten]
    exact List.mapM_pure
  refine ⟨_, _, Definition.writtenTable m, items, ?_⟩
  have read : Catalog.table? name (Definition.tableText m.table grown) =
      some { name
             columns := (m.columns ++ extra).map Column.stored
             uniques := m.uniques.map fun g => ⟨"", g.columns⟩ } := by
    have named : LegibleTable m.table := Model.builtTable built ▸ tableName
    have entered : enterItems { name, columns := [] } (Catalog.items grown.toList) =
        some { name
               columns := (m.columns ++ extra).map Column.stored
               uniques := m.uniques.map fun g => ⟨"", g.columns⟩ } := by
      rw [listed.alone, List.append_assoc, Definition.enterColumns ofModel,
        Definition.enterUniques groups, ← List.append_nil (extra.map _), Definition.enterColumns further]
      simp [enterItems]
    rw [Catalog.table?, Definition.bodyRead named, Option.bind_eq_bind, Option.bind_some, entered]
    simp [filled]
  have grownText : (extra.map Column.definitionText).foldl Definition.appendItem
      (Definition.tableText m.table (Change.tableItems .sqlite
        (m.columns.map Column.definitionText) m.uniques)) = Definition.tableText m.table grown := same
  rw [grownText, Catalog.readTable, read]

def trackFields : List FieldSpec :=
  [⟨"Id", .int, "primarykey,autoincrement"⟩,
    ⟨"Title", .text, "column=it's (new),notnull,unique=release,default='a''b'"⟩,
    ⟨"Year", .int, "unique,unique=release,default=(1 + (2))"⟩]

def trackModel : Model :=
  { Model.empty "track" .table with
    columns := [
      { Column.declared "id" .int with field := some "Id", primaryKey := true, autoIncrement := true },
      { Column.declared "it's (new)" .text with
        field := some "Title", notNull := true, default := some "'a''b'" },
      { Column.declared "year" .int with
        field := some "Year", unique := true, default := some "(1 + (2))" }]
    uniques := [⟨"release", ["it's (new)", "year"]⟩] }

def trackNote : Column := { Column.declared "note" .text with default := some "'x, (y'" }

def trackDefinition : String := "CREATE TABLE track ([id] INTEGER PRIMARY KEY AUTOINCREMENT," ++
  "[it's (new)] TEXT NOT NULL DEFAULT 'a''b',[year] INTEGER UNIQUE DEFAULT (1 + (2)), " ++
  "UNIQUE([it's (new)],[year]))"

theorem trackReadBack : Catalog.readTable "track"
    (Definition.appendItem trackDefinition "[note] TEXT DEFAULT 'x, (y'") =
    .ok { name := "track"
          columns := (trackModel.columns ++ [trackNote]).map Column.stored
          uniques := [⟨"", ["it's (new)", "year"]⟩] } := by
  have named (name : String) (legible : name ≠ "" ∧ ']' ∉ name.toList ∧ ',' ∉ name.toList ∧
      (∀ c ∈ name.toList.head?, isEdge c = false) ∧ ∀ c ∈ name.toList.getLast?, isEdge c = false) :
      LegibleName name :=
    ⟨legible.1, legible.2.1, legible.2.2.1, legible.2.2.2.1, legible.2.2.2.2⟩
  have quoted : LegibleDefault "'a''b'" := .literal "a'b"
  have nested : LegibleDefault "(1 + (2))" := by
    have two : Nested ('(' :: ['2'] ++ [')'] ++ []) := .parens (by decide) .nil
    have sum : Nested "1 + (2)".toList := .char rfl <| .char rfl <| .char rfl <| .char rfl two
    exact .parens sum
  have listed : LegibleDefault "'x, (y'" := .literal "x, (y"
  have names : ∀ c ∈ trackModel.columns ++ [trackNote], LegibleName c.name := by
    have each : ∀ name ∈ ["id", "it's (new)", "year", "note"], LegibleName name :=
      List.forall_mem_cons.mpr ⟨named _ (by decide), List.forall_mem_cons.mpr ⟨named _ (by decide),
        List.forall_mem_cons.mpr ⟨named _ (by decide), List.forall_mem_cons.mpr
          ⟨named _ (by decide), List.forall_mem_nil _⟩⟩⟩⟩
    intro c member
    exact each c.name (List.mem_map_of_mem (f := Column.name) member)
  have declared : ∀ c ∈ [trackNote], c.IsDeclared := by
    simpa [trackNote] using ⟨⟨.text, rfl⟩, rfl⟩
  have defaults : ∀ c ∈ trackModel.columns ++ [trackNote], ∀ s ∈ c.default, LegibleDefault s := by
    simp [trackModel, trackNote, Column.declared, quoted, nested, listed]
  obtain ⟨definition, items, written, added, read⟩ :=
    @readTableDefinition "track" "track" trackFields trackModel [trackNote] (by rfl) (by decide) declared
      ⟨by decide, by decide⟩ names defaults
  have created : (Change.ofModel trackModel).sql .sqlite = .ok trackDefinition := by
    decide +kernel
  have note : [trackNote].mapM (·.definition .sqlite) = .ok ["[note] TEXT DEFAULT 'x, (y'"] := by rfl
  cases Except.ok.inj (written.symm.trans created)
  cases Except.ok.inj (added.symm.trans note)
  exact read

end LiveSchema
