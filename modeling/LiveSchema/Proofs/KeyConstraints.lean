import LiveSchema.Proofs.DeclaredModels
import LiveSchema.Proofs.StoredDefinition
import LiveSchema.Proofs.Tokens
/-! The key constraints in the definition of a table. Each column that is part of the key brings a constraint of its
own, and asking for increments brings its word whether there is a key or not. -/
namespace LiveSchema
open Text Token

namespace Token

def primary : Token := named "PRIMARY"

def key : Token := named "KEY"

def autoIncrement : Token := named "AUTOINCREMENT"

end Token

def keyCount : List Token → Nat
  | [] => 0
  | t :: rest => (if t = primary ∧ rest.head? = some key then 1 else 0) + keyCount rest

def AutoBehindKey (ts : List Token) : Prop :=
  ∀ before after, ts = before ++ autoIncrement :: after → [primary, key] <:+ before

def Fresh (ts : List Token) : Prop := ∀ t ∈ ts.head?, t ≠ key ∧ t ≠ autoIncrement

instance (ts : List Token) : Decidable (Fresh ts) :=
  inferInstanceAs (Decidable (∀ t ∈ ts.head?, t ≠ key ∧ t ≠ autoIncrement))

section
variable {a b ts : List Token}

theorem keysAppend (fresh : Fresh b) : keyCount (a ++ b) = keyCount a + keyCount b := by
  induction a with
  | nil => simp [keyCount]
  | cons t rest ih =>
    have apart : b.head? ≠ some key := fun begins => (fresh key begins).1 rfl
    have next : (rest ++ b).head? = some key ↔ rest.head? = some key := by
      cases rest with
      | nil => simp [apart]
      | cons u rest => simp
    rw [List.cons_append, keyCount, keyCount, ih]
    simp only [next]
    omega

theorem keysNone (none : primary ∉ ts) : keyCount ts = 0 := by
  induction ts with
  | nil => rfl
  | cons t rest ih =>
    simp only [List.mem_cons, not_or] at none
    rw [keyCount, ih none.2, if_neg fun begins => none.1 begins.1.symm]

theorem autoNone (none : autoIncrement ∉ ts) : AutoBehindKey ts := by
  rintro before after rfl
  simp at none

theorem keyEnds (fresh : Fresh b) (filled : b ≠ []) (ends : [primary, key] <:+ a ++ b) : [primary, key] <:+ b := by
  rcases List.suffix_or_suffix_of_suffix ends (List.suffix_append a b) with here | part
  · exact here
  · obtain ⟨t, rest, rfl⟩ := List.exists_cons_of_ne_nil filled
    have other : t ≠ key := (fresh t rfl).1
    rcases List.suffix_cons_iff.mp part with both | last
    · exact both ▸ List.suffix_rfl
    · rcases List.suffix_cons_iff.mp last with same | none
      · exact absurd (List.cons.inj same).1 other
      · simp at none

theorem autoAppend (fresh : Fresh b) : AutoBehindKey (a ++ b) ↔ AutoBehindKey a ∧ AutoBehindKey b := by
  have notFirst {after : List Token} (same : b = autoIncrement :: after) : False :=
    (fresh autoIncrement (same ▸ rfl)).2 rfl
  constructor
  · intro whole
    constructor
    · rintro before after rfl
      exact whole before (after ++ b) (by simp)
    · intro before after split
      have behind := whole (a ++ before) after (by simp [split])
      have filled : before ≠ [] := by
        rintro rfl
        exact notFirst split
      refine keyEnds ?_ filled behind
      obtain ⟨t, rest, rfl⟩ := List.exists_cons_of_ne_nil filled
      exact fun u first => fresh u (split ▸ first)
  · rintro ⟨first, second⟩ before after split
    rcases List.append_eq_append_iff.mp split with ⟨inner, rfl, rest⟩ | ⟨inner, rfl, rest⟩
    · exact (second inner after rest).trans (List.suffix_append a inner)
    · cases inner with
      | nil => exact (notFirst rest.symm).elim
      | cons t inner =>
        cases rest
        exact first before inner rfl

theorem freshAppend (first : Fresh a) (second : Fresh b) : Fresh (a ++ b) := by
  cases a with
  | nil => exact second
  | cons t rest => exact first

end

structure Quiet (text : List Char) : Prop where
  closed : Closed text
  noKey : primary ∉ tokens text
  noAuto : autoIncrement ∉ tokens text

instance (text : List Char) : Decidable (Quiet text) :=
  decidable_of_iff (Closed text ∧ primary ∉ tokens text ∧ autoIncrement ∉ tokens text)
    ⟨fun ⟨closed, noKey, noAuto⟩ => ⟨closed, noKey, noAuto⟩,
      fun ⟨closed, noKey, noAuto⟩ => ⟨closed, noKey, noAuto⟩⟩

/-- What a text says of keys: how many there are, and when all increments stand behind one. -/
structure TellsKeys (count : Nat) (ordered : Prop) (text : List Char) : Prop where
  closed : Closed text
  keys : keyCount (tokens text) = count
  autos : AutoBehindKey (tokens text) ↔ ordered

def BeginsAnew (text : List Char) : Prop := Parted text ∧ Fresh (tokens text)

instance (text : List Char) : Decidable (BeginsAnew text) :=
  inferInstanceAs (Decidable (Parted text ∧ Fresh (tokens text)))

section
variable {n k : Nat} {p q : Prop} {a b text : List Char}

theorem quietAppend (first : Quiet a) (second : Quiet b) (parted : Parted b) : Quiet (a ++ b) := by
  have whole := tokensAppend first.closed parted
  refine ⟨closedAppend first.closed second.closed parted, ?_, ?_⟩
  · simp [whole, first.noKey, second.noKey]
  · simp [whole, first.noAuto, second.noAuto]

theorem quietBlank (quiet : Quiet text) : Quiet (' ' :: text) := ⟨quiet.closed, quiet.noKey, quiet.noAuto⟩

theorem quietTells (quiet : Quiet text) : TellsKeys 0 True text :=
  ⟨quiet.closed, keysNone quiet.noKey, iff_true_intro (autoNone quiet.noAuto)⟩

theorem keyTells : TellsKeys 1 True " PRIMARY KEY".toList :=
  ⟨by decide, by decide, iff_true_intro (autoNone (by decide))⟩

theorem keyAutoTells : TellsKeys 1 True " PRIMARY KEY AUTOINCREMENT".toList := by
  have cut : tokens " PRIMARY KEY AUTOINCREMENT".toList = [primary, key, autoIncrement] := by decide
  refine ⟨by decide, by decide, iff_true_intro fun before after split => ?_⟩
  rw [cut] at split
  rcases before with _ | ⟨first, _ | ⟨second, _ | ⟨third, rest⟩⟩⟩
  · exact absurd (List.cons.inj split).1 (by decide)
  · exact absurd (List.cons.inj (List.cons.inj split).2).1 (by decide)
  · obtain ⟨rfl, others⟩ := List.cons.inj split
    obtain ⟨rfl, -⟩ := List.cons.inj others
    exact List.suffix_rfl
  · simp at split

theorem strayTells (quiet : Quiet a) : TellsKeys 0 False (a ++ " AUTOINCREMENT".toList) := by
  have word : Closed " AUTOINCREMENT".toList ∧ Parted " AUTOINCREMENT".toList ∧
      tokens " AUTOINCREMENT".toList = [autoIncrement] := by decide
  have whole : tokens (a ++ " AUTOINCREMENT".toList) = tokens a ++ [autoIncrement] := by
    rw [tokensAppend quiet.closed word.2.1, word.2.2]
  refine ⟨closedAppend quiet.closed word.1 word.2.1, ?_, iff_false_intro fun behind => ?_⟩
  · have other : primary ≠ autoIncrement := by decide
    rw [whole]
    exact keysNone (by simp [quiet.noKey, other])
  · have before := behind (tokens a) [] whole
    exact quiet.noKey (before.subset List.mem_cons_self)

theorem tellsAppend (first : TellsKeys n p a) (second : TellsKeys k q b) (anew : BeginsAnew b) :
    TellsKeys (n + k) (p ∧ q) (a ++ b) := by
  have whole := tokensAppend first.closed anew.1
  refine ⟨closedAppend first.closed second.closed anew.1, ?_, ?_⟩
  · rw [whole, keysAppend anew.2, first.keys, second.keys]
  · rw [whole, autoAppend anew.2, first.autos, second.autos]

theorem tellsBehind (first : TellsKeys n p a) (quiet : Quiet b) (anew : BeginsAnew b) : TellsKeys n p (a ++ b) := by
  simpa only [Nat.add_zero, and_true] using tellsAppend first (quietTells quiet) anew

theorem tellsAhead (quiet : Quiet a) (second : TellsKeys k q b) (anew : BeginsAnew b) : TellsKeys k q (a ++ b) := by
  simpa only [Nat.zero_add, true_and] using tellsAppend (quietTells quiet) second anew

theorem beginsAppend (closed : Closed a) (first : BeginsAnew a) (second : BeginsAnew b) : BeginsAnew (a ++ b) := by
  refine ⟨partedAppend first.1 second.1, ?_⟩
  rw [tokensAppend closed second.1]
  exact freshAppend first.2 second.2

theorem beginsFilled (closed : Closed a) (first : BeginsAnew a) (filled : tokens a ≠ []) (parted : Parted b) :
    BeginsAnew (a ++ b) := by
  refine ⟨partedAppend first.1 parted, ?_⟩
  obtain ⟨t, rest, made⟩ := List.exists_cons_of_ne_nil filled
  have fresh := first.2
  rw [tokensAppend closed parted, made, List.cons_append]
  rwa [made] at fresh

theorem beginsBracket (cs : List Char) : BeginsAnew ('[' :: cs) := by
  refine ⟨by simp [Parted]; decide, fun t first => ?_⟩
  cases first
  decide

theorem beginsComma (cs : List Char) : BeginsAnew (',' :: cs) := by
  refine ⟨by simp [Parted]; decide, fun t first => ?_⟩
  cases first
  decide

theorem bracketQuiet {name : String} (closed : ']' ∉ name.toList) :
    Quiet (bracket name).toList ∧ Parted (bracket name).toList := by
  obtain ⟨whole, cut⟩ := bracketTokens closed
  have text : (bracket name).toList = '[' :: (name.toList ++ [']']) := by simp [bracket]
  refine ⟨⟨whole, ?_, ?_⟩, text ▸ (beginsBracket _).1⟩
  · rw [cut]
    decide
  · rw [cut]
    decide

end

namespace Column

structure Plain (c : Column) : Prop where
  closed : ']' ∉ c.name.toList
  default : ∀ s ∈ c.default, Quiet s.toList

instance (c : Column) : Decidable c.Plain :=
  decidable_of_iff (']' ∉ c.name.toList ∧ ∀ s ∈ c.default, Quiet s.toList)
    ⟨fun ⟨closed, default⟩ => ⟨closed, default⟩, fun ⟨closed, default⟩ => ⟨closed, default⟩⟩

section
variable {c : Column} {columns : List Column}

def frontText (c : Column) : String := bracket c.name ++ " " ++ c.typeText

def backText (c : Column) : String :=
  (if c.unique then " UNIQUE" else "") ++ (if c.notNull then " NOT NULL" else "") ++
    c.default.elim "" (" DEFAULT " ++ ·)

def keyText (c : Column) : String :=
  (if c.primaryKey then " PRIMARY KEY" else "") ++ (if c.autoIncrement then " AUTOINCREMENT" else "")

theorem definitionParts (c : Column) : c.definitionText = c.frontText ++ c.keyText ++ c.backText := by
  simp only [definitionText, frontText, constraints, keyText, backText, String.append_assoc]

theorem frontQuiet (declared : c.IsDeclared) (plain : c.Plain) : Quiet c.frontText.toList := by
  have type : Quiet (" " ++ c.typeText).toList ∧ Parted (" " ++ c.typeText).toList := by
    obtain ⟨⟨type, typed⟩, generic⟩ := declared
    have text : c.typeText = (Dialect.sqlite.typeName type).toOption.getD "" := by
      simp [typeText, resolvedType, typed, generic]
    rw [text]
    cases type <;> decide
  rw [frontText, String.append_assoc, String.toList_append]
  exact quietAppend (bracketQuiet plain.closed).1 type.1 type.2

theorem flagQuiet (text : String) (quiet : Quiet text.toList) (anew : BeginsAnew text.toList) (b : Bool) :
    Quiet (if b then text else "").toList ∧ BeginsAnew (if b then text else "").toList := by
  have none : Quiet "".toList ∧ BeginsAnew "".toList := by decide
  cases b with
  | true => exact ⟨quiet, anew⟩
  | false => exact none

theorem defaultQuiet (plain : c.Plain) : Quiet (c.default.elim "" (" DEFAULT " ++ ·)).toList ∧
    BeginsAnew (c.default.elim "" (" DEFAULT " ++ ·)).toList := by
  cases given : c.default with
  | none => decide
  | some s =>
    have text : (" DEFAULT " ++ s).toList = " DEFAULT".toList ++ (' ' :: s.toList) := by simp
    have word : Quiet " DEFAULT".toList ∧ BeginsAnew " DEFAULT".toList := by decide
    rw [Option.elim_some, text]
    exact ⟨quietAppend word.1 (quietBlank (plain.default s given)) (partedBlank _),
      beginsFilled word.1.closed word.2 (by decide) (partedBlank _)⟩

theorem backQuiet (plain : c.Plain) : Quiet c.backText.toList ∧ BeginsAnew c.backText.toList := by
  have unique := flagQuiet " UNIQUE" (by decide) (by decide) c.unique
  have notNull := flagQuiet " NOT NULL" (by decide) (by decide) c.notNull
  have default := defaultQuiet plain
  have front := quietAppend unique.1 notNull.1 notNull.2.1
  rw [backText, String.toList_append, String.toList_append]
  exact ⟨quietAppend front default.1 default.2.1,
    beginsAppend front.closed (beginsAppend unique.1.closed unique.2 notNull.2) default.2⟩

theorem definitionTells (declared : c.IsDeclared) (plain : c.Plain) :
    TellsKeys (if c.primaryKey then 1 else 0) (c.autoIncrement → c.primaryKey) c.definitionText.toList := by
  have front := frontQuiet declared plain
  obtain ⟨back, anew⟩ := backQuiet plain
  have keyed : TellsKeys (if c.primaryKey then 1 else 0) (c.autoIncrement → c.primaryKey)
      (c.frontText.toList ++ c.keyText.toList) := by
    cases primary : c.primaryKey with
    | false =>
      cases auto : c.autoIncrement with
      | false => simpa [keyText, primary, auto] using quietTells front
      | true => simpa [keyText, primary, auto] using strayTells front
    | true =>
      cases auto : c.autoIncrement with
      | false => simpa [keyText, primary, auto] using tellsAhead front keyTells (by decide)
      | true => simpa [keyText, primary, auto] using tellsAhead front keyAutoTells (by decide)
  rw [definitionParts, String.toList_append, String.toList_append]
  exact tellsBehind keyed back anew

theorem columnsBegin (columns : List Column) : BeginsAnew (joinWith "," (columns.map definitionText)).toList := by
  cases columns with
  | nil => decide
  | cons c rest =>
    have first : ∃ cs, (joinWith "," ((c :: rest).map definitionText)).toList = '[' :: cs := by
      cases rest <;> simp [joinWith, definitionText, bracket]
    obtain ⟨cs, text⟩ := first
    rw [text]
    exact beginsBracket cs

theorem columnsTell (declared : ∀ c ∈ columns, c.IsDeclared) (plain : ∀ c ∈ columns, c.Plain) :
    TellsKeys (columns.countP (·.primaryKey)) (∀ c ∈ columns, c.autoIncrement → c.primaryKey)
      (joinWith "," (columns.map definitionText)).toList := by
  induction columns with
  | nil => exact ⟨rfl, rfl, iff_of_true (autoNone (by decide)) (List.forall_mem_nil _)⟩
  | cons c rest ih =>
    obtain ⟨declaredHere, declaredLater⟩ := List.forall_mem_cons.mp declared
    obtain ⟨plainHere, plainLater⟩ := List.forall_mem_cons.mp plain
    have here := definitionTells declaredHere plainHere
    cases rest with
    | nil => simpa [joinWith, List.countP_cons] using here
    | cons next rest =>
      have later := ih declaredLater plainLater
      have comma : Quiet [','] := by decide
      have text : (joinWith "," ((c :: next :: rest).map definitionText)).toList = c.definitionText.toList ++
          ([','] ++ (joinWith "," ((next :: rest).map definitionText)).toList) := by
        simp [joinWith]
      rw [text, List.countP_cons, List.forall_mem_cons, Nat.add_comm]
      exact tellsAppend here (tellsAhead comma later (columnsBegin _)) (beginsComma _)

end

end Column

section
variable {names : List String} {uniques : List ColumnGroup} {table : String} {columns : List Column}

theorem namesQuiet (closed : ∀ n ∈ names, ']' ∉ n.toList) : Quiet (joinWith "," (names.map bracket)).toList ∧
    Parted (joinWith "," (names.map bracket)).toList := by
  induction names with
  | nil => decide
  | cons n rest ih =>
    obtain ⟨here, later⟩ := List.forall_mem_cons.mp closed
    obtain ⟨name, parted⟩ := bracketQuiet here
    cases rest with
    | nil => exact ⟨name, parted⟩
    | cons next rest =>
      obtain ⟨others, begins⟩ := ih later
      have text : (joinWith "," ((n :: next :: rest).map bracket)).toList = (bracket n).toList ++
          ([','] ++ (joinWith "," ((next :: rest).map bracket)).toList) := by
        simp [joinWith]
      have comma : Quiet [','] ∧ Parted [','] := by decide
      have behind := partedAppend comma.2 begins
      rw [text]
      exact ⟨quietAppend name (quietAppend comma.1 others begins) behind, partedAppend parted behind⟩

theorem uniquesQuiet (closed : ∀ g ∈ uniques, ∀ n ∈ g.columns, ']' ∉ n.toList) :
    Quiet (String.join (uniques.map fun g => ", " ++ Change.uniqueItem .sqlite g) ++ ")").toList ∧
      BeginsAnew (String.join (uniques.map fun g => ", " ++ Change.uniqueItem .sqlite g) ++ ")").toList := by
  induction uniques with
  | nil => decide
  | cons g rest ih =>
    obtain ⟨here, later⟩ := List.forall_mem_cons.mp closed
    obtain ⟨others, begins⟩ := ih later
    obtain ⟨names, parted⟩ := namesQuiet here
    have text : (String.join ((g :: rest).map fun g => ", " ++ Change.uniqueItem .sqlite g) ++ ")").toList =
        ", UNIQUE(".toList ++ ((joinWith "," (g.columns.map bracket)).toList ++ ([')'] ++
          (String.join (rest.map fun g => ", " ++ Change.uniqueItem .sqlite g) ++ ")").toList)) := by
      have masked : Dialect.sqlite.maskAll g.columns = joinWith "," (g.columns.map bracket) := rfl
      simp [Change.uniqueItem, masked, String.join_cons]
    have words : Quiet ", UNIQUE(".toList := by decide
    have closing : Quiet [')'] ∧ Parted [')'] := by decide
    have behind := partedAppend closing.2 begins.1
    rw [text]
    exact ⟨quietAppend words (quietAppend names (quietAppend closing.1 others begins.1) behind)
      (partedAppend parted behind), beginsComma _⟩

theorem tableTells (titled : Quiet table.toList) (declared : ∀ c ∈ columns, c.IsDeclared)
    (plain : ∀ c ∈ columns, c.Plain) (closed : ∀ g ∈ uniques, ∀ n ∈ g.columns, ']' ∉ n.toList) :
    TellsKeys (columns.countP (·.primaryKey)) (∀ c ∈ columns, c.autoIncrement → c.primaryKey)
      (Definition.tableText table (Change.tableItems .sqlite (columns.map Column.definitionText) uniques)).toList := by
  have apart : "CREATE TABLE " = "CREATE TABLE" ++ " " := rfl
  have text : (Definition.tableText table
      (Change.tableItems .sqlite (columns.map Column.definitionText) uniques)).toList =
      ("CREATE TABLE".toList ++ ((' ' :: table.toList) ++ " (".toList)) ++
        ((joinWith "," (columns.map Column.definitionText)).toList ++
          (String.join (uniques.map fun g => ", " ++ Change.uniqueItem .sqlite g) ++ ")").toList) := by
    rw [Definition.tableTextEnd, Change.tableItems, apart]
    simp only [String.toList_append, List.append_assoc]
    rfl
  have words : Quiet "CREATE TABLE".toList ∧ Quiet " (".toList ∧ Parted " (".toList := by decide
  have head := quietAppend words.1 (quietAppend (quietBlank titled) words.2.1 words.2.2) (partedBlank _)
  have body := Column.columnsTell declared plain
  obtain ⟨groups, begins⟩ := uniquesQuiet closed
  rw [text]
  exact tellsAhead head (tellsBehind body groups begins)
    (beginsAppend body.closed (Column.columnsBegin columns) begins)

end

def OneKey (text : String) : Prop :=
  keyCount (tokens text.toList) ≤ 1 ∧ AutoBehindKey (tokens text.toList)

/-- A definition has a key constraint for each field that is part of the key. So it has no more than one, and asks for
increments only behind it, exactly if one field at most is part of the key and all that are counted up are. -/
theorem keysOfFields {table : String} {view : Option String} {fields : List FieldSpec} {m : Model}
    (built : Model.build table view fields = .ok m) (titled : Quiet table.toList) (plain : ∀ c ∈ m.columns, c.Plain) :
    ∃ (ds : List Declaration) (text : String), ds.map (·.spec) = fields ∧ (Change.ofModel m).sql .sqlite = .ok text ∧
      keyCount (tokens text.toList) = ds.countP (·.options.contains .primaryKey) ∧
      (OneKey text ↔ ds.countP (·.options.contains .primaryKey) ≤ 1 ∧
        ∀ d ∈ ds, .autoIncrement ∈ d.options → .primaryKey ∈ d.options) := by
  have closed : ∀ g ∈ m.uniques, ∀ n ∈ g.columns, ']' ∉ n.toList := by
    intro g member n inside
    obtain ⟨c, declared, rfl⟩ := List.mem_map.mp ((Model.builtGroups built).2.within g member n inside)
    exact (plain c declared).closed
  have named : Quiet m.table.toList := (Model.builtTable built).symm ▸ titled
  have tells := tableTells named (Model.builtDeclared built) plain closed
  obtain ⟨ds, specs, -, rfl⟩ := Model.builtFrom.mp built
  have count : (ds.map (·.column)).countP (·.primaryKey) = ds.countP (·.options.contains .primaryKey) := by
    rw [List.countP_map]
    rfl
  have ordered : (∀ c ∈ ds.map (·.column), c.autoIncrement → c.primaryKey) ↔
      ∀ d ∈ ds, .autoIncrement ∈ d.options → .primaryKey ∈ d.options := by
    simp [Declaration.column, Declaration.draft, FieldDraft.declaring]
  have keys := tells.keys.trans count
  exact ⟨ds, _, specs, Definition.writtenTable _, keys, and_congr (by rw [keys]) (tells.autos.trans ordered)⟩

def personFields : List FieldSpec :=
  [⟨"ID", .int, "primarykey,autoincrement"⟩, ⟨"Name", .text, "notnull,default='primary key',unique=who"⟩,
    ⟨"Born", .timestamp, "unique=who"⟩]

def personDefinition : String := "CREATE TABLE person ([id] INTEGER PRIMARY KEY AUTOINCREMENT," ++
  "[name] TEXT NOT NULL DEFAULT 'primary key',[born] TIMESTAMP, UNIQUE([name],[born]))"

def personModel : Model where
  table := "person"
  source := .table
  columns := [
    { name := "id", field := some "ID", valueType := some .int, primaryKey := true, autoIncrement := true },
    { name := "name", field := some "Name", valueType := some .text, notNull := true,
      default := some "'primary key'" },
    { name := "born", field := some "Born", valueType := some .timestamp }]
  indices := []
  uniques := [⟨"who", ["name", "born"]⟩]

theorem personKeys :
    (Model.build "person" none personFields = .ok personModel ∧ Quiet "person".toList ∧
      ∀ c ∈ personModel.columns, c.Plain) ∧
    (Change.ofModel personModel).sql .sqlite = .ok personDefinition ∧ OneKey personDefinition := by
  have built : Model.build "person" none personFields = .ok personModel := by rfl
  have titled : Quiet "person".toList := by decide
  have plain : ∀ c ∈ personModel.columns, c.Plain := by decide
  have written : (Change.ofModel personModel).sql .sqlite = .ok personDefinition := by decide +kernel
  obtain ⟨ds, text, specs, same, -, one⟩ := keysOfFields built titled plain
  obtain rfl : personDefinition = text := Except.ok.inj (written.symm.trans same)
  have options : ds.map (·.options) = personFields.map fun spec => spec.optionTexts.filterMap FieldOption.ofChars? := by
    rw [← specs, List.map_map]
    exact List.map_congr_left fun d _ => d.optionsRead
  have single : (ds.map (·.options)).countP (·.contains .primaryKey) ≤ 1 := by
    rw [options]
    decide +kernel
  have ordered : ∀ given ∈ ds.map (·.options), .autoIncrement ∈ given → .primaryKey ∈ given := by
    rw [options]
    decide +kernel
  rw [List.countP_map] at single
  exact ⟨⟨built, titled, plain⟩, written,
    one.mpr ⟨single, fun d member => ordered d.options (List.mem_map_of_mem member)⟩⟩

def membershipFields : List FieldSpec := [⟨"Person", .int, "primarykey"⟩, ⟨"Club", .int, "primarykey"⟩]

def membershipDefinition : String :=
  "CREATE TABLE membership ([person] INTEGER PRIMARY KEY,[club] INTEGER PRIMARY KEY)"

theorem keysMayClash : ¬ ∀ (table : String) (view : Option String) (fields : List FieldSpec) (m : Model)
    (text : String), Model.build table view fields = .ok m → (Change.ofModel m).sql .sqlite = .ok text →
      OneKey text := by
  intro single
  have one := single "membership" none membershipFields _ membershipDefinition rfl rfl
  have two : keyCount (tokens membershipDefinition.toList) = 2 := by decide
  have bound := one.1
  rw [two] at bound
  contradiction

end LiveSchema
