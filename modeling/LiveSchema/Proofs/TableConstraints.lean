import LiveSchema.Catalog.Definition
import LiveSchema.Proofs.ColumnForm
/-! Constraints of a whole table that stand among its columns. A definition that has one is to be refused, but
a constraint that looks like a column is entered as one: what is asked of a column's name and type is only
where their blanks are. -/
namespace LiveSchema
open Text Catalog

def goesOn (c : Char) : Bool := !isBlank c && (c.isAlphanum || "_$".toList.contains c || decide (128 ≤ c.toNat))

def constraintWords : List (String × List String) :=
  [("primary", ["key"]), ("foreign", ["key"]), ("check", []), ("constraint", [])]

def BeginsConstraint (item : List Char) : Prop :=
  ∃ first more, (first, more) ∈ constraintWords ∧ ∃ written spaced rest, item = written ++ (spaced ++ rest) ∧
    written.map foldLetter = first.toList ∧ Spaced more spaced ∧ ∀ c ∈ rest.head?, goesOn c = false

/-- Two runs without blanks, the first of them without quotes, and then only what may stand behind the type of
a column. -/
inductive LooksLikeColumn : List Char → Prop where
  | runs {name gap type tail} {c : Column} (named : name ≠ []) (plain : ∀ t ∈ name, isBare t = true)
    (apart : Gap gap) (filled : type ≠ []) (solid : ∀ t ∈ type, isBlank t = false) (behind : TailForm c tail) :
    LooksLikeColumn (name ++ (gap ++ (type ++ tail)))

section Item
variable {item : List Char} {c : Column}

theorem constraintFirst (begins : BeginsConstraint item) :
    ∃ first rest, item = first :: rest ∧ foldLetter first ∈ ['p', 'f', 'c'] := by
  obtain ⟨first, more, known, written, spaced, rest, rfl, same, _⟩ := begins
  have initial : ∀ words ∈ constraintWords, words.1.toList.head?.any (['p', 'f', 'c'].contains ·) := by
    decide
  have letter := initial _ known
  dsimp only at letter
  rw [← same] at letter
  cases written with
  | nil => contradiction
  | cons d written => exact ⟨d, _, rfl, by simpa using letter⟩

theorem constraintNoGroup (begins : BeginsConstraint item) : uniqueItem? item = none := by
  obtain ⟨first, rest, rfl, letter⟩ := constraintFirst begins
  have noWord : word? "unique" (first :: rest) = none := by
    by_contra found
    obtain ⟨tail, found⟩ := Option.ne_none_iff_exists'.mp found
    obtain ⟨written, text, same⟩ := wordForm.mp found
    cases written with
    | nil => contradiction
    | cons d written =>
      obtain ⟨rfl, _⟩ := List.cons.inj text
      have folded : foldLetter first = 'u' := (List.cons.inj same).1
      rw [folded] at letter
      exact absurd letter (by decide)
  rw [uniqueItem?, noWord]
  rfl

theorem constraintName (begins : BeginsConstraint item) {written name rest : List Char}
    (form : NameForm written name) (text : item = written ++ rest) :
    written = name ∧ name ≠ [] ∧ ∀ t ∈ name, isBare t = true := by
  obtain ⟨first, behind, whole, letter⟩ := constraintFirst begins
  cases form with
  | @quoted quote last _ quotes =>
    rw [text] at whole
    obtain ⟨rfl, _⟩ := List.cons.inj whole
    unfold closingQuote? at quotes
    split at quotes
    all_goals contradiction
  | bare filled plain => exact ⟨rfl, filled, plain⟩

def runsColumn (name type : List Char) (c : Column) : Column :=
  { Column.introspected (String.ofList name) (String.ofList type) with
    primaryKey := c.primaryKey, autoIncrement := c.autoIncrement, unique := c.unique,
    notNull := c.notNull, default := c.default }

theorem constraintAsColumn (begins : BeginsConstraint item) :
    column? item ≠ none ↔ LooksLikeColumn item := by
  rw [Option.ne_none_iff_exists']
  constructor
  · rintro ⟨c, found⟩
    cases columnForm.mp found with
    | item named apart filled solid behind _ =>
      obtain ⟨rfl, nonempty, plain⟩ := constraintName begins named rfl
      exact .runs nonempty plain apart filled solid behind
  · rintro (@⟨name, gap, type, tail, c, named, plain, apart, filled, solid, behind⟩)
    have tailed : TailForm (runsColumn name type c) tail := behind
    exact ⟨runsColumn name type c, columnForm.mpr (.item (.bare named plain) apart filled solid tailed ⟨rfl, rfl, rfl, rfl⟩)⟩

theorem constraintColumnName (begins : BeginsConstraint item) (found : column? item = some c) :
    c.name.toList = item.takeWhile (!isBlank ·) := by
  cases columnForm.mp found with
  | @item written name gap type tail _ named apart _ _ _ read =>
    obtain ⟨rfl, _, plain⟩ := constraintName begins named rfl
    have solid : ∀ t ∈ written, (!isBlank t) = true := by
      intro t member
      have here := plain t member
      simp only [isBare, Bool.and_eq_true] at here
      exact here.1
    have stop : (gap ++ (type ++ tail)).takeWhile (!isBlank ·) = [] := by
      cases gap with
      | nil => exact absurd rfl apart.filled
      | cons b gap => simp [apart.blank b List.mem_cons_self]
    rw [read.1, String.toList_ofList, List.takeWhile_append_of_pos solid, stop, List.append_nil]

end Item

def itemColumn? (item : List Char) : Option Column :=
  match uniqueItem? item with
  | some _ => none
  | none => column? item

section Table
variable {name definition : String} {body : List Char} {t entered : Table} {texts : List (List Char)}

theorem entersNone : enterItems t texts = none ↔
    ∃ item ∈ texts, uniqueItem? item = none ∧ column? item = none := by
  induction texts generalizing t with
  | nil => simp [enterItems]
  | cons item rest ih =>
    rw [enterItems]
    cases group : uniqueItem? item with
    | some columns => simp [ih, group]
    | none =>
      cases column : column? item with
      | some c => simp [ih, column]
      | none => simp [group, column]

theorem enteredColumns (done : enterItems t texts = some entered) :
    entered.columns = t.columns ++ texts.filterMap itemColumn? := by
  induction texts generalizing t with
  | nil => simp [← Option.some.inj done]
  | cons item rest ih =>
    rw [enterItems] at done
    cases group : uniqueItem? item with
    | some columns =>
      rw [group] at done
      simpa [itemColumn?, group] using ih done
    | none =>
      cases column : column? item with
      | some c =>
        rw [group, column] at done
        simpa [itemColumn?, group, column] using ih done
      | none =>
        rw [group, column] at done
        contradiction

theorem itemEntered (done : enterItems t texts = some entered) {item : List Char} (listed : item ∈ texts)
    (noGroup : uniqueItem? item = none) : ∃ c ∈ entered.columns, column? item = some c := by
  cases column : column? item with
  | some c =>
    have added : itemColumn? item = some c := by rw [itemColumn?, noGroup, column]
    have member : c ∈ texts.filterMap itemColumn? := List.mem_filterMap.mpr ⟨item, listed, added⟩
    rw [enteredColumns done]
    exact ⟨c, List.mem_append_right _ member, rfl⟩
  | none =>
    rw [entersNone.mpr ⟨item, listed, noGroup, column⟩] at done
    contradiction

theorem refusedNone : readTable name definition = .error (.unreadable definition) ↔
    table? name definition = none := by
  rw [readTable]
  cases table? name definition <;> simp

theorem refusedItem (held : tableBody? definition.toList = some body) {item : List Char}
    (listed : item ∈ items body) (begins : BeginsConstraint item) :
    readTable name definition = .error (.unreadable definition) ↔
      ∃ item ∈ items body, uniqueItem? item = none ∧ column? item = none := by
  rw [refusedNone, table?, held, Option.bind_eq_bind, Option.bind_some,
    ← entersNone (t := { name, columns := [] })]
  cases done : enterItems { name, columns := [] } (items body) with
  | none => simp
  | some entered =>
    obtain ⟨c, member, _⟩ := itemEntered done listed (constraintNoGroup begins)
    simp [List.ne_nil_of_mem member]

theorem readEntered (held : tableBody? definition.toList = some body)
    (read : readTable name definition = .ok t) :
    enterItems { name, columns := [] } (items body) = some t := by
  have found : table? name definition = some t := by
    rw [readTable] at read
    cases made : table? name definition with
    | none => simp [made] at read
    | some u => simpa [made] using read
  simp only [table?, held, Option.bind_eq_bind, Option.bind_some, Option.bind_eq_some_iff] at found
  obtain ⟨entered, done, kept⟩ := found
  split at kept
  · contradiction
  · exact done.trans kept

end Table

/-- A definition with a constraint of its table is refused exactly if one of these does not look like a column,
or if another item is not readable. Otherwise each of them has become a column, named by its first run. -/
theorem tableConstraintsRefused (name definition : String) :
    (tableBody? definition.toList = none → readTable name definition = .error (.unreadable definition)) ∧
    ∀ body, tableBody? definition.toList = some body → (∃ item ∈ items body, BeginsConstraint item) →
      (readTable name definition = .error (.unreadable definition) ↔
        (∃ item ∈ items body, BeginsConstraint item ∧ ¬ LooksLikeColumn item) ∨
        ∃ item ∈ items body, ¬ BeginsConstraint item ∧ uniqueItem? item = none ∧ column? item = none) ∧
      ∀ t, readTable name definition = .ok t → ∀ item ∈ items body, BeginsConstraint item →
        ∃ c ∈ t.columns, c.name.toList = item.takeWhile (!isBlank ·) := by
  constructor
  · intro bodiless
    rw [refusedNone, table?, bodiless]
    rfl
  · rintro body held ⟨item, listed, begins⟩
    constructor
    · rw [refusedItem held listed begins]
      constructor
      · rintro ⟨other, member, noGroup, noColumn⟩
        by_cases alike : BeginsConstraint other
        · refine .inl ⟨other, member, alike, fun looks => ?_⟩
          exact (constraintAsColumn alike).mpr looks noColumn
        · exact .inr ⟨other, member, alike, noGroup, noColumn⟩
      · rintro (⟨other, member, alike, apart⟩ | ⟨other, member, _, noGroup, noColumn⟩)
        · refine ⟨other, member, constraintNoGroup alike, ?_⟩
          exact not_ne_iff.mp fun readable => apart ((constraintAsColumn alike).mp readable)
        · exact ⟨other, member, noGroup, noColumn⟩
    · intro t read other member alike
      obtain ⟨c, added, column⟩ := itemEntered (readEntered held read) member (constraintNoGroup alike)
      exact ⟨c, added, constraintColumnName alike column⟩

def invoiceDefinition : String := "CREATE TABLE invoice (id INTEGER, Primary  key (id), total FLOAT)"

def invoiceBody : List Char := "id INTEGER, Primary  key (id), total FLOAT".toList

def invoiceKey : List Char := "Primary  key (id)".toList

theorem invoiceKeyBegins : BeginsConstraint invoiceKey :=
  ⟨"primary", ["key"], by decide, "Primary".toList, "  key".toList, " (id)".toList, rfl, rfl,
    spacedRead (by decide) rfl, fun c first => Option.some.inj first ▸ rfl⟩

theorem invoiceRefused : tableBody? invoiceDefinition.toList = some invoiceBody ∧
    (∃ item ∈ items invoiceBody, BeginsConstraint item) ∧
    readTable "invoice" invoiceDefinition = .error (.unreadable invoiceDefinition) := by
  have held : tableBody? invoiceDefinition.toList = some invoiceBody := by decide +kernel
  have listed : invoiceKey ∈ items invoiceBody := by decide +kernel
  have stands : ∃ item ∈ items invoiceBody, BeginsConstraint item := ⟨invoiceKey, listed, invoiceKeyBegins⟩
  have unlike : ¬ LooksLikeColumn invoiceKey := by
    have unread : column? invoiceKey = none := by decide +kernel
    exact fun looks => (constraintAsColumn invoiceKeyBegins).mpr looks unread
  obtain ⟨refused, _⟩ := (tableConstraintsRefused "invoice" invoiceDefinition).2 invoiceBody held stands
  exact ⟨held, stands, refused.mpr (.inl ⟨invoiceKey, listed, invoiceKeyBegins, unlike⟩)⟩

/-- Without a blank in front of the list, the key is a column of type KEY(id). -/
theorem constraintMayBecomeColumn : ¬ ∀ name definition body, tableBody? definition.toList = some body →
    (∃ item ∈ items body, BeginsConstraint item) →
    readTable name definition = .error (.unreadable definition) := by
  intro refused
  have held : tableBody? "CREATE TABLE t (a INTEGER, PRIMARY KEY(a))".toList =
      some "a INTEGER, PRIMARY KEY(a)".toList := by
    decide +kernel
  have begins : BeginsConstraint "PRIMARY KEY(a)".toList :=
    ⟨"primary", ["key"], by decide, "PRIMARY".toList, " KEY".toList, "(a)".toList, rfl, rfl,
      spacedRead (by decide) rfl, fun c first => Option.some.inj first ▸ rfl⟩
  have read : readTable "t" "CREATE TABLE t (a INTEGER, PRIMARY KEY(a))" =
      .ok { name := "t"
            columns := [Column.introspected "a" "INTEGER", Column.introspected "PRIMARY" "KEY(a)"] } := by
    decide +kernel
  have error := refused "t" _ _ held ⟨_, by decide +kernel, begins⟩
  rw [read] at error
  contradiction

end LiveSchema
