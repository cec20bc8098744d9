import LiveSchema.Proofs.DeclaredModels
/-! Columns by the fields that declare them. A field that is declared again takes the place of the one before, so a
column is found under its field exactly if no later field has the same name. -/
namespace LiveSchema

namespace Model

section Entries
variable {column : Column} {before after : List Column} {field : String}

theorem enteredLookup (column : Column) (entries : List (String × Column)) (field name : String) :
    (enterField column entries field).lookup name = if field = name then some column else entries.lookup name := by
  induction entries with
  | nil => grind [enterField]
  | cons entry rest ih =>
    obtain ⟨known, old⟩ := entry
    rw [enterField]
    by_cases here : known = field
    · rw [if_pos here]
      grind
    · rw [if_neg here, List.lookup_cons, List.lookup_cons, ih]
      grind

theorem enteredNames (column : Column) (entries : List (String × Column)) (field : String) :
    (enterField column entries field).map (·.1) =
      if field ∈ entries.map (·.1) then entries.map (·.1) else entries.map (·.1) ++ [field] := by
  induction entries with
  | nil => rfl
  | cons entry rest ih =>
    obtain ⟨known, old⟩ := entry
    rw [enterField]
    by_cases here : known = field
    · simp [here]
    · by_cases later : field ∈ rest.map (·.1) <;> simp_all [Ne.symm]

theorem entriesNext (columns : List Column) (column : Column) :
    fieldEntries (columns ++ [column]) = enterColumn (fieldEntries columns) column :=
  List.foldl_concat enterColumn [] column columns

theorem fieldLookup (columns : List Column) (field : String) :
    (fieldEntries columns).lookup field = columns.reverse.find? (·.field = some field) := by
  induction columns using List.reverseRecOn with
  | nil => rfl
  | append_singleton columns column ih =>
    rw [entriesNext, enterColumn, List.reverse_append, List.reverse_singleton, List.singleton_append,
      List.find?_cons]
    cases own : column.field with
    | none => simp [ih]
    | some name => by_cases same : name = field <;> simp [enteredLookup, ih, same]

theorem fieldNames (columns : List Column) :
    (fieldEntries columns).map (·.1) = (columns.filterMap (·.field)).eraseDups := by
  induction columns using List.reverseRecOn with
  | nil => rfl
  | append_singleton columns column ih =>
    rw [entriesNext, enterColumn, List.filterMap_append]
    cases own : column.field with
    | none => simp [ih, own]
    | some name => simp [ih, own, enteredNames, firstMentions]

theorem noneRepeated (names : List String) : names.eraseDups.length ≤ names.length ∧
    (names.eraseDups.length = names.length ↔ names.Nodup) := by
  induction names using List.reverseRecOn with
  | nil => simp
  | append_singleton names name ih =>
    obtain ⟨short, same⟩ := ih
    rw [firstMentions, List.length_append, List.length_singleton, nodupNext, ← same]
    by_cases known : name ∈ names
    · rw [if_pos known]
      exact ⟨Nat.le_succ_of_le short, iff_of_false (by omega) fun apart => apart.1 known⟩
    · simp [known, short]

theorem lastFound (own : column.field = some field) (distinct : ((before ++ column :: after).map (·.name)).Nodup) :
    (before ++ column :: after).reverse.find? (·.field = some field) = some column ↔
      ∀ later ∈ after, later.field ≠ some field := by
  have apart : column ∉ after := by
    rw [List.map_append, List.map_cons] at distinct
    have behind := (List.nodup_cons.mp (List.nodup_append.mp distinct).2.1).1
    exact fun again => behind (List.mem_map_of_mem again)
  have here : (column :: before.reverse).find? (·.field = some field) = some column :=
    List.find?_cons_of_pos (by simp [own])
  rw [List.reverse_append, List.reverse_cons, List.append_assoc, List.singleton_append, List.find?_append, here]
  constructor
  · intro found later member same
    have there : (after.reverse.find? (·.field = some field)).isSome :=
      List.find?_isSome.mpr ⟨later, List.mem_reverse.mpr member, decide_eq_true same⟩
    obtain ⟨last, first⟩ := Option.isSome_iff_exists.mp there
    rw [first] at found
    cases found
    exact apart (List.mem_reverse.mp (List.mem_of_find?_eq_some first))
  · intro none
    rw [List.find?_eq_none.mpr (by simpa using none), Option.none_or]

theorem allFound {columns : List Column} (distinct : (columns.map (·.name)).Nodup)
    (named : ∀ c ∈ columns, c.field ≠ none) :
    (∀ c ∈ columns, ∀ field, c.field = some field → columns.reverse.find? (·.field = some field) = some c) ↔
      (columns.map (·.field)).Nodup := by
  constructor
  · intro found
    refine List.Nodup.map_on (fun x first y second same => ?_) (List.Nodup.of_map _ distinct)
    obtain ⟨field, own⟩ := Option.ne_none_iff_exists'.mp (named x first)
    exact Option.some.inj ((found x first field own).symm.trans (found y second field (same ▸ own)))
  · intro apart c member field own
    cases found : columns.reverse.find? (·.field = some field) with
    | none =>
      have absent := List.find?_eq_none.mp found c (List.mem_reverse.mpr member)
      simp [own] at absent
    | some last =>
      have inside := List.mem_reverse.mp (List.mem_of_find?_eq_some found)
      have other : last.field = some field := by simpa using List.find?_some found
      rw [List.inj_on_of_nodup_map apart inside member (other.trans own.symm)]

end Entries

/-- Each column of a model is found under its field exactly if no later field has the name of its own; all are, and
there are as many fields as columns, exactly if no two fields have the same name. -/
theorem columnsByField {table : String} {view : Option String} {fields : List FieldSpec} {m : Model}
    (built : build table view fields = .ok m) :
    (∀ field, (fieldEntries m.columns).lookup field = m.columnOfField? field) ∧
    (∀ before c after, m.columns = before ++ c :: after → ∃ field, c.field = some field ∧
      (m.columnOfField? field = some c ↔ ∀ later ∈ after, later.field ≠ some field)) ∧
    ((∀ c ∈ m.columns, ∀ field, c.field = some field → m.columnOfField? field = some c) ↔
      (fields.map (·.name)).Nodup) ∧
    ((fieldEntries m.columns).length = m.columns.length ↔ (fields.map (·.name)).Nodup) := by
  have distinct := builtNamesDistinct built
  obtain ⟨ds, rfl, -, made⟩ := builtFrom.mp built
  have declared : m.columns = ds.map (·.column) := by rw [← made]; rfl
  have owned : m.columns.map (·.field) = ((ds.map (·.spec)).map (·.name)).map some := by
    simp only [declared, List.map_map]
    rfl
  have names : m.columns.filterMap (·.field) = (ds.map (·.spec)).map (·.name) := by
    rw [declared, List.filterMap_map, List.map_map]
    exact congrFun List.filterMap_eq_map ds
  have named : ∀ c ∈ m.columns, c.field ≠ none := by
    intro c member
    obtain ⟨d, -, rfl⟩ := List.mem_map.mp (declared ▸ member)
    exact Option.some_ne_none d.spec.name
  refine ⟨fieldLookup m.columns, fun before c after split => ?_, ?_, ?_⟩
  · obtain ⟨field, own⟩ := Option.ne_none_iff_exists'.mp (named c (by rw [split]; simp))
    rw [split] at distinct
    refine ⟨field, own, ?_⟩
    unfold columnOfField?
    rw [split]
    exact lastFound own distinct
  · rw [← List.nodup_map_iff (fun _ _ => Option.some.inj), ← owned]
    exact allFound distinct named
  · have counted : (fieldEntries m.columns).length = ((ds.map (·.spec)).map (·.name)).eraseDups.length := by
      rw [← names, ← fieldNames, List.length_map]
    have total : m.columns.length = ((ds.map (·.spec)).map (·.name)).length := by simp [declared]
    rw [counted, total]
    exact (noneRepeated _).2

def crossedFields : List FieldSpec := [⟨"day", .text, "column=until"⟩, ⟨"until", .text, "column=day, notnull"⟩]

theorem crossedColumnsFound : ∃ m, build "visit" none crossedFields = .ok m ∧
    (∀ c ∈ m.columns, ∀ field, c.field = some field → m.columnOfField? field = some c) ∧
    (fieldEntries m.columns).length = m.columns.length := by
  have apart : (crossedFields.map (·.name)).Nodup := by decide
  have built : ∃ m, build "visit" none crossedFields = .ok m := ⟨_, rfl⟩
  obtain ⟨m, built⟩ := built
  obtain ⟨-, -, found, counted⟩ := columnsByField built
  exact ⟨m, built, found.mpr apart, counted.mpr apart⟩

def repeatedFields : List FieldSpec := [⟨"When", .text, ""⟩, ⟨"When", .text, "column=until"⟩]

def repeatedModel : Model where
  table := "visit"
  source := .table
  columns := [{ Column.declared "when" .text with field := some "When" },
    { Column.declared "until" .text with field := some "When" }]
  indices := []
  uniques := []

theorem columnMayBeHidden : ¬ ∀ table view fields m, build table view fields = .ok m →
    (∀ c ∈ m.columns, ∀ field, c.field = some field → m.columnOfField? field = some c) ∧
    (fieldEntries m.columns).length = m.columns.length := by
  intro all
  have built : build "visit" none repeatedFields = .ok repeatedModel := by rfl
  have counted := (all _ _ _ _ built).2
  have one : (fieldEntries repeatedModel.columns).length = 1 := by decide
  rw [one] at counted
  contradiction

end Model

end LiveSchema
