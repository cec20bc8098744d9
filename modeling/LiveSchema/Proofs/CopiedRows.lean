import LiveSchema.CopyPlan
import LiveSchema.Proofs.DeclaredColumns
import LiveSchema.Reconcile.Difference
import Mathlib.Data.List.Nodup
/-! The rows that copying writes. Expressions of a copy are evaluated on a row of the old table; what the
database puts into columns that are no target of the copy is not described. -/
namespace LiveSchema

abbrev StoredRow := String → Value

namespace Expr

mutual
def valueOn? (row : StoredRow) : Expr → Option Value
  | .value v => some v
  | .column name => some (row name)
  | .call .coalesce arguments => firstOn? row arguments
  | _ => none

def firstOn? (row : StoredRow) : List Expr → Option Value
  | [] => some .null
  | e :: rest => do
    let v ← e.valueOn? row
    if v.isNull then firstOn? row rest else some v
end

end Expr

theorem Value.isNullIff (v : Value) : v.isNull = true ↔ v = .null := by
  cases v <;> simp [isNull]

theorem Dialect.fillValueNotNull (d : Dialect) (type : Option ValueType) :
    d.fillValue type ≠ .null := by
  rcases type with _ | type
  · simp [fillValue]
  · cases type <;> simp [fillValue]

def CopySource.value (old : Value) : CopySource → Value
  | .column => old
  | .columnOr fill => if old.isNull then fill else old
  | .fixed fill => fill

namespace CopyPlan

theorem expressionValue (row : StoredRow) (column : String) (source : CopySource) :
    (expression column source).valueOn? row = some (source.value (row column)) := by
  cases source with
  | column => simp [expression, Expr.valueOn?, CopySource.value]
  | fixed fill => simp [expression, Expr.valueOn?, CopySource.value]
  | columnOr fill =>
    simp only [expression, Expr.valueOn?, Expr.firstOn?, CopySource.value, Option.bind_eq_bind,
      Option.bind_some]
    by_cases old : (row column).isNull = true
    · by_cases none : fill.isNull = true
      · simp [old, (Value.isNullIff fill).mp none]
      · simp [old, none]
    · simp [old]

def written? (p : CopyPlan) (row : StoredRow) : Option (List (String × Value)) :=
  (p.select.columns.mapM (Expr.valueOn? row)).map ((p.columns.map (·.1)).zip ·)

def written (p : CopyPlan) (row : StoredRow) : List (String × Value) :=
  p.columns.map fun c => (c.1, c.2.value (row c.1))

theorem writtenBySelect (p : CopyPlan) (row : StoredRow) : p.written? row = some (p.written row) := by
  have selected : p.select.columns = p.columns.map fun c => expression c.1 c.2 := rfl
  have values : (p.columns.map fun c => expression c.1 c.2).mapM (Expr.valueOn? row) =
      some (p.columns.map fun c => c.2.value (row c.1)) := by
    rw [List.mapM_map]
    simp only [Function.comp_def, expressionValue]
    exact List.mapM_pure
  rw [written?, selected, values, Option.map_some, List.zip_map', written]

theorem writtenSource {d : Dialect} {m : Model} {live : Table} {row name v}
    (member : (name, v) ∈ (ofModel d m live).written row) :
    ∃ c ∈ m.columns, ∃ source, sourceOf? d live c = some source ∧ c.name = name ∧
      v = source.value (row name) := by
  obtain ⟨entry, inPlan, pair⟩ := List.mem_map.mp member
  obtain ⟨c, declared, found⟩ := List.mem_filterMap.mp inPlan
  obtain ⟨source, hs, rfl⟩ := Option.map_eq_some_iff.mp found
  cases pair
  exact ⟨c, declared, source, hs, rfl, rfl⟩

theorem sourceWritten {d : Dialect} {m : Model} {live : Table} {c source} (declared : c ∈ m.columns)
    (found : sourceOf? d live c = some source) : (c.name, source) ∈ (ofModel d m live).columns :=
  List.mem_filterMap.mpr ⟨c, declared, by simp [found]⟩

end CopyPlan

def Column.Required (c : Column) : Prop := c.notNull = true ∧ c.autoIncrement = false
instance (c : Column) : Decidable c.Required := by unfold Column.Required; infer_instance

def Table.Admits (t : Table) (row : StoredRow) : Prop :=
  ∀ c ∈ t.columns, c.notNull = true → row c.name ≠ .null

namespace CopyPlan
variable {d : Dialect} {m : Model} {live : Table} {c : Column}

theorem requiredIsTarget (fill : c.requiresFill = true) (declared : c ∈ m.columns) :
    c.name ∈ (ofModel d m live).columns.map (·.1) := by
  have found : ∃ source, sourceOf? d live c = some source := by
    unfold sourceOf?
    cases live.column? c.name with
    | none => simp [fill]
    | some previous => exact ⟨_, rfl⟩
  obtain ⟨source, found⟩ := found
  exact List.mem_map.mpr ⟨_, sourceWritten declared found, rfl⟩

theorem liveColumnSource {name : String} {previous : Column}
    (found : live.column? name = some previous) : previous ∈ live.columns ∧ previous.name = name :=
  ⟨List.mem_of_find?_eq_some found, by simpa using List.find?_some found⟩

theorem sourceNotNull {row : StoredRow} {source : CopySource} (admitted : live.Admits row)
    (required : c.Required)
    (strict : c.default ≠ none → ∀ previous ∈ live.column? c.name, previous.notNull = true)
    (found : sourceOf? d live c = some source) : source.value (row c.name) ≠ .null := by
  unfold sourceOf? at found
  cases lookup : live.column? c.name with
  | none =>
    simp only [lookup] at found
    split at found
    · cases found
      exact d.fillValueNotNull c.valueType
    · contradiction
  | some previous =>
    simp only [lookup, Option.some.injEq] at found
    subst source
    split
    · simp only [CopySource.value]
      split
      · exact d.fillValueNotNull c.valueType
      · rename_i present
        exact fun null => present ((Value.isNullIff _).mpr null)
    · rename_i plain
      have kept : previous.notNull = true := by
        by_cases none : c.default = none
        · simpa [Column.requiresFill, required.1, required.2, none] using plain
        · exact strict none previous lookup
      obtain ⟨member, named⟩ := liveColumnSource lookup
      exact named ▸ admitted previous member kept

theorem defaultedSource {previous : Column} (lookup : live.column? c.name = some previous)
    (defaulted : c.default ≠ none) : sourceOf? d live c = some .column := by
  obtain ⟨text, given⟩ := Option.ne_none_iff_exists'.mp defaulted
  simp [sourceOf?, lookup, Column.requiresFill, given]

def nullUnder (name : String) : StoredRow := fun other => if other = name then .null else .bool true

/-- Copying keeps to NOT NULL exactly where no required column of the model has a default while its
counterpart may be NULL: such a NULL is copied, and the default does not take its place. -/
theorem copyRespectsNotNull {d : Dialect} {m : Model} {live : Table}
    (declared : (m.columns.map (·.name)).Nodup) (existing : (live.columns.map (·.name)).Nodup) :
    (∀ c ∈ m.columns, c.requiresFill = true → c.name ∈ (ofModel d m live).columns.map (·.1)) ∧
    ((∀ old, live.Admits old → ∃ new, (ofModel d m live).written? old = some new ∧
        ∀ c ∈ m.columns, c.Required → ∀ v, (c.name, v) ∈ new → v ≠ .null) ↔
      ∀ c ∈ m.columns, c.Required → c.default ≠ none →
        ∀ previous ∈ live.column? c.name, previous.notNull = true) := by
  refine ⟨fun c member fill => requiredIsTarget fill member, ?_, ?_⟩
  · intro fits c member required defaulted previous lookup
    by_contra nullable
    obtain ⟨inLive, named⟩ := liveColumnSource lookup
    -- A row with NULL in this one column: no other live column has its name.
    have admitted : live.Admits (nullUnder c.name) := by
      intro x inTable strict
      have other : x.name ≠ c.name := fun same =>
        nullable (List.inj_on_of_nodup_map existing inTable inLive (same.trans named.symm) ▸ strict)
      simp [nullUnder, other]
    obtain ⟨new, wrote, notNull⟩ := fits _ admitted
    rw [writtenBySelect, Option.some.injEq] at wrote
    have entry := sourceWritten member (defaultedSource (d := d) lookup defaulted)
    have null : (c.name, Value.null) ∈ new :=
      wrote ▸ List.mem_map.mpr ⟨_, entry, by simp [CopySource.value, nullUnder]⟩
    exact notNull c member required _ null rfl
  · intro strict old admitted
    refine ⟨_, writtenBySelect _ _, ?_⟩
    intro c member required v inRow
    obtain ⟨c', member', source, found, named, rfl⟩ := writtenSource inRow
    have same : c' = c := List.inj_on_of_nodup_map declared member' member named
    subst same
    exact sourceNotNull admitted required (strict c' member required) found

def memberFields : List FieldSpec :=
  [⟨"ID", .int, "primarykey,autoincrement,notnull"⟩, ⟨"Name", .text, "notnull"⟩,
    ⟨"Age", .int, "notnull"⟩, ⟨"City", .text, "notnull,default='x'"⟩, ⟨"Note", .text, ""⟩]

def memberModel : Model :=
  { Model.empty "member" .table with
    columns := [
      { Column.declared "id" .int with
        field := some "ID", primaryKey := true, autoIncrement := true, notNull := true },
      { Column.declared "name" .text with field := some "Name", notNull := true },
      { Column.declared "age" .int with field := some "Age", notNull := true },
      { Column.declared "city" .text with
        field := some "City", notNull := true, default := some "'x'" },
      { Column.declared "note" .text with field := some "Note" }] }

def memberTable : Table :=
  { name := "member"
    columns := [{ Column.introspected "id" "INTEGER" with primaryKey := true, autoIncrement := true },
      Column.introspected "name" "TEXT",
      { Column.introspected "city" "TEXT" with notNull := true, default := some "'x'" },
      Column.introspected "phone" "TEXT"] }

theorem memberCopyRespectsNotNull : Model.build "member" none memberFields = .ok memberModel ∧
    (memberModel.columns.map (·.name)).Nodup ∧ (memberTable.columns.map (·.name)).Nodup ∧
    "age" ∈ (ofModel .sqlite memberModel memberTable).columns.map (·.1) ∧
    ∀ old, memberTable.Admits old →
      ∃ new, (ofModel .sqlite memberModel memberTable).written? old = some new ∧
        ∀ c ∈ memberModel.columns, c.Required → ∀ v, (c.name, v) ∈ new → v ≠ .null := by
  have built : Model.build "member" none memberFields = .ok memberModel := by rfl
  have declared := Model.builtNamesDistinct built
  have existing : (memberTable.columns.map (·.name)).Nodup := by decide
  have copy := copyRespectsNotNull (d := .sqlite) declared existing
  exact ⟨built, declared, existing, copy.1 _ (by decide : memberModel.columns[2] ∈ _) rfl,
    copy.2.mpr (by decide)⟩

def personFields : List FieldSpec := [⟨"Name", .text, "notnull,default='x'"⟩]

def personModel : Model :=
  { Model.empty "person" .table with
    columns := [{ Column.declared "name" .text with
      field := some "Name", notNull := true, default := some "'x'" }] }

def personTable : Table := { name := "person", columns := [Column.introspected "name" "TEXT"] }

def personDiff : TableDiff := ⟨[], personModel.columns, [], true, true⟩

theorem copyMayWriteNull : ¬ ∀ (table : String) (fields : List FieldSpec) (m : Model) (live : Table)
    (diff : TableDiff), Model.build table none fields = .ok m → (live.columns.map (·.name)).Nodup →
    TableDiff.compute .sqlite m live = .ok diff → diff.strategy = .recreate →
    ∀ old, live.Admits old → ∃ new, (ofModel .sqlite m live).written? old = some new ∧
      ∀ c ∈ m.columns, c.Required → ∀ v, (c.name, v) ∈ new → v ≠ .null := by
  intro neverNull
  have admitted : personTable.Admits fun _ => .null := by simp [Table.Admits, personTable, Column.introspected]
  obtain ⟨new, wrote, notNull⟩ := neverNull "person" personFields personModel personTable personDiff (by rfl)
    (by decide) (by rfl) (by rfl) _ admitted
  rw [writtenBySelect, Option.some.injEq] at wrote
  have null : ("name", Value.null) ∈ new := by
    rw [← wrote]
    exact List.mem_cons_self
  exact notNull _ (List.mem_singleton_self _) (by decide) .null null rfl

end CopyPlan

end LiveSchema
