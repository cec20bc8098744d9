import LiveSchema.Catalog.Reading
import LiveSchema.Proofs.CopiedRows
import LiveSchema.Proofs.Observation
import Mathlib.Data.List.Forall2
/-! A database as far as sessions can tell: tables with their rows and indices and views, under names
that are resolved without regard to case, and one transaction at most. Whatever is asked may be refused,
and then nothing changes. What the catalog tells about definitions is left open; only whether an object
exists is told truthfully. -/
namespace LiveSchema

structure StoredTable where
  columns : List Column
  uniques : List ColumnGroup
  indices : List ColumnGroup := []
  rows : List StoredRow := []

inductive StoredObject where
  | table (t : StoredTable)
  | view (query : String)

def Store := List Char → Option StoredObject

namespace Store

def find (s : Store) (name : String) : Option StoredObject := s (nameKey name)

def table? (s : Store) (name : String) : Option StoredTable :=
  match s.find name with
  | some (.table t) => some t
  | _ => none

def set (s : Store) (name : String) (object : Option StoredObject) : Store :=
  fun key => if key = nameKey name then object else s key

def put (s : Store) (name : String) (t : StoredTable) : Store := s.set name (some (.table t))

def remove (s : Store) (name : String) : Store := s.set name none

def HasIndex (s : Store) (index : String) : Prop :=
  ∃ key t, s key = some (.table t) ∧ ∃ g ∈ t.indices, nameKey g.name = nameKey index

def dropIndex (index : String) : StoredObject → StoredObject
  | .table t => .table { t with indices := t.indices.filter (nameKey ·.name ≠ nameKey index) }
  | .view query => .view query

def withoutIndex (s : Store) (index : String) : Store := fun key => (s key).map (dropIndex index)

section
variable {s : Store} {name other : String}

theorem findSame (same : nameKey other = nameKey name) (object : Option StoredObject) :
    (s.set name object).find other = object := by
  simp [find, set, same]

theorem findOther (differs : nameKey other ≠ nameKey name) (object : Option StoredObject) :
    (s.set name object).find other = s.find other := by
  simp [find, set, differs]

theorem tableOfFind {t : StoredTable} (found : s.find name = some (.table t)) :
    s.table? name = some t := by
  simp [table?, found]

theorem tableFound {t : StoredTable} (found : s.table? name = some t) :
    s.find name = some (.table t) := by
  unfold table? at found
  split at found
  · cases found; assumption
  · contradiction

theorem findCongr (same : nameKey name = nameKey other) : s.find name = s.find other := by
  simp only [find, same]

theorem tableCongr (same : nameKey name = nameKey other) : s.table? name = s.table? other := by
  simp only [table?, findCongr same]

end

end Store

def Change.Effect (d : Dialect) : Change → Store → Store → Prop
  | .createTable table columns uniques, s, t =>
    s.find table = none ∧ t = s.put table { columns, uniques }
  | .dropTable table, s, t => s.table? table ≠ none ∧ t = s.remove table
  | .renameTable source target, s, t =>
    ∃ old, s.table? source = some old ∧ s.find target = none ∧ t = (s.remove source).put target old
  | .addColumn table column, s, t =>
    ∃ old rows, s.table? table = some old ∧
      List.Forall₂ (fun row row' : StoredRow => ∀ name ≠ column.name, row' name = row name)
        old.rows rows ∧
      t = s.put table { old with columns := old.columns ++ [column], rows }
  | .addUnique table group, s, t =>
    ∃ old, s.table? table = some old ∧
      t = s.put table { old with uniques := old.uniques ++ [group] }
  | .createIndex table group, s, t =>
    ∃ old, s.table? table = some old ∧ ¬s.HasIndex (d.indexName table group.name) ∧
      t = s.put table
        { old with indices := old.indices ++ [⟨d.indexName table group.name, group.columns⟩] }
  | .dropIndex table group, s, t =>
    s.HasIndex (d.indexName table group) ∧ t = s.withoutIndex (d.indexName table group)
  | .dropIndexIfExists table group, s, t => t = s.withoutIndex (d.indexName table group)
  | .dropView view, s, t => (∃ query, s.find view = some (.view query)) ∧ t = s.remove view

def CopyPlan.Effect (p : CopyPlan) (s t : Store) : Prop :=
  ∃ old new rows, s.table? p.source = some old ∧ s.table? p.target = some new ∧
    List.Forall₂ (fun row row' : StoredRow => ∀ entry ∈ p.written row, row' entry.1 = entry.2)
      old.rows rows ∧
    t = s.put p.target { new with rows := new.rows ++ rows }

def Purpose.Effect (d : Dialect) (rows : List Row) : Purpose → Store → Store → Prop
  | .catalog (.presence name), s, t => t = s ∧ (rows = [] ↔ s.find name = none)
  | .catalog _, s, t => t = s
  | .change c, s, t => c.Effect d s t
  | .copy p, s, t => p.Effect s t
  | .command, _, _ => True

/-- What is seen, and what will be seen again if the open transaction is rolled back. -/
structure Database where
  store : Store
  saved : Option Store := none

def Database.rolledBack (s : Database) : Database := ⟨s.saved.getD s.store, none⟩

/-- A refused request changes nothing, except that a transaction that could not be ended may be gone. -/
inductive Answers (d : Dialect) : World Database where
  | refused {s request report} : Answers d s request (.failed report) s
  | abandoned {s step report} (ending : step ≠ .start) :
    Answers d s (.transaction step) (.failed report) s.rolledBack
  | effect {s purpose sql arguments rows affected store} (effect : purpose.Effect d rows s.store store) :
    Answers d s (.statement purpose sql arguments) (.answered rows affected) ⟨store, s.saved⟩
  | start {s rows affected} (single : s.saved = none) :
    Answers d s (.transaction .start) (.answered rows affected) ⟨s.store, some s.store⟩
  | commit {s rows affected} :
    Answers d s (.transaction .commit) (.answered rows affected) ⟨s.store, none⟩
  | rollback {s rows affected} :
    Answers d s (.transaction .rollback) (.answered rows affected) s.rolledBack

end LiveSchema
