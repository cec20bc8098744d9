import LiveSchema.Proofs.Settled
/-! The ways an update can take, and where each of them ends. What is asked first only looks; what it shows
decides which way is taken. Every way that succeeds on a table ends with a table that is settled. -/
namespace LiveSchema

inductive UpdatePath (m : Model) (s : Store) : Session SchemaUpdate → Prop where
  | pending {e} (occupied : s.find (backupName m.table) ≠ none) : UpdatePath m s (.fail e)
  | create (free : s.find (backupName m.table) = none) (absent : s.find m.table = none) :
    UpdatePath m s (do Session.create .sqlite m; return .created)
  | view {v : View} {query : String} (found : s.find m.table = some (.view query)) :
    UpdatePath m s
      (do Session.change .sqlite (.dropView v.name); Session.create .sqlite m; return .viewReplaced)
  | alter {t n groups diff} (free : s.find (backupName m.table) = none)
    (found : s.table? m.table = some t) (same : nameKey n = nameKey m.table)
    (read : List.Forall₂ (ReadsAs n) t.indices groups)
    (computed : TableDiff.compute .sqlite m (t.reading n groups) = .ok diff)
    (additive : diff.strategy = .additive) :
    UpdatePath m s
      (do return .additive (← Session.alterInPlace .sqlite m (t.reading n groups) diff))
  | recreate {t n groups diff} (found : s.table? m.table = some t) (same : nameKey n = nameKey m.table)
    (read : List.Forall₂ (ReadsAs n) t.indices groups)
    (computed : TableDiff.compute .sqlite m (t.reading n groups) = .ok diff)
    (recreated : diff.strategy = .recreate) :
    UpdatePath m s
      (do return .recreated (← Session.recreate .sqlite m (t.reading n groups) diff))

namespace Session
variable {α β : Type} {m : Model} {s u : Database} {log : List (Exchange Database)}

def Leads (s : Database) (log : List (Exchange Database)) (result : Except Failure β) (u : Database)
    (way : Session β → Prop) : Prop :=
  ∃ first rest, log = first ++ rest ∧ (∀ x ∈ first, x.request.Looks) ∧
    ((Refused first ∧ rest = [] ∧ u = s ∧ ∃ e, result = .error e) ∨
      ∃ p, way p ∧ Trace Tells p s rest (ended result) u)

theorem leadsNow {p : Session β} {way : Session β → Prop} {result : Except Failure β} (here : way p)
    (trace : Trace Tells p s log (ended result) u) : Leads s log result u way :=
  ⟨[], log, rfl, List.forall_mem_nil _, .inr ⟨p, here, trace⟩⟩

theorem leadsThen {p : Session α} {f : α → Session β} {way : Session β → Prop}
    {result : Except Failure β} (looks : p.Sends Request.Looks)
    (refused : ∀ e first, Trace Tells p s first (ended (.error e)) s → Refused first)
    (next : ∀ a first rest, Trace Tells p s first (ended (.ok a)) s →
      Trace Tells (f a) s rest (ended result) u → Leads s rest result u way)
    (trace : Trace Tells (p >>= f) s log (ended result) u) : Leads s log result u way := by
  rcases endOfBind trace with ⟨a, first, rest, t, rfl, here, later⟩ | ⟨e, rfl, here⟩
  · obtain ⟨same, looked⟩ := lookingEnd looks here
    subst same
    obtain ⟨second, rest, rfl, looked', ends⟩ := next a first rest here later
    refine ⟨first ++ second, rest, by simp, List.forall_mem_append.mpr ⟨looked, looked'⟩, ?_⟩
    exact ends.imp_left fun ⟨refusal, others⟩ => ⟨refusedAppend.mpr (.inr refusal), others⟩
  · obtain ⟨same, looked⟩ := lookingEnd looks here
    subst same
    exact ⟨log, [], by simp, looked, .inl ⟨refused e log here, rfl, rfl, e, rfl⟩⟩

theorem differenceComputed (live : Table) : ∃ diff, TableDiff.compute .sqlite m live = .ok diff := by
  have altered (columns : List Column) : ∃ some, TableDiff.alteredIn .sqlite live columns = .ok some := by
    induction columns with
    | nil => exact ⟨[], rfl⟩
    | cons c rest ih =>
      obtain ⟨others, later⟩ := ih
      rw [TableDiff.alteredIn, later]
      split
      · exact ⟨others, rfl⟩
      · rw [TableDiff.isAltered, Column.typeResolved]
        exact ⟨_, rfl⟩
  obtain ⟨some, altered⟩ := altered m.columns
  rw [TableDiff.compute, altered]
  exact ⟨_, rfl⟩

theorem looksObjectExists (name : String) : (objectExists .sqlite name).Sends Request.Looks :=
  sendsObjectExists (fun _ _ => ⟨_, _, _, rfl⟩) .sqlite name

theorem looksReadSchema (name : String) : (readSchema .sqlite name).Sends Request.Looks :=
  sendsReadSchema (fun _ _ => ⟨_, _, _, rfl⟩) .sqlite name

theorem updateLivePath (isTable : m.source = .table) (free : s.store.find (backupName m.table) = none)
    (present : s.store.find m.table ≠ none) {result : Except Failure SchemaUpdate}
    (trace : Trace Tells (updateLive .sqlite m) s log (ended result) u) :
    Leads s log result u (UpdatePath m s.store) := by
  refine leadsThen (looksReadSchema _) ?_ ?_ trace
  · intro e first reading
    rcases readSchemaEnd reading with ⟨refused, _⟩ | told
    · exact refused
    · generalize s.store.find m.table = object at told present
      cases told
      contradiction
  · intro schema first rest reading later
    rcases readSchemaEnd reading with ⟨_, e, failed⟩ | told
    · cases failed
    generalize known : s.store.find m.table = object at told
    generalize same : Except.ok schema = answer at told
    cases told with
    | absent => cases same
    | view =>
      cases same
      exact leadsNow (.view known) later
    | @table old n groups named read =>
      cases same
      have found := Store.tableOfFind known
      have noView : m.isView = false := by simp [Model.isView, Model.view?, isTable]
      obtain ⟨diff, computed⟩ := differenceComputed (m := m) (old.reading n groups)
      simp only [noView, updateTable, computed] at later
      cases strategy : diff.strategy with
      | additive =>
        rw [if_neg Bool.false_ne_true, sqlReady, strategy] at later
        exact leadsNow (.alter free found named read computed strategy) later
      | recreate =>
        rw [if_neg Bool.false_ne_true, sqlReady, strategy] at later
        exact leadsNow (.recreate found named read computed strategy) later

theorem objectExistsRefused {name : String} {e : Failure}
    (asking : Trace Tells (objectExists .sqlite name) s log (ended (.error e)) u) : Refused log := by
  rcases objectExistsEnd asking with ⟨refused, _⟩ | known
  · exact refused
  · cases known

theorem objectExistsKnown {name : String} {present : Bool}
    (asking : Trace Tells (objectExists .sqlite name) s log (ended (.ok present)) u) :
    present = (s.store.find name).isSome := by
  rcases objectExistsEnd asking with ⟨_, e, failed⟩ | known
  · cases failed
  · exact Except.ok.inj known

theorem updatePath (isTable : m.source = .table) {result : Except Failure SchemaUpdate}
    (trace : Trace Tells (update .sqlite m) s log (ended result) u) :
    Leads s log result u (UpdatePath m s.store) := by
  refine leadsThen (looksObjectExists _) (fun _ _ => objectExistsRefused) ?_ trace
  intro pending first rest asking later
  cases pending with
  | true =>
    have occupied := (objectExistsKnown asking).symm
    exact leadsNow (.pending (Option.isSome_iff_ne_none.mp occupied)) later
  | false =>
    have free := Option.not_isSome_iff_eq_none.mp (Bool.eq_false_iff.mp (objectExistsKnown asking).symm)
    refine leadsThen (looksObjectExists _) (fun _ _ => objectExistsRefused) ?_ later
    intro present second rest asking later
    cases present with
    | true => exact updateLivePath isTable free (Option.isSome_iff_ne_none.mp (objectExistsKnown asking).symm) later
    | false =>
      have absent := Option.not_isSome_iff_eq_none.mp (Bool.eq_false_iff.mp (objectExistsKnown asking).symm)
      exact leadsNow (.create free absent) later

theorem absentTrace {world : World Database} {p q : Session α} {name table : String}
    (honest : ∀ s r reply t, world s r reply t → Answers .sqlite s r reply t)
    (other : nameKey name ≠ nameKey table) (unsaved : s.saved = none) (absent : s.store.find name = none)
    (spares : p.Sends (Request.Spares table)) (trace : Trace world p s log q u) : u.store.find name = none := by
  have here : Store.Unharmed name (· = none) s := ⟨absent, by simp [unsaved]⟩
  exact (Store.unharmedTrace other (fun _ _ => Option.map_eq_none_iff.mpr) (by simp) honest spares here trace).1

theorem absentEnd {p q : Session α} {name table : String} (other : nameKey name ≠ nameKey table)
    (unsaved : s.saved = none) (absent : s.store.find name = none)
    (spares : p.Sends (Request.Spares table)) (trace : Trace Tells p s log q u) :
    u.store.find name = none :=
  absentTrace (fun _ _ _ _ tells => tells.answers) other unsaved absent spares trace

theorem createEnd (isTable : m.source = .table) {result : Except Failure Unit}
    (trace : Trace Tells (create .sqlite m) s log (ended result) u) :
    u.saved = s.saved ∧ ((Refused log ∧ ∃ e, result = .error e) ∨
      (result = .ok () ∧ Change.Effects (creation m) s.store u.store)) := by
  unfold create at trace
  rw [isTable] at trace
  exact changesEnd trace

theorem rebuildEnd (isTable : m.source = .table) {live : Table} {diff : TableDiff}
    {result : Except Failure RecreateReport} (unsaved : s.saved = none)
    (trace : Trace Tells (rebuild .sqlite m live diff) s log (ended result) u) :
    u.saved = none ∧ ((Refused log ∧ ∃ e, result = .error e) ∨
      ((∃ report, result = .ok report) ∧ ∃ made, Change.Effects (creation m) s.store made ∧
        (u.store = made ∨ (CopyPlan.ofModel .sqlite m live).Effect made u.store))) := by
  rcases endOfBind trace with ⟨_, first, rest, t, rfl, creating, later⟩ | ⟨e, rfl, creating⟩
  · obtain ⟨saved, ⟨_, e, failed⟩ | ⟨_, effects⟩⟩ := createEnd isTable creating
    · cases failed
    have closed : t.saved = none := saved.trans unsaved
    obtain ⟨inner, copying, rfl⟩ := endOfMap later
    obtain ⟨closed, ⟨refused, ⟨e, rfl⟩, _⟩ | ⟨⟨copied, rfl⟩, effect⟩⟩ := copyRowsEnd closed copying
    · exact ⟨closed, .inl ⟨refusedAppend.mpr (.inr refused), e, rfl⟩⟩
    · exact ⟨closed, .inr ⟨⟨_, rfl⟩, t.store, effects, effect.imp_left (congrArg Database.store)⟩⟩
  · obtain ⟨saved, ⟨refused, _⟩ | ⟨made, _⟩⟩ := createEnd isTable creating
    · exact ⟨saved.trans unsaved, .inl ⟨refused, e, rfl⟩⟩
    · cases made

end Session

section Creation
variable {m : Model} {s t u : Store} (columnNames : (m.columns.map (·.name)).Nodup)
  (groupNames : (m.indices.map (nameKey ·.name)).Nodup)
include columnNames groupNames

theorem creationSettles (effects : Change.Effects (Session.creation m) s t) :
    ∃ table, t.table? m.table = some table ∧ table.Settles m := by
  obtain ⟨_, ⟨_, rfl⟩, indices⟩ := effects
  exact ⟨_, Store.rebuiltIndices (Store.tablePut _ _ _) groupNames indices,
    TableDiff.settledOfModel columnNames groupNames []⟩

theorem copySettles {live : Table} (effects : Change.Effects (Session.creation m) s t)
    (copied : u = t ∨ (CopyPlan.ofModel .sqlite m live).Effect t u) :
    ∃ table, u.table? m.table = some table ∧ table.Settles m := by
  obtain ⟨table, found, settled⟩ := creationSettles columnNames groupNames effects
  rcases copied with rfl | ⟨_, new, rows, _, target, _, rfl⟩
  · exact ⟨table, found, settled⟩
  · cases found.symm.trans target
    exact ⟨{ table with rows := table.rows ++ rows }, Store.tablePut _ _ _, settled.columns, settled.known,
      settled.uniques, settled.indices, settled.complete, settled.distinct⟩

end Creation

structure Database.Settled (s : Database) (m : Model) : Prop where
  closed : s.saved = none
  free : s.store.find (backupName m.table) = none
  table : ∃ t, s.store.table? m.table = some t ∧ t.Settles m

namespace Session
variable {m : Model} {s u : Database} {log : List (Exchange Database)}

theorem alterSettles {t : StoredTable} {n : String} {groups : List ColumnGroup} {diff : TableDiff}
    {report : AdditiveReport} (columnNames : (m.columns.map (·.name)).Nodup)
    (groupNames : (m.indices.map (nameKey ·.name)).Nodup) (unsaved : s.saved = none)
    (free : s.store.find (backupName m.table) = none) (found : s.store.table? m.table = some t)
    (distinct : (t.indices.map (nameKey ·.name)).Nodup) (same : nameKey n = nameKey m.table)
    (read : List.Forall₂ (ReadsAs n) t.indices groups)
    (computed : TableDiff.compute .sqlite m (t.reading n groups) = .ok diff)
    (additive : diff.strategy = .additive)
    (trace : Trace Tells (alterInPlace .sqlite m (t.reading n groups) diff) s log (ended (.ok report)) u) :
    u.Settled m := by
  have free := absentEnd (backupKeyDiffers m.table) unsaved free (alterSpares rfl _ diff) trace
  have uniques : m.uniques.filter (TableDiff.lacksUnique (t.reading n groups)) = [] :=
    TableDiff.uniquesPresent
      ((TableDiff.computedUniques computed).symm.trans (TableDiff.additiveParts additive).2.2)
  obtain ⟨_, first, rest, v, rfl, altering, later⟩ := endOfBindOk trace
  obtain ⟨rfl, rfl, _⟩ := endOfDone later
  have inside (inner : List (Exchange Database)) (r : Except Failure Unit) (v : Database)
      (ran : Trace Tells (changes .sqlite (diff.additiveChanges m (t.reading n groups)))
        ⟨s.store, some s.store⟩ inner (ended r) v) :
      v.saved = some s.store ∧ ∀ e, r = .error e → Refused inner := by
    exact ⟨(changesEnd ran).1, fun e failed => changesRefused (failed ▸ ran)⟩
  rcases transactionEnd unsaved inside altering with ⟨_, ⟨e, failed⟩, _⟩ | ⟨_, _, w, _, rfl, ran⟩
  case inl => cases failed
  obtain ⟨_, effects⟩ := changesMade ran
  rw [TableDiff.additiveChanges, uniques, List.map_nil, List.append_nil] at effects
  obtain ⟨c, effects, made⟩ := Change.effectsAppend.mp effects
  obtain ⟨a, added, dropped⟩ := Change.effectsAppend.mp effects
  obtain ⟨rows, afterAdding⟩ := Store.addedColumns found added
  have afterDropping := Store.droppedIndices afterAdding dropped
  have after := Store.rebuiltIndices afterDropping (groupNames.sublist (List.filter_sublist.map _)) made
  exact ⟨rfl, free, _, after,
    TableDiff.settledAltered columnNames groupNames distinct same read computed additive rows⟩

theorem recreateSettles {live : Table} {diff : TableDiff} {report : RecreateReport}
    (isTable : m.source = .table) (columnNames : (m.columns.map (·.name)).Nodup)
    (groupNames : (m.indices.map (nameKey ·.name)).Nodup) (unsaved : s.saved = none)
    (trace : Trace Tells (recreate .sqlite m live diff) s log (ended (.ok report)) u) :
    u.Settled m := by
  obtain ⟨_, first, rest, v, rfl, aside, later⟩ := endOfBindOk trace
  obtain ⟨saved, _⟩ := changeEnd aside
  obtain ⟨outcome, second, rest, w, rfl, rebuilding, later⟩ := endOfBindOk later
  obtain ⟨inner, same, rebuilding⟩ := endOfOutcome rebuilding
  cases same
  obtain ⟨closed, ⟨_, e, rfl⟩ | ⟨⟨report, rfl⟩, made, effects, copied⟩⟩ :=
    rebuildEnd isTable (saved.trans unsaved) rebuilding
  · obtain ⟨_, _, _, _, _, _, later⟩ := endOfBindOk later
    cases (endOfFail later).2.2
  · obtain ⟨_, third, rest, v, rfl, dropping, later⟩ := endOfBindOk later
    obtain ⟨rfl, rfl, _⟩ := endOfDone later
    obtain ⟨saved, ⟨_, ⟨e, failed⟩, _⟩ | ⟨_, _, written⟩⟩ := changeEnd dropping
    · cases failed
    obtain ⟨table, found, settled⟩ := copySettles columnNames groupNames effects copied
    refine ⟨saved.trans closed, ?_, table, ?_, settled⟩
    · rw [written]
      exact Store.findSame rfl none
    · refine Store.tableOfFind ?_
      rw [written, Store.remove, Store.findOther (backupKeyDiffers m.table).symm]
      exact Store.tableFound found

end Session

end LiveSchema
