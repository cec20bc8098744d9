import LiveSchema.Proofs.DeclaredColumns
import LiveSchema.Proofs.SettledUpdates
/-! One update brings a table to rest: what it leaves differs in nothing from the model, and a second update
finds nothing to do. -/
namespace LiveSchema

def Store.Described (s : Store) (table : String) : Prop :=
  ∃ t n sql rows, s.table? table = some t ∧ nameKey n = nameKey table ∧
    Catalog.readTable n sql = .ok (t.described n) ∧ List.Forall₂ (IndexTold n) rows t.indices

namespace Session
variable {α : Type} {m : Model} {s u : Database} {log : List (Exchange Database)}

theorem updateSettles (isTable : m.source = .table) (columnNames : (m.columns.map (·.name)).Nodup)
    (groupNames : (m.indices.map (nameKey ·.name)).Nodup) (unsaved : s.saved = none)
    (indexNames : ∀ t, s.store.table? m.table = some t → (t.indices.map (nameKey ·.name)).Nodup)
    {outcome : SchemaUpdate} (onTable : outcome ≠ .viewReplaced)
    (trace : Trace Tells (update .sqlite m) s log (ended (.ok outcome)) u) : u.Settled m := by
  obtain ⟨_, rest, _, _, ⟨_, _, _, e, failed⟩ | ⟨p, path, trace⟩⟩ := updatePath isTable trace
  · cases failed
  cases path with
  | pending occupied => cases (endOfFail trace).2.2
  | create free absent =>
    obtain ⟨_, first, last, v, rfl, creating, later⟩ := endOfBindOk trace
    obtain ⟨rfl, rfl, _⟩ := endOfDone later
    obtain ⟨saved, ⟨_, e, failed⟩ | ⟨_, effects⟩⟩ := createEnd isTable creating
    · cases failed
    · have free := absentEnd (backupKeyDiffers m.table) unsaved free (createSpares rfl isTable) creating
      exact ⟨saved.trans unsaved, free, creationSettles columnNames groupNames effects⟩
  | view found =>
    obtain ⟨_, _, _, _, _, _, later⟩ := endOfBindOk trace
    obtain ⟨_, _, _, _, _, _, later⟩ := endOfBindOk later
    cases (endOfDone later).2.2
    contradiction
  | alter free found same read computed additive =>
    obtain ⟨report, _, _, _, _, altering, later⟩ := endOfBindOk trace
    obtain ⟨rfl, rfl, _⟩ := endOfDone later
    exact alterSettles columnNames groupNames unsaved free found (indexNames _ found) same read computed
      additive altering
  | recreate found same read computed recreated =>
    obtain ⟨report, _, _, _, _, recreating, later⟩ := endOfBindOk trace
    obtain ⟨rfl, rfl, _⟩ := endOfDone later
    exact recreateSettles isTable columnNames groupNames unsaved recreating

theorem idleEnd {result : Except Failure Unit} (unsaved : s.saved = none)
    (trace : Trace Tells (inTransaction (changes .sqlite [])) s log (ended result) u) :
    u = s ∧ (Refused log ∨ result = .ok ()) := by
  have inside (inner : List (Exchange Database)) (r : Except Failure Unit) (v : Database)
      (ran : Trace Tells (changes .sqlite []) ⟨s.store, some s.store⟩ inner (ended r) v) :
      v.saved = some s.store ∧ ∀ e, r = .error e → Refused inner := by
    obtain ⟨_, rfl, rfl⟩ := endOfDone ran
    exact ⟨rfl, nofun⟩
  rcases transactionEnd unsaved inside trace with ⟨refused, _, same⟩ | ⟨_, _, v, rfl, rfl, ran⟩
  · exact ⟨same, .inl refused⟩
  · obtain ⟨_, rfl, _⟩ := endOfDone ran
    cases s
    cases unsaved
    exact ⟨rfl, .inr rfl⟩

theorem settledUpdate (isTable : m.source = .table) (groupNames : (m.indices.map (·.name)).Nodup)
    (settled : s.Settled m) {result : Except Failure SchemaUpdate}
    (trace : Trace Tells (update .sqlite m) s log (ended result) u) :
    u = s ∧ (∀ x ∈ log, x.request.Looks ∨ ∃ step, x.request = .transaction step) ∧
      (¬Refused log → result = .ok (.additive {})) := by
  obtain ⟨t, table, agrees⟩ := settled.table
  obtain ⟨first, rest, rfl, looks, ⟨refused, rfl, same, _⟩ | ⟨p, path, trace⟩⟩ := updatePath isTable trace
  · rw [List.append_nil]
    exact ⟨same, fun x member => .inl (looks x member), fun accepted => absurd refused accepted⟩
  cases path with
  | pending occupied => exact absurd settled.free occupied
  | create free absent =>
    rw [Store.tableFound table] at absent
    contradiction
  | view found =>
    rw [Store.tableFound table] at found
    cases found
  | recreate found same read computed recreated =>
    cases table.symm.trans found
    cases (TableDiff.settledDifference agrees groupNames same read).symm.trans computed
    contradiction
  | alter free found same read computed additive =>
    cases table.symm.trans found
    cases (TableDiff.settledDifference agrees groupNames same read).symm.trans computed
    obtain ⟨nothing, report⟩ := TableDiff.settledChanges agrees groupNames same read
    rw [alterInPlace, nothing, report] at trace
    have steps : (inTransaction (changes .sqlite [])).Sends fun r => ∃ step, r = .transaction step :=
      sendsTransaction (fun step => ⟨step, rfl⟩) trivial
    obtain ⟨_, altering, rfl⟩ := endOfMap trace
    obtain ⟨_, changing, rfl⟩ := endOfMap altering
    obtain ⟨same, finished⟩ := idleEnd settled.closed changing
    refine ⟨same, List.forall_mem_append.mpr ⟨fun x member => .inl (looks x member),
      fun x member => .inr (traceSends steps changing x member)⟩, fun accepted => ?_⟩
    rcases finished with refused | rfl
    · exact absurd (refusedAppend.mpr (.inr refused)) accepted
    · rfl

section Again

theorem askCatalogTrace {q : CatalogQuery} (choose : List Row → List Row) {decode : Row → Option α}
    {rows : List Row} {found : List α} (told : Told rows s.store q)
    (truthful : ∀ name, q = .presence name → (rows = [] ↔ s.store.find name = none))
    (decodes : (choose rows).mapM decode = some found) :
    ∃ log, Trace Tells (askCatalog .sqlite q choose decode) s log (.done found) s := by
  obtain ⟨sql, written⟩ := queryWritten q
  rw [askCatalog, written, sqlReady]
  have sent : Trace Tells (send (.catalog q) sql q.arguments) s
      [⟨s, .statement (.catalog q) sql q.arguments, .answered rows 0, s⟩] (.done (rows, 0)) s :=
    .ask (answeredTells told truthful) (.stop _ _)
  exact ⟨_, bindLast sent (by simp only [decodes]; rfl)⟩

theorem objectExistsTrace (name : String) : ∃ log,
    Trace Tells (objectExists .sqlite name) s log (.done (s.store.find name).isSome) s := by
  have asked : ∃ rows names, Told rows s.store (.presence name) ∧ (rows = [] ↔ s.store.find name = none) ∧
      (rows.take 1).mapM (·.text? 0) = some names ∧ (!names.isEmpty) = (s.store.find name).isSome := by
    cases s.store.find name with
    | none => exact ⟨[], [], List.forall_mem_nil _, by simp, rfl, rfl⟩
    | some object =>
      exact ⟨[[.text name]], [name], by simpa [Told] using ⟨name, rfl⟩, by simp, rfl, rfl⟩
  obtain ⟨rows, names, told, truthful, decodes, same⟩ := asked
  obtain ⟨log, trace⟩ := askCatalogTrace (·.take 1) told
    (fun _ query => by cases query; exact truthful) decodes
  exact ⟨_, bindLast trace (congrArg Session.done same)⟩

theorem readSchemaTrace {name : String} {t : StoredTable} (found : s.store.table? name = some t)
    (described : s.store.Described name) : ∃ n groups log, nameKey n = nameKey name ∧
      List.Forall₂ (ReadsAs n) t.indices groups ∧
      Trace Tells (readSchema .sqlite name) s log (.done (.table (t.reading n groups))) s := by
  obtain ⟨t', n, sql, rows, here, same, read, indices⟩ := described
  cases found.symm.trans here
  have entry : Told [[.text "table", .text n, .text sql]] s.store (.entry name) := by
    rw [Told, Store.tableFound found]
    exact .table same read
  have indicesTold : Told rows s.store (.indices n) := by
    intro t' there
    cases there.symm.trans ((Store.tableCongr same).trans found)
    exact indices
  obtain ⟨definitions, groups, decodes, parsed, all⟩ := indicesDecoded indices
  obtain ⟨first, entries⟩ : ∃ log, Trace Tells (askCatalog .sqlite (.entry name) (·.take 1) CatalogEntry.ofRow?)
      s log (.done [⟨"table", n, some sql⟩]) s := askCatalogTrace (·.take 1) entry nofun rfl
  obtain ⟨second, asked⟩ := askCatalogTrace id indicesTold nofun decodes
  have reading : Trace Tells (readIndices .sqlite n) s second (.done groups) s :=
    bindLast asked (by rw [parsed]; rfl)
  have schema : Trace Tells (schemaOf .sqlite "table" n sql) s second
      (.done (.table (t.reading n groups))) s := by
    rw [schemaOf, if_pos rfl, read, sqlReady]
    exact bindLast reading rfl
  exact ⟨n, groups, _, same, all, bindTrace entries schema⟩

theorem settledTrace (isTable : m.source = .table) (groupNames : (m.indices.map (·.name)).Nodup)
    (settled : s.Settled m) (described : s.store.Described m.table) :
    ∃ log, Trace Tells (update .sqlite m) s log (.done (.additive {})) s := by
  obtain ⟨t, table, agrees⟩ := settled.table
  obtain ⟨first, pending⟩ := objectExistsTrace (s := s) (backupName m.table)
  obtain ⟨second, present⟩ := objectExistsTrace (s := s) m.table
  obtain ⟨n, groups, third, same, read, reading⟩ := readSchemaTrace table described
  rw [settled.free] at pending
  rw [Store.tableFound table] at present
  have noView : m.isView = false := by simp [Model.isView, Model.view?, isTable]
  obtain ⟨nothing, report⟩ := TableDiff.settledChanges agrees groupNames same read
  have ending : Tells ⟨s.store, some s.store⟩ (.transaction .commit) (.answered [] 0) ⟨s.store, none⟩ :=
    commitTells
  have unsaved : (⟨s.store, none⟩ : Database) = s := by rw [← settled.closed]
  rw [unsaved] at ending
  have altering : ∃ log, Trace Tells (alterInPlace .sqlite m (t.reading n groups)
      ⟨[], [], [], true, true⟩) s log (.done {}) s := by
    rw [alterInPlace, nothing, report]
    exact ⟨_, .ask (startTells settled.closed) (.ask ending (.stop _ _))⟩
  obtain ⟨last, altering⟩ := altering
  have live : Trace Tells (updateLive .sqlite m) s (third ++ last) (.done (.additive {})) s := by
    refine bindTrace reading ?_
    simp only [noView, updateTable, TableDiff.settledDifference agrees groupNames same read, sqlReady]
    exact bindLast altering rfl
  have there := bindTrace present (f := fun present =>
    if present then updateLive .sqlite m else do create .sqlite m; return .created) live
  exact ⟨first ++ (second ++ (third ++ last)), bindTrace pending there⟩

end Again

end Session

/-- However a table is read that an update has made, altered or made anew, the difference from the model is
empty. A second update only looks and commits a transaction without changes; unless it is refused something
it reports nothing, and it comes to its end if the catalog has a text for what is there. -/
theorem oneUpdateSuffices {table : String} {fields : List FieldSpec} {m : Model} {s u : Database}
    {log : List (Exchange Database)} {outcome : SchemaUpdate}
    (built : Model.build table none fields = .ok m)
    (groupNames : (m.indices.map (nameKey ·.name)).Nodup) (unsaved : s.saved = none)
    (indexNames : ∀ t, s.store.table? m.table = some t → (t.indices.map (nameKey ·.name)).Nodup)
    (trace : Session.Trace Tells (Session.update .sqlite m) s log (.done outcome) u)
    (onTable : outcome ≠ .viewReplaced) :
    (∃ t, u.store.table? m.table = some t ∧
      ∀ n groups, nameKey n = nameKey m.table → List.Forall₂ (ReadsAs n) t.indices groups →
        ∃ diff, TableDiff.compute .sqlite m (t.reading n groups) = .ok diff ∧ diff.isEmpty = true) ∧
    (∀ again result v,
      Session.Trace Tells (Session.update .sqlite m) u again (Session.ended result) v →
        v = u ∧ (∀ x ∈ again, x.request.Looks ∨ ∃ step, x.request = .transaction step) ∧
          (¬Refused again → result = .ok (.additive {}))) ∧
    (u.store.Described m.table → ∃ again,
      Session.Trace Tells (Session.update .sqlite m) u again (.done (.additive {})) u) := by
  have isTable : m.source = .table := Model.builtSource built
  have names := namesDistinct groupNames
  have settled : u.Settled m := Session.updateSettles isTable (Model.builtNamesDistinct built) groupNames
    unsaved indexNames onTable trace
  obtain ⟨t, found, agrees⟩ := settled.table
  refine ⟨⟨t, found, fun n groups same read => ?_⟩, ?_, ?_⟩
  · exact ⟨_, TableDiff.settledDifference agrees names same read, rfl⟩
  · exact fun again result v later => Session.settledUpdate isTable names settled later
  · exact Session.settledTrace isTable names settled

def taskFields : List FieldSpec :=
  [⟨"Title", .text, ""⟩, ⟨"Due", .int, "index=due"⟩, ⟨"Note", .text, ""⟩]

def taskNote : Column := { Column.declared "note" .text with field := some "Note" }

def taskModel : Model :=
  { Model.empty "task" .table with
    columns := [{ Column.declared "title" .text with field := some "Title" },
      { Column.declared "due" .int with field := some "Due" }, taskNote]
    indices := [⟨"due", ["due"]⟩] }

def taskTable : StoredTable :=
  { columns := [Column.introspected "title" "TEXT", Column.introspected "due" "INTEGER"]
    uniques := []
    indices := [⟨"IDX_Task_when", ["due"]⟩] }

def taskStore : Store := Store.put (fun _ => none) "task" taskTable

def taskGrown : StoredTable := { taskTable with columns := taskTable.columns ++ [taskNote] }

def taskAdded : Store := taskStore.put "task" taskGrown

def taskDropped : Store := taskAdded.withoutIndex (Dialect.sqlite.indexName "task" "when")

def taskCleared : Store := taskDropped.withoutIndex (Dialect.sqlite.indexName "task" "due")

def taskLast : StoredTable := { taskGrown with indices := [Store.indexOf "task" ⟨"due", ["due"]⟩] }

def taskUpdate : List (Request × Reply × Database) :=
  [(CatalogQuery.request .sqlite (.presence "task_original"), .answered [] 0, ⟨taskStore, none⟩),
    (CatalogQuery.request .sqlite (.presence "task"), .answered [[.text "task"]] 0, ⟨taskStore, none⟩),
    (CatalogQuery.request .sqlite (.entry "task"), .answered [[.text "table", .text "task",
      .text "CREATE TABLE task ([title] TEXT,[due] INTEGER)"]] 0, ⟨taskStore, none⟩),
    (CatalogQuery.request .sqlite (.indices "task"),
      .answered [[.text "CREATE INDEX IDX_Task_when ON task ([due])"]] 0, ⟨taskStore, none⟩),
    (.transaction .start, .answered [] 0, ⟨taskStore, some taskStore⟩),
    (Change.request .sqlite (.addColumn "task" taskNote), .answered [] 0, ⟨taskAdded, some taskStore⟩),
    (Change.request .sqlite (.dropIndex "task" "when"), .answered [] 0, ⟨taskDropped, some taskStore⟩),
    (Change.request .sqlite (.dropIndexIfExists "task" "due"), .answered [] 0,
      ⟨taskCleared, some taskStore⟩),
    (Change.request .sqlite (.createIndex "task" ⟨"due", ["due"]⟩), .answered [] 0,
      ⟨taskCleared.put "task" taskLast, some taskStore⟩),
    (.transaction .commit, .answered [] 0, ⟨taskCleared.put "task" taskLast, none⟩)]

theorem taskAnswered : Session.Answered Tells ⟨taskStore, none⟩ taskUpdate := by
  have absent : Told [] taskStore (.presence "task_original") := List.forall_mem_nil _
  have present : Told [[.text "task"]] taskStore (.presence "task") := by
    simpa [Told] using ⟨"task", rfl⟩
  have entry : Told [[.text "table", .text "task", .text "CREATE TABLE task ([title] TEXT,[due] INTEGER)"]]
      taskStore (.entry "task") := .table (t := taskTable) rfl (by rfl)
  have named : IndexNamed "task" "IDX_Task_when" "when" := ⟨"IDX_Task_", by decide, by decide⟩
  have indices : Told [[.text "CREATE INDEX IDX_Task_when ON task ([due])"]] taskStore (.indices "task") := by
    intro t found
    cases found
    exact .cons ⟨_, ⟨"when", ["due"]⟩, rfl, by rfl, named, rfl⟩ .nil
  have cleared : taskCleared.table? "task" = some { taskGrown with indices := [] } := by
    have dropped : taskDropped.table? "task" = some { taskGrown with indices := [] } :=
      Store.tableWithoutIndex (Store.tablePut taskStore "task" taskGrown)
    exact Store.tableWithoutIndex dropped
  have known : taskAdded.HasIndex (Dialect.sqlite.indexName "task" "when") :=
    ⟨nameKey "task", taskGrown, rfl, _, List.mem_singleton_self _, namedKey named⟩
  refine ⟨answeredTells absent fun _ same => ?_, answeredTells present fun _ same => ?_,
    answeredTells entry nofun, answeredTells indices nofun, startTells rfl,
    tellsMade ⟨taskTable, [], rfl, .nil, rfl⟩, tellsMade ⟨known, rfl⟩,
    tellsMade rfl, tellsMade ⟨_, cleared, Store.indexGone _ _, rfl⟩,
    commitTells, trivial⟩
  · cases same
    decide
  · cases same
    decide

theorem taskUpdateSuffices : ∃ log again,
    Session.Trace Tells (Session.update .sqlite taskModel) ⟨taskStore, none⟩ log
      (.done (.additive
        { addedColumns := ["note"], droppedIndices := ["when"], createdIndices := ["due"] }))
      ⟨taskCleared.put "task" taskLast, none⟩ ∧
    Session.Trace Tells (Session.update .sqlite taskModel) ⟨taskCleared.put "task" taskLast, none⟩ again
      (.done (.additive {})) ⟨taskCleared.put "task" taskLast, none⟩ := by
  have built : Model.build "task" none taskFields = .ok taskModel := by rfl
  have lower : ∀ g ∈ taskModel.indices, nameKey g.name = g.name.toList := by decide
  have names := lowerNamesDistinct lower (Model.builtGroups built).1.distinct
  have first := Session.followedTrace (p := Session.update .sqlite taskModel) (by rfl) taskAnswered
  have finished : (Session.update .sqlite taskModel).followed taskUpdate = .done (.additive
      { addedColumns := ["note"], droppedIndices := ["when"], createdIndices := ["due"] }) := by rfl
  rw [finished] at first
  have distinct : ∀ t, taskStore.table? taskModel.table = some t →
      (t.indices.map (nameKey ·.name)).Nodup := by
    intro t found
    cases found
    exact List.nodup_singleton _
  have enough := oneUpdateSuffices built names rfl distinct first nofun
  have described : (taskCleared.put "task" taskLast).Described "task" := by
    refine ⟨taskLast, "task", "CREATE TABLE task ([title] TEXT,[due] INTEGER,[note] TEXT)",
      [[.text "CREATE INDEX idx_task_due ON task ([due])"]], rfl, rfl, by rfl, .cons ?_ .nil⟩
    exact ⟨_, ⟨"due", ["due"]⟩, rfl, by rfl, namedIndexOf "task" _, rfl⟩
  obtain ⟨again, second⟩ := enough.2.2 described
  exact ⟨_, again, first, second⟩

end LiveSchema
