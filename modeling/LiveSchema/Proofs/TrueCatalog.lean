import LiveSchema.Proofs.ColumnText
import LiveSchema.Proofs.CopyText
import LiveSchema.Proofs.Database
import LiveSchema.Proofs.EndedTraces
import LiveSchema.Reconcile.Update
/-! A SQLite database whose catalog tells the truth. What is read of a table are its columns with their
type names, its unique groups without names, and all of its indices. A transaction that cannot be ended is
rolled back. What sessions come to in such a database is said part by part. -/
namespace LiveSchema

def StoredTable.described (t : StoredTable) (name : String) : Table :=
  { name, columns := t.columns.map Column.stored, uniques := t.uniques.map fun g => ⟨"", g.columns⟩ }

def StoredTable.reading (t : StoredTable) (name : String) (indices : List ColumnGroup) : Table :=
  { t.described name with indices }

def IndexNamed (table index group : String) : Prop :=
  ∃ start, index = start ++ group ∧ nameKey start = nameKey ("idx_" ++ table ++ "_")

def ReadsAs (table : String) (i g : ColumnGroup) : Prop :=
  IndexNamed table i.name g.name ∧ i.columns = g.columns

inductive EntryTold (name : String) : Option StoredObject → List Row → Prop where
  | absent : EntryTold name none []
  | table {t n sql} (same : nameKey n = nameKey name)
    (read : Catalog.readTable n sql = .ok (t.described n)) :
    EntryTold name (some (.table t)) [[.text "table", .text n, .text sql]]
  | view {query n sql} : EntryTold name (some (.view query)) [[.text "view", .text n, .text sql]]

def IndexTold (table : String) (row : Row) (i : ColumnGroup) : Prop :=
  ∃ sql g, row = [.text sql] ∧ Catalog.readIndex table sql = .ok g ∧ ReadsAs table i g

def Told (rows : List Row) (s : Store) : CatalogQuery → Prop
  | .presence _ => ∀ row ∈ rows, ∃ found, row.text? 0 = some found
  | .entry name => EntryTold name (s.find name) rows
  | .indices table => ∀ t, s.table? table = some t → List.Forall₂ (IndexTold table) rows t.indices
  | .entries => True

structure Tells (s : Database) (request : Request) (reply : Reply) (t : Database) : Prop where
  answers : Answers .sqlite s request reply t
  told : ∀ q sql arguments rows affected, request = .statement (.catalog q) sql arguments →
    reply = .answered rows affected → Told rows s.store q
  closed : ∀ step report, request = .transaction step → step ≠ .start → reply = .failed report →
    t = s.rolledBack

section Replies
variable {s t : Database} {reply : Reply}

theorem tellsCatalog {q sql arguments} (tells : Tells s (.statement (.catalog q) sql arguments) reply t) :
    t = s ∧ (reply.succeeded = false ∨ ∃ rows affected, reply = .answered rows affected ∧
      Told rows s.store q ∧ ∀ name, q = .presence name → (rows = [] ↔ s.store.find name = none)) := by
  have told := tells.told q sql arguments
  cases tells.answers with
  | refused => exact ⟨rfl, .inl rfl⟩
  | @effect _ _ _ _ rows affected store effect =>
    have told := told rows affected rfl rfl
    cases q with
    | presence name =>
      obtain ⟨rfl, truthful⟩ := effect
      exact ⟨rfl, .inr ⟨rows, affected, rfl, told, fun _ same => by cases same; exact truthful⟩⟩
    | _ =>
      cases effect
      exact ⟨rfl, .inr ⟨rows, affected, rfl, told, nofun⟩⟩

theorem tellsChange {c sql arguments} (tells : Tells s (.statement (.change c) sql arguments) reply t) :
    reply.succeeded = false ∧ t = s ∨
      reply.succeeded = true ∧ c.Effect .sqlite s.store t.store ∧ t.saved = s.saved := by
  cases tells.answers with
  | refused => exact .inl ⟨rfl, rfl⟩
  | effect effect => exact .inr ⟨rfl, effect, rfl⟩

theorem tellsCopy {p sql arguments} (tells : Tells s (.statement (.copy p) sql arguments) reply t) :
    reply.succeeded = false ∧ t = s ∨
      reply.succeeded = true ∧ p.Effect s.store t.store ∧ t.saved = s.saved := by
  cases tells.answers with
  | refused => exact .inl ⟨rfl, rfl⟩
  | effect effect => exact .inr ⟨rfl, effect, rfl⟩

theorem tellsStart (tells : Tells s (.transaction .start) reply t) :
    reply.succeeded = false ∧ t = s ∨ reply.succeeded = true ∧ t = ⟨s.store, some s.store⟩ := by
  cases tells.answers with
  | refused => exact .inl ⟨rfl, rfl⟩
  | abandoned ending => exact absurd rfl ending
  | start => exact .inr ⟨rfl, rfl⟩

theorem tellsCommit (tells : Tells s (.transaction .commit) reply t) :
    reply.succeeded = false ∧ t = s.rolledBack ∨ reply.succeeded = true ∧ t = ⟨s.store, none⟩ := by
  have closed := tells.closed .commit
  cases tells.answers with
  | refused => exact .inl ⟨rfl, closed _ rfl (by decide) rfl⟩
  | abandoned => exact .inl ⟨rfl, rfl⟩
  | commit => exact .inr ⟨rfl, rfl⟩

theorem tellsRollback (tells : Tells s (.transaction .rollback) reply t) : t = s.rolledBack := by
  have closed := tells.closed .rollback
  cases tells.answers with
  | refused => exact closed _ rfl (by decide) rfl
  | abandoned => rfl
  | rollback => rfl

theorem answeredTells {q sql arguments rows affected} (told : Told rows s.store q)
    (truthful : ∀ name, q = .presence name → (rows = [] ↔ s.store.find name = none)) :
    Tells s (.statement (.catalog q) sql arguments) (.answered rows affected) s where
  answers := by
    have unchanged : (Purpose.catalog q).Effect .sqlite rows s.store s.store := by
      cases q with
      | presence name => exact ⟨rfl, truthful name rfl⟩
      | _ => rfl
    exact .effect unchanged
  told := by
    intro q' sql' arguments' rows' affected' same replied
    cases same
    cases replied
    exact told
  closed := nofun

theorem tellsMade {c sql arguments rows affected} {store : Store}
    (effect : c.Effect .sqlite s.store store) :
    Tells s (.statement (.change c) sql arguments) (.answered rows affected) ⟨store, s.saved⟩ :=
  ⟨.effect effect, nofun, nofun⟩

theorem startTells (unsaved : s.saved = none) :
    Tells s (.transaction .start) (.answered [] 0) ⟨s.store, some s.store⟩ :=
  ⟨.start unsaved, nofun, nofun⟩

theorem commitTells : Tells s (.transaction .commit) (.answered [] 0) ⟨s.store, none⟩ :=
  ⟨.commit, nofun, nofun⟩

end Replies

section Written

theorem queryWritten (q : CatalogQuery) : ∃ sql, q.sql .sqlite = .ok sql := by
  cases q <;> exact ⟨_, rfl⟩

theorem changeWritten (c : Change) : ∃ sql, c.sql .sqlite = .ok sql := by
  cases c with
  | createTable table columns uniques =>
    have definitions : columns.mapM (·.definition .sqlite) =
        .ok (columns.map Column.definitionText) := by
      rw [funext Column.definitionWritten]
      exact List.mapM_pure
    simp only [Change.sql, definitions]
    exact ⟨_, rfl⟩
  | addColumn table column =>
    simp only [Change.sql, Column.definitionWritten]
    exact ⟨_, rfl⟩
  | _ => exact ⟨_, rfl⟩

end Written

def Refused (log : List (Exchange Database)) : Prop := ∃ x ∈ log, x.refused = true

theorem refusedAppend {first rest : List (Exchange Database)} :
    Refused (first ++ rest) ↔ Refused first ∨ Refused rest := by
  simp only [Refused, List.mem_append, or_and_right, exists_or]

def Request.Looks (r : Request) : Prop := ∃ q sql arguments, r = .statement (.catalog q) sql arguments

theorem answersLook {d : Dialect} {r : Request} {reply : Reply} {s t : Database} (looks : r.Looks)
    (answer : Answers d s r reply t) : t = s := by
  obtain ⟨q, sql, arguments, rfl⟩ := looks
  cases answer with
  | refused => rfl
  | effect effect =>
    cases q with
    | presence name => cases effect.1; rfl
    | _ => cases effect; rfl

namespace Session
variable {α β : Type} {s u : Database} {log : List (Exchange Database)}

section Reading

theorem lookingEnd {p q : Session α} (looks : p.Sends Request.Looks) (trace : Trace Tells p s log q u) :
    u = s ∧ ∀ x ∈ log, x.request.Looks := by
  have still (s' : Database) (r : Request) (reply : Reply) (t : Database) (same : s' = s) (asks : r.Looks)
      (tells : Tells s' r reply t) : t = s := (answersLook asks tells.answers).trans same
  exact ⟨traceKeeps (· = s) looks still rfl trace, traceSends looks trace⟩

theorem sqlReady {ε : Type} {cause : ε → Failure} (a : α) (f : α → Session β) :
    (ofExcept cause (.ok a) >>= f) = f a := rfl

theorem askCatalogEnd {q : CatalogQuery} {choose : List Row → List Row} {decode : Row → Option α}
    {result : Except Failure (List α)}
    (trace : Trace Tells (askCatalog .sqlite q choose decode) s log (ended result) u) :
    (Refused log ∧ ∃ e, result = .error e) ∨ ∃ rows, Told rows s.store q ∧
      (∀ name, q = .presence name → (rows = [] ↔ s.store.find name = none)) ∧
      ∀ found, (choose rows).mapM decode = some found → result = .ok found := by
  obtain ⟨sql, written⟩ := queryWritten q
  rw [askCatalog, written, sqlReady] at trace
  rcases endOfBind trace with ⟨answer, first, rest, t, rfl, sent, later⟩ | ⟨e, rfl, sent⟩
  · obtain ⟨reply, rfl, tells, replied⟩ := endOfSend sent
    obtain ⟨_, refused | ⟨rows, affected, rfl, told⟩⟩ := tellsCatalog tells
    · cases reply with
      | failed report => cases replied
      | answered rows affected => cases refused
    · cases replied
      refine .inr ⟨rows, told.1, told.2, fun found decoded => ?_⟩
      simp only [decoded] at later
      exact (endOfDone later).2.2
  · obtain ⟨reply, rfl, tells, replied⟩ := endOfSend sent
    cases reply with
    | failed report => exact .inl ⟨⟨_, List.mem_singleton_self _, rfl⟩, e, rfl⟩
    | answered rows affected => cases replied

theorem firstDecoded {rows : List Row} {decode : Row → Option α}
    (legible : ∀ row ∈ rows, ∃ found, decode row = some found) :
    ∃ found, (rows.take 1).mapM decode = some found ∧ found.isEmpty = rows.isEmpty := by
  cases rows with
  | nil => exact ⟨[], rfl, rfl⟩
  | cons row rest =>
    obtain ⟨found, decoded⟩ := legible row List.mem_cons_self
    exact ⟨[found], by simp [decoded], rfl⟩

theorem objectExistsEnd {name : String} {result : Except Failure Bool}
    (trace : Trace Tells (objectExists .sqlite name) s log (ended result) u) :
    (Refused log ∧ ∃ e, result = .error e) ∨ result = .ok (s.store.find name).isSome := by
  have decoded {found : Except Failure (List String)} {first : List (Exchange Database)} {t : Database}
      (asked : Trace Tells (askCatalog .sqlite (.presence name) (·.take 1) (·.text? 0)) s first
        (ended found) t) :
      (Refused first ∧ ∃ e, found = .error e) ∨
        ∃ names, found = .ok names ∧ (!names.isEmpty) = (s.store.find name).isSome := by
    rcases askCatalogEnd asked with refused | ⟨rows, told, truthful, decoded⟩
    · exact .inl refused
    · obtain ⟨names, decodes, empty⟩ := firstDecoded told
      refine .inr ⟨names, decoded names decodes, ?_⟩
      rw [empty]
      cases rows with
      | nil => simp [(truthful name rfl).mp rfl]
      | cons row rest =>
        cases known : s.store.find name with
        | none => exact absurd ((truthful name rfl).mpr known) (List.cons_ne_nil _ _)
        | some object => rfl
  rcases endOfBind trace with ⟨found, first, rest, t, rfl, asked, later⟩ | ⟨e, rfl, asked⟩
  · obtain ⟨rfl, rfl, rfl⟩ := endOfDone later
    rcases decoded asked with ⟨_, e, failed⟩ | ⟨names, same, known⟩
    · cases failed
    · cases same
      exact .inr (congrArg Except.ok known)
  · rcases decoded asked with ⟨refused, _⟩ | ⟨names, same, _⟩
    · exact .inl ⟨refused, e, rfl⟩
    · cases same

theorem indicesDecoded {table : String} {rows : List Row} {indices : List ColumnGroup}
    (told : List.Forall₂ (IndexTold table) rows indices) :
    ∃ definitions groups, rows.mapM (·.text? 0) = some definitions ∧
      definitions.mapM (Catalog.readIndex table) = .ok groups ∧
      List.Forall₂ (ReadsAs table) indices groups := by
  induction told with
  | nil => exact ⟨[], [], rfl, rfl, .nil⟩
  | cons here _ ih =>
    obtain ⟨sql, g, rfl, read, readsAs⟩ := here
    obtain ⟨definitions, groups, texts, later, all⟩ := ih
    have text : Row.text? [.text sql] 0 = some sql := rfl
    refine ⟨sql :: definitions, g :: groups, by simp [text, texts], ?_, .cons readsAs all⟩
    rw [List.mapM_cons, read, later]
    rfl

theorem readIndicesEnd {table : String} {t : StoredTable} {result : Except Failure (List ColumnGroup)}
    (found : s.store.table? table = some t)
    (trace : Trace Tells (readIndices .sqlite table) s log (ended result) u) :
    (Refused log ∧ ∃ e, result = .error e) ∨
      ∃ groups, result = .ok groups ∧ List.Forall₂ (ReadsAs table) t.indices groups := by
  have decoded {texts : Except Failure (List String)} {first : List (Exchange Database)} {t' : Database}
      (asked : Trace Tells (askCatalog .sqlite (.indices table) id (·.text? 0)) s first
        (ended texts) t') :
      (Refused first ∧ ∃ e, texts = .error e) ∨ ∃ definitions groups, texts = .ok definitions ∧
        definitions.mapM (Catalog.readIndex table) = .ok groups ∧
        List.Forall₂ (ReadsAs table) t.indices groups := by
    rcases askCatalogEnd asked with refused | ⟨rows, told, _, decoded⟩
    · exact .inl refused
    · obtain ⟨definitions, groups, texts, parsed, all⟩ := indicesDecoded (told t found)
      exact .inr ⟨definitions, groups, decoded definitions texts, parsed, all⟩
  rcases endOfBind trace with ⟨texts, first, rest, t', rfl, asked, later⟩ | ⟨e, rfl, asked⟩
  · rcases decoded asked with ⟨_, e, failed⟩ | ⟨definitions, groups, same, parsed, all⟩
    · cases failed
    · cases same
      rw [parsed] at later
      exact .inr ⟨groups, (endOfDone later).2.2, all⟩
  · rcases decoded asked with ⟨refused, _⟩ | ⟨definitions, groups, same, _⟩
    · exact .inl ⟨refused, e, rfl⟩
    · cases same

inductive SchemaTold (name : String) : Option StoredObject → Except Failure Schema → Prop where
  | absent {e} : SchemaTold name none (.error e)
  | table {t n groups} (same : nameKey n = nameKey name)
    (read : List.Forall₂ (ReadsAs n) t.indices groups) :
    SchemaTold name (some (.table t)) (.ok (.table (t.reading n groups)))
  | view {query v} : SchemaTold name (some (.view query)) (.ok (.view v))

theorem schemaOfTableEnd {name n sql : String} {t : StoredTable} {result : Except Failure Schema}
    (found : s.store.table? name = some t) (same : nameKey n = nameKey name)
    (read : Catalog.readTable n sql = .ok (t.described n))
    (trace : Trace Tells (schemaOf .sqlite "table" n sql) s log (ended result) u) :
    (Refused log ∧ ∃ e, result = .error e) ∨ SchemaTold name (some (.table t)) result := by
  have here : s.store.table? n = some t := (Store.tableCongr same).trans found
  rw [schemaOf, if_pos rfl, read, sqlReady] at trace
  rcases endOfBind trace with ⟨groups, first, rest, t', rfl, asked, later⟩ | ⟨e, rfl, asked⟩
  · obtain ⟨rfl, rfl, rfl⟩ := endOfDone later
    rcases readIndicesEnd here asked with ⟨_, e, failed⟩ | ⟨groups', same', all⟩
    · cases failed
    · cases same'
      exact .inr (.table same all)
  · rcases readIndicesEnd here asked with ⟨refused, _⟩ | ⟨groups, same', _⟩
    · exact .inl ⟨refused, e, rfl⟩
    · cases same'

theorem readSchemaEnd {name : String} {result : Except Failure Schema}
    (trace : Trace Tells (readSchema .sqlite name) s log (ended result) u) :
    (Refused log ∧ ∃ e, result = .error e) ∨ SchemaTold name (s.store.find name) result := by
  rcases endOfBind trace with ⟨entries, first, rest, t', rfl, asked, later⟩ | ⟨e, rfl, asked⟩
  · obtain ⟨rfl, _⟩ := lookingEnd (sendsAskCatalog fun _ _ => ⟨_, _, _, rfl⟩) asked
    rcases askCatalogEnd asked with ⟨_, e, failed⟩ | ⟨rows, told, _, decoded⟩
    · cases failed
    · have told : EntryTold name (t'.store.find name) rows := told
      generalize known : t'.store.find name = object at told ⊢
      cases told with
      | absent =>
        cases decoded [] rfl
        obtain ⟨_, _, rfl⟩ := endOfFail later
        exact .inr .absent
      | table same read =>
        cases decoded _ rfl
        rcases schemaOfTableEnd (Store.tableOfFind known) same read later with ⟨refused, failed⟩ | told
        · exact .inl ⟨refusedAppend.mpr (.inr refused), failed⟩
        · exact .inr told
      | view =>
        cases decoded _ rfl
        obtain ⟨_, _, rfl⟩ := endOfDone later
        exact .inr .view
  · rcases askCatalogEnd asked with ⟨refused, _⟩ | ⟨rows, told, _, decoded⟩
    · exact .inl ⟨refused, e, rfl⟩
    · have told : EntryTold name (s.store.find name) rows := told
      generalize s.store.find name = object at told
      cases told with
      | absent => cases decoded [] rfl
      | table => cases decoded _ rfl
      | view => cases decoded _ rfl

end Reading

end Session

end LiveSchema
