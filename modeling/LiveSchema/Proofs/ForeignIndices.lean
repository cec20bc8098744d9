import LiveSchema.Proofs.Examine
/-! Indices of other tables. An index bears the names of its table and of its group joined by an
underscore, and two tables can come to one name that way. As long as the names of two models' indices
differ, an update of the one leaves the indices of the other alone; if two of them are the same, creating
the one drops the other. -/
namespace LiveSchema

def Change.renews (index : String) : Change → Bool
  | .createIndex table g => nameKey (Dialect.sqlite.indexName table g.name) = nameKey index
  | .dropIndex table group | .dropIndexIfExists table group =>
    nameKey (Dialect.sqlite.indexName table group) = nameKey index
  | _ => false

def StoredObject.Bears (i : ColumnGroup) (object : Option StoredObject) : Prop :=
  ∃ t, object = some (.table t) ∧ i ∈ t.indices

def Change.Leaves (t index : String) (c : Change) : Prop :=
  c.renews index = false ∧
    match c with
    | .createTable table _ _ | .addColumn table _ | .addUnique table _ | .createIndex table _ =>
      nameKey table = nameKey t
    | .dropTable table => table = t ∨ table = backupName t
    | .renameTable source target => (source = t ∨ source = backupName t) ∧ (target = t ∨ target = backupName t)
    | .dropIndex _ _ | .dropIndexIfExists _ _ | .dropView _ => True

def Request.Leaves (t index : String) : Request → Prop
  | .statement (.catalog _) _ _ | .transaction _ => True
  | .statement (.change c) _ _ => c.Leaves t index
  | .statement (.copy p) _ _ => nameKey p.target = nameKey t
  | .statement .command _ _ => False

namespace Store
variable {s s' : Store} {t other : String} {i : ColumnGroup}

theorem bearsSet {name : String} (differs : nameKey other ≠ nameKey name) (object : Option StoredObject)
    (bears : StoredObject.Bears i (s.find other)) :
    StoredObject.Bears i ((s.set name object).find other) := by
  rwa [findOther differs]

theorem bearsWithout {index : String} (differs : nameKey i.name ≠ nameKey index)
    (bears : StoredObject.Bears i (s.find other)) :
    StoredObject.Bears i ((s.withoutIndex index).find other) := by
  obtain ⟨old, found, member⟩ := bears
  exact ⟨_, tableFound (tableWithoutIndex (tableOfFind found)),
    List.mem_filter.mpr ⟨member, by simpa using differs⟩⟩

theorem leavingKeeps {c : Change} (apart : nameKey other ≠ nameKey t)
    (notBackup : nameKey other ≠ nameKey (backupName t)) (leaves : c.Leaves t i.name)
    (effect : c.Effect .sqlite s s') (bears : StoredObject.Bears i (s.find other)) :
    StoredObject.Bears i (s'.find other) := by
  have own {name : String} (among : name = t ∨ name = backupName t) : nameKey other ≠ nameKey name := by
    rcases among with rfl | rfl
    · exact apart
    · exact notBackup
  obtain ⟨unnamed, about⟩ := leaves
  cases c with
  | createTable table columns uniques =>
    obtain ⟨_, rfl⟩ := effect
    exact bearsSet (about ▸ apart) _ bears
  | dropTable table =>
    obtain ⟨_, rfl⟩ := effect
    exact bearsSet (own about) _ bears
  | renameTable source target =>
    obtain ⟨_, _, _, rfl⟩ := effect
    exact bearsSet (own about.2) _ (bearsSet (own about.1) _ bears)
  | addColumn table column =>
    obtain ⟨_, _, _, _, rfl⟩ := effect
    exact bearsSet (about ▸ apart) _ bears
  | addUnique table group =>
    obtain ⟨_, _, rfl⟩ := effect
    exact bearsSet (about ▸ apart) _ bears
  | createIndex table group =>
    obtain ⟨_, _, _, rfl⟩ := effect
    exact bearsSet (about ▸ apart) _ bears
  | dropIndex table group =>
    obtain ⟨_, rfl⟩ := effect
    exact bearsWithout (Ne.symm (by simpa [Change.renews] using unnamed)) bears
  | dropIndexIfExists table group =>
    cases effect
    exact bearsWithout (Ne.symm (by simpa [Change.renews] using unnamed)) bears
  | dropView view =>
    obtain ⟨⟨query, isView⟩, rfl⟩ := effect
    have name : nameKey other ≠ nameKey view := fun same => by
      obtain ⟨old, found, _⟩ := bears
      rw [← findCongr same, found] at isView
      cases isView
    exact bearsSet name _ bears

theorem leavingUnharmed {r : Request} {reply : Reply} {s s' : Database} (apart : nameKey other ≠ nameKey t)
    (notBackup : nameKey other ≠ nameKey (backupName t)) (leaves : r.Leaves t i.name)
    (answer : Answers .sqlite s r reply s') (here : Unharmed other (StoredObject.Bears i) s) :
    Unharmed other (StoredObject.Bears i) s' := by
  refine unharmedAnswer answer here ?_ ?_ ?_
  · rintro c sql arguments store rfl effect
    exact leavingKeeps apart notBackup leaves effect here.1
  · rintro plan sql arguments store rfl ⟨_, _, _, _, _, _, rfl⟩
    have target : nameKey plan.target = nameKey t := leaves
    exact bearsSet (target ▸ apart) _ here.1
  · rintro sql arguments rfl
    exact leaves

end Store

def Unnamed (table index : String) (groups : List ColumnGroup) : Prop :=
  ∀ g ∈ groups, nameKey (Dialect.sqlite.indexName table g.name) ≠ nameKey index

section Leaving
variable {d : Dialect} {m : Model} {live : Table} {index table : String} {groups : List ColumnGroup}

theorem groupLeaves (unnamed : Unnamed table index groups) (g : ColumnGroup) (inside : g ∈ groups) :
    (Change.dropIndexIfExists table g.name).Leaves table index ∧ (Change.createIndex table g).Leaves table index := by
  have other : Change.renews index (.createIndex table g) = false := by
    simpa [Change.renews] using unnamed g inside
  exact ⟨⟨other, trivial⟩, other, rfl⟩

theorem renewedLeaves (unnamed : Unnamed table index groups) :
    ∀ c ∈ groups.flatMap (Change.rebuildIndex table), c.Leaves table index :=
  Change.rebuiltEach (groupLeaves unnamed)

theorem creationLeaves (mine : Unnamed m.table index m.indices) :
    ∀ c ∈ Session.creation m, c.Leaves m.table index :=
  List.forall_mem_cons.mpr ⟨⟨rfl, rfl⟩, renewedLeaves mine⟩

theorem additiveLeaves (mine : Unnamed m.table index m.indices)
    (found : Unnamed m.table index live.indices) (diff : TableDiff) :
    ∀ c ∈ diff.additiveChanges m live, c.Leaves m.table index := by
  refine diff.additiveEach (fun _ => ⟨rfl, rfl⟩) (fun _ _ _ => ⟨rfl, rfl⟩) (fun i inside => ?_) (groupLeaves mine)
  have other := found i inside
  exact ⟨by simpa [Change.renews] using other, trivial⟩

namespace Session

theorem changesLeave {cs : List Change} (leaves : ∀ c ∈ cs, c.Leaves table index) :
    (changes d cs).Sends (Request.Leaves table index) :=
  sendsChanges fun c member _ _ => leaves c member

theorem changeLeaves {c : Change} (leaves : c.Leaves table index) :
    (change d c).Sends (Request.Leaves table index) :=
  sendsChange fun _ _ => leaves

theorem createLeaves (isTable : m.source = .table) (mine : Unnamed m.table index m.indices) :
    (create d m).Sends (Request.Leaves m.table index) :=
  sendsCreate isTable fun c member _ _ => creationLeaves mine c member

theorem restoreLeaves : (restoreBackup d table).Sends (Request.Leaves table index) :=
  sendsRestore (fun _ _ => trivial) (fun _ => ⟨rfl, .inl rfl⟩) fun _ => ⟨rfl, .inr rfl, .inl rfl⟩

theorem undoLeaves (found : Unnamed table index live.indices) :
    (undoRebuild d table live).Sends (Request.Leaves table index) :=
  sendsBind restoreLeaves fun _ => changesLeave (renewedLeaves found)

theorem rebuildLeaves (isTable : m.source = .table) (mine : Unnamed m.table index m.indices)
    (diff : TableDiff) : (rebuild d m live diff).Sends (Request.Leaves m.table index) := by
  refine sendsBind (createLeaves isTable mine) fun _ => sendsBind ?_ fun _ => trivial
  exact sendsCopyRows (fun _ => trivial) fun _ _ => rfl

theorem recreateLeaves (isTable : m.source = .table) (mine : Unnamed m.table index m.indices)
    (found : Unnamed m.table index live.indices) (diff : TableDiff) :
    (recreate d m live diff).Sends (Request.Leaves m.table index) :=
  sendsRecreate (fun _ => ⟨rfl, .inl rfl, .inr rfl⟩) (rebuildLeaves isTable mine diff)
    (fun _ => ⟨rfl, .inr rfl⟩) (undoLeaves found)

theorem alterLeaves (mine : Unnamed m.table index m.indices) (found : Unnamed m.table index live.indices)
    (diff : TableDiff) : (alterInPlace d m live diff).Sends (Request.Leaves m.table index) := by
  refine sendsBind (sendsTransaction (fun _ => trivial) ?_) fun _ => trivial
  exact changesLeave (additiveLeaves mine found diff)

theorem updateTableLeaves (isTable : m.source = .table) (mine : Unnamed m.table index m.indices)
    (found : Unnamed m.table index live.indices) :
    (updateTable d m live).Sends (Request.Leaves m.table index) := by
  refine sendsExcept fun diff _ => ?_
  split
  · exact sendsBind (alterLeaves mine found diff) fun _ => trivial
  · exact sendsBind (recreateLeaves isTable mine found diff) fun _ => trivial

theorem actLeaves (isTable : m.source = .table) (mine : Unnamed m.table index m.indices) {f : Finding}
    (found : ∀ live, f = .object (.table live) → Unnamed m.table index live.indices) :
    (act d m f).Sends (Request.Leaves m.table index) := by
  cases f with
  | backup => trivial
  | nothing => exact sendsBind (createLeaves isTable mine) fun _ => trivial
  | object schema =>
    cases schema with
    | view v =>
      exact sendsBind (changeLeaves (c := .dropView v.name) ⟨rfl, trivial⟩) fun _ =>
        sendsBind (createLeaves isTable mine) fun _ => trivial
    | table live =>
      have noView : m.isView = false := by simp [Model.isView, Model.view?, isTable]
      rw [act, noView]
      exact updateTableLeaves isTable mine (found live rfl)

theorem viewActs (isView : m.source ≠ .table) (f : Finding) :
    (act d m f).Sends fun r => r.changes (Change.renews index) = false := by
  obtain ⟨query, source⟩ : ∃ query, m.source = .view query := by
    cases known : m.source with
    | table => exact absurd known isView
    | view query => exact ⟨query, rfl⟩
  have creates : (create d m).Sends fun r => r.changes (Change.renews index) = false := by
    unfold create
    rw [source]
    exact sendsBind (sendsSend rfl) fun _ => trivial
  cases f with
  | backup => trivial
  | nothing => exact sendsBind creates fun _ => trivial
  | object schema =>
    cases schema with
    | view v =>
      exact sendsBind (sendsChange (c := .dropView v.name) fun _ _ => rfl) fun _ =>
        sendsBind creates fun _ => trivial
    | table live =>
      have view : m.isView = true := by simp [Model.isView, Model.view?, source]
      rw [act, view]
      trivial

end Session

end Leaving

def Store.IndicesApart (s : Store) : Prop :=
  ∀ a b t u, s.table? a = some t → s.table? b = some u →
    ∀ i ∈ t.indices, ∀ j ∈ u.indices, nameKey i.name = nameKey j.name → nameKey a = nameKey b

structure Created (other : Model) (i : ColumnGroup) (s : Database) : Prop where
  isTable : other.source = .table
  closed : s.saved = none
  apart : s.store.IndicesApart
  borne : ∃ t, s.store.table? other.table = some t ∧ i ∈ t.indices
  named : ∃ g ∈ other.indices, nameKey i.name = nameKey (Dialect.sqlite.indexName other.table g.name)

structure Collide (m other : Model) : Prop where
  isTable : m.source = .table
  otherTable : other.source = .table
  notBackup : nameKey other.table ≠ nameKey (backupName m.table)
  shared : ∃ f ∈ m.indices, ∃ g ∈ other.indices,
    nameKey (Dialect.sqlite.indexName m.table f.name) = nameKey (Dialect.sqlite.indexName other.table g.name)

def Exchange.KeepsIndex (table : String) (i : ColumnGroup) (x : Exchange Database) : Prop :=
  x.asked (Change.renews i.name) = false ∧ StoredObject.Bears i (x.after.store.find table)

theorem leavesNamed {t index : String} {r : Request} (leaves : r.Leaves t index) :
    r.changes (Change.renews index) = false := by
  cases r with
  | transaction step => rfl
  | statement purpose sql arguments =>
    cases purpose with
    | change c => exact leaves.1
    | _ => rfl

section Kept
variable {m other : Model} {i : ColumnGroup} {s u : Database} {log : List (Exchange Database)}

theorem ownUnnamed (isTable : m.source = .table)
    (notBackup : nameKey other.table ≠ nameKey (backupName m.table)) (apart : ¬Collide m other)
    (created : Created other i s) : Unnamed m.table i.name m.indices := by
  intro f member same
  obtain ⟨g, inside, named⟩ := created.named
  exact apart ⟨isTable, created.isTable, notBackup, f, member, g, inside, same.trans named⟩

theorem readUnnamed (differ : nameKey m.table ≠ nameKey other.table) (created : Created other i s)
    {t : StoredTable} {n : String} {groups : List ColumnGroup} (found : s.store.table? m.table = some t)
    (same : nameKey n = nameKey m.table) (read : List.Forall₂ (ReadsAs n) t.indices groups) :
    Unnamed m.table i.name groups := by
  intro f member sameName
  obtain ⟨own, inside, named, _⟩ := (readOf read).1 f member
  obtain ⟨old, borne, among⟩ := created.borne
  have key := (namedKey (namedCongr same named)).trans sameName
  exact differ (created.apart _ _ _ _ found borne own inside i among key)

namespace Session

theorem foundLeaves (isTable : m.source = .table) (differ : nameKey m.table ≠ nameKey other.table)
    (mine : Unnamed m.table i.name m.indices) (created : Created other i s) {f : Finding}
    (found : Found m s.store f) : (act .sqlite m f).Sends (Request.Leaves m.table i.name) := by
  refine actLeaves isTable mine fun live same => ?_
  cases found with
  | table free found named read =>
    cases same
    exact readUnnamed differ created found named read
  | _ => cases same

theorem lookingKeeps {α : Type} {p q : Session α} (looks : p.Sends Request.Looks) (created : Created other i s)
    (trace : Trace Tells p s log q u) :
    ∀ x ∈ log, x.KeepsIndex other.table i := by
  have still (s' : Database) (r : Request) (reply : Reply) (t : Database) (same : s' = s) (asks : r.Looks)
      (tells : Tells s' r reply t) : t = s := (answersLook asks tells.answers).trans same
  intro x member
  obtain ⟨q, sql, arguments, asks⟩ := traceSends looks trace x member
  obtain ⟨t, found, among⟩ := created.borne
  refine ⟨by rw [Exchange.asked, asks]; rfl, ?_⟩
  rw [traceKeepsEach (· = s) looks still rfl trace x member]
  exact ⟨t, Store.tableFound found, among⟩

theorem leavingKeepsEach {α : Type} {p q : Session α} (differ : nameKey m.table ≠ nameKey other.table)
    (notBackup : nameKey other.table ≠ nameKey (backupName m.table))
    (leaves : p.Sends (Request.Leaves m.table i.name)) (created : Created other i s)
    (trace : Trace Tells p s log q u) :
    ∀ x ∈ log, x.KeepsIndex other.table i := by
  obtain ⟨t, found, among⟩ := created.borne
  have start : Store.Unharmed other.table (StoredObject.Bears i) s :=
    ⟨⟨t, Store.tableFound found, among⟩, by simp [created.closed]⟩
  intro x member
  refine ⟨leavesNamed (traceSends leaves trace x member), ?_⟩
  refine (traceKeepsEach (Store.Unharmed other.table (StoredObject.Bears i)) leaves ?_ start trace x member).1
  exact fun _ _ _ _ here leaves tells =>
    Store.leavingUnharmed differ.symm notBackup leaves tells.answers here

theorem tableKeepsIndices (isTable : m.source = .table) (differ : nameKey m.table ≠ nameKey other.table)
    (apart : ¬Collide m other) (created : Created other i s) {q : Session SchemaUpdate}
    (trace : Trace Tells (update .sqlite m) s log q u) :
    ∀ x ∈ log, x.KeepsIndex other.table i := by
  rw [updateParts] at trace
  rcases splitBind trace with ⟨p, looking⟩ | ⟨f, first, rest, t, rfl, looking, acting⟩
  · exact lookingKeeps (examineLooks _ m) created looking
  refine List.forall_mem_append.mpr ⟨lookingKeeps (examineLooks _ m) created looking, ?_⟩
  obtain ⟨rfl, found⟩ := examineFound looking
  obtain ⟨old, borne, _⟩ := created.borne
  have notBackup (free : t.store.find (backupName m.table) = none) :
      nameKey other.table ≠ nameKey (backupName m.table) := fun same => by
    rw [Store.findCongr same.symm, Store.tableFound borne] at free
    cases free
  have leaving (free : t.store.find (backupName m.table) = none) : ∀ x ∈ rest, x.KeepsIndex other.table i := by
    have mine := ownUnnamed isTable (notBackup free) apart created
    exact leavingKeepsEach differ (notBackup free) (foundLeaves isTable differ mine created found) created acting
  cases found with
  | backup occupied =>
    cases acting
    exact List.forall_mem_nil _
  | nothing free absent => exact leaving free
  | view free => exact leaving free
  | table free _ _ _ => exact leaving free

theorem viewRenewsNothing (isView : m.source ≠ .table) {q : Session SchemaUpdate} {index : String}
    (trace : Trace Tells (update .sqlite m) s log q u) :
    ∀ x ∈ log, x.asked (Change.renews index) = false := by
  rw [updateParts] at trace
  have sends : (examine .sqlite m >>= act .sqlite m).Sends fun r => r.changes (Change.renews index) = false := by
    refine sendsBind (sendsMono (examineLooks _ m) ?_) fun f => viewActs isView f
    rintro r ⟨q, sql, arguments, rfl⟩
    rfl
  exact traceSends sends trace

end Session

end Kept

theorem rebuiltBears {s t : Store} {table : String} {old : StoredTable} {groups : List ColumnGroup}
    (found : s.table? table = some old)
    (effects : Change.Effects (groups.flatMap (Change.rebuildIndex table)) s t) {key : List Char}
    (borne : (∃ i ∈ old.indices, nameKey i.name = key) ∨
      ∃ g ∈ groups, nameKey (Dialect.sqlite.indexName table g.name) = key) :
    ∃ new, t.table? table = some new ∧ ∃ i ∈ new.indices, nameKey i.name = key := by
  induction groups generalizing s old with
  | nil =>
    cases effects
    exact ⟨old, found, borne.resolve_right (by simp)⟩
  | cons g rest ih =>
    obtain ⟨_, rfl, _, ⟨cleared, here, _, rfl⟩, later⟩ := effects
    cases (Store.tableWithoutIndex found).symm.trans here
    refine ih (Store.tablePut _ _ _) later ?_
    by_cases own : nameKey (Dialect.sqlite.indexName table g.name) = key
    · exact .inl ⟨_, List.mem_append_right _ (List.mem_singleton_self _), own⟩
    rcases borne with ⟨i, inside, same⟩ | ⟨h, inside, same⟩
    · have stays : nameKey i.name ≠ nameKey (Dialect.sqlite.indexName table g.name) := same ▸ Ne.symm own
      exact .inl ⟨i, List.mem_append_left _ (List.mem_filter.mpr ⟨inside, decide_eq_true stays⟩), same⟩
    · rcases List.mem_cons.mp inside with rfl | later
      · exact absurd same own
      · exact .inr ⟨h, later, same⟩

section Both
variable {m other : Model}

theorem onlyCreated (isTable : other.source = .table) {t : Store}
    (effects : Change.Effects (Session.creation other) (fun _ => none) t) :
    (∀ name, nameKey name ≠ nameKey other.table → t.find name = none) ∧
      ∀ g ∈ other.indices, ∃ i, Created other i ⟨t, none⟩ ∧
        nameKey i.name = nameKey (Dialect.sqlite.indexName other.table g.name) := by
  have alone (name : String) (differs : nameKey name ≠ nameKey other.table) : t.find name = none :=
    Store.sparingEffects (p := (· = none)) differs (fun _ _ => Option.map_eq_none_iff.mpr) (by simp)
      (creationSpares rfl) effects rfl
  have apart : t.IndicesApart := by
    have own (name : String) (u : StoredTable) (found : t.table? name = some u) :
        nameKey name = nameKey other.table := by
      by_contra differs
      have absent := alone name differs
      rw [Store.tableFound found] at absent
      cases absent
    exact fun a b u v found found' _ _ _ _ _ => (own a u found).trans (own b v found').symm
  refine ⟨alone, fun g member => ?_⟩
  obtain ⟨_, ⟨_, rfl⟩, indices⟩ := effects
  obtain ⟨new, found, i, inside, named⟩ :=
    rebuiltBears (Store.tablePut _ _ _) indices (.inr ⟨g, member, rfl⟩)
  exact ⟨i, ⟨isTable, rfl, apart, ⟨new, found, inside⟩, g, member, named⟩, named⟩

theorem bothCreated (isTable : m.source = .table) (otherTable : other.source = .table)
    (differ : nameKey m.table ≠ nameKey other.table)
    (notBackup : nameKey other.table ≠ nameKey (backupName m.table)) : ∃ first s log u,
      Session.Trace Tells (Session.update .sqlite other) ⟨fun _ => none, none⟩ first (.done .created) s ∧
      (∀ g ∈ other.indices, ∃ i, Created other i s ∧
        nameKey i.name = nameKey (Dialect.sqlite.indexName other.table g.name)) ∧
      Session.Trace Tells (Session.update .sqlite m) s log (.done .created) u ∧
      ∀ c ∈ Session.creation m, ∃ x ∈ log,
        x.did (· = c) = true ∧ c.Effect .sqlite x.before.store x.after.store := by
  obtain ⟨first, s, before, effects, _⟩ := Session.updateCreates otherTable (s := fun _ => none) rfl rfl
  obtain ⟨alone, created⟩ := onlyCreated otherTable effects
  obtain ⟨log, u, after, _, all⟩ :=
    Session.updateCreates isTable (alone _ notBackup.symm) (alone _ differ)
  exact ⟨first, _, log, _, before, created, after, all⟩

theorem dropRenews {table group index : String} {x : Exchange Database}
    (did : x.did (· = .dropIndexIfExists table group) = true)
    (same : nameKey (Dialect.sqlite.indexName table group) = nameKey index) :
    x.did (Change.renews index) = true := by
  obtain ⟨before, request, reply, after⟩ := x
  simp only [Exchange.did, Exchange.asked, Bool.and_eq_true] at did ⊢
  refine ⟨did.1, ?_⟩
  unfold Request.changes at did ⊢
  split at did
  · cases of_decide_eq_true did.2
    simpa [Change.renews] using same
  · cases did.2

theorem droppedEverywhere {table group : String} {i : ColumnGroup} {s t : Store}
    (effect : (Change.dropIndexIfExists table group).Effect .sqlite s t)
    (same : nameKey (Dialect.sqlite.indexName table group) = nameKey i.name) (name : String) :
    ¬StoredObject.Bears i (t.find name) := by
  cases effect
  rintro ⟨u, found, among⟩
  exact Store.indexGone s (Dialect.sqlite.indexName table group) ⟨_, u, found, i, among, same.symm⟩

theorem collisionHappens (differ : nameKey m.table ≠ nameKey other.table) (collide : Collide m other) :
    ∃ first s i log u,
      Session.Trace Tells (Session.update .sqlite other) ⟨fun _ => none, none⟩ first (.done .created) s ∧
      Created other i s ∧
      Session.Trace Tells (Session.update .sqlite m) s log (.done .created) u ∧
      ∃ x ∈ log, x.did (Change.renews i.name) = true ∧
        ¬StoredObject.Bears i (x.after.store.find other.table) := by
  obtain ⟨f, own, g, theirs, same⟩ := collide.shared
  obtain ⟨first, s, log, u, before, created, after, all⟩ :=
    bothCreated collide.isTable collide.otherTable differ collide.notBackup
  obtain ⟨i, there, named⟩ := created g theirs
  have made : Change.dropIndexIfExists m.table f.name ∈ Session.creation m :=
    List.mem_cons_of_mem _ (List.mem_flatMap.mpr ⟨f, own, List.mem_cons_self⟩)
  obtain ⟨x, member, did, effect⟩ := all _ made
  have key := same.trans named.symm
  exact ⟨first, s, i, log, u, before, there, after, x, member, dropRenews did key,
    droppedEverywhere effect key _⟩

end Both

/-- Unless two index names are the same, an update leaves each index alone that an update of the other model
has created. If two are the same, the second of two first updates drops what the first has created. -/
theorem foreignIndicesKept {m other : Model} (differ : nameKey m.table ≠ nameKey other.table) :
    (¬Collide m other → ∀ s i log q u, Created other i s →
      Session.Trace Tells (Session.update .sqlite m) s log q u →
        ∀ x ∈ log, x.asked (Change.renews i.name) = false ∧
          (m.source = .table → StoredObject.Bears i (x.after.store.find other.table))) ∧
    (Collide m other → ∃ first s i log u,
      Session.Trace Tells (Session.update .sqlite other) ⟨fun _ => none, none⟩ first (.done .created) s ∧
      Created other i s ∧
      Session.Trace Tells (Session.update .sqlite m) s log (.done .created) u ∧
      ∃ x ∈ log, x.did (Change.renews i.name) = true ∧
        ¬StoredObject.Bears i (x.after.store.find other.table)) := by
  refine ⟨fun apart s i log q u created trace x member => ?_, collisionHappens differ⟩
  by_cases isTable : m.source = .table
  · have kept := Session.tableKeepsIndices isTable differ apart created trace x member
    exact ⟨kept.1, fun _ => kept.2⟩
  · exact ⟨Session.viewRenewsNothing isTable trace x member, fun same => absurd same isTable⟩

def bookingFields : List FieldSpec := [⟨"Day", .int, "index=day"⟩]

def bookingModel : Model :=
  { Model.empty "room_booking" .table with
    columns := [{ Column.declared "day" .int with field := some "Day" }]
    indices := [⟨"day", ["day"]⟩] }

def deskModel : Model :=
  { Model.empty "desk" .table with
    columns := [{ Column.declared "day" .int with field := some "Day" }]
    indices := [⟨"day", ["day"]⟩] }

def roomFields : List FieldSpec := [⟨"Opened", .int, "index=booking_day"⟩]

def roomModel : Model :=
  { Model.empty "room" .table with
    columns := [{ Column.declared "opened" .int with field := some "Opened" }]
    indices := [⟨"booking_day", ["opened"]⟩] }

theorem deskNames : nameKey deskModel.table ≠ nameKey bookingModel.table ∧
    nameKey bookingModel.table ≠ nameKey (backupName deskModel.table) ∧ ¬Collide deskModel bookingModel := by
  refine ⟨by decide, by decide, ?_⟩
  rintro ⟨_, _, _, f, own, g, theirs, same⟩
  cases List.mem_singleton.mp own
  cases List.mem_singleton.mp theirs
  revert same
  decide

theorem bookingIndicesKept : ∃ first s i log u,
    Session.Trace Tells (Session.update .sqlite bookingModel) ⟨fun _ => none, none⟩ first (.done .created) s ∧
    Created bookingModel i s ∧
    Session.Trace Tells (Session.update .sqlite deskModel) s log (.done .created) u ∧
    (∃ x ∈ log, x.did (Change.renews "idx_desk_day") = true) ∧
    ∀ x ∈ log, x.asked (Change.renews i.name) = false ∧
      StoredObject.Bears i (x.after.store.find bookingModel.table) := by
  obtain ⟨differ, notBackup, apart⟩ := deskNames
  obtain ⟨first, s, log, u, before, created, after, all⟩ :=
    bothCreated (by rfl) (by rfl) differ notBackup
  obtain ⟨i, there, _⟩ := created _ List.mem_cons_self
  have made : Change.dropIndexIfExists "desk" "day" ∈ Session.creation deskModel := by decide
  obtain ⟨x, member, did, _⟩ := all _ made
  have kept := (foreignIndicesKept differ).1 apart s i log _ u there after
  exact ⟨first, s, i, log, u, before, there, after, ⟨x, member, dropRenews did rfl⟩,
    fun x member => ⟨(kept x member).1, (kept x member).2 rfl⟩⟩

/-- The index of bookings by day and the index of rooms by booking day have one name. -/
theorem foreignIndexMayBeDropped :
    Model.build "room" none roomFields = .ok roomModel ∧
    Model.build "room_booking" none bookingFields = .ok bookingModel ∧
    nameKey roomModel.table ≠ nameKey bookingModel.table ∧
    ∃ first s i log u,
      Session.Trace Tells (Session.update .sqlite bookingModel) ⟨fun _ => none, none⟩ first (.done .created) s ∧
      Created bookingModel i s ∧
      Session.Trace Tells (Session.update .sqlite roomModel) s log (.done .created) u ∧
      ∃ x ∈ log, x.did (Change.renews i.name) = true ∧
        ¬StoredObject.Bears i (x.after.store.find bookingModel.table) := by
  have differ : nameKey roomModel.table ≠ nameKey bookingModel.table := by decide
  have collide : Collide roomModel bookingModel :=
    ⟨rfl, rfl, by decide, _, List.mem_cons_self, _, List.mem_cons_self, by decide⟩
  exact ⟨by rfl, by rfl, differ, collisionHappens differ collide⟩

end LiveSchema
