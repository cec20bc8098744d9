import LiveSchema.Proofs.SettledUpdates
/-! A rebuild that fails is undone. Until then the backup has lost nothing but indices whose names the new
table claimed. Putting the backup back and making anew the indices that were read leaves the table as it was,
wherever the rebuild has failed. -/
namespace LiveSchema

def StoredTable.Remains (old : StoredTable) (object : Option StoredObject) : Prop :=
  ∃ indices, indices ⊆ old.indices ∧ object = some (.table { old with indices })

theorem remainsWithout {old : StoredTable} (index : String) (object : Option StoredObject)
    (remains : old.Remains object) : old.Remains (object.map (Store.dropIndex index)) := by
  obtain ⟨indices, subset, rfl⟩ := remains
  exact ⟨_, fun i member => subset (List.mem_filter.mp member).1, rfl⟩

theorem refusedCount {log : List (Exchange Database)} : Refused log ↔ 0 < log.countP (·.refused) :=
  List.countP_pos_iff.symm

theorem looksDidNot {x : Exchange Database} (looks : x.request.Looks) (kind : Change → Bool) :
    x.did kind = false := by
  obtain ⟨q, sql, arguments, same⟩ := looks
  rw [Exchange.did, Exchange.asked, same]
  exact Bool.and_false _

theorem readAnew {table n : String} {indices groups : List ColumnGroup} (same : nameKey n = nameKey table)
    (read : List.Forall₂ (ReadsAs n) indices groups) :
    List.Forall₂ (fun i r => nameKey r.name = nameKey i.name ∧ r.columns = i.columns) indices
      (groups.map (Store.indexOf table)) := by
  rw [List.forall₂_map_right_iff]
  refine read.imp fun i g reads => ⟨?_, reads.2.symm⟩
  exact (namedKey (namedCongr same reads.1)).symm

theorem readAnewSame {table n : String} {indices groups : List ColumnGroup}
    (same : nameKey n = nameKey table) (read : List.Forall₂ (ReadsAs n) indices groups)
    (spelled : ∀ i ∈ indices, ∃ group, i.name = Dialect.sqlite.indexName table group) :
    groups.map (Store.indexOf table) = indices := by
  induction read with
  | nil => rfl
  | @cons i g indices groups here _ ih =>
    obtain ⟨⟨group, name⟩, others⟩ := List.forall_mem_cons.mp spelled
    have one : g.name = group := by
      refine namedOnce (namedCongr same here.1) ?_
      rw [name]
      exact namedIndexOf table ⟨group, []⟩
    have kept : Store.indexOf table g = i := by
      cases i
      simp only [Store.indexOf, one, ← name, ← here.2]
    rw [List.map_cons, kept, ih others]

namespace Session
variable {α β : Type} {m : Model} {table : String} {s u : Database} {log : List (Exchange Database)}

def Strict (p : Session α) : Prop := ∀ s log a u, Trace Tells p s log (.done a) u → ¬Refused log

section Strict
variable {p : Session α}

theorem strictDone (a : α) : Strict (.done a : Session α) := by
  intro s log b u trace
  cases trace
  rintro ⟨x, member, _⟩
  cases member

theorem strictBind {f : α → Session β} (here : Strict p) (later : ∀ a, Strict (f a)) :
    Strict (p >>= f) := by
  intro s log b u trace
  obtain ⟨a, first, rest, t, rfl, begun, after⟩ := traceOfBind trace
  rw [refusedAppend]
  exact not_or.mpr ⟨here _ _ _ _ begun, later a _ _ _ _ after⟩

theorem quietDone {x : Exchange Database} {request : Request} (answered : x.Done request) :
    ¬Refused [x] := by
  rintro ⟨y, member, refused⟩
  cases List.mem_singleton.mp member
  simp [Exchange.refused, answered.2] at refused

theorem strictSend (purpose : Purpose) (sql : String) (arguments : List Value) :
    Strict (send purpose sql arguments) := by
  intro s log result u trace
  obtain ⟨x, rfl, answered⟩ := traceOfSend trace
  exact quietDone answered

theorem strictTransaction (body : Strict p) : Strict (inTransaction p) := by
  intro s log a u trace
  obtain ⟨start, inner, commit, t, v, rfl, started, ran, committed⟩ := traceOfTransaction trace
  rw [List.cons_append, ← List.singleton_append, refusedAppend, refusedAppend]
  exact not_or.mpr ⟨quietDone started, not_or.mpr ⟨body _ _ _ _ ran, quietDone committed⟩⟩

theorem strictChange (c : Change) : Strict (change .sqlite c) := by
  obtain ⟨sql, written⟩ := changeWritten c
  rw [change, written, sqlReady]
  exact strictBind (strictSend _ _ _) fun _ => strictDone _

theorem strictChanges (cs : List Change) : Strict (changes .sqlite cs) := by
  induction cs with
  | nil => exact strictDone ()
  | cons c rest ih => exact strictBind (strictChange c) fun _ => ih

theorem strictCopyRows (plan : CopyPlan) : Strict (copyRows .sqlite plan) := by
  unfold copyRows
  split
  · exact strictDone 0
  · obtain ⟨sql, written⟩ := copyWritten plan
    rw [written, sqlReady]
    exact strictBind (strictTransaction (strictSend _ _ _)) fun _ => strictDone _

theorem strictRebuild (isTable : m.source = .table) (live : Table) (diff : TableDiff) :
    Strict (rebuild .sqlite m live diff) := by
  have create : Strict (create .sqlite m) := by
    unfold create
    rw [isTable]
    exact strictChanges (creation m)
  exact strictBind create fun _ => strictBind (strictCopyRows _) fun _ => strictDone _

end Strict

theorem acceptedBind {p : Session α} {f : α → Session β} {result : Except Failure β}
    (accepted : ¬Refused log)
    (fails : ∀ e first t, Trace Tells p s first (ended (.error e)) t → Refused first)
    (trace : Trace Tells (p >>= f) s log (ended result) u) :
    ∃ a first rest t, log = first ++ rest ∧ ¬Refused first ∧ ¬Refused rest ∧
      Trace Tells p s first (ended (.ok a)) t ∧ Trace Tells (f a) t rest (ended result) u := by
  rcases endOfBind trace with ⟨a, first, rest, t, rfl, here, later⟩ | ⟨e, rfl, here⟩
  · obtain ⟨quiet, others⟩ := not_or.mp (mt refusedAppend.mpr accepted)
    exact ⟨a, first, rest, t, rfl, quiet, others, here, later⟩
  · exact absurd (fails e log u here) accepted

theorem existingBackupEnd {result : Except Failure String} (accepted : ¬Refused log)
    (held : s.store.find (backupName table) ≠ none)
    (trace : Trace Tells (existingBackup .sqlite table) s log (ended result) u) :
    u = s ∧ result = .ok (backupName table) := by
  obtain ⟨present, first, rest, t, rfl, _, _, asking, later⟩ :=
    acceptedBind accepted (fun _ _ _ => objectExistsRefused) trace
  obtain ⟨rfl, _⟩ := lookingEnd (looksObjectExists _) asking
  rw [objectExistsKnown asking, if_pos (Option.isSome_iff_ne_none.mpr held)] at later
  exact (endOfDone later).2

theorem restoreEnd {kept : StoredTable} {result : Except Failure Unit} (accepted : ¬Refused log)
    (held : s.store.table? (backupName table) = some kept)
    (trace : Trace Tells (restoreBackup .sqlite table) s log (ended result) u) :
    result = .ok () ∧ u.saved = s.saved ∧ u.store.table? table = some kept ∧
      u.store.find (backupName table) = none := by
  have occupied : s.store.find (backupName table) ≠ none := by
    rw [Store.tableFound held]
    exact Option.some_ne_none _
  obtain ⟨backup, first, rest, t, rfl, quiet, accepted, existing, restoring⟩ := by
    refine acceptedBind accepted (fun e first t failing => ?_) trace
    by_contra quiet
    cases (existingBackupEnd quiet occupied failing).2
  obtain ⟨rfl, same⟩ := existingBackupEnd quiet occupied existing
  cases same
  obtain ⟨present, first, rest, t, rfl, _, accepted, asking, replacing⟩ :=
    acceptedBind accepted (fun _ _ _ => objectExistsRefused) restoring
  obtain ⟨rfl, _⟩ := lookingEnd (looksObjectExists _) asking
  obtain ⟨_, first, rest, v, rfl, _, accepted, clearing, last⟩ :=
    acceptedBind accepted (fun _ _ _ => changesRefused) replacing
  obtain ⟨saved, effects⟩ := changesMade clearing
  have cleared : v.store.table? (backupName table) = some kept := by
    cases present with
    | false =>
      have same : v.store = t.store := effects
      rw [same]
      exact held
    | true =>
      obtain ⟨_, ⟨_, rfl⟩, written⟩ := effects
      refine Store.tableOfFind ?_
      rw [written, Store.remove, Store.findOther (backupKeyDiffers table)]
      exact Store.tableFound held
  obtain ⟨saved', ⟨refused, _⟩ | ⟨made, old, here, _, written⟩⟩ := changeEnd last
  · exact absurd refused accepted
  · cases cleared.symm.trans here
    refine ⟨made, saved'.trans saved, ?_, ?_⟩
    · rw [written]
      exact Store.tablePut _ _ _
    · rw [written, Store.findPut (backupKeyDiffers table)]
      exact Store.findSame rfl none

theorem undoEnd {kept : StoredTable} {live : Table} {result : Except Failure Unit}
    (accepted : ¬Refused log) (unsaved : s.saved = none)
    (held : s.store.table? (backupName table) = some kept)
    (groupNames : (live.indices.map (nameKey ·.name)).Nodup)
    (trace : Trace Tells (undoRebuild .sqlite table live) s log (ended result) u) :
    u.saved = none ∧ u.store.find (backupName table) = none ∧ u.store.table? table =
      some { kept with indices :=
        Store.apartFrom table live.indices kept.indices ++ live.indices.map (Store.indexOf table) } := by
  obtain ⟨_, first, rest, t, rfl, quiet, accepted, restoring, indices⟩ := by
    refine acceptedBind accepted (fun e first t failing => ?_) trace
    by_contra quiet
    cases (restoreEnd quiet held failing).1
  obtain ⟨_, saved, found, free⟩ := restoreEnd quiet held restoring
  have closed : t.saved = none := saved.trans unsaved
  have rebuilding : ∀ c ∈ live.indices.flatMap (Change.rebuildIndex table), c.Spares table :=
    rebuildIndicesSpare rfl live.indices
  have spares := changesSpare (d := .sqlite) rebuilding
  have free := absentEnd (backupKeyDiffers table) closed free spares indices
  obtain ⟨saved, ⟨refused, _⟩ | ⟨_, effects⟩⟩ := changesEnd indices
  · exact absurd refused accepted
  · exact ⟨saved.trans closed, free, Store.rebuiltIndices found groupNames effects⟩

end Session

def Undone (table : String) (old : StoredTable) (u : Database) : Prop :=
  u.saved = none ∧ u.store.find (backupName table) = none ∧
    ∃ indices, u.store.table? table = some { old with indices } ∧
      List.Forall₂ (fun i r => nameKey r.name = nameKey i.name ∧ r.columns = i.columns) old.indices indices ∧
      ((∀ i ∈ old.indices, ∃ group, i.name = Dialect.sqlite.indexName table group) →
        indices = old.indices)

namespace Session
variable {m : Model} {s u : Database} {log : List (Exchange Database)}

theorem backupRemains {old : StoredTable} {live : Table} {diff : TableDiff} {q : Session RecreateReport}
    (isTable : m.source = .table) (unsaved : s.saved = none)
    (held : old.Remains (s.store.find (backupName m.table)))
    (trace : Trace Tells (rebuild .sqlite m live diff) s log q u) :
    old.Remains (u.store.find (backupName m.table)) := by
  have here : Store.Unharmed (backupName m.table) old.Remains s := ⟨held, by simp [unsaved]⟩
  have noView (query : String) : ¬old.Remains (some (.view query)) := by
    rintro ⟨_, _, same⟩
    cases same
  exact (Store.unharmedEnd (backupKeyDiffers m.table) remainsWithout noView
    (rebuildSpares rfl isTable live diff) here trace).1

section Undoing
variable {old : StoredTable} {n : String} {groups : List ColumnGroup} (same : nameKey n = nameKey m.table)
  (read : List.Forall₂ (ReadsAs n) old.indices groups) (distinct : (old.indices.map (nameKey ·.name)).Nodup)
include same read distinct

theorem remainsUndone {result : Except Failure Unit} (accepted : ¬Refused log) (unsaved : s.saved = none)
    (remains : old.Remains (s.store.find (backupName m.table)))
    (trace : Trace Tells (undoRebuild .sqlite m.table (old.reading n groups)) s log (ended result) u) :
    Undone m.table old u := by
  obtain ⟨indices, subset, remaining⟩ := remains
  obtain ⟨saved, free, restored⟩ := undoEnd accepted unsaved (Store.tableOfFind remaining)
    (readDistinct read distinct) trace
  have left : Store.apartFrom m.table groups indices = [] := by
    refine List.eq_nil_iff_forall_not_mem.mpr fun i member => ?_
    obtain ⟨kept, apart⟩ := Store.memApartFrom.mp member
    obtain ⟨f, inside, named, _⟩ := (readOf read).2 i (subset kept)
    exact apart f inside (namedKey (namedCongr same named))
  have restored : u.store.table? m.table = some { old with
      indices := Store.apartFrom m.table groups indices ++ groups.map (Store.indexOf m.table) } := restored
  rw [left, List.nil_append] at restored
  exact ⟨saved, free, _, restored, readAnew same read, readAnewSame same read⟩

theorem recreateUndone {diff : TableDiff} {result : Except Failure RecreateReport}
    (isTable : m.source = .table) (unsaved : s.saved = none) (found : s.store.table? m.table = some old)
    (aside : ∃ x ∈ log, x.did (Change.renames m.table (backupName m.table)) = true)
    (something : Refused log) (once : log.countP (·.refused) ≤ 1)
    (early : ∀ x ∈ log, x.refused = true → x.asked (Change.drops (backupName m.table)) = false)
    (trace : Trace Tells (recreate .sqlite m (old.reading n groups) diff) s log (ended result) u) :
    (∃ e, result = .error e) ∧ Undone m.table old u := by
  rcases endOfBind trace with ⟨_, first, rest, t, rfl, renamed, later⟩ | ⟨e, _, renamed⟩
  · obtain ⟨saved, ⟨_, ⟨e, failed⟩, _⟩ | ⟨_, source, here, _, written⟩⟩ := changeEnd renamed
    · cases failed
    cases found.symm.trans here
    have closed : t.saved = none := saved.trans unsaved
    have held : old.Remains (t.store.find (backupName m.table)) := by
      rw [written]
      exact ⟨old.indices, List.Subset.refl _, Store.findSame rfl _⟩
    have quiet : ¬Refused first := strictChange _ _ _ _ _ renamed
    rcases endOfBind later with ⟨outcome, second, third, v, rfl, rebuilding, ending⟩ | ⟨e, _, rebuilding⟩
    case inr => cases (endOfOutcome rebuilding).choose_spec.1
    obtain ⟨inner, same', rebuilt⟩ := endOfOutcome rebuilding
    cases same'
    obtain ⟨closed', ⟨refused, e, rfl⟩ | ⟨⟨report, rfl⟩, _⟩⟩ := rebuildEnd isTable closed rebuilt
    · -- The one refusal was in the rebuild, so nothing is refused after it.
      have accepted : ¬Refused third := by
        have counted := refusedCount.mp refused
        rw [refusedCount]
        simp only [List.countP_append] at once
        omega
      rcases endOfBind ending with ⟨_, fourth, fifth, w, rfl, undoing, last⟩ | ⟨e, _, undoing⟩
      case inr => cases (endOfOutcome undoing).choose_spec.1
      obtain ⟨_, _, undoing⟩ := endOfOutcome undoing
      obtain ⟨rfl, rfl, failed⟩ := endOfFail last
      rw [List.append_nil] at accepted
      exact ⟨⟨e, failed⟩,
        remainsUndone same read distinct accepted closed' (backupRemains isTable closed held rebuilt) undoing⟩
    · -- Neither the rebuild nor setting the table aside was refused, and dropping the backup was not.
      obtain ⟨inner, dropping, _⟩ := endOfMap ending
      obtain ⟨sql, reply, rfl, _, _⟩ := changeAnswer dropping
      rcases (refusedAppend.mp something).imp_right refusedAppend.mp with refused | refused | ⟨x, member, refused⟩
      · exact absurd refused quiet
      · exact absurd refused (strictRebuild isTable _ _ _ _ _ _ rebuilt)
      · have dropped := early x (List.mem_append_right _ (List.mem_append_right _ member)) refused
        cases List.mem_singleton.mp member
        simp [Exchange.asked, Request.changes] at dropped
  · obtain ⟨sql, reply, rfl, _, succeeds⟩ := changeAnswer renamed
    obtain ⟨x, member, did⟩ := aside
    cases List.mem_singleton.mp member
    simp only [Exchange.did, Bool.and_eq_true] at did
    cases succeeds.mp did.1

end Undoing

end Session

section Failing
variable {m : Model} {s u : Database} {earlier later : List (Exchange Database)} {x : Exchange Database}
  {result : Except Failure SchemaUpdate} {old : StoredTable}

theorem rebuildReached (isTable : m.source = .table) (found : s.store.table? m.table = some old)
    (trace : Session.Trace Tells (Session.update .sqlite m) s (earlier ++ x :: later)
      (Session.ended result) u)
    (aside : ∃ y ∈ earlier, y.did (Change.renames m.table (backupName m.table)) = true) :
    ∃ first middle n groups diff inner, earlier = first ++ middle ∧ nameKey n = nameKey m.table ∧
      List.Forall₂ (ReadsAs n) old.indices groups ∧
      (∃ y ∈ middle, y.did (Change.renames m.table (backupName m.table)) = true) ∧
      Session.Trace Tells (Session.recreate .sqlite m (old.reading n groups) diff) s
        (middle ++ x :: later) (Session.ended inner) u ∧ result = inner.map .recreated := by
  obtain ⟨first, rest, split, looks, ends⟩ := Session.updatePath isTable trace
  obtain ⟨y, member, did⟩ := aside
  have acts : y ∉ first := by
    intro looking
    rw [looksDidNot (looks y looking)] at did
    contradiction
  obtain ⟨middle, rfl, rfl⟩ : ∃ middle, earlier = first ++ middle ∧ rest = middle ++ x :: later := by
    rcases List.append_eq_append_iff.mp split with ⟨more, same, _⟩ | ⟨middle, same, acting⟩
    · exact absurd (same ▸ List.mem_append_left _ member) acts
    · exact ⟨middle, same, acting⟩
  have acting : y ∈ middle := (List.mem_append.mp member).resolve_left acts
  have here : y ∈ middle ++ x :: later := List.mem_append_left _ acting
  rcases ends with ⟨_, nothing, _⟩ | ⟨p, path, trace⟩
  · rw [nothing] at here
    cases here
  cases path with
  | pending occupied =>
    rw [(Session.endOfFail trace).1] at here
    cases here
  | create free absent =>
    rw [Store.tableFound found] at absent
    cases absent
  | view isView =>
    rw [Store.tableFound found] at isView
    cases isView
  | alter free there same read computed additive =>
    obtain ⟨_, altering, _⟩ := Session.endOfMap trace
    have spares := Session.traceSends (Session.alterSpares rfl _ _) altering y here
    rw [(sparingDidNot sparingRenamesNot spares).2] at did
    contradiction
  | recreate there same read computed recreated =>
    cases found.symm.trans there
    obtain ⟨inner, recreating, failed⟩ := Session.endOfMap trace
    exact ⟨first, middle, _, _, _, inner, rfl, same, read, ⟨y, acting, did⟩, recreating, failed⟩

theorem failedRebuildUndone (isTable : m.source = .table) (unsaved : s.saved = none)
    (found : s.store.table? m.table = some old) (indexNames : (old.indices.map (nameKey ·.name)).Nodup)
    (trace : Session.Trace Tells (Session.update .sqlite m) s (earlier ++ x :: later)
      (Session.ended result) u)
    (aside : ∃ y ∈ earlier, y.did (Change.renames m.table (backupName m.table)) = true)
    (refused : x.refused = true) (early : x.asked (Change.drops (backupName m.table)) = false)
    (others : ∀ y ∈ earlier ++ later, y.refused = false) :
    (∃ e, result = .error e) ∧ Undone m.table old u := by
  obtain ⟨first, middle, n, groups, diff, inner, rfl, same, read, ⟨y, acting, did⟩, recreating, rfl⟩ :=
    rebuildReached isTable found trace aside
  have quiet : ∀ y ∈ middle ++ later, y.refused = false := fun y member =>
    others y (by rw [List.append_assoc]; exact List.mem_append_right _ member)
  have once : (middle ++ x :: later).countP (·.refused) ≤ 1 := Nat.le_of_eq (countedOnce refused quiet)
  have dropsLast : ∀ y ∈ middle ++ x :: later, y.refused = true →
      y.asked (Change.drops (backupName m.table)) = false := by
    intro y member failed
    rcases List.mem_cons.mp (List.perm_middle.mem_iff.mp member) with rfl | other
    · exact early
    · rw [quiet y other] at failed
      contradiction
  obtain ⟨⟨e, rfl⟩, undone⟩ := Session.recreateUndone same read indexNames isTable unsaved found
    ⟨y, List.mem_append_left _ acting, did⟩ ⟨x, List.mem_append_right _ List.mem_cons_self, refused⟩
    once dropsLast recreating
  exact ⟨⟨e, rfl⟩, undone⟩

end Failing

def visitModel : Model :=
  { Model.empty "visit" .table with
    columns := [{ Column.declared "day" .text with field := some "Day" }]
    indices := [⟨"day", ["day"]⟩] }

def visitTable : StoredTable :=
  { columns := [Column.introspected "day" "TEXT", Column.introspected "guests" "INTEGER"]
    uniques := []
    indices := [Store.indexOf "visit" ⟨"day", ["day", "guests"]⟩]
    rows := [fun name => if name = "day" then .text "monday" else .int 3] }

def visitStore : Store := Store.put (fun _ => none) "visit" visitTable

def visitSetAside : Store := (visitStore.remove "visit").put "visit_original" visitTable

def visitCreated : Store := visitSetAside.put "visit" { columns := visitModel.columns, uniques := [] }

def visitBare : Store := visitCreated.withoutIndex (Dialect.sqlite.indexName "visit" "day")

def visitStripped : StoredTable := { visitTable with indices := [] }

def visitBack : Store :=
  ((visitBare.remove "visit").remove "visit_original").put "visit" visitStripped

def visitCleared : Store := visitBack.withoutIndex (Dialect.sqlite.indexName "visit" "day")

def visitRestored : Store := visitCleared.put "visit" visitTable

def visitBegun : List (Request × Reply × Database) :=
  [(CatalogQuery.request .sqlite (.presence "visit_original"), .answered [] 0, ⟨visitStore, none⟩),
    (CatalogQuery.request .sqlite (.presence "visit"), .answered [[.text "visit"]] 0, ⟨visitStore, none⟩),
    (CatalogQuery.request .sqlite (.entry "visit"), .answered [[.text "table", .text "visit",
      .text "CREATE TABLE visit ([day] TEXT,[guests] INTEGER)"]] 0, ⟨visitStore, none⟩),
    (CatalogQuery.request .sqlite (.indices "visit"),
      .answered [[.text "CREATE INDEX idx_visit_day ON visit ([day],[guests])"]] 0, ⟨visitStore, none⟩),
    (Change.request .sqlite (.renameTable "visit" "visit_original"), .answered [] 0,
      ⟨visitSetAside, none⟩),
    (Change.request .sqlite (.ofModel visitModel), .answered [] 0, ⟨visitCreated, none⟩),
    (Change.request .sqlite (.dropIndexIfExists "visit" "day"), .answered [] 0, ⟨visitBare, none⟩)]

def visitRefusal : Request × Reply × Database :=
  (Change.request .sqlite (.createIndex "visit" ⟨"day", ["day"]⟩), .failed "disk full", ⟨visitBare, none⟩)

def visitUndoing : List (Request × Reply × Database) :=
  [(CatalogQuery.request .sqlite (.presence "visit_original"), .answered [[.text "visit_original"]] 0,
      ⟨visitBare, none⟩),
    (CatalogQuery.request .sqlite (.presence "visit"), .answered [[.text "visit"]] 0, ⟨visitBare, none⟩),
    (Change.request .sqlite (.dropTable "visit"), .answered [] 0, ⟨visitBare.remove "visit", none⟩),
    (Change.request .sqlite (.renameTable "visit_original" "visit"), .answered [] 0, ⟨visitBack, none⟩),
    (Change.request .sqlite (.dropIndexIfExists "visit" "day"), .answered [] 0, ⟨visitCleared, none⟩),
    (Change.request .sqlite (.createIndex "visit" ⟨"day", ["day", "guests"]⟩), .answered [] 0,
      ⟨visitRestored, none⟩)]

theorem visitAnswered :
    Session.Answered Tells ⟨visitStore, none⟩ (visitBegun ++ visitRefusal :: visitUndoing) := by
  have told (name : String) (store : Store) : Told [[.text name]] store (.presence name) := by
    simpa [Told] using ⟨name, rfl⟩
  have entry : Told [[.text "table", .text "visit",
      .text "CREATE TABLE visit ([day] TEXT,[guests] INTEGER)"]] visitStore (.entry "visit") :=
    .table (t := visitTable) rfl (by rfl)
  have indices : Told [[.text "CREATE INDEX idx_visit_day ON visit ([day],[guests])"]] visitStore
      (.indices "visit") := by
    intro t found
    cases found
    exact .cons ⟨_, ⟨"day", ["day", "guests"]⟩, rfl, by rfl, namedIndexOf "visit" _, rfl⟩ .nil
  have kept : (visitBare.remove "visit").table? "visit_original" = some visitStripped := by
    have created : visitCreated.table? "visit_original" = some visitTable := rfl
    exact Store.tableWithoutIndex created
  have cleared : visitCleared.table? "visit" = some { visitStripped with indices := [] } :=
    Store.tableWithoutIndex (Store.tablePut _ "visit" visitStripped)
  refine ⟨answeredTells (List.forall_mem_nil _) fun _ same => ?_,
    answeredTells (told _ _) fun _ same => ?_, answeredTells entry nofun,
    answeredTells indices nofun, tellsMade ⟨visitTable, rfl, rfl, rfl⟩,
    tellsMade ⟨rfl, rfl⟩, tellsMade rfl, ⟨.refused, nofun, nofun⟩,
    answeredTells (told _ _) fun _ same => ?_, answeredTells (told _ _) fun _ same => ?_,
    tellsMade ⟨nofun, rfl⟩, tellsMade ⟨_, kept, rfl, rfl⟩, tellsMade rfl,
    tellsMade ⟨_, cleared, Store.indexGone _ _, rfl⟩, trivial⟩
  all_goals
    cases same
    decide

def visitEarlier : List (Exchange Database) := Exchange.chain ⟨visitStore, none⟩ visitBegun

def visitRefused : Exchange Database := ⟨⟨visitBare, none⟩, visitRefusal.1, visitRefusal.2.1, ⟨visitBare, none⟩⟩

def visitLater : List (Exchange Database) := Exchange.chain ⟨visitBare, none⟩ visitUndoing

/-- The new table's index took the name of the old one, which is lost until it is made anew. -/
theorem visitUndone : ∃ log, Session.Trace Tells (Session.update .sqlite visitModel) ⟨visitStore, none⟩ log
      (.fail (.execution "CREATE INDEX idx_visit_day ON visit ([day])" "disk full"))
      ⟨visitRestored, none⟩ ∧
    Undone "visit" visitTable ⟨visitRestored, none⟩ := by
  have trace := Session.followedTrace (p := Session.update .sqlite visitModel) (by rfl) visitAnswered
  have failed : (Session.update .sqlite visitModel).followed (visitBegun ++ visitRefusal :: visitUndoing) =
      Session.ended (.error (.execution "CREATE INDEX idx_visit_day ON visit ([day])" "disk full")) := by
    rfl
  rw [failed] at trace
  have split : Exchange.chain ⟨visitStore, none⟩ (visitBegun ++ visitRefusal :: visitUndoing) =
      visitEarlier ++ visitRefused :: visitLater := rfl
  have last : (visitBegun ++ visitRefusal :: visitUndoing).foldl (fun _ step => step.2.2)
      (⟨visitStore, none⟩ : Database) = ⟨visitRestored, none⟩ := rfl
  rw [split, last] at trace
  have distinct : (visitTable.indices.map (nameKey ·.name)).Nodup := List.nodup_singleton _
  have aside : ∃ y ∈ visitEarlier, y.did (Change.renames "visit" (backupName "visit")) = true := by decide
  have others : ∀ y ∈ visitEarlier ++ visitLater, y.refused = false := by decide
  have undone : _ ∧ Undone visitModel.table visitTable ⟨visitRestored, none⟩ :=
    failedRebuildUndone rfl rfl rfl distinct trace aside rfl rfl others
  exact ⟨_, trace, undone.2⟩

end LiveSchema
