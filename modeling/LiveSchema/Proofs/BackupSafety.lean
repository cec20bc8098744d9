import LiveSchema.Proofs.BackupGuard
/-! What a table holds outlives any run of updates and restorations. For every session that is part of a
call, what it does to the held table is said once; a run is then followed call by call. -/
namespace LiveSchema

namespace Session

variable {d : Dialect} {t table : String} {n : Nat} {s : Database} {h : Option Held} {α : Type}

theorem sparingObeys {p : Session α} (sends : p.Sends (Request.Spares t)) (guarded : Guarded t s h) :
    p.Obeys (guard d t n) (fun _ s' h' => Guarded t s' h' ∧ h' = h) s h := by
  refine obeysOfSends sends ?_ ⟨guarded, rfl⟩
  intro s g request reply s' kept spares answer
  obtain ⟨here, rfl⟩ := kept
  have same := sparingHeld (n := n) (h := g) (x := ⟨s, request, reply, s'⟩) spares
  refine ⟨sparingCareful spares answer here, ?_, same⟩
  show Guarded t s' (held t g _)
  rw [same]
  exact sparingGuarded spares answer here

theorem sparingGuards {p : Session α} (sends : p.Sends (Request.Spares t)) (guarded : Guarded t s h) :
    p.Obeys (guard d t n) (fun _ => Guarded t) s h :=
  obeysMono (sparingObeys sends guarded) fun _ _ _ kept => kept.1

theorem lookingObeys {p : Session α}
    (sends : p.Sends fun r => ∃ q sql arguments, r = .statement (.catalog q) sql arguments)
    (guarded : Guarded t s h) : p.Obeys (guard d t n) (fun _ s' h' => s' = s ∧ h' = h) s h := by
  refine obeysOfSends sends ?_ ⟨rfl, rfl⟩
  intro s h request reply s' unchanged looking answer
  obtain ⟨rfl, rfl⟩ := unchanged
  obtain ⟨q, sql, arguments, rfl⟩ := looking
  have spares : Request.Spares t (.statement (.catalog q) sql arguments) := trivial
  refine ⟨sparingCareful spares answer guarded, ?_, sparingHeld spares⟩
  cases answer with
  | refused => rfl
  | effect unchanged => cases q <;> simp_all [Purpose.Effect]

theorem chosenIsEmpty {rows : List Row} {f : Row → Option α} {found : List α}
    (decoded : (rows.take 1).mapM f = some found) : found.isEmpty = true ↔ rows = [] := by
  cases rows with
  | nil => cases decoded; simp
  | cons row rest =>
    simp only [List.take_succ_cons, List.take_zero, List.mapM_cons, List.mapM_nil] at decoded
    obtain ⟨value, _, pair⟩ := Option.bind_eq_some_iff.mp decoded
    cases pair
    simp

theorem objectExistsObeys {name : String} (guarded : Guarded t s h) :
    (objectExists d name).Obeys (guard d t n) (fun r s' h' => s' = s ∧ h' = h ∧
      ∀ present, r = .ok present → (present = true ↔ s.store.find name ≠ none)) s h := by
  refine obeysBind (obeysBind (obeysOfExcept ?_ ?_))
  · intro sql _
    refine obeysBind (obeysSend ?_)
    intro reply s' answer
    have spares : Request.Spares t
      (.statement (.catalog (.presence name)) sql (CatalogQuery.presence name).arguments) := trivial
    refine ⟨sparingCareful spares answer guarded, ?_⟩
    have same := sparingHeld (n := n) (h := h) (x := ⟨s, _, reply, s'⟩) spares
    cases answer with
    | refused => exact ⟨rfl, same, nofun⟩
    | @effect _ _ _ _ rows affected store effect =>
      obtain ⟨rfl, truthful⟩ := effect
      simp only [Reply.result]
      split
      · rename_i found decoded
        refine ⟨rfl, same, fun present result => ?_⟩
        cases result
        simp [← truthful, ← chosenIsEmpty decoded]
      · exact ⟨rfl, same, nofun⟩
  · intro e _
    exact ⟨rfl, rfl, nofun⟩

theorem refusedHeld {request : Request} {report : String} :
    held t h ⟨n, s, request, .failed report, s⟩ = h := by
  cases h <;> simp [held, Action.releases, Action.setsAside]

theorem guardedChange {c : Change} {post : Except Failure Unit → Database → Option Held → Prop}
    (guarded : Guarded t s h) (withBackup : c.drops t = true → s.store.find (backupName t) ≠ none)
    (refused : ∀ e, post (.error e) s h)
    (made : ∀ sql rows affected store, c.Effect d s.store store →
      let a : Action :=
        ⟨n, s, .statement (.change c) sql [], .answered rows affected, store, s.saved⟩
      (a.setsAside t = true → h = none ∧ ∃ old, s.store.table? t = some old) ∧
        Guarded t a.exchange.after (held t h a) ∧ post (.ok ()) a.exchange.after (held t h a)) :
    (change d c).Obeys (guard d t n) post s h := by
  refine obeysChange refused ?_
  intro sql reply s' answer
  cases answer with
  | @refused _ _ report =>
    refine ⟨⟨withBackup, ?_, guarded, ?_⟩, ?_⟩
    · intro aside
      simp [Action.setsAside] at aside
    · show Guarded t s (held t h _)
      rw [refusedHeld]
      exact guarded
    · show post (.error (.execution sql report)) s (held t h _)
      rw [refusedHeld]
      exact refused _
  | @effect _ _ _ _ rows affected store effect =>
    obtain ⟨once, after, result⟩ := made sql rows affected store effect
    exact ⟨⟨withBackup, once, guarded, after⟩, result⟩

theorem existingBackupObeys (same : nameKey table = nameKey t) (guarded : Guarded t s h) :
    (existingBackup d table).Obeys (guard d t n) (fun r s' h' => s' = s ∧ h' = h ∧
      ∀ backup, r = .ok backup → backup = backupName table ∧ s.store.find (backupName t) ≠ none)
      s h := by
  refine obeysBind (obeysMono (objectExistsObeys guarded) ?_)
  intro result s h same
  obtain ⟨rfl, rfl, truthful⟩ := same
  cases result with
  | error e => exact ⟨rfl, rfl, nofun⟩
  | ok present =>
    cases present with
    | false => exact ⟨rfl, rfl, nofun⟩
    | true =>
      refine ⟨rfl, rfl, fun backup result => ?_⟩
      cases result
      exact ⟨rfl, Store.findCongr (backupKeySame same) ▸ (truthful true rfl).mp rfl⟩

theorem dropTableObeys (same : nameKey table = nameKey t) (guarded : Guarded t s h)
    (withBackup : s.store.find (backupName t) ≠ none) :
    (change d (.dropTable table)).Obeys (guard d t n) (fun _ => Guarded t) s h := by
  refine guardedChange guarded (fun _ => withBackup) (fun _ => guarded) ?_
  intro sql rows affected store effect a
  obtain ⟨_, rfl⟩ := effect
  have differs : nameKey table ≠ nameKey (backupName t) := same ▸ (backupKeyDiffers t).symm
  have unchanged : held t h a = h := by
    cases h <;> simp [held, a, Action.releases, Action.setsAside, differs]
  have after : Guarded t a.exchange.after h :=
    guardedEffect guarded fun _ holds => holdsOfSetOther same holds
  rw [unchanged]
  exact ⟨fun aside => absurd aside Bool.false_ne_true, after, after⟩

theorem putBackObeys (same : nameKey table = nameKey t) (guarded : Guarded t s h) :
    (change d (.renameTable (backupName table) table)).Obeys (guard d t n)
      (fun _ => Guarded t) s h := by
  refine guardedChange guarded nofun (fun _ => guarded) ?_
  intro sql rows affected store effect a
  have backup := backupKeySame same
  have differs := backupKeyDiffers t
  have aside : a.setsAside t = false := by
    simp [a, Action.setsAside, backup, differs]
  have released : held t h a = none := by
    cases h <;> simp [held, a, aside, Action.releases, backup, same]
  rw [released, aside]
  exact ⟨fun aside => absurd aside Bool.false_ne_true, guardedNothing, guardedNothing⟩

theorem restoreObeys (same : nameKey table = nameKey t) (guarded : Guarded t s h) :
    (restoreBackup d table).Obeys (guard d t n) (fun _ => Guarded t) s h := by
  refine obeysBind (obeysMono (existingBackupObeys same guarded) ?_)
  intro result s h unchanged
  obtain ⟨rfl, rfl, existing⟩ := unchanged
  cases result with
  | error e => exact guarded
  | ok backup =>
    obtain ⟨rfl, withBackup⟩ := existing backup rfl
    refine obeysBind (obeysMono (objectExistsObeys guarded) ?_)
    intro occupied s h unchanged
    obtain ⟨rfl, rfl, _⟩ := unchanged
    cases occupied with
    | error e => exact guarded
    | ok occupied =>
      have cleared : (changes d (if occupied then [.dropTable table] else [])).Obeys (guard d t n)
          (fun _ => Guarded t) s h := by
        cases occupied with
        | false => exact guarded
        | true => exact obeysThen (dropTableObeys same guarded withBackup) fun _ _ _ after => after
      exact obeysThen cleared fun _ _ _ after => putBackObeys same after

theorem setAsideObeys (same : nameKey table = nameKey t) (guarded : Guarded t s h)
    (unsaved : s.saved = none) :
    (change d (.renameTable table (backupName table))).Obeys (guard d t n)
      (fun r s' h' => Guarded t s' h' ∧ (r = .ok () → ∃ old, h' = some ⟨n, old⟩)) s h := by
  refine guardedChange guarded nofun (fun _ => ⟨guarded, nofun⟩) ?_
  intro sql rows affected store effect a
  obtain ⟨old, found, free, rfl⟩ := effect
  have backup := backupKeySame same
  have here : s.store.table? t = some old := (Store.tableCongr same).symm.trans found
  -- What is held lies under the backup name, and the rename needs that name free.
  have nothing : h = none := by
    cases h with
    | none => rfl
    | some k =>
      obtain ⟨indices, occupied⟩ := (guarded k rfl).1
      have taken := Store.tableFound occupied
      rw [← Store.findCongr backup, free] at taken
      cases taken
  subst nothing
  have now : held t none a = some ⟨n, old⟩ := by
    simp [held, a, Action.setsAside, same, backup, here]
  rw [now]
  have after : Guarded t a.exchange.after (some ⟨n, old⟩) := by
    intro k member
    cases member
    refine ⟨⟨old.indices, Store.tableOfFind (Store.findSame backup.symm _)⟩, ?_⟩
    intro saved member
    simp [a, unsaved] at member
  exact ⟨fun _ => ⟨rfl, old, here⟩, after, after, fun _ => ⟨old, rfl⟩⟩

theorem dropBackupObeys {old : StoredTable} (same : nameKey table = nameKey t)
    (guarded : Guarded t s (some ⟨n, old⟩)) :
    (change d (.dropTable (backupName table))).Obeys (guard d t n) (fun _ => Guarded t) s
      (some ⟨n, old⟩) := by
  have backup := backupKeySame same
  have differs := backupKeyDiffers t
  refine guardedChange guarded ?_ (fun _ => guarded) ?_
  · intro drops
    simp [backup, differs] at drops
  · intro sql rows affected store effect a
    have released : held t (some ⟨n, old⟩) a = none := by
      simp [held, a, Action.releases, backup]
    rw [released]
    exact ⟨fun aside => absurd aside Bool.false_ne_true, guardedNothing, guardedNothing⟩

theorem undoRebuildObeys (same : nameKey table = nameKey t) (live : Table) (guarded : Guarded t s h) :
    (undoRebuild d table live).Obeys (guard d t n) (fun _ => Guarded t) s h := by
  refine obeysThen (restoreObeys same guarded) ?_
  intro _ s' h' after
  have indices := changesSpare (d := d) (rebuildIndicesSpare same live.indices)
  exact sparingGuards indices after

section Update

variable {m : Model} (isTable : m.source = .table) (named : nameKey m.table = nameKey t)
include isTable named

theorem recreateObeys (live : Table) (diff : TableDiff) (guarded : Guarded t s h)
    (unsaved : s.saved = none) :
    (recreate d m live diff).Obeys (guard d t n) (fun _ => Guarded t) s h := by
  refine obeysBind (obeysMono (setAsideObeys named guarded unsaved) ?_)
  intro renamed s h kept
  obtain ⟨guarded, aside⟩ := kept
  cases renamed with
  | error e => exact guarded
  | ok _ =>
    obtain ⟨old, rfl⟩ := aside rfl
    -- Rebuilding only spares, so the same table is still held whatever the outcome is.
    have rebuilt := rebuildSpares (d := d) named isTable live diff
    refine obeysBind (obeysOutcome (obeysMono (sparingObeys rebuilt guarded) ?_))
    intro result s h kept
    obtain ⟨guarded, rfl⟩ := kept
    cases result with
    | ok report => exact obeysThen (dropBackupObeys named guarded) fun _ _ _ after => after
    | error e =>
      have undone := undoRebuildObeys (d := d) (n := n) named live guarded
      exact obeysThen (obeysOutcome undone) fun _ _ _ after => after

theorem updateTableObeys (live : Table) (guarded : Guarded t s h) (unsaved : s.saved = none) :
    (updateTable d m live).Obeys (guard d t n) (fun _ => Guarded t) s h := by
  refine obeysBind (obeysOfExcept ?_ fun _ _ => guarded)
  intro diff _
  cases strategy : diff.strategy with
  | additive =>
    simp only [strategy]
    exact obeysThen (sparingGuards (alterSpares named live diff) guarded) fun _ _ _ after => after
  | recreate =>
    simp only [strategy]
    have recreated := recreateObeys (d := d) (n := n) isTable named live diff guarded unsaved
    exact obeysThen recreated fun _ _ _ after => after

theorem updateLiveObeys (guarded : Guarded t s h) (unsaved : s.saved = none) :
    (updateLive d m).Obeys (guard d t n) (fun _ => Guarded t) s h := by
  have reading : (readSchema d m.table).Sends
      fun r => ∃ q sql arguments, r = .statement (.catalog q) sql arguments :=
    sendsReadSchema (fun _ _ => ⟨_, _, _, rfl⟩) d m.table
  refine obeysBind (obeysMono (lookingObeys reading guarded) ?_)
  intro schema s h unchanged
  obtain ⟨rfl, rfl⟩ := unchanged
  match schema with
  | .error e => exact guarded
  | .ok (.table live) =>
    have noView : m.isView = false := by simp [Model.isView, Model.view?, isTable]
    simp only [noView]
    exact updateTableObeys isTable named live guarded unsaved
  | .ok (.view v) =>
    have replacing : (do change d (.dropView v.name); create d m; return SchemaUpdate.viewReplaced
        : Session SchemaUpdate).Sends (Request.Spares t) :=
      sendsBind (sendsChange fun _ _ => trivial) fun _ =>
        sendsBind (createSpares named isTable) fun _ => trivial
    exact sparingGuards replacing guarded

theorem updateObeys (guarded : Guarded t s h) (unsaved : s.saved = none) :
    (update d m).Obeys (guard d t n) (fun _ => Guarded t) s h := by
  refine obeysBind (obeysMono (objectExistsObeys guarded) ?_)
  intro pending s h unchanged
  obtain ⟨rfl, rfl, _⟩ := unchanged
  match pending with
  | .error e => exact guarded
  | .ok true => exact guarded
  | .ok false =>
    refine obeysBind (obeysMono (objectExistsObeys guarded) ?_)
    intro present s h unchanged
    obtain ⟨rfl, rfl, _⟩ := unchanged
    match present with
    | .error e => exact guarded
    | .ok true => exact updateLiveObeys isTable named guarded unsaved
    | .ok false =>
      exact obeysThen (sparingGuards (createSpares named isTable) guarded) fun _ _ _ after => after

end Update

end Session

section Run

variable {d : Dialect} {t : String} {start : Store} {n : Nat} {log : List Action} {s : Database}

theorem callObeys {c : Call} {h : Option Held} (concerns : c.Concerns t) (guarded : Guarded t s h)
    (unsaved : s.saved = none) :
    (c.session d).Obeys (guard d t n) (fun _ => Guarded t) s h := by
  cases c with
  | restore table => exact Session.restoreObeys concerns guarded
  | update m =>
    have update := Session.updateObeys (d := d) (n := n) concerns.1 concerns.2 guarded unsaved
    exact Session.obeysThen update fun _ _ _ after => after

theorem callCareful {c : Call} {h : Option Held} {steps q u} (concerns : c.Concerns t)
    (guarded : Guarded t s h) (unsaved : s.saved = none)
    (trace : Session.Trace (Answers d) (c.session d) s steps q u) :
    Along (held t) (Careful t) h (steps.map (Action.mk n)) ∧
      Guarded t u ((steps.map (Action.mk n)).foldl (held t) h) := by
  rw [alongMap, List.foldl_map]
  have obeys := callObeys (d := d) (n := n) concerns guarded unsaved
  exact ⟨Session.obeyedTrace obeys trace,
    Session.obeyedEnd (o := guard d t n) (fun _ _ careful => careful.guardedAfter) guarded obeys trace⟩

theorem runCareful (run : Run d t start n log s) :
    Along (held t) (Careful t) none log ∧ Guarded t s (log.foldl (held t) none) := by
  induction run with
  | start => exact ⟨trivial, guardedNothing⟩
  | @call n _ _ _ _ _ _ _ concerns trace ih =>
    -- What is guarded stays so through the rollback before the next call.
    obtain ⟨along, guarded⟩ := ih
    have call := callCareful (n := n) concerns (guardedRolledBack guarded) rfl trace
    rw [alongAppend, List.foldl_append]
    exact ⟨⟨along, call.1⟩, call.2⟩

theorem carefulMember {h : Option Held} {a : Action} (along : Along (held t) (Careful t) h log)
    (member : a ∈ log) : ∃ h', Careful t h' a := by
  obtain ⟨earlier, later, rfl⟩ := List.append_of_mem member
  rw [alongAppend] at along
  exact ⟨_, along.2.1⟩

theorem heldUntilReleased {h : Held} {during : List Action}
    (along : Along (held t) (Careful t) (some h) during)
    (kept : ∀ y ∈ during, y.releases t h.call = false) :
    during.foldl (held t) (some h) = some h ∧
      ∀ y ∈ during, y.exchange.before.store.Holds (backupName t) h.table ∧
        y.exchange.after.store.Holds (backupName t) h.table := by
  induction during with
  | nil => exact ⟨rfl, by simp⟩
  | cons y rest ih =>
    obtain ⟨careful, later⟩ := along
    have same : held t (some h) y = some h := by simp [held, kept y List.mem_cons_self]
    have after := careful.guardedAfter
    rw [same] at later after
    have others := ih later fun z member => kept z (List.mem_cons_of_mem y member)
    simp only [List.foldl_cons, same]
    refine ⟨others.1, ?_⟩
    intro z member
    rcases List.mem_cons.mp member with rfl | member
    · exact ⟨(careful.guardedBefore h rfl).1, (after h rfl).1⟩
    · exact others.2 z member

/-- Once a table was set aside its backup holds what the table held, at every moment until the backup is
put back or the call that made it drops it in the end; and a table is dropped only while there is a
backup of it. -/
theorem backupIsKept (run : Run d t start n log s) :
    (∀ earlier x during rest, log = earlier ++ x :: (during ++ rest) → x.setsAside t = true →
      (∀ y ∈ during, y.releases t x.call = false) →
      ∃ old, x.exchange.before.store.table? t = some old ∧
        x.exchange.after.store.Holds (backupName t) old ∧
        (∀ y ∈ during, y.exchange.before.store.Holds (backupName t) old ∧
          y.exchange.after.store.Holds (backupName t) old) ∧
        (rest = [] → s.store.Holds (backupName t) old)) ∧
    ∀ a ∈ log, a.exchange.asked (Change.drops t) = true →
      a.exchange.before.store.find (backupName t) ≠ none := by
  obtain ⟨along, guarded⟩ := runCareful run
  refine ⟨?_, ?_⟩
  · intro earlier x during rest split aside kept
    subst split
    obtain ⟨_, careful, later⟩ := (alongAppend _ _ _).mp along
    obtain ⟨nothing, old, found⟩ := careful.setsAsideOnce aside
    have now : held t (earlier.foldl (held t) none) x = some ⟨x.call, old⟩ := by
      simp [nothing, held, aside, found]
    have after := careful.guardedAfter
    rw [now] at later after
    have duringHeld := heldUntilReleased ((alongAppend _ _ _).mp later).1 kept
    refine ⟨old, found, (after _ rfl).1, duringHeld.2, ?_⟩
    intro nothing
    subst nothing
    rw [List.append_nil, List.foldl_append, List.foldl_cons, now, duringHeld.1] at guarded
    exact (guarded _ rfl).1
  · intro a member
    obtain ⟨_, careful⟩ := carefulMember along member
    exact careful.dropsWithBackup

end Run

def noteModel : Model :=
  { Model.empty "note" .table with columns := [{ Column.declared "text" .text with field := some "Text" }] }

def noteTable : StoredTable :=
  { columns := [Column.introspected "text" "TEXT", Column.introspected "draft" "INTEGER"]
    uniques := []
    rows := [fun name => if name = "text" then .text "remember" else .int 1] }

def noteStore : Store := Store.put (fun _ => none) "note" noteTable

def noteSetAside : Store := (noteStore.remove "note").put "note_original" noteTable

def noteCreated : Store := noteSetAside.put "note" { columns := noteModel.columns, uniques := [] }

def noteUpdate : List (Request × Reply × Database) :=
  [(CatalogQuery.request .sqlite (.presence "note_original"), .answered [] 0, ⟨noteStore, none⟩),
    (CatalogQuery.request .sqlite (.presence "note"), .answered [[.text "note"]] 0, ⟨noteStore, none⟩),
    (CatalogQuery.request .sqlite (.entry "note"),
      .answered [[.text "table", .text "note",
        .text "CREATE TABLE note ([text] TEXT, [draft] INTEGER)"]] 0, ⟨noteStore, none⟩),
    (CatalogQuery.request .sqlite (.indices "note"), .answered [] 0, ⟨noteStore, none⟩),
    (Change.request .sqlite (.renameTable "note" "note_original"), .answered [] 0,
      ⟨noteSetAside, none⟩),
    (Change.request .sqlite (.ofModel noteModel), .answered [] 0, ⟨noteCreated, none⟩)]

def noteRestore : List (Request × Reply × Database) :=
  [(CatalogQuery.request .sqlite (.presence "note_original"), .answered [[.text "note_original"]] 0,
      ⟨noteCreated, none⟩),
    (CatalogQuery.request .sqlite (.presence "note"), .answered [[.text "note"]] 0, ⟨noteCreated, none⟩),
    (Change.request .sqlite (.dropTable "note"), .answered [] 0, ⟨noteCreated.remove "note", none⟩)]

def noteRun : List Action :=
  (Exchange.chain ⟨noteStore, none⟩ noteUpdate).map (Action.mk 0) ++
    (Exchange.chain ⟨noteCreated, none⟩ noteRestore).map (Action.mk 1)

/-- The update is cut off after creating the new table and the restoration after dropping it: the rows are
under the backup name alone. -/
theorem noteBackupIsKept : ∃ s, Run .sqlite "note" noteStore 2 noteRun s ∧
    s.store.find "note" = none ∧ s.store.Holds "note_original" noteTable := by
  have update : ∃ q, Session.Trace (Answers .sqlite) (Call.session .sqlite (.update noteModel))
      ⟨noteStore, none⟩ (Exchange.chain _ noteUpdate) q ⟨noteCreated, none⟩ :=
    Session.acceptedTrace (by rfl) ⟨.effect ⟨rfl, by decide⟩, .effect ⟨rfl, by decide⟩, .effect rfl,
      .effect rfl, .effect ⟨noteTable, rfl, rfl, rfl⟩, .effect ⟨rfl, rfl⟩, trivial⟩
  have restore : ∃ q, Session.Trace (Answers .sqlite) (Call.session .sqlite (.restore "note"))
      ⟨noteCreated, none⟩ (Exchange.chain _ noteRestore) q ⟨noteCreated.remove "note", none⟩ :=
    Session.acceptedTrace (by rfl) ⟨.effect ⟨rfl, by decide⟩, .effect ⟨rfl, by decide⟩,
      .effect ⟨by decide, rfl⟩, trivial⟩
  obtain ⟨_, update⟩ := update
  obtain ⟨_, restore⟩ := restore
  have updated : (Call.update noteModel).Concerns "note" := ⟨rfl, rfl⟩
  have restored : (Call.restore "note").Concerns "note" := rfl
  have run : Run .sqlite "note" noteStore 2 noteRun _ := .call (.call .start updated update) restored restore
  obtain ⟨old, found, _, _, kept⟩ := (backupIsKept run).1 (noteRun.take 4) _ (noteRun.drop 5) [] rfl
    rfl (by decide)
  cases found
  exact ⟨_, run, rfl, kept rfl⟩

end LiveSchema
