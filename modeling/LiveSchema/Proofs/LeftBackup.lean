import LiveSchema.Proofs.BackupSafety
import LiveSchema.Proofs.InPlaceTransaction
import LiveSchema.Proofs.ReadOnlyRefusals
/-! What becomes of the backup if an update is refused one thing. Wherever that is, the table is set aside no
longer once the update has failed, so that the next one can be tried; only the backup that could not be dropped
in the end stays, and every later update refuses to run. -/
namespace LiveSchema

/-- The catalog may tell anything of definitions. A transaction that is to be ended is gone, also if that is
refused. -/
structure Orderly (d : Dialect) (s : Database) (request : Request) (reply : Reply) (t : Database) : Prop where
  answers : Answers d s request reply t
  closed : ∀ step report, request = .transaction step → step ≠ .start → reply = .failed report →
    t = s.rolledBack

theorem Tells.orderly {s t : Database} {request : Request} {reply : Reply} (tells : Tells s request reply t) :
    Orderly .sqlite s request reply t := ⟨tells.answers, tells.closed⟩

theorem endingCloses {d : Dialect} {s t : Database} {step : TransactionStep} {reply : Reply} (ends : step ≠ .start)
    (answer : Orderly d s (.transaction step) reply t) : t.saved = none := by
  cases reply with
  | failed report => rw [answer.closed step report rfl ends rfl, Database.rolledBack]
  | answered rows affected =>
    cases answer.answers with
    | start => contradiction
    | commit => rfl
    | rollback => rfl

namespace Session
variable {α β : Type} {d : Dialect} {m : Model} {s u : Database} {log : List (Exchange Database)}

def Tidy (d : Dialect) (p : Session α) : Prop :=
  ∀ s log result u, s.saved = none → Trace (Orderly d) p s log (ended result) u → u.saved = none

section Tidy

theorem tidyDone (a : α) : Tidy d (.done a : Session α) := by
  intro s log result u unsaved trace
  exact (endOfDone trace).2.1 ▸ unsaved

theorem tidyFail (e : Failure) : Tidy d (.fail e : Session α) := by
  intro s log result u unsaved trace
  exact (endOfFail trace).2.1 ▸ unsaved

theorem tidyBind {p : Session α} {f : α → Session β} (here : Tidy d p) (later : ∀ a, Tidy d (f a)) :
    Tidy d (p >>= f) := by
  intro s log result u unsaved trace
  rcases endOfBind trace with ⟨a, first, rest, t, rfl, begun, after⟩ | ⟨e, rfl, failed⟩
  · exact later a _ _ _ _ (here _ _ _ _ unsaved begun) after
  · exact here _ _ _ _ unsaved failed

theorem tidyOutcome {p : Session α} (inner : Tidy d p) : Tidy d p.outcome := by
  intro s log result u unsaved trace
  obtain ⟨r, _, here⟩ := endOfOutcome trace
  exact inner _ _ _ _ unsaved here

theorem tidyStatements {p : Session α} (sends : p.Sends fun r => ∀ step, r ≠ .transaction step) : Tidy d p := by
  intro s log result u unsaved trace
  refine traceKeeps (·.saved = none) sends ?_ unsaved trace
  exact fun _ _ _ _ closed other answer => (statementKeeps other answer.answers).trans closed

theorem tidyTransaction (body : Session α) : Tidy d (inTransaction body) := by
  intro s log result u unsaved trace
  cases endOfTransaction trace with
  | unopened answer =>
    cases answer.answers with
    | refused => exact unsaved
    | abandoned ending => exact absurd rfl ending
  | closed opening inside ending closes =>
    refine endingCloses ?_ ending
    cases closes <;> nofun

theorem tidyChanges (cs : List Change) : Tidy d (changes d cs) :=
  tidyStatements (sendsChanges fun _ _ _ _ => nofun)

theorem tidyChange (c : Change) : Tidy d (change d c) :=
  tidyStatements (sendsChange fun _ _ => nofun)

theorem tidyCreate (m : Model) : Tidy d (create d m) :=
  tidyStatements (sendsCreateAny (fun _ => nofun) fun _ _ _ _ => nofun)

theorem tidyRestore (table : String) : Tidy d (restoreBackup d table) :=
  tidyStatements (sendsRestore (fun _ _ => nofun) (fun _ => nofun) fun _ => nofun)

theorem tidyCopyRows (plan : CopyPlan) : Tidy d (copyRows d plan) := by
  unfold copyRows
  split
  · exact tidyDone 0
  · refine tidyBind (tidyStatements sendsOfExcept) fun sql => ?_
    exact tidyBind (tidyTransaction _) fun _ => tidyDone _

theorem tidyRebuild (m : Model) (live : Table) (diff : TableDiff) : Tidy d (rebuild d m live diff) :=
  tidyBind (tidyCreate m) fun _ => tidyBind (tidyCopyRows _) fun _ => tidyDone _

theorem tidyRecreate (m : Model) (live : Table) (diff : TableDiff) : Tidy d (recreate d m live diff) := by
  refine tidyBind (tidyChange _) fun _ => tidyBind (tidyOutcome (tidyRebuild m live diff)) fun result => ?_
  cases result with
  | ok report => exact tidyBind (tidyChange _) fun _ => tidyDone report
  | error e =>
    have undoing : Tidy d (undoRebuild d m.table live) :=
      tidyBind (tidyRestore m.table) fun _ => tidyChanges _
    exact tidyBind (tidyOutcome undoing) fun _ => tidyFail e

theorem tidyUpdate (d : Dialect) (m : Model) : Tidy d (update d m) := by
  rw [updateParts]
  refine tidyBind (tidyStatements (sendsMono (examineLooks d m) ?_)) fun f => ?_
  · rintro r ⟨q, sql, arguments, rfl⟩
    nofun
  match f with
  | .backup => exact tidyFail _
  | .nothing => exact tidyBind (tidyCreate m) fun _ => tidyDone _
  | .object (.view v) => exact tidyBind (tidyChange _) fun _ => tidyBind (tidyCreate m) fun _ => tidyDone _
  | .object (.table live) =>
    rw [act]
    split
    · exact tidyFail _
    · refine tidyBind (tidyStatements sendsOfExcept) fun diff => ?_
      split
      · exact tidyBind (tidyBind (tidyTransaction _) fun _ => tidyDone _) fun _ => tidyDone _
      · exact tidyBind (tidyRecreate m live diff) fun _ => tidyDone _

end Tidy

section Backup
variable {table : String}

theorem traceMono {world wider : World Database} {p q : Session α} (implies : ∀ s r reply t,
    world s r reply t → wider s r reply t) (trace : Trace world p s log q u) : Trace wider p s log q u := by
  induction trace with
  | stop p s => exact .stop p s
  | ask answer rest ih => exact .ask (implies _ _ _ _ answer) ih

theorem presenceTrue {name : String} {present : Bool}
    (trace : Trace (Orderly d) (objectExists d name) s log (ended (.ok present)) u) :
    u = s ∧ (present = true ↔ s.store.find name ≠ none) := by
  have answered : Trace (Answers d) (objectExists d name) s log (ended (.ok present)) u :=
    traceMono (fun _ _ _ _ answer => answer.answers) trace
  have told := obeyedResult (objectExistsObeys (t := name) (n := 0) guardedNothing) answered
  exact ⟨told.1, told.2.2 present rfl⟩

theorem changeTold {c : Change} {result : Except Failure Unit}
    (trace : Trace (Orderly .sqlite) (change .sqlite c) s log (ended result) u) :
    (result = .ok () ∧ c.Effect .sqlite s.store u.store) ∨ ((∃ e, result = .error e) ∧ u = s) := by
  obtain ⟨sql, written⟩ := changeWritten c
  rw [change, written, sqlReady] at trace
  obtain ⟨inner, sent, rfl⟩ := endOfMap trace
  obtain ⟨reply, rfl, answer, rfl⟩ := endOfSend sent
  cases answer.answers with
  | refused => exact .inr ⟨⟨_, rfl⟩, rfl⟩
  | effect effect => exact .inl ⟨rfl, effect⟩

theorem changeMade {c : Change} {a : Unit}
    (trace : Trace (Orderly .sqlite) (change .sqlite c) s log (ended (.ok a)) u) :
    c.Effect .sqlite s.store u.store := by
  rcases changeTold trace with ⟨_, effect⟩ | ⟨⟨e, failed⟩, _⟩
  · exact effect
  · cases failed

theorem quietMade {world : World Database} {p : Session α} {result : Except Failure α} (asks : FailsAsked world p)
    (quiet : log.countP Exchange.fails = 0) (trace : Trace world p s log (ended result) u) :
    ∃ a, result = .ok a := by
  cases result with
  | ok a => exact ⟨a, rfl⟩
  | error e =>
    obtain ⟨x, member, fails⟩ := (askedFailure asks trace).1
    exact absurd fails (List.countP_eq_zero.mp quiet x member)

theorem existingFound {backup : String}
    (trace : Trace (Orderly .sqlite) (existingBackup .sqlite table) s log (ended (.ok backup)) u) :
    backup = backupName table := by
  obtain ⟨present, _, _, _, _, _, later⟩ := endOfBindOk trace
  cases present with
  | true =>
    cases (endOfDone later).2.2
    rfl
  | false => cases (endOfFail later).2.2

theorem existingMade {result : Except Failure String} (held : s.store.find (backupName table) ≠ none)
    (quiet : log.countP Exchange.fails = 0)
    (trace : Trace (Orderly .sqlite) (existingBackup .sqlite table) s log (ended result) u) :
    ∃ backup, result = .ok backup := by
  have asks : FailsAsked (Orderly .sqlite) (objectExists .sqlite (backupName table)) :=
    accountsExists (fun _ _ => trivial) _
  rcases endOfBind trace with ⟨present, first, rest, t, rfl, asking, later⟩ | ⟨e, rfl, asking⟩
  · rw [(presenceTrue asking).2.mpr held] at later
    exact ⟨_, (endOfDone later).2.2⟩
  · obtain ⟨_, same⟩ := quietMade asks quiet asking
    cases same

theorem restoreMade {result : Except Failure Unit} (held : s.store.find (backupName table) ≠ none)
    (quiet : log.countP Exchange.fails = 0)
    (trace : Trace (Orderly .sqlite) (restoreBackup .sqlite table) s log (ended result) u) :
    ∃ a, result = .ok a := by
  rcases endOfBind trace with ⟨backup, first, rest, t, rfl, _, restoring⟩ | ⟨e, rfl, existing⟩
  · rw [List.countP_append] at quiet
    refine quietMade ?_ (Nat.eq_zero_of_add_eq_zero_left quiet) restoring
    exact accountsBind (accountsExists (fun _ _ => trivial) table) fun _ =>
      accountsBind (accountsChanges anyActs _) fun _ => accountsChange anyActs _
  · obtain ⟨_, same⟩ := existingMade held quiet existing
    cases same

theorem restoredFree
    (trace : Trace (Orderly .sqlite) (restoreBackup .sqlite table) s log (ended (.ok ())) u) :
    u.store.find (backupName table) = none := by
  obtain ⟨backup, _, _, t, _, existing, later⟩ := endOfBindOk trace
  cases existingFound existing
  obtain ⟨_, _, _, _, _, _, later⟩ := endOfBindOk later
  obtain ⟨_, _, _, v, _, _, renamed⟩ := endOfBindOk later
  obtain ⟨old, _, _, written⟩ := changeMade renamed
  rw [written, Store.findPut (backupKeyDiffers table)]
  exact Store.findSame rfl none

theorem sparingFree {p q : Session α} (spares : p.Sends (Request.Spares table)) (unsaved : s.saved = none)
    (free : s.store.find (backupName table) = none) (trace : Trace (Orderly .sqlite) p s log q u) :
    u.store.find (backupName table) = none :=
  absentTrace (fun _ _ _ _ answer => answer.answers) (backupKeyDiffers table) unsaved free spares trace

theorem undoneFree {live : Table} {result : Except Failure Unit} (unsaved : s.saved = none)
    (held : s.store.find (backupName table) ≠ none) (quiet : log.countP Exchange.fails = 0)
    (trace : Trace (Orderly .sqlite) (undoRebuild .sqlite table live) s log (ended result) u) :
    u.store.find (backupName table) = none := by
  rcases endOfBind trace with ⟨_, first, rest, t, rfl, restoring, indices⟩ | ⟨e, rfl, restoring⟩
  · have closed : t.saved = none := tidyRestore table _ _ _ _ unsaved restoring
    have rebuilding : ∀ c ∈ live.indices.flatMap (Change.rebuildIndex table), c.Spares table :=
      rebuildIndicesSpare rfl live.indices
    exact sparingFree (changesSpare rebuilding) closed (restoredFree restoring) indices
  · obtain ⟨_, same⟩ := restoreMade held quiet restoring
    cases same

theorem rebuildHolds {live : Table} {diff : TableDiff} {q : Session RecreateReport} {old : StoredTable}
    (isTable : m.source = .table) (unsaved : s.saved = none)
    (held : s.store.find (backupName m.table) = some (.table old))
    (trace : Trace (Orderly .sqlite) (rebuild .sqlite m live diff) s log q u) :
    u.store.find (backupName m.table) ≠ none := by
  have here : Store.Unharmed (backupName m.table) (fun o => ∃ t, o = some (.table t)) s :=
    ⟨⟨old, held⟩, by simp [unsaved]⟩
  have lessIndices (index : String) (o : Option StoredObject) (isTable : ∃ t, o = some (.table t)) :
      ∃ t, o.map (Store.dropIndex index) = some (.table t) := by
    obtain ⟨t, rfl⟩ := isTable
    exact ⟨_, rfl⟩
  obtain ⟨t, found⟩ := (Store.unharmedTrace (backupKeyDiffers m.table) lessIndices (by simp)
    (fun _ _ _ _ answer => answer.answers) (rebuildSpares rfl isTable live diff) here trace).1
  rw [found]
  exact Option.some_ne_none _

end Backup

def LeftByDrop (table : String) (log : List (Exchange Database)) (u : Database) : Prop :=
  u.store.find (backupName table) ≠ none ↔
    ∃ x ∈ log, x.fails = true ∧ x.asked (Change.drops (backupName table)) = true

section Update

theorem freeLeft {table : String} (free : u.store.find (backupName table) = none)
    (other : ∀ x ∈ log, x.fails = true → x.asked (Change.drops (backupName table)) = false) :
    LeftByDrop table log u := by
  refine ⟨fun left => absurd free left, ?_⟩
  rintro ⟨x, member, failed, asked⟩
  rw [other x member failed] at asked
  contradiction

theorem sparingLeft {table : String} {p q : Session α} (spares : p.Sends (Request.Spares table))
    (unsaved : s.saved = none) (free : s.store.find (backupName table) = none)
    (trace : Trace (Orderly .sqlite) p s log q u) : LeftByDrop table log u := by
  refine freeLeft (sparingFree spares unsaved free trace) fun x member _ => ?_
  exact (sparingDidNot sparingDropsNot (traceSends spares trace x member)).1

theorem dropLeft {table : String} {result : Except Failure Unit} (held : s.store.find (backupName table) ≠ none)
    (trace : Trace (Orderly .sqlite) (change .sqlite (.dropTable (backupName table))) s log (ended result) u) :
    LeftByDrop table log u := by
  have asks : FailsAsked (Orderly .sqlite) (change .sqlite (.dropTable (backupName table))) :=
    accountsChange anyActs _
  have drops : (change .sqlite (.dropTable (backupName table))).Sends
      fun r => r.changes (Change.drops (backupName table)) = true := sendsChange fun _ _ => by simp [Request.changes]
  rcases changeTold trace with ⟨rfl, _, written⟩ | ⟨⟨e, rfl⟩, rfl⟩
  · refine freeLeft ?_ fun x member failed => ?_
    · rw [written]
      exact Store.findSame rfl none
    · exact absurd failed (List.find?_eq_none.mp (accountedQuiet asks trace) x member)
  · obtain ⟨x, member, fails⟩ := (askedFailure asks trace).1
    exact ⟨fun _ => ⟨x, member, fails, traceSends drops trace x member⟩, fun _ => held⟩

theorem undoLeft {table : String} {live : Table} {e : Failure} {result : Except Failure β}
    (unsaved : s.saved = none) (held : s.store.find (backupName table) ≠ none)
    (quiet : log.countP Exchange.fails = 0)
    (trace : Trace (Orderly .sqlite) ((undoRebuild .sqlite table live).outcome >>= fun _ => .fail e) s log
      (ended result) u) : LeftByDrop table log u := by
  rcases endOfBind trace with ⟨_, first, rest, t, rfl, undoing, last⟩ | ⟨e, _, undoing⟩
  · obtain ⟨_, _, undoing⟩ := endOfOutcome undoing
    obtain ⟨rfl, rfl, _⟩ := endOfFail last
    rw [List.append_nil] at quiet ⊢
    refine freeLeft (undoneFree unsaved held quiet undoing) fun x member failed => ?_
    exact absurd failed (List.countP_eq_zero.mp quiet x member)
  · cases (endOfOutcome undoing).choose_spec.1

theorem leftLater {table : String} {first rest : List (Exchange Database)}
    (other : ∀ x ∈ first, x.asked (Change.drops (backupName table)) = false)
    (left : LeftByDrop table rest u) : LeftByDrop table (first ++ rest) u := by
  refine left.trans ⟨fun ⟨x, member, told⟩ => ⟨x, List.mem_append_right _ member, told⟩, ?_⟩
  rintro ⟨x, member, failed, asked⟩
  rcases List.mem_append.mp member with early | late
  · rw [other x early] at asked
    contradiction
  · exact ⟨x, late, failed, asked⟩

theorem looksDropNot {table : String} {x : Exchange Database} (looks : x.request.Looks) :
    x.asked (Change.drops table) = false := by
  obtain ⟨q, sql, arguments, same⟩ := looks
  rw [Exchange.asked, same]
  rfl

theorem recreateLeft {live : Table} {diff : TableDiff} {result : Except Failure RecreateReport}
    (isTable : m.source = .table) (unsaved : s.saved = none)
    (free : s.store.find (backupName m.table) = none) (once : log.countP Exchange.fails ≤ 1)
    (trace : Trace (Orderly .sqlite) (recreate .sqlite m live diff) s log (ended result) u) :
    LeftByDrop m.table log u := by
  have aside : (change .sqlite (.renameTable m.table (backupName m.table))).Sends
      fun r => r.changes (Change.drops (backupName m.table)) = false := sendsChange fun _ _ => rfl
  rcases endOfBind trace with ⟨_, first, rest, t, rfl, setAside, later⟩ | ⟨e, rfl, setAside⟩
  · have closed : t.saved = none := tidyChange _ _ _ _ _ unsaved setAside
    obtain ⟨old, _, _, written⟩ := changeMade setAside
    have held : t.store.find (backupName m.table) = some (.table old) := by
      rw [written]
      exact Store.findSame rfl _
    refine leftLater (traceSends aside setAside) ?_
    rcases endOfBind later with ⟨outcome, second, third, v, rfl, rebuilding, ending⟩ | ⟨e, _, rebuilding⟩
    · obtain ⟨inner, same, rebuilt⟩ := endOfOutcome rebuilding
      cases same
      have held := rebuildHolds isTable closed held rebuilt
      have closed : v.saved = none := tidyRebuild m live diff _ _ _ _ closed rebuilt
      have spares := traceSends (rebuildSpares rfl isTable live diff) rebuilt
      refine leftLater (fun x member => (sparingDidNot sparingDropsNot (spares x member)).1) ?_
      cases outcome with
      | ok report =>
        obtain ⟨_, dropping, _⟩ := endOfMap ending
        exact dropLeft held dropping
      | error e =>
        -- The one refusal was in the rebuild, so nothing is refused while it is undone.
        have asks : FailsAsked (Orderly .sqlite) (rebuild .sqlite m live diff) := accountsRebuild anyActs m live diff
        have refused : 0 < second.countP Exchange.fails := List.countP_pos_iff.mpr (askedFailure asks rebuilt).1
        have quiet : third.countP Exchange.fails = 0 := by
          simp only [List.countP_append] at once
          omega
        exact undoLeft closed held quiet ending
    · cases (endOfOutcome rebuilding).choose_spec.1
  · have same : u = s := by
      rcases changeTold setAside with ⟨made, _⟩ | ⟨_, same⟩
      · cases made
      · exact same
    exact freeLeft (same ▸ free) fun x member _ => traceSends aside setAside x member

theorem actSpares (isTable : m.source = .table) (f : Finding) :
    (act .sqlite m f).Sends (Request.Spares m.table) ∨
      ∃ live diff, act .sqlite m f = recreate .sqlite m live diff >>= fun report => .done (.recreated report) := by
  match f with
  | .backup => exact .inl trivial
  | .nothing => exact .inl (sendsBind (createSpares rfl isTable) fun _ => trivial)
  | .object (.view v) =>
    exact .inl (sendsBind (sendsChange fun _ _ => trivial) fun _ =>
      sendsBind (createSpares rfl isTable) fun _ => trivial)
  | .object (.table live) =>
    have noView : m.isView = false := by simp [Model.isView, Model.view?, isTable]
    obtain ⟨diff, computed⟩ := differenceComputed (m := m) live
    rw [act, noView, if_neg Bool.false_ne_true, updateTable, computed, sqlReady]
    cases diff.strategy with
    | additive => exact .inl (sendsBind (alterSpares rfl live diff) fun _ => trivial)
    | recreate => exact .inr ⟨live, diff, rfl⟩

theorem updateLeft {result : Except Failure SchemaUpdate} (isTable : m.source = .table) (unsaved : s.saved = none)
    (free : s.store.find (backupName m.table) = none) (once : log.countP Exchange.fails ≤ 1)
    (trace : Trace (Orderly .sqlite) (update .sqlite m) s log (ended result) u) : LeftByDrop m.table log u := by
  have still {t first} {q : Session Finding} (looked : Trace (Orderly .sqlite) (examine .sqlite m) s first q t) :
      t = s ∧ ∀ x ∈ first, x.asked (Change.drops (backupName m.table)) = false := by
    refine ⟨traceKeeps (· = s) (examineLooks .sqlite m) ?_ rfl looked, fun x member =>
      looksDropNot (traceSends (examineLooks .sqlite m) looked x member)⟩
    exact fun _ _ _ _ same looks answer => (answersLook looks answer.answers).trans same
  rw [updateParts] at trace
  rcases endOfBind trace with ⟨f, first, rest, t, rfl, looked, acted⟩ | ⟨e, rfl, looked⟩
  · obtain ⟨rfl, other⟩ := still looked
    refine leftLater other ?_
    rcases actSpares isTable f with spares | ⟨live, diff, same⟩
    · exact sparingLeft spares unsaved free acted
    · rw [same] at acted
      obtain ⟨_, recreating, _⟩ := endOfMap acted
      rw [List.countP_append] at once
      exact recreateLeft isTable unsaved free (Nat.le_trans (Nat.le_add_left _ _) once) recreating
  · obtain ⟨rfl, other⟩ := still looked
    exact freeLeft free fun x member _ => other x member

theorem pendingAgain : (∃ log u, Trace (Orderly .sqlite) (update .sqlite m) s log
      (.fail (.pendingBackup m.table (backupName m.table))) u) ↔ s.store.find (backupName m.table) ≠ none := by
  constructor
  · rintro ⟨log, u, trace⟩
    have told : Trace (Orderly .sqlite) (update .sqlite m) s log
        (ended (.error (.pendingBackup m.table (backupName m.table)))) u := trace
    obtain ⟨_, _, x, rest, rfl, finds⟩ := (pendingFound told _ _).mp rfl
    rcases endOfBind told with ⟨pending, first, later, t, split, asking, _⟩ | ⟨e, _, asking⟩
    · obtain ⟨y, rfl, found⟩ := existsFinds asking
      cases (List.cons.inj split).1
      cases found.mpr finds
      exact (presenceTrue asking).2.mp rfl
    · obtain ⟨y, split, found⟩ := existsFinds asking
      cases (List.cons.inj split).1
      cases found.mpr finds
  · intro held
    obtain ⟨log, asking⟩ := objectExistsTrace (s := s) (backupName m.table)
    rw [Option.isSome_iff_ne_none.mpr held] at asking
    have asking := traceMono (fun _ _ _ _ tells => Tells.orderly tells) asking
    exact ⟨_, s, bindTrace asking (.stop _ _)⟩

/-- If an update is refused just one thing, it fails and no transaction is left open. The backup is left exactly
if it was the dropping of the backup that was refused, and only then can the next update be refused for it. -/
theorem backupLeftByDrop {earlier later : List (Exchange Database)} {x : Exchange Database}
    {result : Except Failure SchemaUpdate} (isTable : m.source = .table) (unsaved : s.saved = none)
    (free : s.store.find (backupName m.table) = none)
    (trace : Trace (Orderly d) (update d m) s (earlier ++ x :: later) (ended result) u)
    (failed : x.failure? ≠ none) (others : ∀ y ∈ earlier ++ later, y.failure? = none) :
    (∃ e, result = .error e) ∧ u.saved = none ∧
      (u.store.find (backupName m.table) = none ↔ x.asked (Change.drops (backupName m.table)) = false) ∧
      ((∃ again v, Trace (Orderly d) (update d m) u again
        (.fail (.pendingBackup m.table (backupName m.table))) v) ↔
        x.asked (Change.drops (backupName m.table)) = true) := by
  cases d with
  | sqlServer =>
    have nothing := (endOfFail trace).1
    simp at nothing
  | sqlite =>
    obtain ⟨c, told⟩ := Option.ne_none_iff_exists'.mp failed
    have quiet (y : Exchange Database) (member : y ∈ earlier ++ later) : y.fails = false := by
      simp [Exchange.fails, others y member]
    have fails : x.fails = true := by simp [Exchange.fails, told]
    have once : (earlier ++ x :: later).countP Exchange.fails ≤ 1 := Nat.le_of_eq (countedOnce fails quiet)
    have left : u.store.find (backupName m.table) ≠ none ↔
        x.asked (Change.drops (backupName m.table)) = true := by
      refine (updateLeft isTable unsaved free once trace).trans ⟨?_, fun asked =>
        ⟨x, List.mem_append_right _ List.mem_cons_self, fails, asked⟩⟩
      rintro ⟨y, member, failing, asked⟩
      rcases List.mem_cons.mp (List.perm_middle.mem_iff.mp member) with rfl | other
      · exact asked
      · rw [quiet y other] at failing
        contradiction
    obtain ⟨e, error, _⟩ := firstFailureTold trace (fun y member => others y (List.mem_append_left _ member)) told
    refine ⟨⟨e, error⟩, tidyUpdate .sqlite m _ _ _ _ unsaved trace, ?_, pendingAgain.trans left⟩
    rw [← not_iff_not, Bool.not_eq_false]
    exact left

end Update

end Session

def errandLive : Table :=
  ⟨"errand", [Column.introspected "goal" "TEXT", Column.introspected "due" "INTEGER"], [], []⟩

def errandTable : StoredTable :=
  { columns := errandLive.columns
    uniques := []
    rows := [fun name => if name = "goal" then .text "bread" else .int 3] }

def errandStore : Store := Store.put (fun _ => none) "errand" errandTable

def errandSetAside : Store := (errandStore.remove "errand").put "errand_original" errandTable

def errandFresh : StoredTable := { columns := errandModel.columns, uniques := [] }

def errandCreated : Store := errandSetAside.put "errand" errandFresh

def errandCopied : Store := errandCreated.put "errand" { errandFresh with rows := [fun _ => .text "bread"] }

def errandBack : Store :=
  ((errandCreated.remove "errand").remove "errand_original").put "errand" errandTable

def errandPlan : CopyPlan := ⟨"errand_original", "errand", [("goal", .column)]⟩

def errandLooks : List (Request × Reply × Database) :=
  [(CatalogQuery.request .sqlite (.presence "errand_original"), .answered [] 0, ⟨errandStore, none⟩),
    (CatalogQuery.request .sqlite (.presence "errand"), .answered [[.text "errand"]] 0, ⟨errandStore, none⟩),
    (CatalogQuery.request .sqlite (.entry "errand"), .answered [[.text "table", .text "errand",
      .text "CREATE TABLE errand ([goal] TEXT,[due] INTEGER)"]] 0, ⟨errandStore, none⟩),
    (CatalogQuery.request .sqlite (.indices "errand"), .answered [] 0, ⟨errandStore, none⟩)]

def errandOpened : List (Request × Reply × Database) :=
  [(Change.request .sqlite (.renameTable "errand" "errand_original"), .answered [] 0, ⟨errandSetAside, none⟩),
    (Change.request .sqlite (.ofModel errandModel), .answered [] 0, ⟨errandCreated, none⟩),
    (.transaction .start, .answered [] 0, ⟨errandCreated, some errandCreated⟩)]

def errandUncopied : Request × Reply × Database :=
  (CopyPlan.request .sqlite errandPlan, .failed "disk full", ⟨errandCreated, some errandCreated⟩)

def errandUndone : List (Request × Reply × Database) :=
  [(.transaction .rollback, .answered [] 0, ⟨errandCreated, none⟩),
    (CatalogQuery.request .sqlite (.presence "errand_original"), .answered [[.text "errand_original"]] 0,
      ⟨errandCreated, none⟩),
    (CatalogQuery.request .sqlite (.presence "errand"), .answered [[.text "errand"]] 0, ⟨errandCreated, none⟩),
    (Change.request .sqlite (.dropTable "errand"), .answered [] 0, ⟨errandCreated.remove "errand", none⟩),
    (Change.request .sqlite (.renameTable "errand_original" "errand"), .answered [] 0, ⟨errandBack, none⟩)]

def errandFilled : List (Request × Reply × Database) :=
  [(CopyPlan.request .sqlite errandPlan, .answered [] 1, ⟨errandCopied, some errandCreated⟩),
    (.transaction .commit, .answered [] 0, ⟨errandCopied, none⟩)]

def errandUndropped : Request × Reply × Database :=
  (Change.request .sqlite (.dropTable "errand_original"), .failed "table is locked", ⟨errandCopied, none⟩)

theorem errandAnswered : Session.Answered (Orderly .sqlite) ⟨errandStore, none⟩ errandLooks ∧
    Session.Answered (Orderly .sqlite) ⟨errandStore, none⟩
      (errandLooks ++ errandOpened ++ errandUncopied :: errandUndone) ∧
    Session.Answered (Orderly .sqlite) ⟨errandStore, none⟩
      (errandLooks ++ errandOpened ++ errandFilled ++ [errandUndropped]) := by
  have absent : Orderly .sqlite ⟨errandStore, none⟩ (CatalogQuery.request .sqlite (.presence "errand_original"))
      (.answered [] 0) ⟨errandStore, none⟩ := ⟨.effect ⟨rfl, by decide⟩, nofun⟩
  have present : Orderly .sqlite ⟨errandStore, none⟩ (CatalogQuery.request .sqlite (.presence "errand"))
      (.answered [[.text "errand"]] 0) ⟨errandStore, none⟩ := ⟨.effect ⟨rfl, by decide⟩, nofun⟩
  have renamed : (Change.renameTable "errand" "errand_original").Effect .sqlite errandStore errandSetAside :=
    ⟨errandTable, rfl, rfl, rfl⟩
  have copied : errandPlan.Effect errandCreated errandCopied := by
    refine ⟨errandTable, errandFresh, _, rfl, rfl, .cons ?_ .nil, rfl⟩
    decide
  refine ⟨⟨absent, present, ⟨.effect rfl, nofun⟩, ⟨.effect rfl, nofun⟩, trivial⟩,
    ⟨absent, present, ⟨.effect rfl, nofun⟩, ⟨.effect rfl, nofun⟩, ⟨.effect renamed, nofun⟩,
      ⟨.effect ⟨rfl, rfl⟩, nofun⟩, ⟨.start rfl, nofun⟩, ⟨.refused, nofun⟩, ⟨.rollback, nofun⟩,
      ⟨.effect ⟨rfl, by decide⟩, nofun⟩, ⟨.effect ⟨rfl, by decide⟩, nofun⟩, ⟨.effect ⟨nofun, rfl⟩, nofun⟩,
      ⟨.effect ⟨errandTable, rfl, rfl, rfl⟩, nofun⟩, trivial⟩,
    ⟨absent, present, ⟨.effect rfl, nofun⟩, ⟨.effect rfl, nofun⟩, ⟨.effect renamed, nofun⟩,
      ⟨.effect ⟨rfl, rfl⟩, nofun⟩, ⟨.start rfl, nofun⟩, ⟨.effect copied, nofun⟩, ⟨.commit, nofun⟩,
      ⟨.refused, nofun⟩, trivial⟩⟩

def beforeCopy : List (Exchange Database) := Exchange.chain ⟨errandStore, none⟩ (errandLooks ++ errandOpened)

def copyRefused : Exchange Database :=
  ⟨⟨errandCreated, some errandCreated⟩, errandUncopied.1, errandUncopied.2.1, ⟨errandCreated, some errandCreated⟩⟩

def afterCopy : List (Exchange Database) := Exchange.chain ⟨errandCreated, some errandCreated⟩ errandUndone

theorem errandNotLeft : ∃ log u,
    Session.Trace (Orderly .sqlite) (Session.update .sqlite errandModel) ⟨errandStore, none⟩ log
      (.fail errandCopyFailure) u ∧ u.store.find "errand_original" = none ∧
    ¬ ∃ again v, Session.Trace (Orderly .sqlite) (Session.update .sqlite errandModel) u again
      (.fail (.pendingBackup "errand" "errand_original")) v := by
  have trace := Session.followedTrace (p := Session.update .sqlite errandModel) (by rfl) errandAnswered.2.1
  have failed : (Session.update .sqlite errandModel).followed
      (errandLooks ++ errandOpened ++ errandUncopied :: errandUndone) =
        Session.ended (.error errandCopyFailure) := by rfl
  rw [failed] at trace
  have split : Exchange.chain ⟨errandStore, none⟩ (errandLooks ++ errandOpened ++ errandUncopied :: errandUndone) =
      beforeCopy ++ copyRefused :: afterCopy := rfl
  rw [split] at trace
  have others : ∀ y ∈ beforeCopy ++ afterCopy, y.failure? = none := by decide
  obtain ⟨_, _, free, again⟩ := Session.backupLeftByDrop rfl rfl rfl trace nofun others
  have noDrop : copyRefused.asked (Change.drops (backupName errandModel.table)) = false := rfl
  refine ⟨_, _, trace, free.mpr noDrop, fun retry => ?_⟩
  cases noDrop.symm.trans (again.mp retry)

def errandLooked : List (Exchange Database) := Exchange.chain ⟨errandStore, none⟩ errandLooks

def beforeDrop : List (Exchange Database) := Exchange.chain ⟨errandStore, none⟩ (errandOpened ++ errandFilled)

def dropRefused : Exchange Database :=
  ⟨⟨errandCopied, none⟩, errandUndropped.1, errandUndropped.2.1, ⟨errandCopied, none⟩⟩

theorem backupMayBeLeft : ¬ ∀ (m : Model) (live : Table) (diff : TableDiff) (s u : Database)
    (first earlier later : List (Exchange Database)) (x : Exchange Database) (e : Failure),
    m.source = .table → TableDiff.compute .sqlite m live = .ok diff → diff.strategy = .recreate →
    s.saved = none → s.store.find (backupName m.table) = none →
    Session.Trace (Orderly .sqlite) (Session.examine .sqlite m) s first (.done (.object (.table live))) s →
    Session.Trace (Orderly .sqlite) (Session.update .sqlite m) s (first ++ earlier ++ x :: later) (.fail e) u →
    x.failure? ≠ none → (∀ y ∈ first ++ earlier ++ later, y.failure? = none) →
    u.store.find (backupName m.table) = none := by
  intro neverLeft
  have looked := Session.followedTrace (p := Session.examine .sqlite errandModel) (by rfl) errandAnswered.1
  have found : (Session.examine .sqlite errandModel).followed errandLooks = .done (.object (.table errandLive)) := by
    rfl
  rw [found] at looked
  have trace := Session.followedTrace (p := Session.update .sqlite errandModel) (by rfl) errandAnswered.2.2
  have failed : (Session.update .sqlite errandModel).followed
      (errandLooks ++ errandOpened ++ errandFilled ++ [errandUndropped]) =
        .fail (.execution "DROP TABLE errand_original" "table is locked") := by rfl
  rw [failed] at trace
  have computed : TableDiff.compute .sqlite errandModel errandLive = .ok ⟨[], [], ["due"], true, true⟩ := by rfl
  have split : Exchange.chain ⟨errandStore, none⟩ (errandLooks ++ errandOpened ++ errandFilled ++ [errandUndropped]) =
      errandLooked ++ beforeDrop ++ dropRefused :: [] := rfl
  rw [split] at trace
  have others : ∀ y ∈ errandLooked ++ beforeDrop ++ [], y.failure? = none := by decide
  have free := neverLeft _ _ _ _ _ _ _ _ _ _ rfl computed rfl rfl rfl looked trace nofun others
  have left : errandCopied.find "errand_original" = some (.table errandTable) := rfl
  cases left.symm.trans free

end LiveSchema
