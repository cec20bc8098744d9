import LiveSchema.Proofs.Requests
import LiveSchema.Proofs.Runs
/-! What must hold while the rows of a table are under its backup name only. The table that was set aside
is remembered with the call that did so until it is released, and every exchange has to leave it as it
was. Requests that neither drop nor rename a table and name no other one do so in every state. -/
namespace LiveSchema

namespace Action

def setsAside (t : String) (a : Action) : Bool := a.exchange.did (Change.renames t (backupName t))

def releases (t : String) (call : Nat) (a : Action) : Bool :=
  a.exchange.did (Change.renames (backupName t) t) ||
    a.exchange.did (Change.drops (backupName t)) && a.call = call

end Action

def Store.Holds (s : Store) (name : String) (t : StoredTable) : Prop :=
  ∃ indices, s.table? name = some { t with indices }

structure Held where
  call : Nat
  table : StoredTable

def held (t : String) : Option Held → Action → Option Held
  | some h, a => if a.releases t h.call then none else some h
  | none, a =>
    if a.setsAside t then (a.exchange.before.store.table? t).map (Held.mk a.call) else none

def Guarded (t : String) (s : Database) (h : Option Held) : Prop :=
  ∀ k ∈ h, s.store.Holds (backupName t) k.table ∧
    ∀ saved ∈ s.saved, saved.Holds (backupName t) k.table

structure Careful (t : String) (h : Option Held) (a : Action) : Prop where
  dropsWithBackup : a.exchange.asked (Change.drops t) = true →
    a.exchange.before.store.find (backupName t) ≠ none
  setsAsideOnce : a.setsAside t = true → h = none ∧ ∃ old, a.exchange.before.store.table? t = some old
  guardedBefore : Guarded t a.exchange.before h
  guardedAfter : Guarded t a.exchange.after (held t h a)

def guard (d : Dialect) (t : String) (n : Nat) : Observer Database (Option Held) where
  world := Answers d
  note h x := held t h ⟨n, x⟩
  allows h x := Careful t h ⟨n, x⟩

section Holds
variable {s : Store} {t name : String} {old : StoredTable}

theorem holdsOfSetOther (same : nameKey name = nameKey t) {object}
    (holds : s.Holds (backupName t) old) : (s.set name object).Holds (backupName t) old := by
  obtain ⟨indices, found⟩ := holds
  have differs : nameKey (backupName t) ≠ nameKey name := same ▸ backupKeyDiffers t
  refine ⟨indices, Store.tableOfFind ?_⟩
  rw [Store.findOther differs]
  exact Store.tableFound found

theorem holdsWithoutIndex (index : String) (holds : s.Holds name old) :
    (s.withoutIndex index).Holds name old := by
  obtain ⟨indices, found⟩ := holds
  refine ⟨indices.filter (nameKey ·.name ≠ nameKey index), Store.tableOfFind ?_⟩
  have here : s (nameKey name) = _ := Store.tableFound found
  simp only [Store.find, Store.withoutIndex, here, Option.map_some, Store.dropIndex]

theorem holdsWithoutView {view query : String} (isView : s.find view = some (.view query))
    (holds : s.Holds name old) : (s.remove view).Holds name old := by
  obtain ⟨indices, found⟩ := holds
  have here := Store.tableFound found
  have differs : nameKey name ≠ nameKey view := by
    intro same
    simp only [Store.find, same] at here isView
    rw [isView] at here
    cases here
  exact ⟨indices, Store.tableOfFind ((Store.findOther differs none).trans here)⟩

end Holds

def Change.Spares (t : String) : Change → Prop
  | .createTable table _ _ | .addColumn table _ | .addUnique table _ | .createIndex table _ =>
    nameKey table = nameKey t
  | .dropIndex _ _ | .dropIndexIfExists _ _ | .dropView _ => True
  | .dropTable _ | .renameTable _ _ => False

def Request.Spares (t : String) : Request → Prop
  | .statement (.catalog _) _ _ | .transaction _ => True
  | .statement (.change c) _ _ => c.Spares t
  | .statement (.copy p) _ _ => nameKey p.target = nameKey t
  | .statement .command _ _ => False

theorem sparingHolds {d : Dialect} {t : String} {c : Change} {s s' : Store} {old : StoredTable}
    (spares : c.Spares t) (effect : c.Effect d s s') (holds : s.Holds (backupName t) old) :
    s'.Holds (backupName t) old := by
  cases c with
  | createTable table columns uniques =>
    obtain ⟨_, rfl⟩ := effect
    exact holdsOfSetOther spares holds
  | dropTable table => exact spares.elim
  | renameTable source target => exact spares.elim
  | addColumn table column =>
    obtain ⟨_, _, _, _, rfl⟩ := effect
    exact holdsOfSetOther spares holds
  | addUnique table group =>
    obtain ⟨_, _, rfl⟩ := effect
    exact holdsOfSetOther spares holds
  | createIndex table group =>
    obtain ⟨_, _, _, rfl⟩ := effect
    exact holdsOfSetOther spares holds
  | dropIndex table group =>
    obtain ⟨_, rfl⟩ := effect
    exact holdsWithoutIndex _ holds
  | dropIndexIfExists table group =>
    cases effect
    exact holdsWithoutIndex _ holds
  | dropView view =>
    obtain ⟨⟨query, isView⟩, rfl⟩ := effect
    exact holdsWithoutView isView holds

theorem sparingDropsNot {t table : String} (c : Change) (spares : c.Spares t) :
    c.drops table = false := by
  cases c <;> first | rfl | exact spares.elim

theorem sparingRenamesNot {t source target : String} (c : Change) (spares : c.Spares t) :
    c.renames source target = false := by
  cases c <;> first | rfl | exact spares.elim

theorem sparingDidNot {t : String} {kind : Change → Bool} {x : Exchange Database}
    (other : ∀ c : Change, c.Spares t → kind c = false) (spares : x.request.Spares t) :
    x.asked kind = false ∧ x.did kind = false := by
  obtain ⟨before, request, reply, after⟩ := x
  simp only [Exchange.asked, Exchange.did, Request.changes, Reply.succeeded]
  cases request with
  | transaction step => cases reply <;> exact ⟨rfl, rfl⟩
  | statement purpose sql arguments =>
    cases purpose with
    | change c => cases reply <;> simp [other c spares]
    | _ => cases reply <;> exact ⟨rfl, rfl⟩

section Sparing
variable {d : Dialect} {t table : String} {m : Model} (same : nameKey table = nameKey t)
  (named : nameKey m.table = nameKey t)

include same in
theorem rebuildIndicesSpare (groups : List ColumnGroup) :
    ∀ c ∈ groups.flatMap (Change.rebuildIndex table), c.Spares t :=
  Change.rebuiltEach fun _ _ => ⟨trivial, same⟩

include named in
theorem creationSpares : ∀ c ∈ Session.creation m, c.Spares t := by
  intro c member
  rcases List.mem_cons.mp member with rfl | index
  · exact named
  · exact rebuildIndicesSpare named _ c index

include named in
theorem additiveSpares (diff : TableDiff) (live : Table) :
    ∀ c ∈ diff.additiveChanges m live, c.Spares t :=
  diff.additiveEach (fun _ => named) (fun _ _ _ => named) (fun _ _ => trivial) fun _ _ => ⟨trivial, named⟩

namespace Session

theorem changesSpare {cs : List Change} (spares : ∀ c ∈ cs, c.Spares t) :
    (changes d cs).Sends (Request.Spares t) :=
  sendsChanges fun c member _ _ => spares c member

include named in
theorem createSpares (isTable : m.source = .table) : (create d m).Sends (Request.Spares t) :=
  sendsCreate isTable fun c member _ _ => creationSpares named c member

include named in
theorem rebuildSpares (isTable : m.source = .table) (live : Table) (diff : TableDiff) :
    (rebuild d m live diff).Sends (Request.Spares t) := by
  refine sendsBind (createSpares named isTable) fun _ => sendsBind ?_ fun _ => trivial
  exact sendsCopyRows (fun _ => trivial) fun _ _ => named

include named in
theorem alterSpares (live : Table) (diff : TableDiff) :
    (alterInPlace d m live diff).Sends (Request.Spares t) := by
  refine sendsBind (sendsTransaction (fun _ => trivial) ?_) fun _ => trivial
  exact changesSpare (additiveSpares named diff live)

end Session

end Sparing

section Guard
variable {d : Dialect} {t : String} {n : Nat} {s s' : Database} {h : Option Held}

theorem guardedNothing : Guarded t s none := by
  intro k held
  cases held

theorem guardedRolledBack (guarded : Guarded t s h) : Guarded t s.rolledBack h := by
  intro k held
  obtain ⟨shown, saved⟩ := guarded k held
  refine ⟨?_, fun other none => by cases none⟩
  cases earlier : s.saved with
  | none => simpa [Database.rolledBack, earlier] using shown
  | some store => simpa [Database.rolledBack, earlier] using saved store earlier

theorem guardedCommitted (guarded : Guarded t s h) : Guarded t ⟨s.store, none⟩ h :=
  fun k held => ⟨(guarded k held).1, fun _ none => by cases none⟩

theorem guardedStarted (guarded : Guarded t s h) : Guarded t ⟨s.store, some s.store⟩ h :=
  fun k held => ⟨(guarded k held).1, fun _ same => Option.some.inj same ▸ (guarded k held).1⟩

theorem guardedEffect {store : Store} (guarded : Guarded t s h)
    (kept : ∀ old, s.store.Holds (backupName t) old → store.Holds (backupName t) old) :
    Guarded t ⟨store, s.saved⟩ h :=
  fun k held => ⟨kept _ (guarded k held).1, (guarded k held).2⟩

theorem sparingGuarded {r : Request} {reply : Reply} (spares : r.Spares t)
    (answer : Answers d s r reply s') (guarded : Guarded t s h) : Guarded t s' h := by
  cases answer with
  | refused => exact guarded
  | abandoned => exact guardedRolledBack guarded
  | start => exact guardedStarted guarded
  | commit => exact guardedCommitted guarded
  | rollback => exact guardedRolledBack guarded
  | @effect _ purpose _ _ _ _ store effect =>
    refine guardedEffect guarded fun old holds => ?_
    cases purpose with
    | catalog q =>
      have same : store = s.store := by
        cases q with
        | presence name => exact effect.1
        | _ => exact effect
      exact same ▸ holds
    | change c => exact sparingHolds spares effect holds
    | copy p =>
      obtain ⟨_, _, _, _, _, _, rfl⟩ := effect
      exact holdsOfSetOther spares holds
    | command => exact spares.elim

theorem sparingHeld {x : Exchange Database} (spares : x.request.Spares t) : held t h ⟨n, x⟩ = h := by
  have drops : x.did (Change.drops (backupName t)) = false := (sparingDidNot sparingDropsNot spares).2
  have renames (source target : String) : x.did (Change.renames source target) = false :=
    (sparingDidNot sparingRenamesNot spares).2
  cases h <;> simp [held, Action.releases, Action.setsAside, drops, renames]

theorem sparingCareful {x : Exchange Database} (spares : x.request.Spares t)
    (answer : Answers d x.before x.request x.reply x.after) (guarded : Guarded t x.before h) :
    Careful t h ⟨n, x⟩ where
  dropsWithBackup asked := by
    rw [(sparingDidNot sparingDropsNot spares).1] at asked
    contradiction
  setsAsideOnce did := by
    rw [Action.setsAside, (sparingDidNot sparingRenamesNot spares).2] at did
    contradiction
  guardedBefore := guarded
  guardedAfter := by
    rw [sparingHeld spares]
    exact sparingGuarded spares answer guarded

end Guard

end LiveSchema
