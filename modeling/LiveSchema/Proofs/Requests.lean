import LiveSchema.Proofs.Observation
import LiveSchema.Reconcile.Update
/-! The requests a session can make, whatever is replied. A bound on them is found by the shape of the
session alone; with an invariant that every such request keeps it says how the session behaves. -/
namespace LiveSchema.Session

variable {α β σ γ : Type}

def Sends (allowed : Request → Prop) : Session α → Prop
  | .done _ | .fail _ => True
  | .ask request next => allowed request ∧ ∀ reply, (next reply).Sends allowed

theorem obeysOfSends {o : Observer σ γ} {allowed : Request → Prop} {invariant : σ → γ → Prop}
    {p : Session α} {s notes} (sends : p.Sends allowed)
    (kept : ∀ s n request reply t, invariant s n → allowed request → o.world s request reply t →
      o.allows n ⟨s, request, reply, t⟩ ∧ invariant t (o.note n ⟨s, request, reply, t⟩))
    (start : invariant s notes) : p.Obeys o (fun _ => invariant) s notes := by
  induction p generalizing s notes with
  | done a => exact start
  | fail e => exact start
  | ask request next ih =>
    intro reply t answer
    have here := kept s notes request reply t start sends.1 answer
    exact ⟨here.1, ih reply (sends.2 reply) here.2⟩

variable {allowed : Request → Prop}

theorem sendsMono {weaker : Request → Prop} {p : Session α} (sends : p.Sends allowed)
    (implies : ∀ r, allowed r → weaker r) : p.Sends weaker := by
  induction p with
  | done a => trivial
  | fail e => trivial
  | ask request next ih => exact ⟨implies _ sends.1, fun reply => ih reply (sends.2 reply)⟩

theorem sendsBind {p : Session α} {f : α → Session β} (first : p.Sends allowed)
    (next : ∀ a, (f a).Sends allowed) : (p >>= f).Sends allowed := by
  induction p with
  | done a => exact next a
  | fail e => trivial
  | ask request rest ih => exact ⟨first.1, fun reply => ih reply (first.2 reply)⟩

theorem sendsAfter {p : Session α} {f : α → Session β} {g : β → Session γ} (first : p.Sends allowed)
    (next : ∀ a, (f a >>= g).Sends allowed) : (p >>= f >>= g).Sends allowed := by
  induction p with
  | done a => exact next a
  | fail e => trivial
  | ask request rest ih => exact ⟨first.1, fun reply => ih reply (first.2 reply)⟩

theorem sendsOutcome {p : Session α} (inner : p.Sends allowed) : p.outcome.Sends allowed := by
  induction p with
  | done a => trivial
  | fail e => trivial
  | ask request rest ih => exact ⟨inner.1, fun reply => ih reply (inner.2 reply)⟩

theorem sendsOfExcept {ε : Type} {cause : ε → Failure} {x : Except ε α} :
    (ofExcept cause x).Sends allowed := by
  cases x <;> trivial

theorem sendsExcept {ε : Type} {cause : ε → Failure} {x : Except ε α} {f : α → Session β}
    (next : ∀ a, x = .ok a → (f a).Sends allowed) :
    (ofExcept cause x >>= f).Sends allowed := by
  cases x with
  | ok a => exact next a rfl
  | error e => trivial

theorem sendsSend {purpose sql arguments} (here : allowed (.statement purpose sql arguments)) :
    (send purpose sql arguments).Sends allowed := by
  refine ⟨here, ?_⟩
  intro reply
  cases reply <;> trivial

theorem sendsStep {step : TransactionStep} (here : allowed (.transaction step)) :
    (transactionStep step).Sends allowed := by
  refine ⟨here, ?_⟩
  intro reply
  cases reply <;> trivial

theorem sendsTransaction {body : Session α} (steps : ∀ step, allowed (.transaction step))
    (inner : body.Sends allowed) : (inTransaction body).Sends allowed := by
  apply sendsBind (sendsStep (steps .start))
  intro _
  apply sendsBind (sendsOutcome inner)
  intro result
  cases result with
  | ok a => exact sendsBind (sendsStep (steps .commit)) fun _ => trivial
  | error e => exact sendsBind (sendsStep (steps .rollback)) fun _ => trivial

theorem sendsChange {d : Dialect} {c : Change}
    (here : ∀ sql, c.sql d = .ok sql → allowed (.statement (.change c) sql [])) :
    (change d c).Sends allowed :=
  sendsExcept fun sql text => sendsBind (sendsSend (here sql text)) fun _ => trivial

theorem sendsChanges {d : Dialect} {cs : List Change}
    (each : ∀ c ∈ cs, ∀ sql, c.sql d = .ok sql → allowed (.statement (.change c) sql [])) :
    (changes d cs).Sends allowed := by
  induction cs with
  | nil => trivial
  | cons c rest ih =>
    have first := sendsChange (each c List.mem_cons_self)
    exact sendsBind first fun _ => ih fun c' member => each c' (List.mem_cons_of_mem c member)

section Catalog

variable (catalog : ∀ q sql, allowed (.statement (.catalog q) sql q.arguments))
include catalog

theorem sendsAskCatalog {d : Dialect} {q : CatalogQuery} {choose : List Row → List Row}
    {decode : Row → Option α} : (askCatalog d q choose decode).Sends allowed := by
  refine sendsExcept fun sql _ => sendsBind (sendsSend (catalog q sql)) fun answer => ?_
  obtain ⟨rows, affected⟩ := answer
  dsimp only
  split <;> trivial

theorem sendsObjectExists (d : Dialect) (name : String) : (objectExists d name).Sends allowed :=
  sendsBind (sendsAskCatalog catalog) fun _ => trivial

theorem sendsSchemaOf (d : Dialect) (kind name sql : String) :
    (schemaOf d kind name sql).Sends allowed := by
  unfold schemaOf
  split
  · refine sendsExcept fun t _ => sendsBind ?_ fun _ => trivial
    exact sendsBind (sendsAskCatalog catalog) fun _ => sendsOfExcept
  · split <;> trivial

theorem sendsReadSchema (d : Dialect) (name : String) : (readSchema d name).Sends allowed := by
  refine sendsBind (sendsAskCatalog catalog) fun entries => ?_
  cases entries with
  | nil => trivial
  | cons entry _ =>
    cases stored : entry.sql with
    | none => simp only [stored]; trivial
    | some sql => simp only [stored]; exact sendsSchemaOf catalog d _ _ _

end Catalog

def creation (m : Model) : List Change :=
  .ofModel m :: m.indices.flatMap (Change.rebuildIndex m.table)

theorem sendsCreate {d : Dialect} {m : Model} (isTable : m.source = .table)
    (each : ∀ c ∈ creation m, ∀ sql, c.sql d = .ok sql → allowed (.statement (.change c) sql [])) :
    (create d m).Sends allowed := by
  have all : (changes d (creation m)).Sends allowed := sendsChanges each
  unfold create
  rw [isTable]
  exact all

theorem sendsCreateAny {d : Dialect} {m : Model} (commands : ∀ query, allowed (.statement .command query []))
    (each : ∀ c ∈ creation m, ∀ sql, c.sql d = .ok sql → allowed (.statement (.change c) sql [])) :
    (create d m).Sends allowed := by
  cases source : m.source with
  | table => exact sendsCreate source each
  | view query =>
    unfold create
    rw [source]
    exact sendsBind (sendsSend (commands query)) fun _ => trivial

theorem sendsCopyRows {d : Dialect} {plan : CopyPlan}
    (steps : ∀ step, allowed (.transaction step))
    (copy : ∀ sql, plan.sql d = .ok sql → allowed (.statement (.copy plan) sql [])) :
    (copyRows d plan).Sends allowed := by
  unfold copyRows
  split
  · trivial
  · refine sendsExcept fun sql text => ?_
    exact sendsBind (sendsTransaction steps (sendsSend (copy sql text))) fun _ => trivial

theorem sendsRestore {d : Dialect} {table : String}
    (catalog : ∀ q sql, allowed (.statement (.catalog q) sql q.arguments))
    (drop : ∀ sql, allowed (.statement (.change (.dropTable table)) sql []))
    (rename : ∀ sql, allowed (.statement (.change (.renameTable (backupName table) table)) sql [])) :
    (restoreBackup d table).Sends allowed := by
  unfold restoreBackup existingBackup
  refine sendsAfter (sendsObjectExists catalog d _) fun present => ?_
  cases present with
  | false => trivial
  | true =>
    have dropping (occupied : Bool) : (changes d (if occupied then [.dropTable table] else [])).Sends allowed := by
      refine sendsChanges fun c member sql _ => ?_
      cases occupied with
      | false => cases member
      | true =>
        cases List.mem_singleton.mp member
        exact drop sql
    have restoring : (objectExists d table >>= fun occupied =>
        changes d (if occupied then [.dropTable table] else []) >>= fun _ =>
          change d (.renameTable (backupName table) table)).Sends allowed :=
      sendsBind (sendsObjectExists catalog d table) fun occupied =>
        sendsBind (dropping occupied) fun _ => sendsChange fun sql _ => rename sql
    exact restoring

theorem sendsRecreate {d : Dialect} {m : Model} {live : Table} {diff : TableDiff}
    (aside : ∀ sql, allowed (.statement (.change (.renameTable m.table (backupName m.table))) sql []))
    (rebuilding : (rebuild d m live diff).Sends allowed)
    (drop : ∀ sql, allowed (.statement (.change (.dropTable (backupName m.table))) sql []))
    (undoing : (undoRebuild d m.table live).Sends allowed) : (recreate d m live diff).Sends allowed := by
  refine sendsBind (sendsChange fun sql _ => aside sql) fun _ => sendsBind (sendsOutcome rebuilding) fun result => ?_
  cases result with
  | ok report => exact sendsBind (sendsChange fun sql _ => drop sql) fun _ => trivial
  | error e => exact sendsBind (sendsOutcome undoing) fun _ => trivial

end LiveSchema.Session

namespace LiveSchema

theorem Change.rebuiltEach {p : Change → Prop} {table : String} {groups : List ColumnGroup}
    (each : ∀ g ∈ groups, p (.dropIndexIfExists table g.name) ∧ p (.createIndex table g)) :
    ∀ c ∈ groups.flatMap (Change.rebuildIndex table), p c := by
  intro c member
  obtain ⟨g, inside, rebuilt⟩ := List.mem_flatMap.mp member
  simp only [rebuildIndex, List.mem_cons, List.not_mem_nil, or_false] at rebuilt
  rcases rebuilt with rfl | rfl
  · exact (each g inside).1
  · exact (each g inside).2

theorem TableDiff.additiveEach {p : Change → Prop} {m : Model} {live : Table} (diff : TableDiff)
    (columns : ∀ c, p (.addColumn m.table c))
    (uniques : ∀ g ∈ m.uniques, lacksUnique live g = true → p (.addUnique m.table g))
    (dropped : ∀ i ∈ live.indices, p (.dropIndex m.table i.name))
    (rebuilt : ∀ g ∈ m.indices, p (.dropIndexIfExists m.table g.name) ∧ p (.createIndex m.table g)) :
    ∀ c ∈ diff.additiveChanges m live, p c := by
  simp only [additiveChanges, List.mem_append]
  intro c member
  rcases member with ((column | unique) | index) | created
  · obtain ⟨_, _, rfl⟩ := List.mem_map.mp column
    exact columns _
  · obtain ⟨g, lacking, rfl⟩ := List.mem_map.mp unique
    exact uniques g (List.mem_filter.mp lacking).1 (List.mem_filter.mp lacking).2
  · obtain ⟨i, inside, rfl⟩ := List.mem_map.mp index
    exact dropped i (List.mem_filter.mp inside).1
  · exact Change.rebuiltEach (fun g inside => rebuilt g (List.mem_filter.mp inside).1) c created

def CatalogQuery.request (d : Dialect) (q : CatalogQuery) : Request :=
  .statement (.catalog q) ((q.sql d).toOption.getD "") q.arguments

def Change.request (d : Dialect) (c : Change) : Request :=
  .statement (.change c) ((c.sql d).toOption.getD "") []

def CopyPlan.request (d : Dialect) (p : CopyPlan) : Request :=
  .statement (.copy p) ((p.sql d).toOption.getD "") []

end LiveSchema
