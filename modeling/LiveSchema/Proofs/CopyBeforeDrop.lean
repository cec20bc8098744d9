import LiveSchema.Proofs.BackupGuard
/-! The backup that an update makes is dropped only after its rows were copied. Whoever answers, and
whatever is answered, the exchanges before the drop show the table that was read and the committed copy
of its rows, unless the model has no column to copy into. -/
namespace LiveSchema

variable {σ α : Type}

def CopyCommitted (d : Dialect) (plan : CopyPlan) (log : List (Exchange σ)) : Prop :=
  ∃ earlier start copy commit later sql, log = earlier ++ start :: copy :: commit :: later ∧
    plan.sql d = .ok sql ∧ start.Done (.transaction .start) ∧
    copy.Done (.statement (.copy plan) sql []) ∧ commit.Done (.transaction .commit)

def NothingToCopy (m : Model) (live : Table) : Prop :=
  ∀ c ∈ m.columns, live.column? c.name = none ∧ c.requiresFill = false

theorem nothingToCopyIff {d : Dialect} {m : Model} {live : Table} :
    (CopyPlan.ofModel d m live).columns = [] ↔ NothingToCopy m live := by
  simp only [CopyPlan.ofModel, List.filterMap_eq_nil_iff, Option.map_eq_none_iff, NothingToCopy]
  refine forall₂_congr fun c _ => ?_
  unfold CopyPlan.sourceOf?
  cases live.column? c.name <;> simp

theorem copyCommittedLater {d : Dialect} {plan : CopyPlan} {log : List (Exchange σ)}
    (before : List (Exchange σ)) (committed : CopyCommitted d plan log) :
    CopyCommitted d plan (before ++ log) := by
  obtain ⟨earlier, start, copy, commit, later, sql, rfl, rest⟩ := committed
  exact ⟨before ++ earlier, start, copy, commit, later, sql, by simp, rest⟩

def HasRead (world : World σ) (d : Dialect) (m : Model) (live : Table) (log : List (Exchange σ)) :
    Prop :=
  ∃ before reading s t, log = before ++ reading ∧
    Session.Trace world (Session.readSchema d m.table) s reading (.done (.table live)) t

def HasCopied (world : World σ) (d : Dialect) (m : Model) (log : List (Exchange σ)) : Prop :=
  ∃ live earlier later, log = earlier ++ later ∧ HasRead world d m live earlier ∧
    (CopyCommitted d (CopyPlan.ofModel d m live) later ∨ NothingToCopy m live)

namespace Session
variable {world : World σ} {d : Dialect} {m : Model} {s u : σ} {log notes : List (Exchange σ)}

theorem copyRowsTrace {plan : CopyPlan} {copied : Nat}
    (trace : Trace world (copyRows d plan) s log (.done copied) u) :
    plan.columns = [] ∨ CopyCommitted d plan log := by
  unfold copyRows at trace
  split at trace
  · rename_i empty
    exact .inl (List.isEmpty_iff.mp empty)
  · cases text : plan.sql d with
    | error e =>
      rw [text] at trace
      exact (traceOfFail trace).elim
    | ok sql =>
      rw [text] at trace
      obtain ⟨_, transaction, rest, _, rfl, inner, _⟩ := traceOfBind (p := inTransaction _) trace
      obtain ⟨start, _, commit, _, _, rfl, started, sending, committed⟩ := traceOfTransaction inner
      obtain ⟨copy, rfl, copied⟩ := traceOfSend sending
      exact .inr ⟨[], start, copy, commit, rest, sql, rfl, text, started, copied, committed⟩

theorem rebuildTrace {live : Table} {diff : TableDiff} {report : RecreateReport}
    (trace : Trace world (rebuild d m live diff) s log (.done report) u) :
    CopyCommitted d (CopyPlan.ofModel d m live) log ∨ NothingToCopy m live := by
  obtain ⟨_, created, rest, _, rfl, _, later⟩ := traceOfBind trace
  obtain ⟨_, copying, last, _, rfl, copy, ending⟩ := traceOfBind later
  cases ending
  rw [List.append_nil]
  rcases copyRowsTrace copy with nothing | committed
  · exact .inr (nothingToCopyIff.mp nothing)
  · exact .inl (copyCommittedLater created committed)

def recorder (world : World σ) (d : Dialect) (m : Model) : Observer σ (List (Exchange σ)) where
  world := world
  note log x := log ++ [x]
  allows log x := x.asked (Change.drops (backupName m.table)) = true → HasCopied world d m log

theorem recordedAll (xs : List (Exchange σ)) :
    xs.foldl (recorder world d m).note notes = notes ++ xs := by
  induction xs generalizing notes with
  | nil => simp
  | cons x rest ih =>
    rw [List.foldl_cons, ih]
    simp [recorder]

def Keeps (m : Model) (r : Request) : Prop := r.changes (Change.drops (backupName m.table)) = false

theorem keepingObeys {p : Session α} (sends : p.Sends (Keeps m)) :
    p.Obeys (recorder world d m) (fun r t log => ∃ part, log = notes ++ part ∧
      ∀ a, r = .ok a → Trace world p s part (.done a) t) s notes := by
  induction p generalizing s notes with
  | done a => exact ⟨[], by simp, fun _ same => by cases same; exact .stop _ _⟩
  | fail e => exact ⟨[], by simp, nofun⟩
  | ask request next ih =>
    intro reply t answer
    refine ⟨fun asked => ?_, obeysMono (ih reply (sends.2 reply)) ?_⟩
    · rw [Exchange.asked, sends.1] at asked
      contradiction
    · intro r u log later
      obtain ⟨part, rfl, trace⟩ := later
      exact ⟨⟨s, request, reply, t⟩ :: part, by simp [recorder], fun a ok => .ask answer (trace a ok)⟩

theorem keepingAnswers {p : Session α} (sends : p.Sends (Keeps m)) :
    p.Obeys (recorder world d m) (fun _ _ _ => True) s notes :=
  obeysMono (keepingObeys sends) fun _ _ _ _ => trivial

theorem sparingKeeps (r : Request) (spares : r.Spares m.table) : Keeps m r := by
  cases r with
  | transaction step => rfl
  | statement purpose sql arguments =>
    cases purpose with
    | change c => exact sparingDropsNot c spares
    | _ => rfl

theorem objectExistsKeeps (name : String) : (objectExists d name).Sends (Keeps m) :=
  sendsObjectExists (fun _ _ => rfl) d name

theorem restoreKeeps : (restoreBackup d m.table).Sends (Keeps m) := by
  refine sendsRestore (fun _ _ => rfl) (fun _ => ?_) fun _ => rfl
  simpa [Keeps, Request.changes] using (backupKeyDiffers m.table).symm

theorem undoRebuildKeeps (live : Table) : (undoRebuild d m.table live).Sends (Keeps m) :=
  sendsBind restoreKeeps fun _ =>
    sendsMono (changesSpare (rebuildIndicesSpare rfl live.indices)) sparingKeeps

theorem recreateDrops (isTable : m.source = .table) {live : Table} {diff : TableDiff}
    (read : HasRead world d m live notes) :
    (recreate d m live diff).Obeys (recorder world d m) (fun _ _ _ => True) s notes := by
  have setAside : (change d (.renameTable m.table (backupName m.table))).Sends (Keeps m) :=
    sendsChange fun _ _ => rfl
  have rebuilding : (rebuild d m live diff).Sends (Keeps m) :=
    sendsMono (rebuildSpares rfl isTable live diff) sparingKeeps
  refine obeysBind (obeysMono (keepingObeys setAside) ?_)
  intro renamed s log kept
  obtain ⟨aside, rfl, _⟩ := kept
  cases renamed with
  | error e => trivial
  | ok _ =>
    refine obeysBind (obeysOutcome (obeysMono (keepingObeys rebuilding) ?_))
    intro result s' log kept
    obtain ⟨rebuilt, rfl, trace⟩ := kept
    cases result with
    | error e => exact obeysThen (obeysOutcome (keepingAnswers (undoRebuildKeeps live))) fun _ _ _ _ => trivial
    | ok report =>
      -- A rebuild that gives a report has copied: its trace is the last part of the notes.
      have copied : HasCopied world d m (notes ++ aside ++ rebuilt) := by
        refine ⟨live, notes, aside ++ rebuilt, by simp, read, ?_⟩
        exact (rebuildTrace (trace report rfl)).imp_left (copyCommittedLater aside)
      refine obeysThen (obeysChange (fun _ => trivial) ?_) fun _ _ _ _ => trivial
      intro sql reply t answer
      exact ⟨fun _ => copied, by cases reply <;> trivial⟩

theorem updateDrops (isTable : m.source = .table) :
    (update d m).Obeys (recorder world d m) (fun _ _ _ => True) s notes := by
  have creating : (create d m).Sends (Keeps m) := sendsMono (createSpares rfl isTable) sparingKeeps
  refine obeysThen (keepingAnswers (objectExistsKeeps _)) ?_
  intro pending s notes _
  cases pending with
  | true => trivial
  | false =>
    refine obeysThen (keepingAnswers (objectExistsKeeps _)) ?_
    intro present s notes _
    cases present with
    | false => exact obeysThen (keepingAnswers creating) fun _ _ _ _ => trivial
    | true =>
      have reading : (readSchema d m.table).Sends (Keeps m) := sendsReadSchema (fun _ _ => rfl) d _
      refine obeysBind (obeysMono (keepingObeys reading) ?_)
      intro schema t log kept
      obtain ⟨part, rfl, trace⟩ := kept
      match schema with
      | .error e => trivial
      | .ok (.view v) =>
        have replacing : (do change d (.dropView v.name); create d m; return SchemaUpdate.viewReplaced
            : Session SchemaUpdate).Sends (Keeps m) :=
          sendsBind (sendsChange fun _ _ => rfl) fun _ => sendsBind creating fun _ => trivial
        exact keepingAnswers replacing
      | .ok (.table live) =>
        have read : HasRead world d m live (notes ++ part) := ⟨notes, part, s, t, rfl, trace _ rfl⟩
        have noView : m.isView = false := by simp [Model.isView, Model.view?, isTable]
        simp only [noView]
        refine obeysBind (obeysOfExcept ?_ fun _ _ => trivial)
        intro diff _
        cases strategy : diff.strategy with
        | recreate =>
          simp only [strategy]
          exact obeysThen (recreateDrops isTable read) fun _ _ _ _ => trivial
        | additive =>
          simp only [strategy]
          have altering : (alterInPlace d m live diff).Sends (Keeps m) :=
            sendsMono (alterSpares rfl live diff) sparingKeeps
          exact obeysThen (keepingAnswers altering) fun _ _ _ _ => trivial

end Session

theorem droppedAfterCopy {world : World σ} {d : Dialect} {m : Model} {s u : σ} {log q}
    (isTable : m.source = .table)
    (trace : Session.Trace world (Session.update d m) s log q u) (earlier : List (Exchange σ))
    (x : Exchange σ) (later : List (Exchange σ)) (split : log = earlier ++ x :: later)
    (drops : x.asked (Change.drops (backupName m.table)) = true) :
    HasCopied world d m earlier := by
  have obeys : (Session.update d m).Obeys (Session.recorder world d m) (fun _ _ _ => True) s [] :=
    Session.updateDrops isTable
  have along := Session.obeyedTrace obeys trace
  rw [split, alongAppend] at along
  rw [Session.recordedAll] at along
  exact along.2.1 drops

def letterModel : Model :=
  { Model.empty "letter" .table with
    columns := [{ Column.declared "body" .text with field := some "Body" }] }

def letterUpdate (body : String) (copying : List (Request × Reply × Unit)) :
    List (Request × Reply × Unit) :=
  [(CatalogQuery.request .sqlite (.presence "letter_original"), .answered [] 0, ()),
    (CatalogQuery.request .sqlite (.presence "letter"), .answered [[.text "letter"]] 0, ()),
    (CatalogQuery.request .sqlite (.entry "letter"), .answered [[.text "table", .text "letter",
      .text ("CREATE TABLE letter ([" ++ body ++ "] TEXT, [stamp] INTEGER)")]] 0, ()),
    (CatalogQuery.request .sqlite (.indices "letter"), .answered [] 0, ()),
    (Change.request .sqlite (.renameTable "letter" "letter_original"), .answered [] 0, ()),
    (Change.request .sqlite (.ofModel letterModel), .answered [] 0, ())] ++ copying ++
  [(Change.request .sqlite (.dropTable "letter_original"), .answered [] 0, ())]

def letterCopy : List (Request × Reply × Unit) :=
  [(.transaction .start, .answered [] 0, ()),
    (CopyPlan.request .sqlite ⟨"letter_original", "letter", [("body", .column)]⟩, .answered [] 3, ()),
    (.transaction .commit, .answered [] 0, ())]

theorem letterDroppedAfterCopy :
    HasCopied (fun _ _ _ _ => True) .sqlite letterModel
      (Exchange.chain () ((letterUpdate "body" letterCopy).take 9)) := by
  obtain ⟨q, trace⟩ := Session.acceptedTrace (p := Session.update .sqlite letterModel) (by rfl)
    (Session.anyAnswer () (letterUpdate "body" letterCopy))
  exact droppedAfterCopy rfl trace _ _ [] rfl rfl

def letterUncopied : List (Exchange Unit) := Exchange.chain () ((letterUpdate "text" []).take 6)

theorem droppedWithoutCopy : ¬ ∀ (world : World Unit) (d : Dialect) (m : Model) (log q),
    m.source = .table → Session.Trace world (Session.update d m) () log q () →
    ∀ earlier x later, log = earlier ++ x :: later →
      x.asked (Change.drops (backupName m.table)) = true →
      ∃ plan : CopyPlan, plan.source = backupName m.table ∧ plan.target = m.table ∧
        CopyCommitted d plan earlier := by
  intro alwaysCopied
  obtain ⟨q, trace⟩ := Session.acceptedTrace (p := Session.update .sqlite letterModel) (by rfl)
    (Session.anyAnswer () (letterUpdate "text" []))
  obtain ⟨plan, _, _, _, start, _, _, _, _, split, _, started, _⟩ :=
    alwaysCopied _ _ _ _ q rfl trace letterUncopied _ [] rfl rfl
  have member : start ∈ letterUncopied := by simp [split]
  have noTransaction : ∀ x ∈ letterUncopied, x.request ≠ .transaction .start := by decide
  exact noTransaction start member started.1

end LiveSchema
