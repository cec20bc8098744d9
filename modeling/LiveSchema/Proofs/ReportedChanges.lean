import LiveSchema.Proofs.AddedUniques
import LiveSchema.Proofs.AllSchemas
import Mathlib.Data.Finset.Dedup
/-! What is reported of an alteration in place. Where nothing is refused, the report lists the columns, the
dropped and the rebuilt indices in the order of their changes, and it is empty only if nothing was changed. -/
namespace LiveSchema

namespace TableDiff

def lackedColumns (m : Model) (live : Table) : List Column :=
  m.columns.filter fun c => c.name ∉ live.columns.map (·.name)

def strayIndices (m : Model) (live : Table) : List ColumnGroup :=
  live.indices.filter fun i => i.name ∉ m.indices.map (·.name)

def unmatchedIndices (m : Model) (live : Table) : List ColumnGroup :=
  m.indices.filter fun g => ¬ ∃ i ∈ live.indices, i.name = g.name ∧ i.columns.toFinset = g.columns.toFinset

theorem lackedMissing {d : Dialect} {m : Model} {live : Table} {diff : TableDiff}
    (computed : compute d m live = .ok diff) : diff.missing = lackedColumns m live := by
  rw [(computeParts computed).1, missingIn, lackedColumns]
  refine List.filter_congr fun c _ => ?_
  rw [Bool.eq_iff_iff, Option.isNone_iff_eq_none, Table.column?, List.find?_eq_none]
  simp

theorem strayDropped (m : Model) (live : Table) :
    live.indices.filter (fun i => (m.index? i.name).isNone) = strayIndices m live := by
  refine List.filter_congr fun i _ => ?_
  rw [Bool.eq_iff_iff, Option.isNone_iff_eq_none, Model.index?, List.find?_eq_none]
  simp

theorem hasIndexIff {live : Table} (distinct : (live.indices.map (·.name)).Nodup) {g : ColumnGroup} :
    hasIndex live g = true ↔
      ∃ i ∈ live.indices, i.name = g.name ∧ i.columns.toFinset = g.columns.toFinset := by
  have same (i : ColumnGroup) : i.covers g = true ↔ i.columns.toFinset = g.columns.toFinset := by
    simp [ColumnGroup.coversIff, Finset.ext_iff]
  unfold hasIndex
  constructor
  · intro has
    split at has
    case h_2 => contradiction
    rename_i i found
    exact ⟨i, List.mem_of_find?_eq_some found, by simpa using List.find?_some found, (same i).mp has⟩
  · rintro ⟨i, inside, named, columns⟩
    have found : live.index? g.name = some i := named ▸ findNamed distinct inside
    rw [found]
    exact (same i).mpr columns

theorem unmatchedCreated {live : Table} (distinct : (live.indices.map (·.name)).Nodup) (m : Model) :
    m.indices.filter (!hasIndex live ·) = unmatchedIndices m live := by
  refine List.filter_congr fun g _ => ?_
  rw [Bool.eq_iff_iff, decide_eq_true_eq, ← hasIndexIff distinct]
  simp

end TableDiff

open TableDiff in
structure AdditiveReport.Accounts (report : AdditiveReport) (m : Model) (live : Table) (changes : List Change) :
    Prop where
  addedColumns : report.addedColumns = (lackedColumns m live).map (·.name)
  addedUniques : report.addedUniques = []
  droppedIndices : report.droppedIndices = (strayIndices m live).map (·.name)
  createdIndices : report.createdIndices = (unmatchedIndices m live).map (·.name)
  changed : changes = (lackedColumns m live).map (fun c => .addColumn m.table c) ++
    (strayIndices m live).map (fun i => .dropIndex m.table i.name) ++
    (unmatchedIndices m live).flatMap fun g => [.dropIndexIfExists m.table g.name, .createIndex m.table g]
  noop : (SchemaUpdate.additive report).isNoop = true ↔ changes = []

theorem additiveAccounts {d : Dialect} {m : Model} {live : Table} {diff : TableDiff}
    (computed : TableDiff.compute d m live = .ok diff) (additive : diff.strategy = .additive)
    (distinct : (live.indices.map (·.name)).Nodup) :
    (diff.additiveReport m live).Accounts m live (diff.additiveChanges m live) := by
  have uniques := TableDiff.uniquesPresent (additiveUniques computed additive)
  simp only [TableDiff.additiveReport, TableDiff.additiveChanges, TableDiff.lackedMissing computed, uniques,
    TableDiff.strayDropped, TableDiff.unmatchedCreated distinct, List.map_nil, List.append_nil]
  refine ⟨rfl, rfl, rfl, rfl, rfl, ?_⟩
  have rebuilt (groups : List ColumnGroup) :
      groups.flatMap (Change.rebuildIndex m.table) = [] ↔ groups = [] := by
    cases groups <;> simp [Change.rebuildIndex]
  simp [SchemaUpdate.isNoop, AdditiveReport.isEmpty, rebuilt, and_assoc]

def Script.Answers (script : Script) : Prop := ∀ reply ∈ script.replies, reply.succeeded = true

theorem Script.answered {script : Script} (answers : script.Answers) (r : Request) :
    ∃ replies rows affected, script.respond r = (⟨replies, script.log ++ [r]⟩, .answered rows affected) ∧
      ∀ reply ∈ replies, reply.succeeded = true := by
  obtain ⟨replies, log⟩ := script
  cases replies with
  | nil => exact ⟨[], [], 0, rfl, List.forall_mem_nil _⟩
  | cons reply rest =>
    obtain ⟨first, others⟩ := List.forall_mem_cons.mp answers
    cases reply with
    | failed report => contradiction
    | answered rows affected => exact ⟨rest, rows, affected, rfl, others⟩

namespace Session
variable {α β : Type}

def Comes (p : Session α) (a : α) (requests : List Request) : Prop :=
  ∀ script : Script, script.Answers → ∃ replies, (∀ reply ∈ replies, reply.succeeded = true) ∧
    p.run Script.respond script = (.ok a, ⟨replies, script.log ++ requests⟩)

theorem comesDone (a : α) : (Session.done a).Comes a [] :=
  fun script answers => ⟨script.replies, answers, by rw [List.append_nil]; rfl⟩

theorem comesBind {p : Session α} {f : α → Session β} {a : α} {b : β} {first rest : List Request}
    (here : p.Comes a first) (later : (f a).Comes b rest) : (p >>= f).Comes b (first ++ rest) := by
  intro script answers
  obtain ⟨replies, answering, ran⟩ := here script answers
  obtain ⟨left, answering, after⟩ := later ⟨replies, script.log ++ first⟩ answering
  refine ⟨left, answering, ?_⟩
  rw [runThen, ran]
  dsimp only
  rw [after, List.append_assoc]

theorem comesMap {p : Session α} {a : α} {requests : List Request} (here : p.Comes a requests) (f : α → β) :
    (p >>= fun a => .done (f a)).Comes (f a) requests := by
  rw [← List.append_nil requests]
  exact comesBind here (comesDone (f a))

theorem comesStep (step : TransactionStep) : (transactionStep step).Comes () [.transaction step] := by
  intro script answers
  obtain ⟨replies, rows, affected, answer, answering⟩ := Script.answered answers (.transaction step)
  exact ⟨replies, answering, by simp [transactionStep, run, answer]⟩

theorem comesChange (c : Change) : (change .sqlite c).Comes () [c.request .sqlite] := by
  intro script answers
  obtain ⟨sql, written⟩ := changeWritten c
  obtain ⟨replies, rows, affected, answer, answering⟩ :=
    Script.answered answers (.statement (.change c) sql [])
  have request : c.request .sqlite = .statement (.change c) sql [] := by rw [Change.request, written]; rfl
  refine ⟨replies, answering, ?_⟩
  rw [change, written, sqlReady, request, runThen, send, run, answer]
  rfl

theorem comesChanges (cs : List Change) : (changes .sqlite cs).Comes () (cs.map (Change.request .sqlite)) := by
  induction cs with
  | nil => exact comesDone ()
  | cons c rest ih => exact comesBind (comesChange c) ih

theorem comesTransaction {body : Session α} {a : α} {requests : List Request} (inside : body.Comes a requests) :
    (inTransaction body).Comes a (.transaction .start :: (requests ++ [.transaction .commit])) := by
  have outcome : body.outcome.Comes (.ok a) requests := by
    intro script answers
    obtain ⟨replies, answering, ran⟩ := inside script answers
    exact ⟨replies, answering, by rw [runOutcome, ran]⟩
  have committing : (closing (.ok a)).Comes a [.transaction .commit] :=
    comesMap (comesStep .commit) fun _ => a
  have later : (body.outcome >>= closing).Comes a (requests ++ [.transaction .commit]) :=
    comesBind outcome committing
  exact comesBind (comesStep .start) later

theorem updateTableComes {m : Model} {live : Table} {diff : TableDiff}
    (computed : TableDiff.compute .sqlite m live = .ok diff) (additive : diff.strategy = .additive) :
    (updateTable .sqlite m live).Comes (.additive (diff.additiveReport m live))
      (.transaction .start :: ((diff.additiveChanges m live).map (Change.request .sqlite) ++
        [.transaction .commit])) := by
  have altering := comesTransaction (comesChanges (diff.additiveChanges m live))
  have reporting := comesMap (comesMap altering fun _ => diff.additiveReport m live) SchemaUpdate.additive
  rw [updateTable, computed, sqlReady, additive]
  exact reporting

theorem changesReported {m : Model} {live : Table} {diff : TableDiff}
    (computed : TableDiff.compute .sqlite m live = .ok diff) (additive : diff.strategy = .additive)
    (distinct : (live.indices.map (·.name)).Nodup) :
    ∃ report changes, report.Accounts m live changes ∧
      (updateTable .sqlite m live).Comes (.additive report)
        (.transaction .start :: (changes.map (Change.request .sqlite) ++ [.transaction .commit])) ∧
      ∀ script found, (examine .sqlite m).run Script.respond script = (.ok (.object (.table live)), found) →
        m.isView = false → found.Answers →
        ∃ left, (update .sqlite m).run Script.respond script = (.ok (.additive report), left) ∧
          left.log = found.log ++ .transaction .start ::
            (changes.map (Change.request .sqlite) ++ [.transaction .commit]) := by
  have comes := updateTableComes computed additive
  refine ⟨_, _, additiveAccounts computed additive distinct, comes, fun script found looked isTable answers => ?_⟩
  obtain ⟨replies, -, ran⟩ := comes found answers
  have acts : act .sqlite m (.object (.table live)) = updateTable .sqlite m live := by simp [act, isTable]
  refine ⟨⟨replies, found.log ++ _⟩, ?_, rfl⟩
  rw [updateParts, runThen, looked]
  dsimp only
  rw [acts, ran]

end Session

def parcelNote : Column := { Column.declared "note" .text with field := some "Note" }

def parcelModel : Model :=
  { Model.empty "parcel" .table with
    columns := [{ Column.declared "code" .text with field := some "Code" },
      { Column.declared "city" .text with field := some "City" }, parcelNote]
    indices := [⟨"place", ["city"]⟩, ⟨"both", ["city", "code"]⟩, ⟨"label", ["code"]⟩] }

def parcelLive : Table :=
  ⟨"parcel", [Column.introspected "code" "TEXT", Column.introspected "city" "TEXT"],
    [⟨"place", ["code"]⟩, ⟨"old", ["city"]⟩, ⟨"both", ["code", "city"]⟩], []⟩

def parcelScript : Script :=
  ⟨[.answered [] 0, .answered [[.text "parcel"]] 0,
    .answered [[.text "table", .text "parcel", .text "CREATE TABLE parcel ([code] TEXT,[city] TEXT)"]] 0,
    .answered [[.text "CREATE INDEX idx_parcel_place ON parcel ([code])"],
      [.text "CREATE INDEX idx_parcel_old ON parcel ([city])"],
      [.text "CREATE INDEX idx_parcel_both ON parcel ([code],[city])"]] 0], []⟩

def parcelLooks : List Request :=
  [.presence "parcel_original", .presence "parcel", .entry "parcel", .indices "parcel"].map
    (CatalogQuery.request .sqlite)

def parcelChanges : List Change :=
  [.addColumn "parcel" parcelNote, .dropIndex "parcel" "old",
    .dropIndexIfExists "parcel" "place", .createIndex "parcel" ⟨"place", ["city"]⟩,
    .dropIndexIfExists "parcel" "label", .createIndex "parcel" ⟨"label", ["code"]⟩]

theorem parcelChangesReported :
    (parcelLive.indices.map (·.name)).Nodup ∧ ∃ report left,
      (Session.update .sqlite parcelModel).run Script.respond parcelScript = (.ok (.additive report), left) ∧
      report.addedColumns = ["note"] ∧ report.droppedIndices = ["old"] ∧
      report.createdIndices = ["place", "label"] ∧ (SchemaUpdate.additive report).isNoop = false ∧
      left.log = parcelLooks ++ .transaction .start ::
        (parcelChanges.map (Change.request .sqlite) ++ [.transaction .commit]) := by
  have computed : TableDiff.compute .sqlite parcelModel parcelLive = .ok ⟨[parcelNote], [], [], true, true⟩ := by
    rfl
  have distinct : (parcelLive.indices.map (·.name)).Nodup := by decide
  obtain ⟨report, changes, accounts, -, updates⟩ := Session.changesReported computed rfl distinct
  have looked : (Session.examine .sqlite parcelModel).run Script.respond parcelScript =
    (.ok (.object (.table parcelLive)), ⟨[], parcelLooks⟩) := by rfl
  obtain ⟨left, ran, log⟩ := updates parcelScript _ looked rfl (List.forall_mem_nil _)
  have changed : changes = parcelChanges := accounts.changed.trans (by decide)
  have noop : (SchemaUpdate.additive report).isNoop = false :=
    Bool.eq_false_iff.mpr fun none => by simp [accounts.noop.mp none, parcelChanges] at changed
  refine ⟨distinct, report, left, ran, accounts.addedColumns.trans (by decide),
    accounts.droppedIndices.trans (by decide), accounts.createdIndices.trans (by decide), noop, ?_⟩
  rw [log, changed]

end LiveSchema
