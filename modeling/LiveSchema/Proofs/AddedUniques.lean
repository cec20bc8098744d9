import LiveSchema.Proofs.Examine
/-! Unique groups are never added to a table that exists. A table is altered in place only if its unique groups
are those of the model, as often as there; every group of the model then is among them, so that none is left
to be added. -/
namespace LiveSchema

def Change.addsUnique : Change → Bool
  | .addUnique _ _ => true
  | _ => false

def Request.AddsNoUnique (r : Request) : Prop := r.changes Change.addsUnique = false

section Additive
variable {d : Dialect} {m : Model} {live : Table} {diff : TableDiff}
  (computed : TableDiff.compute d m live = .ok diff) (additive : diff.strategy = .additive)
include computed additive

theorem additiveUniques : ColumnGroup.sameGroups live.uniques m.uniques = true :=
  (TableDiff.computedUniques computed).symm.trans (TableDiff.additiveParts additive).2.2

theorem additiveChangesPlain : ∀ c ∈ diff.additiveChanges m live, c.addsUnique = false := by
  refine diff.additiveEach (fun _ => rfl) (fun g member lacking => ?_) (fun _ _ => rfl) fun _ _ => ⟨rfl, rfl⟩
  -- A group of the model that the live table lacks would be left over from the matching.
  have present := TableDiff.uniquesPresent (additiveUniques computed additive)
  exact absurd lacking (List.filter_eq_nil_iff.mp present g member)

theorem additiveReportPlain : (diff.additiveReport m live).addedUniques = [] := by
  rw [TableDiff.additiveReport, TableDiff.uniquesPresent (additiveUniques computed additive)]
  rfl

end Additive

namespace Session
variable {σ : Type} {world : World σ} {s u : σ} {log : List (Exchange σ)} {d : Dialect} {m : Model}

theorem plainChanges {cs : List Change} (plain : ∀ c ∈ cs, c.addsUnique = false) :
    (changes d cs).Sends Request.AddsNoUnique :=
  sendsChanges fun c member _ _ => plain c member

theorem rebuiltPlain (table : String) (groups : List ColumnGroup) :
    ∀ c ∈ groups.flatMap (Change.rebuildIndex table), c.addsUnique = false :=
  Change.rebuiltEach fun _ _ => ⟨rfl, rfl⟩

theorem createPlain : (create d m).Sends Request.AddsNoUnique := by
  have created : ∀ c ∈ creation m, c.addsUnique = false :=
    List.forall_mem_cons.mpr ⟨rfl, rebuiltPlain m.table m.indices⟩
  exact sendsCreateAny (fun _ => rfl) fun c member _ _ => created c member

theorem recreatePlain (live : Table) (diff : TableDiff) :
    (recreate d m live diff).Sends Request.AddsNoUnique := by
  have restoring : (restoreBackup d m.table).Sends Request.AddsNoUnique :=
    sendsRestore (fun _ _ => rfl) (fun _ => rfl) fun _ => rfl
  have copying : (copyRows d (CopyPlan.ofModel d m live)).Sends Request.AddsNoUnique :=
    sendsCopyRows (fun _ => rfl) fun _ _ => rfl
  refine sendsRecreate (fun _ => rfl) ?_ (fun _ => rfl) ?_
  · exact sendsBind createPlain fun _ => sendsBind copying fun _ => trivial
  · exact sendsBind restoring fun _ => plainChanges (rebuiltPlain m.table live.indices)

theorem alterPlain {live : Table} {diff : TableDiff} (computed : TableDiff.compute d m live = .ok diff)
    (additive : diff.strategy = .additive) : (alterInPlace d m live diff).Sends Request.AddsNoUnique :=
  sendsBind (sendsTransaction (fun _ => rfl) (plainChanges (additiveChangesPlain computed additive)))
    fun _ => trivial

theorem updateTablePlain (live : Table) : (updateTable d m live).Sends Request.AddsNoUnique := by
  refine sendsExcept fun diff computed => ?_
  split
  · rename_i additive
    exact sendsBind (alterPlain computed additive) fun _ => trivial
  · exact sendsBind (recreatePlain live diff) fun _ => trivial

theorem actPlain (f : Finding) : (act d m f).Sends Request.AddsNoUnique := by
  match f with
  | .backup => trivial
  | .nothing => exact sendsBind createPlain fun _ => trivial
  | .object (.view v) =>
    exact sendsBind (sendsChange fun _ _ => rfl) fun _ => sendsBind createPlain fun _ => trivial
  | .object (.table live) =>
    rw [act]
    split
    · trivial
    · exact updateTablePlain live

theorem updatePlain (d : Dialect) (m : Model) : (update d m).Sends Request.AddsNoUnique := by
  rw [updateParts]
  refine sendsBind (sendsMono (examineLooks d m) ?_) actPlain
  rintro r ⟨q, sql, arguments, rfl⟩
  rfl

theorem alterReported {live : Table} {diff : TableDiff} {report : AdditiveReport}
    (trace : Trace world (alterInPlace d m live diff) s log (ended (.ok report)) u) :
    report = diff.additiveReport m live := by
  obtain ⟨_, _, _, _, _, _, last⟩ := endOfBindOk trace
  cases (endOfDone last).2.2
  rfl

theorem tableReported {live : Table} {report : AdditiveReport}
    (trace : Trace world (updateTable d m live) s log (ended (.ok (.additive report))) u) :
    ∃ diff, TableDiff.compute d m live = .ok diff ∧ diff.strategy = .additive ∧
      report = diff.additiveReport m live := by
  unfold updateTable at trace
  cases computed : TableDiff.compute d m live with
  | error e =>
    rw [computed] at trace
    cases (endOfFail trace).2.2
  | ok diff =>
    rw [computed, sqlReady] at trace
    cases chosen : diff.strategy with
    | additive =>
      simp only [chosen] at trace
      obtain ⟨reported, _, _, _, _, altering, last⟩ := endOfBindOk trace
      cases (endOfDone last).2.2
      exact ⟨diff, rfl, chosen, alterReported altering⟩
    | recreate =>
      simp only [chosen] at trace
      obtain ⟨_, _, _, _, _, _, last⟩ := endOfBindOk trace
      cases (endOfDone last).2.2

theorem alterationReported {report : AdditiveReport}
    (trace : Trace world (update d m) s log (ended (.ok (.additive report))) u) :
    ∃ live diff, TableDiff.compute d m live = .ok diff ∧ diff.strategy = .additive ∧
      report = diff.additiveReport m live := by
  rw [updateParts] at trace
  obtain ⟨f, first, rest, t, rfl, _, acted⟩ := endOfBindOk trace
  match f with
  | .backup => cases (endOfFail acted).2.2
  | .nothing =>
    obtain ⟨_, _, _, _, _, _, last⟩ := endOfBindOk acted
    cases (endOfDone last).2.2
  | .object (.view v) =>
    obtain ⟨_, _, _, _, _, _, later⟩ := endOfBindOk acted
    obtain ⟨_, _, _, _, _, _, last⟩ := endOfBindOk later
    cases (endOfDone last).2.2
  | .object (.table live) =>
    rw [act] at acted
    split at acted
    · cases (endOfFail acted).2.2
    · exact ⟨live, tableReported acted⟩

end Session

theorem noUniqueAdded (d : Dialect) (m : Model) :
    (∀ live diff, TableDiff.compute d m live = .ok diff → diff.strategy = .additive →
      (∀ g ∈ m.uniques, ∃ f ∈ live.uniques, f.covers g = true) ∧
      ∀ {σ : Type} (world : World σ) s log q u,
        Session.Trace world (Session.alterInPlace d m live diff) s log q u →
          (∀ x ∈ log, x.asked Change.addsUnique = false) ∧
            ∀ report, q = .done report → report.addedUniques = []) ∧
    ∀ {σ : Type} (world : World σ) s log q u, Session.Trace world (Session.update d m) s log q u →
      (∀ x ∈ log, x.asked Change.addsUnique = false) ∧
        ∀ report, q = .done (.additive report) → report.addedUniques = [] := by
  refine ⟨fun live diff computed additive => ⟨fun g member => ?_, fun world s log q u trace => ?_⟩,
    fun world s log q u trace => ⟨Session.traceSends (Session.updatePlain d m) trace, ?_⟩⟩
  · exact ColumnGroup.coveredOfSame (additiveUniques computed additive) member
  · refine ⟨Session.traceSends (Session.alterPlain computed additive) trace, ?_⟩
    rintro report rfl
    rw [Session.alterReported trace]
    exact additiveReportPlain computed additive
  · rintro report rfl
    obtain ⟨live, diff, computed, additive, rfl⟩ := Session.alterationReported trace
    exact additiveReportPlain computed additive

def seatNote : Column := { Column.declared "note" .text with field := some "Note" }

def seatModel : Model :=
  { Model.empty "seat" .table with
    columns := [{ Column.declared "row" .text with field := some "Row" },
      { Column.declared "number" .int with field := some "Number" },
      { Column.declared "code" .text with field := some "Code" }, seatNote]
    uniques := [⟨"place", ["row", "number"]⟩, ⟨"code", ["code"]⟩] }

def seatLive : Table :=
  ⟨"seat", [Column.introspected "row" "TEXT", Column.introspected "number" "INTEGER",
    Column.introspected "code" "TEXT"], [], [⟨"", ["code"]⟩, ⟨"", ["number", "row"]⟩]⟩

def seatUpdate : List (Request × Reply × Unit) :=
  [(CatalogQuery.request .sqlite (.presence "seat_original"), .answered [] 0, ()),
    (CatalogQuery.request .sqlite (.presence "seat"), .answered [[.text "seat"]] 0, ()),
    (CatalogQuery.request .sqlite (.entry "seat"), .answered [[.text "table", .text "seat",
      .text ("CREATE TABLE seat ([row] TEXT,[number] INTEGER,[code] TEXT," ++
        "UNIQUE([code]),UNIQUE([number],[row]))")]] 0, ()),
    (CatalogQuery.request .sqlite (.indices "seat"), .answered [] 0, ()),
    (.transaction .start, .answered [] 0, ()),
    (Change.request .sqlite (.addColumn "seat" seatNote), .answered [] 0, ()),
    (.transaction .commit, .answered [] 0, ())]

theorem seatNoUniqueAdded : ∃ log report,
    Session.Trace (fun _ _ _ _ => True) (Session.update .sqlite seatModel) () log (.done (.additive report)) () ∧
      report.addedColumns = ["note"] ∧ report.addedUniques = [] ∧
      (∀ x ∈ log, x.asked Change.addsUnique = false) ∧
      ∀ g ∈ seatModel.uniques, ∃ f ∈ seatLive.uniques, f.covers g = true := by
  have trace := Session.followedTrace (p := Session.update .sqlite seatModel) (by rfl)
    (Session.anyAnswer () seatUpdate)
  have finished : (Session.update .sqlite seatModel).followed seatUpdate =
      .done (.additive { addedColumns := ["note"] }) := by rfl
  rw [finished] at trace
  have computed : TableDiff.compute .sqlite seatModel seatLive = .ok ⟨[seatNote], [], [], true, true⟩ := by rfl
  obtain ⟨inPlace, updates⟩ := noUniqueAdded .sqlite seatModel
  obtain ⟨none, nothing⟩ := updates _ _ _ _ _ trace
  exact ⟨_, _, trace, rfl, nothing _ rfl, none, (inPlace _ _ computed rfl).1⟩

end LiveSchema
