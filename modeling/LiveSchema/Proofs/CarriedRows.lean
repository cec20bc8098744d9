import LiveSchema.Proofs.ColumnCase
import LiveSchema.Proofs.CopyText
import LiveSchema.Proofs.EndedTraces
/-! What a table keeps when it is built anew. The statement that copies its rows has the columns that are
filled and the expressions that are selected in one order, so each column gets what is meant for it. The
report tells every column of the old table once. -/
namespace LiveSchema

def Model.names (m : Model) : List String := m.columns.map (·.name)

def Table.names (t : Table) : List String := t.columns.map (·.name)

/-- What a copy makes of a row: columns that both tables have keep their value, but for a NULL where the new
table refuses it; required columns that the old table lacks are filled; there are no others. -/
structure Carried (d : Dialect) (m : Model) (live : Table) (old : StoredRow) (new : List (String × Value)) :
    Prop where
  targets : new.map (·.1) = (m.columns.filter fun c => c.name ∈ live.names || c.requiresFill).map (·.name)
  distinct : (new.map (·.1)).Nodup
  shared : ∀ c ∈ m.columns, ∀ previous ∈ live.columns, previous.name = c.name →
    (c.name, if c.requiresFill ∧ previous.notNull = false ∧ old c.name = .null then d.fillValue c.valueType
      else old c.name) ∈ new
  added : ∀ c ∈ m.columns, c.requiresFill = true → c.name ∉ live.names →
    (c.name, d.fillValue c.valueType) ∈ new

structure RecreateReport.Lists (r : RecreateReport) (m : Model) (live : Table) : Prop where
  copied : r.copiedColumns = m.names.filter (· ∈ live.names)
  filled : r.filledColumns = (m.columns.filter fun c => c.requiresFill && c.name ∉ live.names).map (·.name)
  dropped : r.droppedColumns = live.names.filter (· ∉ m.names)
  once : ∀ name ∈ live.names, Xor (name ∈ r.copiedColumns) (name ∈ r.droppedColumns)

section Sources
variable {d : Dialect} {m : Model} {live : Table} {c previous : Column} {name : String}

theorem Table.unknown : live.column? name = none ↔ name ∉ live.names := by
  rw [Table.column?, List.find?_eq_none, Table.names, List.mem_map]
  simp

theorem Model.unknown : m.column? name = none ↔ name ∉ m.names := by
  rw [Model.column?, List.find?_eq_none, Model.names, List.mem_map]
  simp

namespace CopyPlan

theorem sharedSource (existing : live.names.Nodup) (member : previous ∈ live.columns)
    (named : previous.name = c.name) : sourceOf? d live c =
      some (if c.requiresFill && !previous.notNull then .columnOr (d.fillValue c.valueType) else .column) := by
  cases found : live.column? c.name with
  | none => exact absurd (List.mem_map.mpr ⟨previous, member, named⟩) (Table.unknown.mp found)
  | some first =>
    obtain ⟨inLive, same⟩ := liveColumnSource found
    obtain rfl : first = previous := List.inj_on_of_nodup_map existing inLive member (same.trans named.symm)
    simp [sourceOf?, found]

theorem addedSource (absent : c.name ∉ live.names) :
    sourceOf? d live c = if c.requiresFill then some (.fixed (d.fillValue c.valueType)) else none := by
  simp [sourceOf?, Table.unknown.mpr absent]

theorem chosenColumns (chosen : CopySource → Bool) :
    ((ofModel d m live).columns.filter (chosen ·.2)).map (·.1) =
      (m.columns.filter fun c => (sourceOf? d live c).any chosen).map (·.name) := by
  rw [ofModel]
  induction m.columns with
  | nil => rfl
  | cons c rest ih =>
    rw [List.filterMap_cons, List.filter_cons]
    cases sourceOf? d live c with
    | none => exact ih
    | some source =>
      rw [Option.map_some, List.filter_cons, Option.any_some]
      cases chosen source with
      | false => exact ih
      | true => exact congrArg (c.name :: ·) ih

theorem sourceKinds (d : Dialect) (live : Table) (c : Column) :
    (sourceOf? d live c).any (fun _ => true) = (decide (c.name ∈ live.names) || c.requiresFill) ∧
    (sourceOf? d live c).any (!isFixed ·) = decide (c.name ∈ live.names) ∧
    (sourceOf? d live c).any isFixed = (c.requiresFill && decide (c.name ∉ live.names)) := by
  unfold sourceOf?
  cases found : live.column? c.name with
  | none =>
    have absent := Table.unknown.mp found
    cases c.requiresFill <;> simp [absent, isFixed]
  | some previous =>
    have present : c.name ∈ live.names := by
      by_contra absent
      rw [Table.unknown.mpr absent] at found
      contradiction
    cases c.requiresFill <;> cases strict : previous.notNull <;> simp [present, isFixed, strict]

theorem targetNames : (ofModel d m live).columns.map (·.1) =
    (m.columns.filter fun c => c.name ∈ live.names || c.requiresFill).map (·.name) := by
  have all : ((ofModel d m live).columns.filter fun _ => true).map (·.1) =
      (m.columns.filter fun c => (sourceOf? d live c).any fun _ => true).map (·.name) :=
    chosenColumns fun _ => true
  simpa only [List.filter_true, sourceKinds] using all

theorem rowCarried (declared : m.names.Nodup) (existing : live.names.Nodup) (old : StoredRow) :
    Carried d m live old ((ofModel d m live).written old) := by
  have targets : ((ofModel d m live).written old).map (·.1) =
      (m.columns.filter fun c => c.name ∈ live.names || c.requiresFill).map (·.name) := by
    rw [← targetNames (d := d), written, List.map_map]
    rfl
  have carried {c : Column} {source : CopySource} (member : c ∈ m.columns)
      (found : sourceOf? d live c = some source) :
      (c.name, source.value (old c.name)) ∈ (ofModel d m live).written old :=
    List.mem_map.mpr ⟨(c.name, source), sourceWritten member found, rfl⟩
  refine ⟨targets, ?_, ?_, ?_⟩
  · rw [targets]
    exact declared.sublist (List.filter_sublist.map _)
  · intro c member previous inLive named
    have here := carried member (sharedSource existing inLive named)
    convert here using 2
    cases c.requiresFill <;> cases previous.notNull <;> simp [CopySource.value, Value.isNullIff]
  · intro c member required absent
    exact carried member (by rw [addedSource absent, required, if_pos rfl])

end CopyPlan

namespace Session
variable {σ : Type} {world : World σ} {diff : TableDiff} {report : RecreateReport} {s u : σ}
  {log : List (Exchange σ)}

def Copies (d : Dialect) (plan : CopyPlan) (r : Request) : Prop :=
  ∀ p sql arguments, r = .statement (.copy p) sql arguments → p = plan ∧ sql = plan.text d ∧ arguments = []

theorem changesCopy (plan : CopyPlan) (cs : List Change) : (changes d cs).Sends (Copies d plan) :=
  sendsChanges fun _ _ _ _ => nofun

theorem copyRowsCopies (plan : CopyPlan) : (copyRows d plan).Sends (Copies d plan) := by
  by_cases filled : plan.columns = []
  · simp [copyRows, filled, Sends]
  · refine sendsCopyRows (fun _ => nofun) fun sql written p sql' arguments same => ?_
    cases same
    exact ⟨rfl, Except.ok.inj (written.symm.trans (CopyPlan.copyText filled)), rfl⟩

theorem createCopies (plan : CopyPlan) (m : Model) : (create d m).Sends (Copies d plan) :=
  sendsCreateAny (fun _ => nofun) fun _ _ _ _ => nofun

theorem undoCopies (plan : CopyPlan) (table : String) : (undoRebuild d table live).Sends (Copies d plan) :=
  sendsBind (sendsRestore (fun _ _ => nofun) (fun _ => nofun) fun _ => nofun) fun _ => changesCopy plan _

theorem recreateCopies (diff : TableDiff) :
    (recreate d m live diff).Sends (Copies d (CopyPlan.ofModel d m live)) := by
  have rebuilding : (rebuild d m live diff).Sends (Copies d (CopyPlan.ofModel d m live)) :=
    sendsBind (createCopies _ m) fun _ => sendsBind (copyRowsCopies _) fun _ => trivial
  exact sendsRecreate (fun _ => nofun) rebuilding (fun _ => nofun) (undoCopies _ m.table)

theorem recreateUpdates (computed : TableDiff.compute d m live = .ok diff) (recreates : diff.strategy = .recreate) :
    updateTable d m live = recreate d m live diff >>= fun report => .done (.recreated report) := by
  rw [updateTable, computed]
  simp only [ofExcept, Bind.bind, Session.bind, recreates]
  rfl

theorem rebuildReport (trace : Trace world (rebuild d m live diff) s log (.done report) u) :
    report.copiedColumns = (CopyPlan.ofModel d m live).copiedColumns ∧
      report.filledColumns = (CopyPlan.ofModel d m live).filledColumns ∧ report.droppedColumns = diff.obsolete := by
  obtain ⟨_, _, _, _, _, _, later⟩ := traceOfBind trace
  obtain ⟨_, _, _, _, _, _, ending⟩ := traceOfBind later
  cases ending
  exact ⟨rfl, rfl, rfl⟩

theorem recreateReport (trace : Trace world (recreate d m live diff) s log (.done report) u) :
    ∃ t part v, Trace world (rebuild d m live diff) t part (.done report) v := by
  obtain ⟨_, _, _, t, _, _, later⟩ := traceOfBind trace
  obtain ⟨result, part, _, v, _, rebuilding, later⟩ := traceOfBind later
  cases result with
  | error e =>
    obtain ⟨_, _, _, _, _, _, failing⟩ := traceOfBind later
    exact (traceOfFail failing).elim
  | ok found =>
    obtain ⟨_, _, _, _, _, _, ending⟩ := traceOfBind later
    cases ending
    exact ⟨t, part, v, traceOfOutcome rebuilding⟩

end Session

theorem reportLists {r : RecreateReport} (copied : r.copiedColumns = (CopyPlan.ofModel d m live).copiedColumns)
    (filled : r.filledColumns = (CopyPlan.ofModel d m live).filledColumns)
    (dropped : r.droppedColumns = TableDiff.obsoleteIn m live) : r.Lists m live := by
  have shared : r.copiedColumns = m.names.filter (· ∈ live.names) := by
    rw [copied, CopyPlan.copiedColumns, CopyPlan.chosenColumns (!CopyPlan.isFixed ·), Model.names, List.filter_map]
    simp only [CopyPlan.sourceKinds, Function.comp_def]
  have gone : r.droppedColumns = live.names.filter (· ∉ m.names) := by
    rw [dropped, TableDiff.obsoleteIn, Table.names, List.filter_map]
    refine congrArg (List.map _) (List.filter_congr fun c _ => ?_)
    rw [Bool.eq_iff_iff, Option.isNone_iff_eq_none, Model.unknown]
    simp
  refine ⟨shared, ?_, gone, ?_⟩
  · rw [filled, CopyPlan.filledColumns, CopyPlan.chosenColumns CopyPlan.isFixed]
    simp only [CopyPlan.sourceKinds]
  · intro name existing
    rw [shared, gone, List.mem_filter, List.mem_filter]
    by_cases declared : name ∈ m.names <;> simp [declared, existing, Xor]

end Sources

theorem rowsCarriedOver {d : Dialect} {m : Model} {live : Table} {diff : TableDiff} (declared : m.names.Nodup)
    (existing : live.names.Nodup) (computed : TableDiff.compute d m live = .ok diff)
    (recreates : diff.strategy = .recreate) :
    (∀ rows : List StoredRow, ∃ copied, rows.mapM (CopyPlan.ofModel d m live).written? = some copied ∧
      List.Forall₂ (Carried d m live) rows copied) ∧
    ∀ {σ : Type} (world : World σ) (s u : σ) (log : List (Exchange σ)) (q : Session SchemaUpdate),
      Session.Trace world (Session.updateTable d m live) s log q u →
      (∀ x ∈ log, ∀ p sql arguments, x.request = .statement (.copy p) sql arguments →
        p = CopyPlan.ofModel d m live ∧ sql = p.text d ∧ arguments = []) ∧
      ∀ update, q = .done update → ∃ report, update = .recreated report ∧ report.Lists m live := by
  constructor
  · intro rows
    refine ⟨rows.map (CopyPlan.ofModel d m live).written, ?_, ?_⟩
    · rw [funext (CopyPlan.writtenBySelect _)]
      exact List.mapM_pure
    · exact List.forall₂_map_right_iff.mpr
        (List.forall₂_same.mpr fun old _ => CopyPlan.rowCarried declared existing old)
  · intro σ world s u log q trace
    rw [Session.recreateUpdates computed recreates] at trace
    constructor
    · intro x member p sql arguments same
      have sends : Session.Sends (Session.Copies d (CopyPlan.ofModel d m live))
          (Session.recreate d m live diff >>= fun report => .done (SchemaUpdate.recreated report)) :=
        Session.sendsBind (Session.recreateCopies diff) fun _ => trivial
      obtain ⟨rfl, text, none⟩ := Session.traceSends sends trace x member p sql arguments same
      exact ⟨rfl, text, none⟩
    · rintro update rfl
      obtain ⟨report, _, _, _, _, first, ending⟩ := Session.traceOfBind trace
      cases ending
      obtain ⟨_, _, _, rebuilt⟩ := Session.recreateReport first
      obtain ⟨copied, filled, dropped⟩ := Session.rebuildReport rebuilt
      exact ⟨report, rfl, reportLists copied filled (dropped.trans (TableDiff.computeParts computed).2.2)⟩

namespace CopyPlan

def memberDiff : TableDiff where
  missing := [memberModel.columns[2], memberModel.columns[4]]
  altered := [memberModel.columns[0], memberModel.columns[1]]
  obsolete := ["phone"]
  indicesEqual := true
  uniquesEqual := true

def memberRebuild : List (Request × Reply × Unit) :=
  [(Change.request .sqlite (.renameTable "member" "member_original"), .answered [] 0, ()),
    (Change.request .sqlite (.ofModel memberModel), .answered [] 0, ()),
    (.transaction .start, .answered [] 0, ()),
    (CopyPlan.request .sqlite (ofModel .sqlite memberModel memberTable), .answered [] 2, ()),
    (.transaction .commit, .answered [] 0, ()),
    (Change.request .sqlite (.dropTable "member_original"), .answered [] 0, ())]

def memberAda : StoredRow
  | "id" => .int 1
  | "name" => .text "Ada"
  | "city" => .text "Turin"
  | "phone" => .text "7-11"
  | _ => .null

def memberUnnamed : StoredRow
  | "id" => .int 2
  | "city" => .text "Genoa"
  | _ => .null

theorem memberRowsCarriedOver :
    (memberModel.names.Nodup ∧ memberTable.names.Nodup ∧
      TableDiff.compute .sqlite memberModel memberTable = .ok memberDiff ∧ memberDiff.strategy = .recreate) ∧
    (ofModel .sqlite memberModel memberTable).text .sqlite =
      "INSERT INTO member ([id],[name],[age],[city]) " ++
        "SELECT [id], COALESCE([name],''), 0, [city] FROM member_original" ∧
    [memberAda, memberUnnamed].mapM (ofModel .sqlite memberModel memberTable).written? =
      some [[("id", .int 1), ("name", .text "Ada"), ("age", .int 0), ("city", .text "Turin")],
        [("id", .int 2), ("name", .text ""), ("age", .int 0), ("city", .text "Genoa")]] ∧
    (∃ copied, [memberAda, memberUnnamed].mapM (ofModel .sqlite memberModel memberTable).written? = some copied ∧
      List.Forall₂ (Carried .sqlite memberModel memberTable) [memberAda, memberUnnamed] copied) ∧
    ∃ report, (Session.updateTable .sqlite memberModel memberTable).followed memberRebuild =
      .done (.recreated report) ∧ report.Lists memberModel memberTable := by
  have computed : TableDiff.compute .sqlite memberModel memberTable = .ok memberDiff := by rfl
  have carried := rowsCarriedOver (by decide) (by decide) computed rfl
  have asked : (Session.updateTable .sqlite memberModel memberTable).accepts memberRebuild = true := by
    decide +kernel
  have followed : (Session.updateTable .sqlite memberModel memberTable).followed memberRebuild =
      .done (.recreated ⟨["id", "name", "city"], ["age"], ["phone"], 2⟩) := by rfl
  have trace := Session.followedTrace asked (Session.anyAnswer () memberRebuild)
  obtain ⟨report, same, lists⟩ := (carried.2 _ () _ _ _ trace).2 _ followed
  refine ⟨⟨by decide, by decide, computed, rfl⟩, by rfl, by rfl, carried.1 _, report, ?_, lists⟩
  rw [followed, same]

end CopyPlan

end LiveSchema
