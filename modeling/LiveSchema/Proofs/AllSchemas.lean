import LiveSchema.Proofs.Outcomes
import LiveSchema.Proofs.Requests
import Mathlib.Data.List.Basic
/-! Reading all tables and views. Of the entries of a catalog some are the database's own and some have no stored
definition; the others are read one after another until one cannot be read. Whoever answers, the result holds what
was read of each, in order, or tells the first failure. -/
namespace LiveSchema
open Catalog

def CatalogEntry.isListed (reserved : String) (e : CatalogEntry) : Bool :=
  e.sql.isSome && !reserved.toList.isPrefixOf e.name.toList

namespace Session
variable {σ α β : Type} {respond : σ → Request → σ × Reply} {d : Dialect} {s t : σ} {e : CatalogEntry}
  {entries : List CatalogEntry} {schemas : List Schema} {f : Failure}

def readEntry (d : Dialect) (e : CatalogEntry) : Session Schema := schemaOf d e.kind e.name (e.sql.getD "")

def readings (respond : σ → Request → σ × Reply) (d : Dialect) : List CatalogEntry → σ → List (Except Failure Schema)
  | [], _ => []
  | e :: rest, s => ((readEntry d e).run respond s).1 :: readings respond d rest ((readEntry d e).run respond s).2

theorem readingsLength : (readings respond d entries s).length = entries.length := by
  induction entries generalizing s with
  | nil => rfl
  | cons e rest ih => simp [readings, ih]

section Names

theorem enteredName {t entered : Table} {texts : List (List Char)} (done : enterItems t texts = some entered) :
    entered.name = t.name := by
  induction texts generalizing t with
  | nil => cases done; rfl
  | cons item rest ih =>
    rw [enterItems] at done
    split at done
    · exact (ih done).trans rfl
    · split at done
      · exact (ih done).trans rfl
      · contradiction

theorem tableNamed {name definition : String} {t : Table} (read : readTable name definition = .ok t) :
    t.name = name := by
  unfold readTable at read
  split at read
  · rename_i found
    cases read
    simp only [table?, Option.bind_eq_bind, Option.bind_eq_some_iff] at found
    obtain ⟨_, _, entered, done, made⟩ := found
    split at made
    · contradiction
    · cases made
      exact enteredName done
  · contradiction

theorem runThen (p : Session α) (g : α → Session β) (s : σ) :
    (p >>= g).run respond s = match p.run respond s with
      | (.ok a, t) => (g a).run respond t
      | (.error e, t) => (.error e, t) := by
  change (p.bind g).run respond s = _
  rw [runSeq]
  cases p.run respond s with
  | mk result t => cases result <;> rfl

theorem runBind {p : Session α} {g : α → Session β} {b : β} (ran : ((p >>= g).run respond s).1 = .ok b) :
    ∃ a t, p.run respond s = (.ok a, t) ∧ ((g a).run respond t).1 = .ok b := by
  rw [runThen] at ran
  cases first : p.run respond s with
  | mk result t =>
    rw [first] at ran
    cases result with
    | ok a => exact ⟨a, t, rfl, ran⟩
    | error e => contradiction

theorem entryNamed {schema : Schema} (read : ((readEntry d e).run respond s).1 = .ok schema) :
    schema.name = e.name := by
  unfold readEntry schemaOf at read
  split at read
  · obtain ⟨t, _, parsed, read⟩ := runBind read
    obtain ⟨indices, _, _, made⟩ := runBind read
    cases made
    cases table : readTable e.name (e.sql.getD "") with
    | error err =>
      rw [table] at parsed
      cases parsed
    | ok found =>
      rw [table] at parsed
      cases parsed
      have named := tableNamed table
      exact named
  · split at read
    · cases read
      rfl
    · contradiction

theorem readingsNamed (read : readings respond d entries s = schemas.map .ok) :
    schemas.map (·.name) = entries.map (·.name) := by
  induction entries generalizing s schemas with
  | nil =>
    obtain rfl := List.map_eq_nil_iff.mp read.symm
    rfl
  | cons e rest ih =>
    cases schemas with
    | nil => contradiction
    | cons schema schemas =>
      obtain ⟨here, later⟩ := List.cons.inj read
      rw [List.map_cons, List.map_cons, entryNamed here, ih later]

end Names

section First
variable {rs : List (Except Failure Schema)}

theorem allOk (schemas : List Schema) : (schemas.map Except.ok).mapM id = (.ok schemas : Except Failure _) :=
  okEach.mpr (List.forall₂_map_left_iff.mpr (List.forall₂_same.mpr fun _ _ => rfl))

theorem firstError (before : List Schema) (f : Failure) (later : List (Except Failure Schema)) :
    (before.map Except.ok ++ Except.error f :: later).mapM id = (.error f : Except Failure (List Schema)) :=
  errorEach.mpr ⟨before.map .ok, .error f, later, rfl, List.forall_mem_map.mpr fun schema _ => ⟨schema, rfl⟩, rfl⟩

theorem okAll (read : rs.mapM id = .ok schemas) : rs = schemas.map .ok := by
  have each := okEach.mp read
  clear read
  induction each with
  | nil => rfl
  | cons here _ ih => rw [List.map_cons, ← here, ← ih]; rfl

end First

theorem schemasNext {rest : List CatalogEntry} (listed : e.isListed "sqlite" = true) :
    schemasOf d (e :: rest) = readEntry d e >>= fun schema => schemasOf d rest >>= fun others =>
      .done (schema :: others) := by
  simp only [CatalogEntry.isListed, Bool.and_eq_true, Bool.not_eq_true'] at listed
  obtain ⟨sql, stored⟩ := Option.isSome_iff_exists.mp listed.1
  rw [schemasOf, stored]
  simp only [listed.2, readEntry, stored]
  rfl

theorem schemasListed (d : Dialect) (entries : List CatalogEntry) :
    schemasOf d entries = schemasOf d (entries.filter (·.isListed "sqlite")) := by
  induction entries with
  | nil => rfl
  | cons e rest ih =>
    rw [List.filter_cons]
    split
    · rename_i listed
      rw [schemasNext listed, schemasNext listed, ih]
    · rename_i passed
      rw [← ih, schemasOf]
      cases stored : e.sql with
      | none => rfl
      | some sql =>
        have own : "sqlite".toList.isPrefixOf e.name.toList = true := by
          simpa [CatalogEntry.isListed, stored] using passed
        simp only [own, if_true]

theorem schemasRun (listed : ∀ e ∈ entries, e.isListed "sqlite" = true) :
    ((schemasOf d entries).run respond s).1 = (readings respond d entries s).mapM id := by
  induction entries generalizing s with
  | nil => rfl
  | cons e rest ih =>
    obtain ⟨here, others⟩ := List.forall_mem_cons.mp listed
    rw [schemasNext here, readings, List.mapM_cons, runThen]
    cases first : (readEntry d e).run respond s with
    | mk result t =>
      cases result with
      | error f => rfl
      | ok schema =>
        have later := ih others (s := t)
        dsimp only
        rw [runThen]
        cases ran : (schemasOf d rest).run respond t with
        | mk result u =>
          rw [ran] at later
          rw [← later]
          cases result <;> rfl

theorem allSchemasRun {rows : List Row} {affected : Nat}
    (answer : respond s (CatalogQuery.request .sqlite .entries) = (t, .answered rows affected))
    (told : rows.mapM CatalogEntry.ofRow? = some entries) :
    ((readAllSchemas .sqlite).run respond s).1 =
      (readings respond .sqlite (entries.filter (·.isListed "sqlite")) t).mapM id := by
  obtain ⟨next, shape, decoded⟩ : ∃ next, readAllSchemas .sqlite = .ask (CatalogQuery.request .sqlite .entries) next ∧
      next (.answered rows affected) = schemasOf .sqlite entries := by
    refine ⟨_, rfl, ?_⟩
    simp only [Session.bind, id_eq, told]
    rfl
  rw [shape, run, answer, decoded, schemasListed]
  exact schemasRun fun e member => (List.mem_filter.mp member).2

section Reserved

theorem listedLonger (listed : e.isListed "sqlite" = true) : e.isListed "sqlite_" = true := by
  simp only [CatalogEntry.isListed, Bool.and_eq_true, Bool.not_eq_true'] at listed ⊢
  refine ⟨listed.1, Bool.eq_false_iff.mpr fun own => ?_⟩
  have shorter : "sqlite".toList <+: e.name.toList :=
    List.IsPrefix.trans ⟨['_'], rfl⟩ (List.isPrefixOf_iff_prefix.mp own)
  exact Bool.eq_false_iff.mp listed.2 (List.isPrefixOf_iff_prefix.mpr shorter)

theorem listedAlike : entries.filter (·.isListed "sqlite") = entries.filter (·.isListed "sqlite_") ↔
    ∀ e ∈ entries, e.isListed "sqlite_" = true → e.isListed "sqlite" = true := by
  constructor
  · intro same e member listed
    have kept : e ∈ entries.filter (·.isListed "sqlite_") := List.mem_filter.mpr ⟨member, listed⟩
    rw [← same] at kept
    exact (List.mem_filter.mp kept).2
  · intro all
    exact List.filter_congr fun e member => Bool.eq_iff_iff.mpr ⟨listedLonger, all e member⟩

theorem listedCount (count : (entries.filter (·.isListed "sqlite")).length =
    (entries.filter (·.isListed "sqlite_")).length) :
    entries.filter (·.isListed "sqlite") = entries.filter (·.isListed "sqlite_") := by
  have among : (entries.filter (·.isListed "sqlite_")).filter (·.isListed "sqlite") =
      entries.filter (·.isListed "sqlite") := by
    rw [List.filter_filter]
    refine List.filter_congr fun e _ => Bool.eq_iff_iff.mpr ⟨fun both => ?_, fun listed => ?_⟩
    · exact (Bool.and_eq_true_iff.mp both).1
    · exact Bool.and_eq_true_iff.mpr ⟨listed, listedLonger listed⟩
  have kept : (entries.filter (·.isListed "sqlite")).Sublist (entries.filter (·.isListed "sqlite_")) := by
    rw [← among]
    exact List.filter_sublist
  exact kept.eq_of_length count

end Reserved

/-- An entry gives a schema of its name, in the order of the catalog, or its failure is told if it is the first.
This holds of all but the entries that are reserved, except that `sqlite` alone already reserves a name. -/
theorem allSchemasRead {rows : List Row} {affected : Nat}
    (answer : respond s (CatalogQuery.request .sqlite .entries) = (t, .answered rows affected))
    (told : rows.mapM CatalogEntry.ofRow? = some entries) :
    (∀ schemas, readings respond .sqlite (entries.filter (·.isListed "sqlite")) t = schemas.map .ok →
      ((readAllSchemas .sqlite).run respond s).1 = .ok schemas ∧
      schemas.map (·.name) = (entries.filter (·.isListed "sqlite")).map (·.name)) ∧
    (∀ (before : List Schema) (f : Failure) (later : List (Except Failure Schema)),
      readings respond .sqlite (entries.filter (·.isListed "sqlite")) t = before.map .ok ++ .error f :: later →
      ((readAllSchemas .sqlite).run respond s).1 = .error f) ∧
    (entries.filter (·.isListed "sqlite") = entries.filter (·.isListed "sqlite_") ↔
      ∀ e ∈ entries, e.isListed "sqlite_" = true → e.isListed "sqlite" = true) ∧
    ∀ schemas, readings respond .sqlite (entries.filter (·.isListed "sqlite_")) t = schemas.map .ok →
      (((readAllSchemas .sqlite).run respond s).1 = .ok schemas ↔
        ∀ e ∈ entries, e.isListed "sqlite_" = true → e.isListed "sqlite" = true) := by
  have ran := allSchemasRun answer told
  refine ⟨?_, ?_, listedAlike, ?_⟩
  · intro schemas read
    rw [ran, read]
    exact ⟨allOk schemas, readingsNamed read⟩
  · intro before f later read
    rw [ran, read]
    exact firstError before f later
  · intro schemas read
    rw [ran, ← listedAlike]
    constructor
    · intro found
      have listed := congrArg List.length (okAll found)
      have users := congrArg List.length read
      rw [readingsLength, List.length_map] at listed users
      exact listedCount (listed.trans users.symm)
    · intro same
      rw [same, read]
      exact allOk schemas

def libraryRows : List Row :=
  [[.text "table", .text "loan", .text "CREATE TABLE loan ([due] INTEGER)"],
    [.text "table", .text "sqlite_sequence", .text "CREATE TABLE sqlite_sequence(name,seq)"],
    [.text "view", .text "overdue", .text "SELECT * FROM loan"],
    [.text "table", .text "hidden", .null]]

def libraryEntries : List CatalogEntry :=
  [⟨"table", "loan", some "CREATE TABLE loan ([due] INTEGER)"⟩,
    ⟨"table", "sqlite_sequence", some "CREATE TABLE sqlite_sequence(name,seq)"⟩,
    ⟨"view", "overdue", some "SELECT * FROM loan"⟩, ⟨"table", "hidden", none⟩]

def loanIndex : String := "CREATE INDEX idx_loan_day ON loan (due)"

def catalogOf (rows : List Row) (_ : Unit) : Request → Unit × Reply
  | .statement (.catalog .entries) _ _ => ((), .answered rows 0)
  | .statement (.catalog (.indices "loan")) _ _ => ((), .answered [[.text loanIndex]] 0)
  | _ => ((), .answered [] 0)

def librarySchemas : List Schema :=
  [.table ⟨"loan", [Column.introspected "due" "INTEGER"], [⟨"day", ["due"]⟩], []⟩,
    .view ⟨"overdue", "SELECT * FROM loan"⟩]

theorem librarySchemasRead :
    (catalogOf libraryRows () (CatalogQuery.request .sqlite .entries) = ((), .answered libraryRows 0) ∧
      libraryRows.mapM CatalogEntry.ofRow? = some libraryEntries) ∧
    ((readAllSchemas .sqlite).run (catalogOf libraryRows) ()).1 = .ok librarySchemas ∧
    librarySchemas.map (·.name) = ["loan", "overdue"] := by
  have read : readings (catalogOf libraryRows) .sqlite (libraryEntries.filter (·.isListed "sqlite_")) () =
      librarySchemas.map .ok := by
    decide +kernel
  have listed : ∀ e ∈ libraryEntries, e.isListed "sqlite_" = true → e.isListed "sqlite" = true := by decide +kernel
  exact ⟨⟨rfl, rfl⟩, ((allSchemasRead rfl rfl).2.2.2 librarySchemas read).mpr listed, rfl⟩

def logRows : List Row := [[.text "table", .text "sqlitelog", .text "CREATE TABLE sqlitelog (a INTEGER)"]]

def logEntries : List CatalogEntry := [⟨"table", "sqlitelog", some "CREATE TABLE sqlitelog (a INTEGER)"⟩]

def logSchema : Schema := .table ⟨"sqlitelog", [Column.introspected "a" "INTEGER"], [], []⟩

theorem userTableMayBeSkipped : ¬ ∀ (respond : Unit → Request → Unit × Reply) (rows : List Row)
    (entries : List CatalogEntry) (schemas : List Schema),
    respond () (CatalogQuery.request .sqlite .entries) = ((), .answered rows 0) →
    rows.mapM CatalogEntry.ofRow? = some entries → (∀ e ∈ entries, e.kind = "table" ∨ e.kind = "view") →
    readings respond .sqlite (entries.filter (·.isListed "sqlite_")) () = schemas.map .ok →
    ((readAllSchemas .sqlite).run respond ()).1 = .ok schemas := by
  intro allListed
  have read : readings (catalogOf logRows) .sqlite (logEntries.filter (·.isListed "sqlite_")) () =
      [logSchema].map .ok := by
    decide +kernel
  have skipped : ((readAllSchemas .sqlite).run (catalogOf logRows) ()).1 = .ok [] := by decide +kernel
  have found := allListed (catalogOf logRows) logRows logEntries [logSchema] rfl rfl (by decide) read
  cases skipped.symm.trans found

end Session

end LiveSchema
