import LiveSchema.Proofs.CopiedRows
/-! Live tables whose column names differ in case. A difference matches columns by their exact names, so
it is the same for two such tables exactly if every column of the model is found in both or in neither. -/
namespace LiveSchema

def Column.caseless (c : Column) : List Char × Column := (nameKey c.name, { c with name := "" })

def ColumnGroup.caseless (g : ColumnGroup) : String × List (List Char) :=
  (g.name, g.columns.map nameKey)

structure Table.CaseVariant (live other : Table) : Prop where
  name : live.name = other.name
  columns : live.columns.map Column.caseless = other.columns.map Column.caseless
  indices : live.indices.map ColumnGroup.caseless = other.indices.map ColumnGroup.caseless
  uniques : live.uniques.map ColumnGroup.caseless = other.uniques.map ColumnGroup.caseless
  distinct : (live.columns.map fun c => nameKey c.name).Nodup

def Model.FoundAlike (m : Model) (live other : Table) : Prop :=
  ∀ c ∈ m.columns, (live.column? c.name).isSome = (other.column? c.name).isSome

instance (m : Model) (live other : Table) : Decidable (m.FoundAlike live other) := by
  unfold Model.FoundAlike; infer_instance

namespace Table
variable {live other : Table} {m : Model}

theorem keysOfCaseless {xs ys : List Column} (same : xs.map Column.caseless = ys.map Column.caseless) :
    (xs.map fun c => nameKey c.name) = ys.map fun c => nameKey c.name := by
  have keys := congrArg (List.map Prod.fst) same
  rwa [List.map_map, List.map_map] at keys

theorem CaseVariant.symm (variant : live.CaseVariant other) : other.CaseVariant live where
  name := variant.name.symm
  columns := variant.columns.symm
  indices := variant.indices.symm
  uniques := variant.uniques.symm
  distinct := keysOfCaseless variant.columns ▸ variant.distinct

theorem sameColumn (distinct : (live.columns.map fun c => nameKey c.name).Nodup) {c l : Column}
    (first : c ∈ live.columns) (second : l ∈ live.columns) (same : nameKey c.name = nameKey l.name) :
    c = l :=
  List.inj_on_of_nodup_map distinct first second same

theorem columnFound (distinct : (live.columns.map fun c => nameKey c.name).Nodup) {l : Column}
    (member : l ∈ live.columns) : live.column? l.name = some l := by
  cases found : live.column? l.name with
  | none => simpa using List.find?_eq_none.mp found l member
  | some c =>
    obtain ⟨inLive, named⟩ := CopyPlan.liveColumnSource found
    rw [sameColumn distinct inLive member (congrArg nameKey named)]

theorem counterpart (variant : live.CaseVariant other) {l : Column} (member : l ∈ live.columns) :
    ∃ k ∈ other.columns, k.caseless = l.caseless := by
  have listed : l.caseless ∈ other.columns.map Column.caseless :=
    variant.columns ▸ List.mem_map_of_mem member
  exact List.mem_map.mp listed

theorem caselessName {c l : Column} (same : c.caseless = l.caseless) (named : c.name = l.name) :
    c = l := by
  have others := congrArg Prod.snd same
  cases c
  cases l
  simp only [Column.caseless, Column.mk.injEq, true_and] at others
  simp_all

theorem foundSame (variant : live.CaseVariant other) {name : String}
    (alike : (live.column? name).isSome = (other.column? name).isSome) :
    live.column? name = other.column? name := by
  cases found : live.column? name with
  | none =>
    have absent : other.column? name = none := by simpa [found] using alike.symm
    rw [absent]
  | some l =>
    cases foundOther : other.column? name with
    | none => simp [found, foundOther] at alike
    | some k =>
      obtain ⟨member, named⟩ := CopyPlan.liveColumnSource found
      obtain ⟨otherMember, otherNamed⟩ := CopyPlan.liveColumnSource foundOther
      obtain ⟨l', here, same⟩ := counterpart variant member
      have key : nameKey l'.name = nameKey k.name :=
        (congrArg Prod.fst same).trans (congrArg nameKey (named.trans otherNamed.symm))
      have chosen : l' = k := sameColumn variant.symm.distinct here otherMember key
      subst chosen
      rw [caselessName same (otherNamed.trans named.symm)]

end Table

namespace TableDiff
variable {d : Dialect} {m : Model} {live other : Table}

theorem missingAlike (alike : m.FoundAlike live other) :
    missingIn live m.columns = missingIn other m.columns := by
  refine List.filter_congr fun c declared => ?_
  rw [← Option.not_isSome, ← Option.not_isSome, alike c declared]

theorem alikeOfMissing (same : missingIn live m.columns = missingIn other m.columns) :
    m.FoundAlike live other := by
  intro c declared
  have members : c ∈ missingIn live m.columns ↔ c ∈ missingIn other m.columns := by rw [same]
  simp only [missingIn, List.mem_filter, declared, true_and, Option.isNone_iff_eq_none] at members
  cases found : live.column? c.name <;> cases foundOther : other.column? c.name <;> simp_all

theorem alteredAlike {columns : List Column}
    (same : ∀ c ∈ columns, live.column? c.name = other.column? c.name) :
    alteredIn d live columns = alteredIn d other columns := by
  induction columns with
  | nil => rfl
  | cons c rest ih =>
    have others := ih fun c member => same c (List.mem_cons_of_mem _ member)
    simp only [alteredIn, same c List.mem_cons_self, others]

theorem modelHasColumn (distinct : (live.columns.map fun c => nameKey c.name).Nodup) {l : Column}
    (member : l ∈ live.columns) :
    (m.column? l.name).isSome =
      m.columns.any fun c => (live.column? c.name).isSome && nameKey c.name == nameKey l.name := by
  rw [Bool.eq_iff_iff, List.any_eq_true]
  constructor
  · intro known
    obtain ⟨c, found⟩ := Option.isSome_iff_exists.mp known
    have named : c.name = l.name := by simpa using List.find?_some found
    exact ⟨c, List.mem_of_find?_eq_some found, by simp [named, Table.columnFound distinct member]⟩
  · intro some
    obtain ⟨c, declared, both⟩ := some
    simp only [Bool.and_eq_true, beq_iff_eq] at both
    obtain ⟨k, found⟩ := Option.isSome_iff_exists.mp both.1
    obtain ⟨inLive, named⟩ := CopyPlan.liveColumnSource found
    have same : k = l := Table.sameColumn distinct inLive member (named ▸ both.2)
    subst same
    exact List.find?_isSome.mpr ⟨c, declared, by simpa using named.symm⟩

theorem obsoleteKeys (distinct : (live.columns.map fun c => nameKey c.name).Nodup) :
    (obsoleteIn m live).map nameKey =
      (live.columns.map fun c => nameKey c.name).filter fun key =>
        !m.columns.any fun c => (live.column? c.name).isSome && nameKey c.name == key := by
  rw [obsoleteIn, List.map_map, List.filter_map]
  refine congrArg (List.map _) (List.filter_congr fun l member => ?_)
  rw [← Option.not_isSome, modelHasColumn distinct member]
  rfl

theorem obsoleteAlike (variant : live.CaseVariant other) (alike : m.FoundAlike live other) :
    (obsoleteIn m live).map nameKey = (obsoleteIn m other).map nameKey := by
  rw [obsoleteKeys variant.distinct, obsoleteKeys variant.symm.distinct,
    Table.keysOfCaseless variant.columns]
  refine List.filter_congr fun key _ => congrArg not ?_
  rw [Bool.eq_iff_iff, List.any_eq_true, List.any_eq_true]
  refine exists_congr fun c => and_congr_right fun declared => ?_
  rw [alike c declared]

theorem computeParts {diff : TableDiff} (computed : compute d m live = .ok diff) :
    diff.missing = missingIn live m.columns ∧ alteredIn d live m.columns = .ok diff.altered ∧
      diff.obsolete = obsoleteIn m live := by
  unfold compute at computed
  cases altered : alteredIn d live m.columns with
  | error e => simp [altered, bind, Except.bind] at computed
  | ok columns =>
    simp only [altered, bind, Except.bind] at computed
    cases computed
    exact ⟨rfl, rfl, rfl⟩

def columnsFit (diff : TableDiff) : Bool :=
  diff.obsolete.isEmpty && diff.altered.isEmpty && !diff.missing.any isKeyed

theorem strategyOfParts (diff : TableDiff) :
    diff.strategy =
      if diff.columnsFit && (diff.indicesEqual && diff.uniquesEqual) then .additive else .recreate := by
  simp only [strategy, columnsFit, Bool.and_assoc]

theorem computeError {e : RenderError} :
    compute d m live = .error e ↔ alteredIn d live m.columns = .error e := by
  unfold compute
  cases alteredIn d live m.columns <;> simp [bind, Except.bind, pure, Except.pure]

theorem obsoleteIff {l : Column} (member : l ∈ live.columns) :
    l.name ∈ obsoleteIn m live ↔ m.column? l.name = none := by
  rw [obsoleteIn, List.mem_map]
  constructor
  · intro listed
    obtain ⟨k, obsolete, same⟩ := listed
    exact same ▸ Option.isNone_iff_eq_none.mp (List.mem_filter.mp obsolete).2
  · intro unknown
    exact ⟨l, List.mem_filter.mpr ⟨member, by simp [unknown]⟩, rfl⟩

theorem reportedTwice (distinct : (live.columns.map fun c => nameKey c.name).Nodup) {c l : Column}
    (declared : c ∈ m.columns) (member : l ∈ live.columns) (same : nameKey l.name = nameKey c.name) :
    c ∈ missingIn live m.columns ∧ l.name ∈ obsoleteIn m live ↔ m.column? l.name = none := by
  rw [obsoleteIff member, missingIn, List.mem_filter, Option.isNone_iff_eq_none]
  refine ⟨And.right, fun unknown => ⟨⟨declared, ?_⟩, unknown⟩⟩
  cases found : live.column? c.name with
  | none => rfl
  | some k =>
    obtain ⟨inLive, named⟩ := CopyPlan.liveColumnSource found
    have chosen : k = l := Table.sameColumn distinct inLive member (named ▸ same.symm)
    subst chosen
    have known := List.find?_eq_none.mp unknown c declared
    simp [named] at known

structure Alike (diff other : TableDiff) : Prop where
  missing : diff.missing = other.missing
  altered : diff.altered = other.altered
  obsolete : diff.obsolete.map nameKey = other.obsolete.map nameKey
  strategy : diff.strategy = other.strategy

theorem columnsFitAlike {diff diff' : TableDiff} (missing : diff.missing = diff'.missing)
    (altered : diff.altered = diff'.altered)
    (obsolete : diff.obsolete.map nameKey = diff'.obsolete.map nameKey) :
    diff.columnsFit = diff'.columnsFit := by
  have empty := congrArg List.isEmpty obsolete
  rw [List.isEmpty_map, List.isEmpty_map] at empty
  rw [columnsFit, columnsFit, missing, altered, empty]

theorem strategyAlike {diff diff' : TableDiff} (fits : diff.columnsFit = diff'.columnsFit) :
    diff.strategy = diff'.strategy ↔ (diff.columnsFit = true →
      (diff.indicesEqual && diff.uniquesEqual) = (diff'.indicesEqual && diff'.uniquesEqual)) := by
  rw [strategyOfParts, strategyOfParts, fits]
  generalize (diff.indicesEqual && diff.uniquesEqual) = groups
  generalize (diff'.indicesEqual && diff'.uniquesEqual) = groups'
  cases diff'.columnsFit <;> cases groups <;> cases groups' <;> simp

/-- Differing in case alone makes no difference exactly where every model column is found in both tables
or in neither, and the groups fit both or neither if nothing else calls for building the table anew. A
model column is missing while its counterpart is obsolete exactly where no model column bears the very
name of the counterpart. -/
theorem caseOfColumns {d : Dialect} {m : Model} {live other : Table}
    (variant : live.CaseVariant other) :
    (m.FoundAlike live other → ∀ e, compute d m live = .error e ↔ compute d m other = .error e) ∧
    (∀ diff diff', compute d m live = .ok diff → compute d m other = .ok diff' →
      (diff.Alike diff' ↔ m.FoundAlike live other ∧ (diff.columnsFit = true →
        (diff.indicesEqual && diff.uniquesEqual) = (diff'.indicesEqual && diff'.uniquesEqual)))) ∧
    ∀ diff, compute d m live = .ok diff → ∀ c ∈ m.columns, ∀ l ∈ live.columns,
      nameKey l.name = nameKey c.name →
      (c ∈ diff.missing ∧ l.name ∈ diff.obsolete ↔ m.column? l.name = none) := by
  have sameColumns (alike : m.FoundAlike live other) :
      alteredIn d live m.columns = alteredIn d other m.columns :=
    alteredAlike fun c declared => Table.foundSame variant (alike c declared)
  refine ⟨?_, ?_, ?_⟩
  · intro alike e
    rw [computeError, computeError, sameColumns alike]
  · intro diff diff' computed computed'
    obtain ⟨missing, altered, obsolete⟩ := computeParts computed
    obtain ⟨missing', altered', obsolete'⟩ := computeParts computed'
    constructor
    · intro same
      have alike : m.FoundAlike live other := alikeOfMissing (by rw [← missing, ← missing', same.missing])
      have fits := columnsFitAlike same.missing same.altered same.obsolete
      exact ⟨alike, (strategyAlike fits).mp same.strategy⟩
    · intro both
      obtain ⟨alike, groups⟩ := both
      have sameMissing : diff.missing = diff'.missing := by rw [missing, missing', missingAlike alike]
      have sameAltered : diff.altered = diff'.altered := by
        rw [sameColumns alike, altered'] at altered
        exact (Except.ok.inj altered).symm
      have sameObsolete : diff.obsolete.map nameKey = diff'.obsolete.map nameKey := by
        rw [obsolete, obsolete', obsoleteAlike variant alike]
      have fits := columnsFitAlike sameMissing sameAltered sameObsolete
      exact ⟨sameMissing, sameAltered, sameObsolete, (strategyAlike fits).mpr groups⟩
  · intro diff computed c declared l member same
    obtain ⟨missing, _, obsolete⟩ := computeParts computed
    rw [missing, obsolete]
    exact reportedTwice variant.distinct declared member same

def accountFields : List FieldSpec := [⟨"Id", .int, ""⟩, ⟨"Note", .text, ""⟩]

def accountModel : Model :=
  { Model.empty "account" .table with
    columns := [{ Column.declared "id" .int with field := some "Id" },
      { Column.declared "note" .text with field := some "Note" }] }

def accountTable (key : String) : Table :=
  { name := "account"
    columns := [Column.introspected key "INTEGER", Column.introspected "note" "TEXT"] }

def accountDiff (key : String) : TableDiff :=
  ⟨[{ Column.declared "id" .int with field := some "Id" }], [], [key], true, true⟩

theorem accountVariant {key other : String} (same : nameKey key = nameKey other)
    (differs : nameKey key ≠ nameKey "note") : (accountTable key).CaseVariant (accountTable other) where
  name := rfl
  columns := by simp [accountTable, Column.caseless, Column.introspected, same]
  indices := rfl
  uniques := rfl
  distinct := by simpa [accountTable, Column.introspected] using differs

theorem accountCaseOfColumns : (accountTable "ID").CaseVariant (accountTable "iD") ∧
    compute .sqlite accountModel (accountTable "ID") = .ok (accountDiff "ID") ∧
    compute .sqlite accountModel (accountTable "iD") = .ok (accountDiff "iD") ∧
    (accountDiff "ID").Alike (accountDiff "iD") := by
  have variant : (accountTable "ID").CaseVariant (accountTable "iD") :=
    accountVariant (by decide) (by decide)
  have computed : compute .sqlite accountModel (accountTable "ID") = .ok (accountDiff "ID") := by rfl
  have computed' : compute .sqlite accountModel (accountTable "iD") = .ok (accountDiff "iD") := by rfl
  have cases := caseOfColumns (d := .sqlite) (m := accountModel) variant
  exact ⟨variant, computed, computed', (cases.2.1 _ _ computed computed').mpr ⟨by decide, fun _ => rfl⟩⟩

theorem caseMayMatter : ¬ ∀ (table : String) (fields : List FieldSpec) (m : Model) (live other : Table)
    (diff diff' : TableDiff), Model.build table none fields = .ok m → live.CaseVariant other →
    compute .sqlite m live = .ok diff → compute .sqlite m other = .ok diff' → diff.Alike diff' := by
  intro alwaysAlike
  have same := alwaysAlike "account" accountFields accountModel (accountTable "ID") (accountTable "id")
    (accountDiff "ID") ⟨[], [], [], true, true⟩ (by rfl) (accountVariant (by decide) (by decide))
    (by rfl) (by rfl)
  have strategy : Strategy.recreate = Strategy.additive := same.strategy
  cases strategy

end TableDiff

end LiveSchema
