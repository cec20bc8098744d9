import LiveSchema.Proofs.ChangeEffects
import LiveSchema.Proofs.ColumnCase
import LiveSchema.Proofs.GroupMatching
/-! Stored tables of which their model asks nothing more: however such a table is read, the difference is
empty and there is nothing to change. A table made from its model is one, and a table altered in place
becomes one. -/
namespace LiveSchema

structure StoredTable.Settles (t : StoredTable) (m : Model) : Prop where
  columns : ∀ c ∈ m.columns, ∃ l, (t.columns.map Column.stored).find? (·.name = c.name) = some l ∧
    TableDiff.isAltered .sqlite l c = .ok false
  known : ∀ l ∈ t.columns, m.column? l.name ≠ none
  uniques : ColumnGroup.sameGroups t.uniques m.uniques = true
  indices : ∀ i ∈ t.indices, ∃ g ∈ m.indices, IndexNamed m.table i.name g.name ∧ i.covers g = true
  complete : ∀ g ∈ m.indices, ∃ i ∈ t.indices, IndexNamed m.table i.name g.name
  distinct : (t.indices.map (nameKey ·.name)).Nodup

section Names
variable {a b table index group : String}

theorem indexStartKey (same : nameKey a = nameKey b) :
    nameKey ("idx_" ++ a ++ "_") = nameKey ("idx_" ++ b ++ "_") := by
  have start (name : String) : nameKey ("idx_" ++ name ++ "_") =
      nameKey "idx_" ++ (nameKey name ++ nameKey "_") := by
    simp [nameKey]
  rw [start, start, same]

theorem namedCongr (same : nameKey a = nameKey b) (named : IndexNamed a index group) :
    IndexNamed b index group := by
  obtain ⟨start, whole, key⟩ := named
  exact ⟨start, whole, key.trans (indexStartKey same)⟩

theorem namedKey (named : IndexNamed table index group) :
    nameKey index = nameKey (Dialect.sqlite.indexName table group) := by
  obtain ⟨start, rfl, key⟩ := named
  rw [Store.indexKey, ← key]
  simp [nameKey]

theorem namedOnce {other : String} (left : IndexNamed table index group)
    (right : IndexNamed table index other) : group = other := by
  obtain ⟨start, rfl, key⟩ := left
  obtain ⟨start', whole, key'⟩ := right
  have lengths : start.toList.length = start'.toList.length := by
    simpa [nameKey] using congrArg List.length (key.trans key'.symm)
  have texts := congrArg String.toList whole
  rw [String.toList_append, String.toList_append] at texts
  exact String.toList_inj.mp (List.append_inj texts lengths).2

theorem namedIndexOf (table : String) (g : ColumnGroup) :
    IndexNamed table (Store.indexOf table g).name g.name :=
  ⟨"idx_" ++ table ++ "_", rfl, rfl⟩

theorem lowerNamesDistinct {groups : List ColumnGroup}
    (lower : ∀ g ∈ groups, nameKey g.name = g.name.toList) (names : (groups.map (·.name)).Nodup) :
    (groups.map (nameKey ·.name)).Nodup := by
  have texts := names.map (f := String.toList) fun _ _ => String.toList_injective
  rw [List.map_congr_left lower]
  rwa [List.map_map] at texts

theorem indexKeys (table : String) (groups : List ColumnGroup) :
    (groups.map fun g => nameKey (Dialect.sqlite.indexName table g.name)) =
      (groups.map (nameKey ·.name)).map (nameKey ("idx_" ++ table ++ "_") ++ ·) := by
  rw [List.map_map]
  exact List.map_congr_left fun g _ => Store.indexKey table g.name

end Names

section Reading
variable {t : StoredTable} {m : Model} {n : String} {groups : List ColumnGroup}
  (same : nameKey n = nameKey m.table)

theorem readOf {indices : List ColumnGroup} (read : List.Forall₂ (ReadsAs n) indices groups) :
    (∀ f ∈ groups, ∃ i ∈ indices, ReadsAs n i f) ∧ ∀ i ∈ indices, ∃ f ∈ groups, ReadsAs n i f := by
  induction read with
  | nil => simp
  | @cons i f indices groups here _ ih =>
    refine ⟨List.forall_mem_cons.mpr ⟨⟨i, List.mem_cons_self, here⟩, ?_⟩,
      List.forall_mem_cons.mpr ⟨⟨f, List.mem_cons_self, here⟩, ?_⟩⟩
    · exact fun f' member => (ih.1 f' member).imp fun i' => And.imp_left (List.mem_cons_of_mem i)
    · exact fun i' member => (ih.2 i' member).imp fun f' => And.imp_left (List.mem_cons_of_mem f)

theorem readKeys {indices : List ColumnGroup} (read : List.Forall₂ (ReadsAs n) indices groups) :
    indices.map (nameKey ·.name) =
      groups.map fun f => nameKey (Dialect.sqlite.indexName n f.name) := by
  induction read with
  | nil => rfl
  | cons here _ ih => rw [List.map_cons, List.map_cons, ih, namedKey here.1]

theorem readDistinct {indices : List ColumnGroup} (read : List.Forall₂ (ReadsAs n) indices groups)
    (distinct : (indices.map (nameKey ·.name)).Nodup) : (groups.map (nameKey ·.name)).Nodup := by
  rw [readKeys read, indexKeys] at distinct
  exact distinct.of_map _

theorem namesDistinct (keys : (groups.map (nameKey ·.name)).Nodup) : (groups.map (·.name)).Nodup := by
  refine List.Nodup.of_map nameKey ?_
  rwa [List.map_map]

include same

theorem readGroup (settled : t.Settles m) (read : List.Forall₂ (ReadsAs n) t.indices groups) :
    (∀ f ∈ groups, ∃ g ∈ m.indices, g.name = f.name ∧ f.covers g = true) ∧
      ∀ g ∈ m.indices, ∃ f ∈ groups, f.name = g.name := by
  refine ⟨fun f member => ?_, fun g member => ?_⟩
  · obtain ⟨i, inside, named, columns⟩ := (readOf read).1 f member
    obtain ⟨g, declared, named', covers⟩ := settled.indices i inside
    refine ⟨g, declared, namedOnce named' (namedCongr same named), ?_⟩
    rwa [ColumnGroup.covers, ← columns]
  · obtain ⟨i, inside, named'⟩ := settled.complete g member
    obtain ⟨f, read, named, _⟩ := (readOf read).2 i inside
    exact ⟨f, read, namedOnce (namedCongr same named) named'⟩

end Reading

namespace TableDiff
variable {t : StoredTable} {m : Model} {n : String} {groups : List ColumnGroup}

theorem nothingAltered {live : Table} {columns : List Column}
    (each : ∀ c ∈ columns, ∃ l, live.column? c.name = some l ∧ isAltered .sqlite l c = .ok false) :
    missingIn live columns = [] ∧ alteredIn .sqlite live columns = .ok [] := by
  induction columns with
  | nil => exact ⟨rfl, rfl⟩
  | cons c rest ih =>
    obtain ⟨l, found, unaltered⟩ := each c List.mem_cons_self
    obtain ⟨missing, altered⟩ := ih fun c' member => each c' (List.mem_cons_of_mem c member)
    constructor
    · rw [missingIn, List.filter_cons, found]
      exact missing
    · rw [alteredIn, found]
      simp only [unaltered, altered]
      rfl

theorem settledUniques (settled : t.Settles m) :
    ColumnGroup.sameGroups (t.reading n groups).uniques m.uniques = true :=
  (ColumnGroup.sameGroupsRenamed (fun _ => "") t.uniques m.uniques).trans settled.uniques

theorem settledDifference (settled : t.Settles m) (groupNames : (m.indices.map (·.name)).Nodup)
    (same : nameKey n = nameKey m.table) (read : List.Forall₂ (ReadsAs n) t.indices groups) :
    compute .sqlite m (t.reading n groups) = .ok ⟨[], [], [], true, true⟩ := by
  have columns : missingIn (t.reading n groups) m.columns = [] ∧
      alteredIn .sqlite (t.reading n groups) m.columns = .ok [] := nothingAltered settled.columns
  have obsolete : obsoleteIn m (t.reading n groups) = [] := by
    refine List.map_eq_nil_iff.mpr (List.filter_eq_nil_iff.mpr fun l member => ?_)
    obtain ⟨c, inside, rfl⟩ := List.mem_map.mp member
    have known : m.column? c.stored.name ≠ none := settled.known c inside
    simpa using known
  have indices : ColumnGroup.sameGroups (t.reading n groups).indices m.indices = true :=
    ColumnGroup.sameOfNames (namesDistinct (readDistinct read settled.distinct)) groupNames
      (readGroup same settled read).1 (readGroup same settled read).2
  rw [compute, columns.1, columns.2, obsolete, indices, settledUniques settled]
  rfl

theorem uniquesPresent {live : Table} (same : ColumnGroup.sameGroups live.uniques m.uniques = true) :
    m.uniques.filter (lacksUnique live) = [] := by
  refine List.filter_eq_nil_iff.mpr fun g member => ?_
  obtain ⟨f, inside, covers⟩ := ColumnGroup.coveredOfSame same member
  simpa [lacksUnique] using ⟨f, inside, covers⟩

theorem findNamed {α : Type} {name : α → String} {xs : List α} {x : α} (distinct : (xs.map name).Nodup)
    (member : x ∈ xs) : xs.find? (name · = name x) = some x := by
  cases found : xs.find? (name · = name x) with
  | none => simpa using List.find?_eq_none.mp found x member
  | some y =>
    have named : name y = name x := by simpa using List.find?_some found
    rw [List.inj_on_of_nodup_map distinct (List.mem_of_find?_eq_some found) member named]

theorem settledChanges (settled : t.Settles m) (groupNames : (m.indices.map (·.name)).Nodup)
    (same : nameKey n = nameKey m.table) (read : List.Forall₂ (ReadsAs n) t.indices groups) :
    additiveChanges ⟨[], [], [], true, true⟩ m (t.reading n groups) = [] ∧
      additiveReport ⟨[], [], [], true, true⟩ m (t.reading n groups) = {} := by
  obtain ⟨matched, complete⟩ := readGroup same settled read
  have uniques : m.uniques.filter (lacksUnique (t.reading n groups)) = [] :=
    uniquesPresent (settledUniques settled)
  have dropped : (t.reading n groups).indices.filter (fun i => (m.index? i.name).isNone) = [] := by
    refine List.filter_eq_nil_iff.mpr fun f member => ?_
    obtain ⟨g, declared, named, _⟩ := matched f member
    simpa [Model.index?] using ⟨g, declared, named⟩
  have created : m.indices.filter (!hasIndex (t.reading n groups) ·) = [] := by
    refine List.filter_eq_nil_iff.mpr fun g member => ?_
    obtain ⟨f, inside, named⟩ := complete g member
    obtain ⟨g', declared, named', covers⟩ := matched f inside
    have found : (t.reading n groups).index? g.name = some f :=
      named ▸ findNamed (namesDistinct (readDistinct read settled.distinct)) inside
    have one : g' = g := List.inj_on_of_nodup_map groupNames declared member (named'.trans named)
    simp [hasIndex, found, one ▸ covers]
  constructor
  · simp [additiveChanges, uniques, dropped, created]
  · simp [additiveReport, uniques, dropped, created]

theorem storedUnaltered (c : Column) : isAltered .sqlite c.stored c = .ok false := by
  rw [isAltered, Column.typeResolved]
  simp [Column.stored, Column.introspected, Dialect.typesEquivalent, bind, Except.bind, pure, Except.pure]

theorem findStored (columns : List Column) (name : String) :
    (columns.map Column.stored).find? (·.name = name) =
      (columns.find? (·.name = name)).map Column.stored :=
  List.find?_map ..

theorem indexKeysDistinct {table : String} (names : (groups.map (nameKey ·.name)).Nodup) :
    ((groups.map (Store.indexOf table)).map (nameKey ·.name)).Nodup := by
  rw [List.map_map]
  exact (indexKeys table groups).symm ▸ names.map (List.append_right_injective _)

theorem settledOfModel (columnNames : (m.columns.map (·.name)).Nodup)
    (groupNames : (m.indices.map (nameKey ·.name)).Nodup) (rows : List StoredRow) :
    StoredTable.Settles ⟨m.columns, m.uniques, m.indices.map (Store.indexOf m.table), rows⟩ m where
  columns c member := by
    refine ⟨c.stored, ?_, storedUnaltered c⟩
    rw [findStored, findNamed columnNames member]
    rfl
  known l member := by
    rw [Model.column?, findNamed columnNames member]
    exact Option.some_ne_none l
  uniques := ColumnGroup.sameGroupsRefl m.uniques
  indices i member := by
    obtain ⟨g, declared, rfl⟩ := List.mem_map.mp member
    exact ⟨g, declared, namedIndexOf m.table g, ColumnGroup.coversRefl g⟩
  complete g member := ⟨_, List.mem_map_of_mem member, namedIndexOf m.table g⟩
  distinct := indexKeysDistinct groupNames

section Altered
variable {live : Table} {diff : TableDiff}

theorem additiveParts (additive : diff.strategy = .additive) :
    diff.obsolete = [] ∧ diff.altered = [] ∧ diff.uniquesEqual = true := by
  rw [strategy] at additive
  split at additive
  · rename_i fits
    simp only [Bool.and_eq_true, List.isEmpty_iff] at fits
    exact ⟨fits.1.1.1.1, fits.1.1.1.2, fits.2⟩
  · contradiction

theorem computedUniques {d : Dialect} (computed : compute d m live = .ok diff) :
    diff.uniquesEqual = ColumnGroup.sameGroups live.uniques m.uniques := by
  unfold compute at computed
  cases altered : alteredIn d live m.columns with
  | error e => simp [altered, bind, Except.bind] at computed
  | ok columns =>
    simp only [altered, bind, Except.bind] at computed
    cases computed
    rfl

theorem foundUnaltered {columns : List Column} (altered : alteredIn .sqlite live columns = .ok []) :
    ∀ c ∈ columns, ∀ l, live.column? c.name = some l → isAltered .sqlite l c = .ok false := by
  induction columns with
  | nil => simp
  | cons c rest ih =>
    have decided (l : Column) : ∃ b, isAltered .sqlite l c = .ok b := by
      rw [isAltered, Column.typeResolved]
      exact ⟨_, rfl⟩
    rw [alteredIn] at altered
    cases found : live.column? c.name with
    | none =>
      simp only [found] at altered
      refine List.forall_mem_cons.mpr ⟨fun l other => ?_, ih altered⟩
      rw [found] at other
      contradiction
    | some l =>
      obtain ⟨b, here⟩ := decided l
      simp only [found, here, bind, Except.bind] at altered
      cases later : alteredIn .sqlite live rest with
      | error e => simp [later] at altered
      | ok others =>
        simp only [later, pure, Except.pure, Except.ok.injEq] at altered
        cases b with
        | true => contradiction
        | false =>
          simp only [Bool.false_eq_true, if_false] at altered
          subst altered
          refine List.forall_mem_cons.mpr ⟨fun l' other => ?_, ih later⟩
          cases found.symm.trans other
          exact here

theorem alteredColumns (columnNames : (m.columns.map (·.name)).Nodup)
    (computed : compute .sqlite m (t.reading n groups) = .ok diff) (additive : diff.strategy = .additive) :
    (∀ c ∈ m.columns, ∃ l, ((t.columns ++ diff.missing).map Column.stored).find? (·.name = c.name) = some l ∧
      isAltered .sqlite l c = .ok false) ∧
    ∀ l ∈ t.columns ++ diff.missing, m.column? l.name ≠ none := by
  obtain ⟨missing, altered, obsolete⟩ := computeParts computed
  obtain ⟨nothing, unaltered, _⟩ := additiveParts additive
  rw [unaltered] at altered
  rw [nothing] at obsolete
  constructor
  · intro c member
    rw [List.map_append, List.find?_append]
    cases found : (t.reading n groups).column? c.name with
    | some l =>
      have here : (t.columns.map Column.stored).find? (·.name = c.name) = some l := found
      exact ⟨l, by rw [here, Option.some_or], foundUnaltered altered c member l found⟩
    | none =>
      have absent : (t.columns.map Column.stored).find? (·.name = c.name) = none := found
      have lacking : c ∈ diff.missing := by
        rw [missing]
        exact List.mem_filter.mpr ⟨member, by simp [found]⟩
      have names : (diff.missing.map (·.name)).Nodup := by
        rw [missing]
        exact columnNames.sublist (List.filter_sublist.map _)
      refine ⟨c.stored, ?_, storedUnaltered c⟩
      rw [absent, Option.none_or, findStored, findNamed names lacking]
      rfl
  · intro l member
    rcases List.mem_append.mp member with old | new
    · have kept := List.filter_eq_nil_iff.mp (List.map_eq_nil_iff.mp obsolete.symm) l.stored
        (List.mem_map_of_mem old)
      have known : m.column? l.stored.name ≠ none := by simpa using kept
      exact known
    · rw [missing] at new
      rw [Model.column?, findNamed columnNames (List.mem_filter.mp new).1]
      exact Option.some_ne_none l

def indicesAfter (m : Model) (live : Table) (indices : List ColumnGroup) : List ColumnGroup :=
  Store.apartFrom m.table (m.indices.filter (!hasIndex live ·))
    (Store.apartFrom m.table (live.indices.filter fun i => (m.index? i.name).isNone) indices) ++
  (m.indices.filter (!hasIndex live ·)).map (Store.indexOf m.table)

theorem indicesAfterDistinct (groupNames : (m.indices.map (nameKey ·.name)).Nodup)
    (distinct : (t.indices.map (nameKey ·.name)).Nodup) :
    ((indicesAfter m live t.indices).map (nameKey ·.name)).Nodup := by
  have kept : (Store.apartFrom m.table (m.indices.filter (!hasIndex live ·))
      (Store.apartFrom m.table (live.indices.filter fun i => (m.index? i.name).isNone) t.indices)).Sublist
      t.indices :=
    (Store.apartFromSublist _).trans (Store.apartFromSublist _)
  have made : ((m.indices.filter (!hasIndex live ·)).map (nameKey ·.name)).Nodup :=
    groupNames.sublist (List.filter_sublist.map _)
  rw [indicesAfter, List.map_append]
  refine List.nodup_append.mpr ⟨distinct.sublist (kept.map _), indexKeysDistinct made, ?_⟩
  intro key old key' new sameKey
  obtain ⟨i, inside, rfl⟩ := List.mem_map.mp old
  obtain ⟨i', inside', rfl⟩ := List.mem_map.mp new
  obtain ⟨g, declared, rfl⟩ := List.mem_map.mp inside'
  exact (Store.memApartFrom.mp inside).2 g declared sameKey

section Indices
variable (distinct : (t.indices.map (nameKey ·.name)).Nodup) (same : nameKey n = nameKey m.table)
  (read : List.Forall₂ (ReadsAs n) t.indices groups)
include distinct same read

theorem indicesAfterNamed : ∀ i ∈ indicesAfter m (t.reading n groups) t.indices,
    ∃ g ∈ m.indices, IndexNamed m.table i.name g.name ∧ i.covers g = true := by
  intro i member
  rcases List.mem_append.mp member with kept | made
  · obtain ⟨kept, notMade⟩ := Store.memApartFrom.mp kept
    obtain ⟨inside, notDropped⟩ := Store.memApartFrom.mp kept
    obtain ⟨f, isRead, named, columns⟩ := (readOf read).2 i inside
    have named := namedCongr same named
    cases found : m.index? f.name with
    | none =>
      have dropped : f ∈ (t.reading n groups).indices.filter fun i => (m.index? i.name).isNone :=
        List.mem_filter.mpr ⟨isRead, by simp [found]⟩
      exact absurd (namedKey named) (notDropped f dropped)
    | some g =>
      have declared : g ∈ m.indices := List.mem_of_find?_eq_some found
      have sameName : g.name = f.name := by simpa using List.find?_some found
      have live : (t.reading n groups).index? g.name = some f :=
        sameName ▸ findNamed (namesDistinct (readDistinct read distinct)) isRead
      have has : hasIndex (t.reading n groups) g = true := by
        by_contra lacks
        have made : g ∈ m.indices.filter (!hasIndex (t.reading n groups) ·) :=
          List.mem_filter.mpr ⟨declared, by simpa using lacks⟩
        exact notMade g made (sameName ▸ namedKey named)
      simp only [hasIndex, live] at has
      refine ⟨g, declared, sameName ▸ named, ?_⟩
      rwa [ColumnGroup.covers, columns]
  · obtain ⟨g, rebuilt, rfl⟩ := List.mem_map.mp made
    exact ⟨g, (List.mem_filter.mp rebuilt).1, namedIndexOf m.table g, ColumnGroup.coversRefl g⟩

theorem indicesAfterComplete (groupNames : (m.indices.map (nameKey ·.name)).Nodup) : ∀ g ∈ m.indices,
    ∃ i ∈ indicesAfter m (t.reading n groups) t.indices, IndexNamed m.table i.name g.name := by
  intro g member
  cases has : hasIndex (t.reading n groups) g with
  | false =>
    have made : g ∈ m.indices.filter (!hasIndex (t.reading n groups) ·) :=
      List.mem_filter.mpr ⟨member, by simp [has]⟩
    exact ⟨_, List.mem_append_right _ (List.mem_map_of_mem made), namedIndexOf m.table g⟩
  | true =>
    unfold hasIndex at has
    split at has
    case h_2 => contradiction
    rename_i f found
    have isRead : f ∈ groups := List.mem_of_find?_eq_some found
    have sameName : f.name = g.name := by simpa using List.find?_some found
    obtain ⟨i, inside, named, _⟩ := (readOf read).1 f isRead
    have named := namedCongr same named
    refine ⟨i, List.mem_append_left _ (Store.memApartFrom.mpr ⟨Store.memApartFrom.mpr
      ⟨inside, fun f' dropped key => ?_⟩, fun g' made key => ?_⟩), sameName ▸ named⟩
    · obtain ⟨isRead', unknown⟩ := List.mem_filter.mp dropped
      have keys := Store.indexKeyIff.mp ((namedKey named).symm.trans key)
      have one : f = f' := List.inj_on_of_nodup_map (readDistinct read distinct) isRead isRead' keys
      rw [← one, sameName, Model.index?, findNamed (namesDistinct groupNames) member] at unknown
      contradiction
    · obtain ⟨declared, lacks⟩ := List.mem_filter.mp made
      have keys := Store.indexKeyIff.mp ((namedKey named).symm.trans key)
      have one : g = g' := List.inj_on_of_nodup_map groupNames member declared (sameName ▸ keys)
      subst one
      simp [hasIndex, found, has] at lacks

end Indices

theorem settledAltered (columnNames : (m.columns.map (·.name)).Nodup)
    (groupNames : (m.indices.map (nameKey ·.name)).Nodup)
    (distinct : (t.indices.map (nameKey ·.name)).Nodup) (same : nameKey n = nameKey m.table)
    (read : List.Forall₂ (ReadsAs n) t.indices groups)
    (computed : compute .sqlite m (t.reading n groups) = .ok diff) (additive : diff.strategy = .additive)
    (rows : List StoredRow) :
    StoredTable.Settles ⟨t.columns ++ diff.missing, t.uniques,
      indicesAfter m (t.reading n groups) t.indices, rows⟩ m where
  columns := (alteredColumns columnNames computed additive).1
  known := (alteredColumns columnNames computed additive).2
  uniques := by
    rw [← (additiveParts additive).2.2, computedUniques computed]
    exact (ColumnGroup.sameGroupsRenamed (fun _ => "") t.uniques m.uniques).symm
  indices := indicesAfterNamed distinct same read
  complete := indicesAfterComplete distinct same read groupNames
  distinct := indicesAfterDistinct groupNames distinct

end Altered

end TableDiff

end LiveSchema
