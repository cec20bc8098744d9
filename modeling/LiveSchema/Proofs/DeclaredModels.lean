import LiveSchema.Proofs.FieldOptions
import Mathlib.Data.List.Nodup
/-! The model that fields declare. It exists exactly if all options of all fields are in the language and no two
columns come to the same name; it has a column for each field, and groups as the options mention them. If there
is no such model, the first field is told that does not fit those before it. -/
namespace LiveSchema

theorem nodupNext {α : Type} {xs : List α} {x : α} : (xs ++ [x]).Nodup ↔ x ∉ xs ∧ xs.Nodup :=
  List.nodup_append_comm.trans List.nodup_cons

section Groups
variable {α : Type} [DecidableEq α] {column group : String} {groups : List ColumnGroup}

theorem firstMentions (xs : List α) (x : α) :
    (xs ++ [x]).eraseDups = if x ∈ xs then xs.eraseDups else xs.eraseDups ++ [x] := by
  have one : [x].eraseDups = [x] := by rw [List.eraseDups_cons]; rfl
  rw [List.eraseDups_append]
  split <;> simp_all [List.removeAll]

theorem firstMentionsDistinct (xs : List α) : xs.eraseDups.Nodup := by
  induction xs using List.reverseRecOn with
  | nil => simp
  | append_singleton xs x ih =>
    rw [firstMentions]
    split
    · exact ih
    · rename_i new
      exact nodupNext.mpr ⟨mt List.mem_eraseDups.mp new, ih⟩

theorem addToNewGroup (new : group ∉ groups.map (·.name)) :
    addToGroup column groups group = groups ++ [⟨group, [column]⟩] := by
  induction groups with
  | nil => rfl
  | cons g rest ih =>
    simp only [List.map_cons, List.mem_cons, not_or] at new
    rw [addToGroup, if_neg (Ne.symm new.1), ih new.2, List.cons_append]

theorem addToKnownGroup (distinct : (groups.map (·.name)).Nodup) (known : group ∈ groups.map (·.name)) :
    addToGroup column groups group =
      groups.map fun g => if g.name = group then { g with columns := g.columns ++ [column] } else g := by
  induction groups with
  | nil => simp at known
  | cons g rest ih =>
    obtain ⟨apart, others⟩ := List.nodup_cons.mp distinct
    rw [addToGroup, List.map_cons]
    split
    · rename_i same
      have untouched : ∀ h ∈ rest,
          (if h.name = group then { h with columns := h.columns ++ [column] } else h) = h := by
        intro h member
        have other : h.name ≠ group := fun is => apart (List.mem_map.mpr ⟨h, member, is.trans same.symm⟩)
        rw [if_neg other]
      rw [List.map_congr_left untouched, List.map_id']
    · rename_i differs
      have later : group ∈ rest.map (·.name) := by
        rcases List.mem_cons.mp known with rfl | later
        · exact absurd rfl differs
        · exact later
      rw [ih others later]

def mentioned (mentions : List (String × String)) (group : String) : List String :=
  (mentions.filter (·.1 = group)).map (·.2)

theorem mentionedAppend (mentions more : List (String × String)) (group : String) :
    mentioned (mentions ++ more) group = mentioned mentions group ++ mentioned more group := by
  rw [mentioned, List.filter_append, List.map_append]
  rfl

theorem mentionedColumn (names : List String) (column group : String) :
    mentioned (names.map (·, column)) group = List.replicate (names.count group) column := by
  induction names with
  | nil => rfl
  | cons name rest ih =>
    rw [List.map_cons, ← List.singleton_append, mentionedAppend, ih, List.count_cons]
    by_cases same : name = group
    · simp [mentioned, same, List.replicate_succ]
    · simp [mentioned, same]

theorem mentionedNext (mentions : List (String × String)) (group column name : String) :
    mentioned (mentions ++ [(group, column)]) name =
      if name = group then mentioned mentions name ++ [column] else mentioned mentions name := by
  rw [mentionedAppend]
  split
  · rename_i same
    simp [mentioned, same]
  · rename_i differs
    simp [mentioned, Ne.symm differs]

theorem unmentioned {mentions : List (String × String)} (new : group ∉ mentions.map (·.1)) :
    mentioned mentions group = [] := by
  rw [mentioned, List.map_eq_nil_iff, List.filter_eq_nil_iff]
  intro mention member
  simpa using fun same : mention.1 = group => new (same ▸ List.mem_map_of_mem member)

def gathered (mentions : List (String × String)) : List ColumnGroup :=
  (mentions.map (·.1)).eraseDups.map fun group => ⟨group, mentioned mentions group⟩

theorem gatheredNames (mentions : List (String × String)) :
    (gathered mentions).map (·.name) = (mentions.map (·.1)).eraseDups := by
  rw [gathered, List.map_map]
  exact List.map_id _

theorem gatheredNext (mentions : List (String × String)) (group column : String) :
    addToGroup column (gathered mentions) group = gathered (mentions ++ [(group, column)]) := by
  have names := gatheredNames mentions
  have first := firstMentions (mentions.map (·.1)) group
  by_cases known : group ∈ mentions.map (·.1)
  · have distinct : ((gathered mentions).map (·.name)).Nodup := names ▸ firstMentionsDistinct _
    have member : group ∈ (gathered mentions).map (·.name) := names ▸ List.mem_eraseDups.mpr known
    rw [if_pos known] at first
    rw [addToKnownGroup distinct member, gathered, gathered, List.map_append, List.map_singleton, first,
      List.map_map]
    refine List.map_congr_left fun name _ => ?_
    simp only [Function.comp_apply, mentionedNext]
    split <;> rfl
  · have new : group ∉ (gathered mentions).map (·.name) := names ▸ mt List.mem_eraseDups.mp known
    have others : ∀ name ∈ (mentions.map (·.1)).eraseDups,
        mentioned (mentions ++ [(group, column)]) name = mentioned mentions name := by
      intro name member
      rw [mentionedNext, if_neg]
      rintro rfl
      exact known (List.mem_eraseDups.mp member)
    have own : mentioned (mentions ++ [(group, column)]) group = [column] := by
      rw [mentionedNext, if_pos rfl, unmentioned known, List.nil_append]
    rw [if_neg known] at first
    rw [addToNewGroup new, gathered, gathered, List.map_append, List.map_singleton, first, List.map_append,
      List.map_singleton, own]
    exact congrArg (· ++ _) (List.map_congr_left fun name member => by rw [others name member])

theorem gatheredAll (column : String) (names : List String) (mentions : List (String × String)) :
    names.foldl (addToGroup column) (gathered mentions) = gathered (mentions ++ names.map (·, column)) := by
  induction names generalizing mentions with
  | nil => simp
  | cons name rest ih => rw [List.foldl_cons, gatheredNext, ih, List.append_assoc]; rfl

end Groups

namespace Model

def groups (m : Model) : GroupKind → List ColumnGroup
  | .index => m.indices
  | .unique => m.uniques

def mentions (kind : GroupKind) (ds : List Declaration) : List (String × String) :=
  ds.flatMap fun d => (d.groups kind).map (·, d.name)

def Distinct (ds : List Declaration) : Prop := (ds.map (·.name)).Nodup

theorem distinctNext {ds : List Declaration} {d : Declaration} :
    Distinct (ds ++ [d]) ↔ d.name ∉ ds.map (·.name) ∧ Distinct ds := by
  rw [Distinct, List.map_append, List.map_singleton]
  exact nodupNext

theorem distinctFront {ds es : List Declaration} (distinct : Distinct (ds ++ es)) : Distinct ds := by
  rw [Distinct, List.map_append] at distinct
  exact (List.nodup_append.mp distinct).1

def declaring (table : String) (view : Option String) (ds : List Declaration) : Model where
  table := table
  source := view.elim .table .view
  columns := ds.map (·.column)
  indices := gathered (mentions .index ds)
  uniques := gathered (mentions .unique ds)

/-- What is wrong with a field behind others: its first option that is not in the language, or else the name of
its column. -/
inductive Offence (table : String) (ds : List Declaration) (spec : FieldSpec) : ModelError → Prop
  | option {before after : List (List Char)} {text : List Char} (split : spec.optionTexts = before ++ text :: after)
    (earlier : ∀ known ∈ before, ∃ o : FieldOption, o.WrittenAs known)
    (unknown : ∀ o : FieldOption, ¬ o.WrittenAs text) :
    Offence table ds spec (.invalidOption spec.name (String.ofList text))
  | column (d : Declaration) (own : d.spec = spec) (taken : d.name ∈ ds.map (·.name)) :
    Offence table ds spec (.duplicateColumn table d.name)

section
variable {table : String} {view : Option String} {ds : List Declaration} {spec : FieldSpec} {m : Model}
  {e : ModelError} {fields : List FieldSpec}

theorem declaringGroups (kind : GroupKind) :
    (declaring table view ds).groups kind = gathered (mentions kind ds) := by
  cases kind <;> rfl

theorem declaringNext (d : Declaration) :
    (declaring table view ds).add d.draft = declaring table view (ds ++ [d]) := by
  have next (kind : GroupKind) : (d.groups kind).foldl (addToGroup d.name) (gathered (mentions kind ds)) =
      gathered (mentions kind (ds ++ [d])) := by
    rw [gatheredAll, mentions, mentions, List.flatMap_append, List.flatMap_singleton]
  simp only [add, declaring, List.map_append, List.map_singleton]
  rw [← next .index, ← next .unique]
  rfl

theorem declaringColumn {name : String} :
    ((declaring table view ds).column? name).isSome ↔ name ∈ ds.map (·.name) := by
  simp [column?, declaring, Declaration.name]

theorem declareNext : (declaring table view ds).declare spec = .ok m ↔
    ∃ d : Declaration, d.spec = spec ∧ d.name ∉ ds.map (·.name) ∧ declaring table view (ds ++ [d]) = m := by
  rw [declare, okThen]
  constructor
  · rintro ⟨draft, read, added⟩
    obtain ⟨d, own, rfl⟩ := Declaration.draftRead.mp read
    split at added
    · contradiction
    · rename_i fresh
      exact ⟨d, own, mt declaringColumn.mpr fresh, (declaringNext d).symm.trans (Except.ok.inj added)⟩
  · rintro ⟨d, own, fresh, rfl⟩
    exact ⟨d.draft, Declaration.draftRead.mpr ⟨d, own, rfl⟩,
      (if_neg (mt declaringColumn.mp fresh)).trans (congrArg Except.ok (declaringNext d))⟩

theorem declareRefused : (declaring table view ds).declare spec = .error e ↔ Offence table ds spec e := by
  rw [declare, errorThen]
  constructor
  · rintro (refused | ⟨draft, read, failed⟩)
    · obtain ⟨before, text, after, split, earlier, unknown, rfl⟩ := FieldSpec.draftFromRefused.mp refused
      exact .option split earlier unknown
    · obtain ⟨d, own, rfl⟩ := Declaration.draftRead.mp read
      split at failed
      · rename_i taken
        cases failed
        exact .column d own (declaringColumn.mp taken)
      · contradiction
  · rintro (⟨split, earlier, unknown⟩ | ⟨d, own, taken⟩)
    · exact .inl (FieldSpec.draftFromRefused.mpr ⟨_, _, _, split, earlier, unknown, rfl⟩)
    · exact .inr ⟨d.draft, Declaration.draftRead.mpr ⟨d, own, rfl⟩, if_pos (declaringColumn.mpr taken)⟩

theorem declareAllNext (distinct : Distinct ds) : (declaring table view ds).declareAll fields = .ok m ↔
    ∃ es : List Declaration, es.map (·.spec) = fields ∧ Distinct (ds ++ es) ∧
      declaring table view (ds ++ es) = m := by
  induction fields generalizing ds with
  | nil => simp [declareAll, distinct]
  | cons spec rest ih =>
    rw [declareAll, okThen]
    constructor
    · rintro ⟨next, first, others⟩
      obtain ⟨d, rfl, fresh, rfl⟩ := declareNext.mp first
      obtain ⟨es, rfl, all, rfl⟩ := (ih (distinctNext.mpr ⟨fresh, distinct⟩)).mp others
      rw [List.append_assoc] at all
      exact ⟨d :: es, rfl, all, by rw [List.append_assoc]; rfl⟩
    · rintro ⟨es, specs, all, rfl⟩
      obtain ⟨d, es, rfl, rfl, rfl⟩ := List.map_eq_cons_iff.mp specs
      have whole : ds ++ [d] ++ es = ds ++ d :: es := (List.append_cons ds d es).symm
      have front := distinctFront (whole ▸ all)
      exact ⟨_, declareNext.mpr ⟨d, rfl, (distinctNext.mp front).1, rfl⟩,
        (ih front).mpr ⟨es, rfl, whole ▸ all, congrArg _ whole⟩⟩

theorem declareAllRefused (distinct : Distinct ds) : (declaring table view ds).declareAll fields = .error e ↔
    ∃ (es : List Declaration) (spec : FieldSpec) (after : List FieldSpec), fields = es.map (·.spec) ++ spec :: after ∧
      Distinct (ds ++ es) ∧ Offence table (ds ++ es) spec e := by
  induction fields generalizing ds with
  | nil => simp [declareAll]
  | cons spec rest ih =>
    rw [declareAll, errorThen]
    constructor
    · rintro (here | ⟨next, first, later⟩)
      · exact ⟨[], spec, rest, rfl, by rwa [List.append_nil], by rwa [List.append_nil, ← declareRefused]⟩
      · obtain ⟨d, rfl, fresh, rfl⟩ := declareNext.mp first
        obtain ⟨es, other, after, rfl, all, offence⟩ := (ih (distinctNext.mpr ⟨fresh, distinct⟩)).mp later
        rw [List.append_assoc] at all offence
        exact ⟨d :: es, other, after, rfl, all, offence⟩
    · rintro ⟨es, other, after, split, all, offence⟩
      cases es with
      | nil =>
        cases split
        rw [List.append_nil] at offence
        exact .inl (declareRefused.mpr offence)
      | cons d es =>
        cases split
        rw [List.append_cons] at all offence
        have front := distinctFront all
        exact .inr ⟨_, declareNext.mpr ⟨d, rfl, (distinctNext.mp front).1, rfl⟩,
          (ih front).mpr ⟨es, other, after, rfl, all, offence⟩⟩

theorem builtFrom : build table view fields = .ok m ↔
    ∃ ds : List Declaration, ds.map (·.spec) = fields ∧ Distinct ds ∧ declaring table view ds = m := by
  have none : Distinct [] := List.nodup_nil
  exact declareAllNext none

theorem buildRefused : build table view fields = .error e ↔
    ∃ (before : List Declaration) (spec : FieldSpec) (after : List FieldSpec),
      fields = before.map (·.spec) ++ spec :: after ∧ Distinct before ∧ Offence table before spec e := by
  have none : Distinct [] := List.nodup_nil
  exact declareAllRefused none

theorem declarableAll : (∃ ds : List Declaration, ds.map (·.spec) = fields) ↔
    ∀ spec ∈ fields, ∀ text ∈ spec.optionTexts, ∃ o : FieldOption, o.WrittenAs text := by
  simp only [← Declaration.declarable]
  constructor
  · rintro ⟨ds, rfl⟩ spec member
    obtain ⟨d, -, own⟩ := List.mem_map.mp member
    exact ⟨d, own⟩
  · intro each
    induction fields with
    | nil => exact ⟨[], rfl⟩
    | cons spec rest ih =>
      obtain ⟨⟨d, rfl⟩, others⟩ := List.forall_mem_cons.mp each
      obtain ⟨ds, rfl⟩ := ih others
      exact ⟨d :: ds, rfl⟩

theorem mentionedNames (kind : GroupKind) : (mentions kind ds).map (·.1) = ds.flatMap (·.groups kind) := by
  simp [mentions, List.map_flatMap, Function.comp_def]

theorem groupMentioned {kind : GroupKind} {group : String} {d : Declaration} :
    group ∈ d.groups kind ↔ kind.option group ∈ d.options := by
  simp [Declaration.groups, GroupKind.namedOption]

theorem mentionedColumns (kind : GroupKind) (group : String) : mentioned (mentions kind ds) group =
    ds.flatMap fun d => List.replicate (d.options.count (kind.option group)) d.name := by
  have times (d : Declaration) : (d.groups kind).count group = d.options.count (kind.option group) := by
    rw [Declaration.groups, List.count_filterMap, List.count]
    exact List.countP_congr fun o _ => by simp [GroupKind.namedOption]
  induction ds with
  | nil => rfl
  | cons d rest ih =>
    rw [List.flatMap_cons, ← times d, ← mentionedColumn, ← ih, ← mentionedAppend]
    rfl

end

theorem modelDeclared (table : String) (view : Option String) (fields : List FieldSpec) :
    ((∃ m, build table view fields = .ok m) ↔
      (∀ spec ∈ fields, ∀ text ∈ spec.optionTexts, ∃ o : FieldOption, o.WrittenAs text) ∧
        ∀ ds : List Declaration, ds.map (·.spec) = fields → (ds.map (·.name)).Nodup) ∧
    (∀ m, build table view fields = .ok m → ∃ ds : List Declaration, ds.map (·.spec) = fields ∧
      m.columns = ds.map (·.column) ∧ ∀ kind,
        (∀ group, (∃ g ∈ m.groups kind, g.name = group) ↔ ∃ d ∈ ds, kind.option group ∈ d.options) ∧
        (m.groups kind).map (·.name) = (ds.flatMap (·.groups kind)).eraseDups ∧
        ∀ g ∈ m.groups kind, g.columns =
          ds.flatMap fun d => List.replicate (d.options.count (kind.option g.name)) d.name) ∧
    ∀ e, build table view fields = .error e ↔
      ∃ (before : List Declaration) (spec : FieldSpec) (after : List FieldSpec),
        fields = before.map (·.spec) ++ spec :: after ∧ (before.map (·.name)).Nodup ∧
          Offence table before spec e := by
  refine ⟨⟨?_, ?_⟩, ?_, fun e => buildRefused⟩
  · rintro ⟨m, built⟩
    obtain ⟨ds, specs, distinct, -⟩ := builtFrom.mp built
    refine ⟨declarableAll.mp ⟨ds, specs⟩, fun es others => ?_⟩
    rwa [List.map_injective_iff.mpr Declaration.specInjective (others.trans specs.symm)]
  · rintro ⟨known, distinct⟩
    obtain ⟨ds, specs⟩ := declarableAll.mpr known
    exact ⟨_, builtFrom.mpr ⟨ds, specs, distinct ds specs, rfl⟩⟩
  · intro m built
    obtain ⟨ds, specs, -, rfl⟩ := builtFrom.mp built
    refine ⟨ds, specs, rfl, fun kind => ?_⟩
    have names : ((declaring table view ds).groups kind).map (·.name) =
        (ds.flatMap (·.groups kind)).eraseDups := by
      rw [declaringGroups, gatheredNames, mentionedNames]
    refine ⟨fun group => ?_, names, fun g member => ?_⟩
    · rw [← List.mem_map, names, List.mem_eraseDups, List.mem_flatMap]
      simp only [groupMentioned]
    · rw [declaringGroups] at member
      obtain ⟨group, -, rfl⟩ := List.mem_map.mp member
      exact mentionedColumns kind group

example :
    (build "t" none [⟨"Name", .text, "column=n, index=by name,, column = label=1 ,index=by name"⟩]).map (·.indices) =
      .ok [⟨"by name", ["label=1", "label=1"]⟩] := by rfl

end Model

end LiveSchema
