import LiveSchema.Model
/-! What the declaration of a model guarantees: its columns have distinct names and generic types, and its
groups have distinct names and hold columns of the model, at least one each. Whatever every added field
keeps holds of the model in the end. -/
namespace LiveSchema

structure Column.IsDeclared (c : Column) : Prop where
  typed : ∃ type, c.valueType = some type
  generic : c.dbType = ""

namespace FieldSpec
variable {spec : FieldSpec} {draft : FieldDraft}

theorem appliedDeclared (declared : draft.column.IsDeclared) (option : FieldOption) :
    (draft.apply option).column.IsDeclared := by
  cases option <;> exact ⟨declared.typed, declared.generic⟩

theorem draftDeclared (read : spec.draft = .ok draft) : draft.column.IsDeclared := by
  have kept {options : List (List Char)} {before after : FieldDraft}
      (declared : before.column.IsDeclared) (applied : spec.draftFrom before options = .ok after) :
      after.column.IsDeclared := by
    induction options generalizing before with
    | nil => cases applied; exact declared
    | cons option rest ih =>
      simp only [draftFrom] at applied
      split at applied
      · exact ih (appliedDeclared declared _) applied
      · contradiction
  have started : (FieldDraft.start spec).column.IsDeclared := ⟨⟨spec.type, rfl⟩, rfl⟩
  exact kept started read

end FieldSpec

structure GroupsOf (columns : List String) (groups : List ColumnGroup) : Prop where
  filled : ∀ g ∈ groups, g.columns ≠ []
  within : ∀ g ∈ groups, ∀ name ∈ g.columns, name ∈ columns
  distinct : (groups.map (·.name)).Nodup

section Groups
variable {columns more : List String} {groups : List ColumnGroup} {column name : String}

theorem groupsMono (keeps : GroupsOf columns groups) (subset : ∀ c ∈ columns, c ∈ more) :
    GroupsOf more groups :=
  ⟨keeps.filled, fun g member c inside => subset c (keeps.within g member c inside), keeps.distinct⟩

theorem addToGroupNames (column : String) (groups : List ColumnGroup) (name : String) :
    ∀ other, other ∈ (addToGroup column groups name).map (·.name) ↔
      other = name ∨ other ∈ groups.map (·.name) := by
  intro other
  induction groups with
  | nil => simp [addToGroup]
  | cons g rest ih =>
    unfold addToGroup
    split
    · rename_i same
      simp [← same]
    · simp only [List.map_cons, List.mem_cons, ih]
      exact or_left_comm

theorem addToGroupKeeps (keeps : GroupsOf columns groups) (member : column ∈ columns)
    (name : String) : GroupsOf columns (addToGroup column groups name) := by
  induction groups with
  | nil =>
    refine ⟨?_, ?_, ?_⟩ <;> simp [addToGroup, member]
  | cons g rest ih =>
    have others : GroupsOf columns rest :=
      ⟨fun h inside => keeps.filled h (List.mem_cons_of_mem g inside),
        fun h inside => keeps.within h (List.mem_cons_of_mem g inside),
        (List.nodup_cons.mp keeps.distinct).2⟩
    have here := keeps.within g List.mem_cons_self
    have apart := (List.nodup_cons.mp keeps.distinct).1
    unfold addToGroup
    split
    · refine ⟨?_, ?_, keeps.distinct⟩
      · intro h inside
        rcases List.mem_cons.mp inside with rfl | inside
        · simp
        · exact others.filled h inside
      · intro h inside c isColumn
        rcases List.mem_cons.mp inside with rfl | inside
        · rcases List.mem_append.mp isColumn with old | new
          · exact here c old
          · exact List.mem_singleton.mp new ▸ member
        · exact others.within h inside c isColumn
    · rename_i differs
      have added := ih others
      refine ⟨?_, ?_, ?_⟩
      · exact List.forall_mem_cons.mpr ⟨keeps.filled g List.mem_cons_self, added.filled⟩
      · exact List.forall_mem_cons.mpr ⟨here, added.within⟩
      · refine List.nodup_cons.mpr ⟨fun twice => ?_, added.distinct⟩
        rcases (addToGroupNames column rest name _).mp twice with same | again
        · exact differs same
        · exact apart again

theorem addToGroupsKeep (keeps : GroupsOf columns groups) (member : column ∈ columns)
    (names : List String) : GroupsOf columns (names.foldl (addToGroup column) groups) := by
  induction names generalizing groups with
  | nil => exact keeps
  | cons name rest ih => exact ih (addToGroupKeeps keeps member name)

end Groups

end LiveSchema

namespace LiveSchema.Model

theorem declareSource {m n : Model} {spec : FieldSpec} (declared : m.declare spec = .ok n) :
    ∃ draft, spec.draft = .ok draft ∧ m.column? draft.column.name = none ∧ n = m.add draft := by
  unfold declare at declared
  cases read : spec.draft with
  | error e => simp [read, bind, Except.bind] at declared
  | ok draft =>
    simp only [read, bind, Except.bind] at declared
    split at declared
    · contradiction
    · rename_i fresh
      exact ⟨draft, rfl, by simpa using fresh, (Except.ok.inj declared).symm⟩

theorem declareAllKeeps (kept : Model → Prop)
    (step : ∀ m spec draft, FieldSpec.draft spec = .ok draft →
      m.column? draft.column.name = none → kept m → kept (m.add draft))
    {m n : Model} {fields : List FieldSpec} (start : kept m)
    (declared : m.declareAll fields = .ok n) : kept n := by
  induction fields generalizing m with
  | nil => cases declared; exact start
  | cons spec rest ih =>
    simp only [declareAll] at declared
    cases first : m.declare spec with
    | error e => simp [first, bind, Except.bind] at declared
    | ok next =>
      simp only [first, bind, Except.bind] at declared
      obtain ⟨draft, read, fresh, rfl⟩ := declareSource first
      exact ih (step m spec draft read fresh start) declared

theorem addKeepsDistinct {m : Model} {draft : FieldDraft}
    (fresh : m.column? draft.column.name = none) (distinct : (m.columns.map (·.name)).Nodup) :
    ((m.add draft).columns.map (·.name)).Nodup := by
  have absent : draft.column.name ∉ m.columns.map (·.name) := by
    intro member
    obtain ⟨c, declared, same⟩ := List.mem_map.mp member
    simpa [same] using List.find?_eq_none.mp fresh c declared
  simp only [add, List.map_append, List.map_cons, List.map_nil]
  refine List.nodup_append.mpr ⟨distinct, by simp, ?_⟩
  intro name earlier last isLast same
  exact absent (List.mem_singleton.mp isLast ▸ same ▸ earlier)

section Built
variable {table : String} {view : Option String} {fields : List FieldSpec} {m : Model}
  (built : build table view fields = .ok m)
include built

theorem builtTable : m.table = table :=
  declareAllKeeps (·.table = table) (fun _ _ _ _ _ named => named) rfl built

theorem builtSource : m.source = view.elim .table .view :=
  declareAllKeeps (·.source = view.elim .table .view) (fun _ _ _ _ _ kept => kept) rfl built

theorem builtNamesDistinct : (m.columns.map (·.name)).Nodup :=
  declareAllKeeps (fun m : Model => (m.columns.map (·.name)).Nodup)
    (fun _ _ _ _ => addKeepsDistinct) (by simp [empty]) built

theorem builtDeclared : ∀ c ∈ m.columns, c.IsDeclared := by
  refine declareAllKeeps (fun m => ∀ c ∈ m.columns, c.IsDeclared) ?_ (by simp [empty]) built
  intro m spec draft read _ declared c member
  rcases List.mem_append.mp member with old | new
  · exact declared c old
  · exact List.mem_singleton.mp new ▸ FieldSpec.draftDeclared read

theorem builtGroups : GroupsOf (m.columns.map (·.name)) m.indices ∧
    GroupsOf (m.columns.map (·.name)) m.uniques := by
  have start : GroupsOf ((empty table (view.elim .table .view)).columns.map (·.name)) [] :=
    ⟨by simp, by simp, by simp⟩
  refine declareAllKeeps (fun m : Model => GroupsOf (m.columns.map (·.name)) m.indices ∧
    GroupsOf (m.columns.map (·.name)) m.uniques) ?_ ⟨start, start⟩ built
  intro m spec draft _ _ keeps
  have names : (m.add draft).columns.map (·.name) = m.columns.map (·.name) ++ [draft.column.name] := by
    simp [add]
  have grown (c : String) (old : c ∈ m.columns.map (·.name)) :
      c ∈ m.columns.map (·.name) ++ [draft.column.name] := List.mem_append_left _ old
  rw [names]
  exact ⟨addToGroupsKeep (groupsMono keeps.1 grown) (by simp) _,
    addToGroupsKeep (groupsMono keeps.2 grown) (by simp) _⟩

end Built

end LiveSchema.Model
