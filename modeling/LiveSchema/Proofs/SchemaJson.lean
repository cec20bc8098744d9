import LiveSchema.Json.Schemas
import LiveSchema.Proofs.JsonText
import Mathlib.Data.List.Nodup
import Mathlib.Logic.Relation
/-! Schemas in JSON. What is written of a table or a view is read back with all that belongs to it, also from text.
A column is read alike whatever unknown members stand beside its own, and without the members that say what is
taken for granted. -/
namespace LiveSchema
open Json

namespace Json
variable {α : Type} {read : Json → Option α} {write : α → Json}

theorem listReadBack (back : ∀ a, read (write a) = some a) (as : List α) :
    list? read (.array (as.map write)) = some as := by
  rw [list?]
  induction as with
  | nil => rfl
  | cons a as ih => simp [back, ih]

theorem onceEachIff {keys : List String} {members : List (String × Json)} :
    onceEach keys members = true ↔ ∀ k ∈ keys, (members.map (·.1)).count k ≤ 1 := by
  have counted (k : String) : (members.filter (·.1 = k)).length = (members.map (·.1)).count k := by
    rw [← List.countP_eq_length_filter, List.count, List.countP_map]
    rfl
  simp only [onceEach, List.all_eq_true, decide_eq_true_eq, counted]

theorem onceOfDistinct (keys : List String) {members : List (String × Json)}
    (distinct : (members.map (·.1)).Nodup) : onceEach keys members = true :=
  onceEachIff.mpr fun k _ => List.nodup_iff_count_le_one.mp distinct k

theorem memberAppend (key : String) (before after : List (String × Json)) :
    member? key (before ++ after) = (member? key before).or (member? key after) := by
  induction before with
  | nil => rfl
  | cons m before ih =>
    rw [List.cons_append, member?, member?, ih]
    split <;> rfl

theorem memberAbsent {key : String} {members : List (String × Json)} :
    member? key members = none ↔ key ∉ members.map (·.1) := by
  induction members with
  | nil => simp [member?]
  | cons m members ih =>
    rw [member?, List.map_cons, List.mem_cons, not_or, ← ih]
    split
    · rename_i same
      simp [same]
    · rename_i other
      simp [Ne.symm other]

end Json

namespace ValueType

theorem heldReadBack (t : ValueType) : ofHeld? t.json = some t := tagReadBack t

end ValueType

namespace Column

def assumed : List (String × Json) :=
  [("field", .null), ("value_type", .null), ("primary_key", .bool false), ("unique", .bool false),
    ("auto_increment", .bool false), ("not_null", .bool false), ("default", .null), ("db_type", .string "")]

def ofMembers? (type : Json → Option ValueType) (find : String → Option Json) : Option Column := do
  return {
    name := ← required string? (find "name")
    field := ← optional string? (find "field")
    valueType := ← optional type (find "value_type")
    primaryKey := ← withDefault false bool? (find "primary_key")
    unique := ← withDefault false bool? (find "unique")
    autoIncrement := ← withDefault false bool? (find "auto_increment")
    notNull := ← withDefault false bool? (find "not_null")
    default := ← optional string? (find "default")
    dbType := ← withDefault "" string? (find "db_type") }

section Members
variable {type : Json → Option ValueType} {members : List (String × Json)} {c : Column}

theorem columnOfMembers : ofJsonWith? type (.object members) =
    if onceEach keys members then ofMembers? type (member? · members) else none := by
  rw [ofJsonWith?, fields?]
  cases onceEach keys members <;> rfl

theorem optionalAssumed {α : Type} (read : Json → Option α) (j : Option Json) :
    optional read (j.or (some .null)) = optional read j := by
  cases j <;> rfl

theorem defaultAssumed {α : Type} {value : α} {read : Json → Option α} {given : Json}
    (same : read given = some value) (j : Option Json) :
    withDefault value read (j.or (some given)) = withDefault value read j := by
  cases j with
  | none => exact same
  | some j => rfl

theorem readAssumed (find : String → Option Json) :
    ofMembers? type (fun key => (find key).or (member? key assumed)) = ofMembers? type find := by
  have no : bool? (.bool false) = some false := rfl
  have empty : string? (.string "") = some "" := rfl
  have given : member? "name" assumed = none ∧ member? "field" assumed = some .null ∧
      member? "value_type" assumed = some .null ∧ member? "primary_key" assumed = some (.bool false) ∧
      member? "unique" assumed = some (.bool false) ∧ member? "auto_increment" assumed = some (.bool false) ∧
      member? "not_null" assumed = some (.bool false) ∧ member? "default" assumed = some .null ∧
      member? "db_type" assumed = some (.string "") := ⟨rfl, rfl, rfl, rfl, rfl, rfl, rfl, rfl, rfl⟩
  simp only [ofMembers?, given, Option.or_none, optionalAssumed, defaultAssumed no, defaultAssumed empty]

theorem readAlike {find other : String → Option Json}
    (alike : ∀ key ∈ keys, (find key).or (member? key assumed) = (other key).or (member? key assumed)) :
    ofMembers? type find = ofMembers? type other := by
  rw [← readAssumed find, ← readAssumed other]
  simp only [keys, List.forall_mem_cons] at alike
  simp only [ofMembers?, alike]

theorem memberKeys (c : Column) : (c.members.map (·.1)).Sublist keys := by
  have optionalKey {α : Type} (o : Option α) (k : String) (write : α → Json) :
      ((o.elim [] fun a => [(k, write a)]).map (·.1)).Sublist [k] := by
    cases o <;> simp
  simp only [members, List.map_append]
  exact (((((List.Sublist.refl _).append (optionalKey _ _ _)).append (optionalKey _ _ _)).append (.refl _)).append
    (optionalKey _ _ _)).append (.refl _)

theorem membersFound (c : Column) :
    member? "name" c.members = some (.string c.name) ∧ member? "field" c.members = c.field.map .string ∧
      member? "value_type" c.members = c.valueType.map ValueType.json ∧
      member? "primary_key" c.members = some (.bool c.primaryKey) ∧
      member? "unique" c.members = some (.bool c.unique) ∧
      member? "auto_increment" c.members = some (.bool c.autoIncrement) ∧
      member? "not_null" c.members = some (.bool c.notNull) ∧ member? "default" c.members = c.default.map .string ∧
      member? "db_type" c.members = some (.string c.dbType) := by
  obtain ⟨name, field, valueType, primaryKey, unique, autoIncrement, notNull, default, dbType⟩ := c
  cases field <;> cases valueType <;> cases default <;> exact ⟨rfl, rfl, rfl, rfl, rfl, rfl, rfl, rfl, rfl⟩

theorem optionalText (s : Option String) : optional string? (s.map .string) = some s := by
  cases s <;> rfl

theorem columnReadBack (typed : ∀ t : ValueType, type t.json = some t) (c : Column) :
    ofJsonWith? type c.json = some c := by
  have optionalType (t : Option ValueType) : Json.optional type (t.map ValueType.json) = some t := by
    cases t with
    | none => rfl
    | some t => exact congrArg (Option.map some) (typed t)
  have once := onceOfDistinct keys (c.memberKeys.nodup (by decide))
  rw [json, columnOfMembers, once, if_pos rfl]
  simp only [ofMembers?, membersFound, optionalText, optionalType]
  rfl

/-- A member is added that does not belong to a column, or one is dropped that says what is assumed. -/
inductive Restated : List (String × Json) → List (String × Json) → Prop
  | unknown (before after : List (String × Json)) {m : String × Json} (strange : m.1 ∉ keys) :
    Restated (before ++ after) (before ++ m :: after)
  | dropped (before after : List (String × Json)) {m : String × Json} (same : m ∈ assumed) :
    Restated (before ++ m :: after) (before ++ after)

theorem assumedFound : ∀ m ∈ assumed, member? m.1 assumed = some m.2 := by
  simp only [assumed, List.forall_mem_cons]
  exact ⟨rfl, rfl, rfl, rfl, rfl, rfl, rfl, rfl, nofun⟩

variable {other : List (String × Json)}

theorem restatedOnce (restated : Restated members other) (once : onceEach keys members = true) :
    onceEach keys other = true := by
  rw [onceEachIff] at once ⊢
  intro key known
  have most := once key known
  cases restated with
  | @unknown before after m strange =>
    have differs : m.1 ≠ key := fun same => strange (same ▸ known)
    simpa [List.count_cons, differs] using most
  | @dropped before after m _ =>
    have fewer := ((List.sublist_cons_self m after).append_left before).map (·.1)
    exact Nat.le_trans (fewer.count_le key) most

theorem restatedFound (restated : Restated members other) (once : onceEach keys members = true) : ∀ key ∈ keys,
    (member? key members).or (member? key assumed) = (member? key other).or (member? key assumed) := by
  intro key known
  cases restated with
  | @unknown before after m strange =>
    have differs : m.1 ≠ key := fun same => strange (same ▸ known)
    rw [memberAppend, memberAppend, member?, if_neg differs]
  | @dropped before after m taken =>
    rw [memberAppend, memberAppend, member?]
    by_cases same : m.1 = key
    · -- The member was the only one of its key.
      have most := onceEachIff.mp once key known
      simp only [List.map_append, List.map_cons, same, List.count_append, List.count_cons_self] at most
      have noneBefore : member? key before = none := memberAbsent.mpr (List.count_eq_zero.mp (by omega))
      have noneAfter : member? key after = none := memberAbsent.mpr (List.count_eq_zero.mp (by omega))
      have assumes := assumedFound m taken
      rw [same] at assumes
      rw [if_pos same, noneBefore, noneAfter, assumes]
      rfl
    · rw [if_neg same]

theorem restatedRead (restated : Relation.ReflTransGen Restated members other)
    (read : ofJsonWith? type (.object members) = some c) : ofJsonWith? type (.object other) = some c := by
  induction restated with
  | refl => exact read
  | @tail middle other _ step ih =>
    rw [columnOfMembers] at ih ⊢
    split at ih
    · rename_i once
      rw [restatedOnce step once, if_pos rfl, ← ih]
      exact (readAlike (restatedFound step once)).symm
    · contradiction

end Members

end Column

theorem stringsRead (texts : List String) : list? string? (.strings texts) = some texts := by
  have read : ∀ s : String, string? (.string s) = some s := fun _ => rfl
  exact listReadBack read texts

theorem ColumnGroup.groupReadBack (g : ColumnGroup) : ofJson? g.json = some g := by
  have found : fields? ["name", "columns"] g.json = some [some (.string g.name), some (.strings g.columns)] := rfl
  simp only [ofJson?, found, withDefault, required, stringsRead]
  rfl

def Table.untagged (t : Table) : Json :=
  .object [("name", .string t.name), ("columns", .array (t.columns.map Column.json)),
    ("indices", .array (t.indices.map ColumnGroup.json)), ("uniques", .array (t.uniques.map ColumnGroup.json))]

theorem Table.tableReadBack (t : Table) : ofJsonWith? ValueType.ofHeld? t.untagged = some t := by
  have found : fields? ["name", "columns", "indices", "uniques"] t.untagged = some [some (.string t.name),
      some (.array (t.columns.map Column.json)), some (.array (t.indices.map ColumnGroup.json)),
      some (.array (t.uniques.map ColumnGroup.json))] := rfl
  have columns := listReadBack (Column.columnReadBack ValueType.heldReadBack) t.columns
  have groups := listReadBack ColumnGroup.groupReadBack
  simp only [ofJsonWith?, found, withDefault, required, columns, groups]
  rfl

theorem Schema.valueReadBack (s : Schema) : ofJson? s.json = some s := by
  cases s with
  | table t =>
    have untagged : untag? (json (.table t)) = some ("table", t.untagged) := rfl
    simp only [ofJson?, untagged, Option.bind_eq_bind, Option.bind_some, t.tableReadBack]
    rfl
  | view v => rfl

section Depth
variable {depth : Nat}

theorem plainStrings (texts : List String) : Plain (depth + 1) (.strings texts) :=
  .array (List.forall_mem_map.mpr fun s _ => .string s)

theorem plainColumn (c : Column) : Plain (depth + 1) c.json := by
  have plainOption {α : Type} (o : Option α) (k : String) {write : α → Json} (plain : ∀ a, Plain depth (write a)) :
      ∀ m ∈ (o.elim [] fun a => [(k, write a)]), Plain depth m.2 := by
    cases o with
    | none => nofun
    | some a => exact List.forall_mem_singleton.mpr (plain a)
  refine .object ?_
  simp only [Column.members, List.forall_mem_append, List.forall_mem_cons]
  exact ⟨⟨⟨⟨⟨⟨.string _, nofun⟩, plainOption _ _ .string⟩, plainOption _ _ fun t => .string t.tag⟩,
    .bool _, .bool _, .bool _, .bool _, nofun⟩, plainOption _ _ .string⟩, .string _, nofun⟩

theorem plainGroup (g : ColumnGroup) : Plain (depth + 2) g.json := by
  refine .object ?_
  simp only [List.forall_mem_cons]
  exact ⟨.string _, plainStrings _, nofun⟩

theorem plainSchema (s : Schema) : Plain (depth + 4) s.json := by
  have columns (cs : List Column) : Plain (depth + 3) (.array (cs.map Column.json)) :=
    .array (List.forall_mem_map.mpr fun c _ => plainColumn c)
  have groups (gs : List ColumnGroup) : Plain (depth + 3) (.array (gs.map ColumnGroup.json)) :=
    .array (List.forall_mem_map.mpr fun g _ => plainGroup g)
  cases s with
  | table t =>
    refine .object ?_
    simp only [List.forall_mem_cons]
    exact ⟨.string _, .string _, columns _, groups _, groups _, nofun⟩
  | view v =>
    refine .object ?_
    simp only [List.forall_mem_cons]
    exact ⟨.string _, .string _, .string _, nofun⟩

end Depth

theorem schemasReadBack :
    (∀ s : Schema, Schema.ofJson? s.json = some s ∧ Schema.ofSymbols? (s.json.text.toList.map some) = some s) ∧
    ∀ type members other c, Relation.ReflTransGen Column.Restated members other →
      Column.ofJsonWith? type (.object members) = some c → Column.ofJsonWith? type (.object other) = some c := by
  constructor
  · intro s
    refine ⟨s.valueReadBack, ?_⟩
    have plain : Plain 127 s.json := plainSchema s
    rw [Schema.ofSymbols?, textReadBack plain, Option.bind_eq_bind, Option.bind_some, plainHoldable plain,
      if_pos rfl, s.valueReadBack]
  · exact fun _ _ _ _ => Column.restatedRead

def dueName : String × Json := ("name", .string "due")

def dueType : String × Json := ("value_type", .string "int")

def dueUnique : String × Json := ("unique", .bool false)

def dueMembers : List (String × Json) := [dueName, ("field", .null), dueType, dueUnique]

def commentedMembers : List (String × Json) :=
  [dueName, ("comment", .object [("name", .null), ("unique", .bool true)]), dueType]

theorem dueColumnRestated :
    Relation.ReflTransGen Column.Restated dueMembers commentedMembers ∧
    Column.ofJson? (.object dueMembers) = some (.declared "due" .int) ∧
    Column.ofJson? (.object commentedMembers) = some (.declared "due" .int) := by
  have noField : Column.Restated dueMembers [dueName, dueType, dueUnique] :=
    .dropped [dueName] [dueType, dueUnique] (m := ("field", .null)) (by simp [Column.assumed])
  have notUnique : Column.Restated [dueName, dueType, dueUnique] [dueName, dueType] :=
    .dropped [dueName, dueType] [] (by simp [Column.assumed, dueUnique])
  have commented : Column.Restated [dueName, dueType] commentedMembers :=
    .unknown [dueName] [dueType] (by decide)
  have restated := ((Relation.ReflTransGen.single noField).tail notUnique).tail commented
  have read : Column.ofJson? (.object dueMembers) = some (.declared "due" .int) := rfl
  exact ⟨restated, read, schemasReadBack.2 _ _ _ _ restated read⟩

end LiveSchema
