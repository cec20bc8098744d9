import LiveSchema.Proofs.DeclaredColumns
import LiveSchema.Proofs.Outcomes
import LiveSchema.Proofs.Trimming
/-! The options of a field: how each is written, and the column and the groups that all of them declare. The
draft of a field exists exactly if each of its options is written as one of the known kinds, and it is then what
the options declare together; otherwise the first option that is not so is told. -/
namespace LiveSchema
open Text

namespace FieldOption

/-- A key, an equals sign and a value, which may have blanks around them and further signs in the value. -/
def Assigns (key value : String) (text : List Char) : Prop :=
  ∃ before after, text = before ++ '=' :: after ∧ Around key.toList before ∧ Around value.toList after ∧
    Solid value.toList

def words : List (String × FieldOption) :=
  [("primarykey", .primaryKey), ("autoincrement", .autoIncrement), ("unique", .unique), ("notnull", .notNull)]

def keys : List (String × (String → FieldOption)) :=
  [("column", .column), ("index", .index), ("unique", .uniqueGroup), ("default", .default)]

inductive WrittenAs : FieldOption → List Char → Prop
  | word {word : String} {o : FieldOption} (known : (word, o) ∈ words) : WrittenAs o word.toList
  | given {key value : String} {make : String → FieldOption} {text : List Char} (known : (key, make) ∈ keys)
    (given : Assigns key value text) : WrittenAs (make value) text

section Reading
variable {key value : String} {text before after : List Char} {o : FieldOption}

theorem assignsForm (word : Solid key.toList) (lacks : '=' ∉ key.toList) :
    Assigns key value text ↔ ∃ before after, splitOnce? '=' text = some (before, after) ∧
      trim before = key.toList ∧ trim after = value.toList ∧ value ≠ "" := by
  constructor
  · rintro ⟨before, after, rfl, keyed, valued, solid⟩
    refine ⟨before, after, splitForm.mpr ⟨rfl, ?_⟩, trimWord word keyed, trimWord solid valued, ?_⟩
    · obtain ⟨front, back, rfl, blank⟩ := keyed
      intro sign
      simp only [List.mem_append] at sign blank
      rcases sign with (inside | inside) | inside
      · exact absurd (blank '=' (.inl inside)) (by decide)
      · exact lacks inside
      · exact absurd (blank '=' (.inr inside)) (by decide)
    · simpa using solid.filled
  · rintro ⟨before, after, split, keyed, valued, filled⟩
    have solid : Solid (trim after) := solidTrim (by simpa [valued] using filled)
    exact ⟨before, after, (splitForm.mp split).1, keyed ▸ trimAround before, valued ▸ trimAround after,
      valued ▸ solid⟩

theorem keySolid {make : String → FieldOption} (known : (key, make) ∈ keys) :
    Solid key.toList ∧ '=' ∉ key.toList := by
  simp only [keys, List.mem_cons, Prod.mk.injEq, List.not_mem_nil, or_false] at known
  rcases known with ⟨rfl, -⟩ | ⟨rfl, -⟩ | ⟨rfl, -⟩ | ⟨rfl, -⟩ <;>
    exact ⟨⟨by decide, by simp [isBlank], by simp [isBlank]⟩, by decide⟩

theorem readWord (bare : splitOnce? '=' text = none) :
    ofChars? text = some o ↔ (String.ofList text, o) ∈ words := by
  simp only [ofChars?, bare, words]
  generalize String.ofList text = word
  split <;> simp_all [eq_comm]

theorem readGiven (split : splitOnce? '=' text = some (before, after)) :
    ofChars? text = some o ↔ trim after ≠ [] ∧
      ∃ make, (String.ofList (trim before), make) ∈ keys ∧ make (String.ofList (trim after)) = o := by
  simp only [ofChars?, split, keys]
  generalize String.ofList (trim before) = key
  by_cases blank : trim after = []
  · simp [blank]
  · have filled : String.ofList (trim after) ≠ "" := by simpa using blank
    rw [if_neg filled, and_iff_right blank]
    split <;> simp_all

theorem readWritten : ofChars? text = some o ↔ o.WrittenAs text := by
  constructor
  · intro read
    cases split : splitOnce? '=' text with
    | none =>
      rw [← String.toList_ofList (l := text)]
      exact .word ((readWord split).mp read)
    | some parts =>
      obtain ⟨filled, make, known, rfl⟩ := (readGiven split).mp read
      obtain ⟨solid, lacks⟩ := keySolid known
      refine .given known ((assignsForm solid lacks).mpr ⟨_, _, split, ?_, ?_, ?_⟩) <;> simp [filled]
  · intro written
    cases written with
    | @word word o known =>
      have bare : '=' ∉ word.toList := by
        have all : ∀ entry ∈ words, '=' ∉ entry.1.toList := by decide
        exact all _ known
      exact (readWord (splitNone.mpr bare)).mpr (by rwa [String.ofList_toList])
    | given known given =>
      obtain ⟨solid, lacks⟩ := keySolid known
      obtain ⟨before, after, split, keyed, valued, filled⟩ := (assignsForm solid lacks).mp given
      refine (readGiven split).mpr ⟨by simpa [valued] using filled, _, ?_, by rw [valued, String.ofList_toList]⟩
      rwa [keyed, String.ofList_toList]

instance (text : List Char) : Decidable (∃ o : FieldOption, o.WrittenAs text) :=
  decidable_of_iff ((ofChars? text).isSome = true) (by simp only [Option.isSome_iff_exists, readWritten])

theorem readAll {options : List FieldOption} {texts : List (List Char)} :
    List.Forall₂ WrittenAs options texts ↔
      (∀ text ∈ texts, ∃ o : FieldOption, o.WrittenAs text) ∧ options = texts.filterMap ofChars? := by
  induction texts generalizing options with
  | nil => simp
  | cons text rest ih =>
    simp only [List.forall₂_cons_right_iff, ih, ← readWritten, List.forall_mem_cons]
    constructor
    · rintro ⟨o, _, here, ⟨later, rfl⟩, rfl⟩
      exact ⟨⟨⟨o, here⟩, later⟩, (List.filterMap_cons_some here).symm⟩
    · rintro ⟨⟨⟨o, here⟩, later⟩, rfl⟩
      exact ⟨o, _, here, ⟨later, rfl⟩, List.filterMap_cons_some here⟩

end Reading

def columnName? : FieldOption → Option String
  | .column name => some name
  | _ => none

def defaultText? : FieldOption → Option String
  | .default text => some text
  | _ => none

end FieldOption

inductive GroupKind where
  | index
  | unique
  deriving DecidableEq, Repr

namespace GroupKind

def option : GroupKind → String → FieldOption
  | .index => .index
  | .unique => .uniqueGroup

def named? : GroupKind → FieldOption → Option String
  | .index, .index group => some group
  | .unique, .uniqueGroup group => some group
  | _, _ => none

theorem namedOption {kind : GroupKind} {o : FieldOption} {group : String} :
    kind.named? o = some group ↔ o = kind.option group := by
  cases kind <;> cases o <;> simp [named?, option]

end GroupKind

namespace FieldDraft

/-- What options declare together: of several names or defaults the last one counts, the other options are
counted wherever they stand. -/
def declaring (spec : FieldSpec) (options : List FieldOption) : FieldDraft where
  column := {
    name := (options.filterMap FieldOption.columnName?).getLast?.getD (lowercase spec.name)
    field := some spec.name
    valueType := some spec.type
    primaryKey := options.contains .primaryKey
    unique := options.contains .unique
    autoIncrement := options.contains .autoIncrement
    notNull := options.contains .notNull
    default := (options.filterMap FieldOption.defaultText?).getLast? }
  indexGroups := options.filterMap GroupKind.index.named?
  uniqueGroups := options.filterMap GroupKind.unique.named?

theorem declaringNext (spec : FieldSpec) (options : List FieldOption) (o : FieldOption) :
    (declaring spec options).apply o = declaring spec (options ++ [o]) := by
  cases o <;> simp [apply, declaring, FieldOption.columnName?, FieldOption.defaultText?, GroupKind.named?]

theorem declaringAll (spec : FieldSpec) (options : List FieldOption) :
    options.foldl apply (start spec) = declaring spec options :=
  foldReads (declaringNext spec) options

end FieldDraft

structure Declaration where
  spec : FieldSpec
  options : List FieldOption
  written : List.Forall₂ FieldOption.WrittenAs options spec.optionTexts

namespace FieldSpec
open FieldOption
variable {spec : FieldSpec} {start draft : FieldDraft} {texts : List (List Char)} {e : ModelError}

theorem draftFromRead : spec.draftFrom start texts = .ok draft ↔
    ∃ options, List.Forall₂ WrittenAs options texts ∧ options.foldl FieldDraft.apply start = draft := by
  induction texts generalizing start with
  | nil => simp [draftFrom]
  | cons text rest ih =>
    rw [draftFrom]
    cases read : ofChars? text with
    | none =>
      have unknown (o : FieldOption) : ¬ o.WrittenAs text := by simp [← readWritten, read]
      simp [List.forall₂_cons_right_iff, unknown]
    | some o =>
      have only (other : FieldOption) : other.WrittenAs text ↔ other = o := by
        simp [← readWritten, read, eq_comm]
      simp [List.forall₂_cons_right_iff, only, ih]

theorem draftFromRefused : spec.draftFrom start texts = .error e ↔
    ∃ before text after, texts = before ++ text :: after ∧
      (∀ earlier ∈ before, ∃ o : FieldOption, o.WrittenAs earlier) ∧
      (∀ o : FieldOption, ¬ o.WrittenAs text) ∧ e = .invalidOption spec.name (String.ofList text) := by
  induction texts generalizing start with
  | nil => simp [draftFrom]
  | cons text rest ih =>
    rw [draftFrom]
    cases read : ofChars? text with
    | none =>
      have unknown (o : FieldOption) : ¬ o.WrittenAs text := by simp [← readWritten, read]
      constructor
      · intro refused
        cases refused
        exact ⟨[], text, rest, rfl, by simp, unknown, rfl⟩
      · rintro ⟨before, other, after, split, earlier, -, rfl⟩
        cases before with
        | nil => cases split; rfl
        | cons first before =>
          cases split
          obtain ⟨o, written⟩ := earlier text List.mem_cons_self
          exact absurd written (unknown o)
    | some o =>
      have known : o.WrittenAs text := readWritten.mp read
      refine ih.trans ⟨?_, ?_⟩
      · rintro ⟨before, other, after, rfl, earlier, unknown, rfl⟩
        exact ⟨text :: before, other, after, rfl, List.forall_mem_cons.mpr ⟨⟨o, known⟩, earlier⟩, unknown, rfl⟩
      · rintro ⟨before, other, after, split, earlier, unknown, rfl⟩
        cases before with
        | nil => cases split; exact absurd known (unknown o)
        | cons first before =>
          cases split
          exact ⟨before, other, after, rfl, (List.forall_mem_cons.mp earlier).2, unknown, rfl⟩

end FieldSpec

namespace Declaration

def draft (d : Declaration) : FieldDraft := .declaring d.spec d.options

def column (d : Declaration) : Column := d.draft.column

def name (d : Declaration) : String := d.column.name

def groups (d : Declaration) (kind : GroupKind) : List String := d.options.filterMap kind.named?

theorem draftRead {spec : FieldSpec} {draft : FieldDraft} :
    spec.draft = .ok draft ↔ ∃ d : Declaration, d.spec = spec ∧ d.draft = draft := by
  rw [FieldSpec.draft, FieldSpec.draftFromRead]
  simp only [FieldDraft.declaringAll]
  constructor
  · rintro ⟨options, written, rfl⟩
    exact ⟨⟨spec, options, written⟩, rfl, rfl⟩
  · rintro ⟨d, rfl, rfl⟩
    exact ⟨d.options, d.written, rfl⟩

theorem optionsRead (d : Declaration) : d.options = d.spec.optionTexts.filterMap FieldOption.ofChars? :=
  (FieldOption.readAll.mp d.written).2

theorem declarable {spec : FieldSpec} :
    (∃ d : Declaration, d.spec = spec) ↔ ∀ text ∈ spec.optionTexts, ∃ o : FieldOption, o.WrittenAs text := by
  constructor
  · rintro ⟨d, rfl⟩
    exact (FieldOption.readAll.mp d.written).1
  · intro known
    exact ⟨⟨spec, _, FieldOption.readAll.mpr ⟨known, rfl⟩⟩, rfl⟩

theorem specInjective : Function.Injective Declaration.spec := by
  rintro ⟨spec, options, written⟩ ⟨_, others, rewritten⟩ rfl
  obtain rfl : options = others :=
    (FieldOption.readAll.mp written).2.trans (FieldOption.readAll.mp rewritten).2.symm
  rfl

end Declaration

end LiveSchema
