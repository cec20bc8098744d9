import LiveSchema.Proofs.DeclaredModels
/-! The order of options. A field declares the same column and joins the same groups in whatever order its options
stand, if no two of them set the same thing and the groups of each kind keep their order among themselves. -/
namespace LiveSchema
open Text

namespace FieldOption

def key? : FieldOption → Option String
  | .column _ => some "column"
  | .index _ => some "index"
  | .uniqueGroup _ => some "unique"
  | .default _ => some "default"
  | _ => none

def keyOf? (text : List Char) : Option String :=
  (splitOnce? '=' text).map fun parts => String.ofList (trim parts.1)

def keyed (key : String) (texts : List (List Char)) : List (List Char) := texts.filter (keyOf? · = some key)

section
variable {text : List Char} {o : FieldOption}

theorem writtenKey (read : ofChars? text = some o) : keyOf? text = o.key? := by
  cases split : splitOnce? '=' text with
  | none =>
    have bare : ∀ entry ∈ words, entry.2.key? = none := by decide
    rw [keyOf?, split, bare _ ((readWord split).mp read)]
    rfl
  | some parts =>
    obtain ⟨-, make, known, rfl⟩ := (readGiven split).mp read
    rw [keyOf?, split, Option.map_some]
    simp only [keys, List.mem_cons, Prod.mk.injEq, List.not_mem_nil, or_false] at known
    rcases known with ⟨is, rfl⟩ | ⟨is, rfl⟩ | ⟨is, rfl⟩ | ⟨is, rfl⟩ <;> exact congrArg some is

theorem selectedKeyed {key : String} {select : FieldOption → Option String}
    (only : ∀ o, select o ≠ none → o.key? = some key) (texts : List (List Char)) :
    (texts.filterMap ofChars?).filterMap select =
      (keyed key texts).filterMap fun text => (ofChars? text).bind select := by
  rw [List.filterMap_filterMap, keyed, List.filterMap_filter]
  refine List.filterMap_congr fun text _ => ?_
  by_cases keyedSo : keyOf? text = some key
  · simp [keyedSo]
  · cases read : ofChars? text with
    | none => simp
    | some o =>
      have silent : select o = none := by
        by_contra speaks
        exact keyedSo ((writtenKey read).trans (only o speaks))
      simp [keyedSo, silent]

end

end FieldOption

/-- Pieces with blanks put around them, and with pieces of nothing but blanks put between them. -/
inductive Respaced : List (List Char) → List (List Char) → Prop
  | done : Respaced [] []
  | piece {cs text : List Char} {ps qs : List (List Char)} (around : Around cs text) (rest : Respaced ps qs) :
    Respaced (cs :: ps) (text :: qs)
  | empty {text : List Char} {ps qs : List (List Char)} (blank : ∀ c ∈ text, isBlank c = true)
    (rest : Respaced ps qs) : Respaced ps (text :: qs)

section Blanks
variable {cs text : List Char} {ps qs : List (List Char)}

theorem respacedTexts (spaced : Respaced ps qs) :
    (qs.map trim).filter (· ≠ []) = (ps.map trim).filter (· ≠ []) := by
  induction spaced with
  | done => rfl
  | piece around _ ih =>
    rw [List.map_cons, List.map_cons, trimRespaced around, List.filter_cons, List.filter_cons, ih]
  | empty blank _ ih => rw [List.map_cons, blankTrimmed.mpr blank, List.filter_cons_of_neg (by simp), ih]

end Blanks

/-- The same options in another order, where no two that set the same thing change places. -/
structure Rearranged (given other : FieldSpec) : Prop where
  name : other.name = given.name
  type : other.type = given.type
  options : other.optionTexts.Perm given.optionTexts
  known : ∀ text ∈ given.optionTexts, ∃ o : FieldOption, o.WrittenAs text
  oneColumn : (FieldOption.keyed "column" given.optionTexts).length ≤ 1
  oneDefault : (FieldOption.keyed "default" given.optionTexts).length ≤ 1
  indices : FieldOption.keyed "index" other.optionTexts = FieldOption.keyed "index" given.optionTexts
  uniques : FieldOption.keyed "unique" other.optionTexts = FieldOption.keyed "unique" given.optionTexts

namespace FieldSpec
open FieldOption
variable {given other : FieldSpec} {moved : List (List Char)}

theorem movedTexts (order : moved.Perm (pieces ',' given.options.toList))
    (spaced : Respaced moved (pieces ',' other.options.toList)) : other.optionTexts.Perm given.optionTexts := by
  rw [optionTexts, respacedTexts spaced]
  exact (order.map trim).filter _

end FieldSpec

theorem permSingle {α : Type} {xs ys : List α} (order : xs.Perm ys) (one : ys.length ≤ 1) : xs = ys := by
  cases ys with
  | nil => exact order.eq_nil
  | cons y rest =>
    obtain rfl : rest = [] := by simpa using one
    exact List.perm_singleton.mp order

namespace Rearranged
open FieldOption
variable {d e : Declaration} {key : String} {select : FieldOption → Option String}

theorem onceAlike (r : Rearranged d.spec e.spec) (only : ∀ o, select o ≠ none → o.key? = some key)
    (one : (keyed key d.spec.optionTexts).length ≤ 1) : e.options.filterMap select = d.options.filterMap select := by
  rw [e.optionsRead, d.optionsRead]
  refine permSingle ((r.options.filterMap ofChars?).filterMap select) ?_
  rw [selectedKeyed only]
  exact (List.length_filterMap_le _ _).trans one

theorem orderAlike (only : ∀ o, select o ≠ none → o.key? = some key)
    (kept : keyed key e.spec.optionTexts = keyed key d.spec.optionTexts) :
    e.options.filterMap select = d.options.filterMap select := by
  rw [e.optionsRead, d.optionsRead, selectedKeyed only, selectedKeyed only, kept]

theorem declaredAlike (r : Rearranged d.spec e.spec) : e.draft = d.draft := by
  have flags (o : FieldOption) : e.options.contains o = d.options.contains o := by
    rw [e.optionsRead, d.optionsRead]
    exact (r.options.filterMap ofChars?).contains_eq
  have columns : e.options.filterMap columnName? = d.options.filterMap columnName? :=
    r.onceAlike (by rintro (_ | _) <;> simp [columnName?, key?]) r.oneColumn
  have defaults : e.options.filterMap defaultText? = d.options.filterMap defaultText? :=
    r.onceAlike (by rintro (_ | _) <;> simp [defaultText?, key?]) r.oneDefault
  have indices : e.options.filterMap GroupKind.index.named? = d.options.filterMap GroupKind.index.named? :=
    orderAlike (by rintro (_ | _) <;> simp [GroupKind.named?, key?]) r.indices
  have uniques : e.options.filterMap GroupKind.unique.named? = d.options.filterMap GroupKind.unique.named? :=
    orderAlike (by rintro (_ | _) <;> simp [GroupKind.named?, key?]) r.uniques
  simp only [Declaration.draft, FieldDraft.declaring, flags, columns, defaults, indices, uniques, r.name, r.type]

theorem draftsAlike {given other : FieldSpec} (r : Rearranged given other) : other.draft = given.draft := by
  have knownToo : ∀ text ∈ other.optionTexts, ∃ o : FieldOption, o.WrittenAs text :=
    fun text member => r.known text (r.options.mem_iff.mp member)
  obtain ⟨d, rfl⟩ := Declaration.declarable.mpr r.known
  obtain ⟨e, rfl⟩ := Declaration.declarable.mpr knownToo
  rw [Declaration.draftRead.mpr ⟨e, rfl, r.declaredAlike⟩, Declaration.draftRead.mpr ⟨d, rfl, rfl⟩]

end Rearranged

namespace Model
variable {given others : List FieldSpec}

theorem builtAlike (each : List.Forall₂ Rearranged given others) (m : Model) :
    m.declareAll others = m.declareAll given := by
  induction each generalizing m with
  | nil => rfl
  | cons first _ ih => simp only [declareAll, declare, first.draftsAlike, ih]

theorem knownAll (each : List.Forall₂ Rearranged given others) :
    ∀ spec ∈ given, ∀ text ∈ spec.optionTexts, ∃ o : FieldOption, o.WrittenAs text :=
  ((List.forall₂_and_left given others).mp (each.imp fun _ _ r => ⟨r.known, r⟩)).1

theorem optionOrderIgnored (each : List.Forall₂ Rearranged given others) (table : String) (view : Option String) :
    build table view others = build table view given ∧
    ∀ e, build table view given = .error e → ∃ column, e = .duplicateColumn table column := by
  refine ⟨builtAlike each _, fun e refused => ?_⟩
  obtain ⟨before, spec, after, rfl, -, offence⟩ := buildRefused.mp refused
  cases offence with
  | @option _ _ text split _ unknown =>
    have member : text ∈ spec.optionTexts := by rw [split]; simp
    obtain ⟨o, written⟩ := knownAll each spec (by simp) text member
    exact absurd written (unknown o)
  | column d _ _ => exact ⟨d.name, rfl⟩

def namedField : FieldSpec := ⟨"Name", .text, "index=lookup,column=display_name,notnull,index=by day"⟩

def movedField : FieldSpec := ⟨"Name", .text, " notnull , column=display_name,,index=lookup ,index=by day"⟩

theorem namedOrderIgnored : build "hall" none [movedField] = build "hall" none [namedField] := by
  have order : ["notnull".toList, "column=display_name".toList, "index=lookup".toList, "index=by day".toList].Perm
      (pieces ',' namedField.options.toList) := by decide
  have cut : pieces ',' movedField.options.toList =
      [" notnull ".toList, " column=display_name".toList, [], "index=lookup ".toList, "index=by day".toList] := by
    decide
  have spaced : Respaced
      ["notnull".toList, "column=display_name".toList, "index=lookup".toList, "index=by day".toList]
      (pieces ',' movedField.options.toList) := by
    rw [cut]
    refine .piece ⟨[' '], [' '], by decide, by simp [isBlank]⟩ (.piece ⟨[' '], [], by decide, by simp [isBlank]⟩ ?_)
    refine .empty (by simp) ?_
    exact .piece ⟨[], [' '], by decide, by simp [isBlank]⟩ (.piece ⟨[], [], by decide, by simp⟩ .done)
  have moved : Rearranged namedField movedField :=
    ⟨rfl, rfl, FieldSpec.movedTexts order spaced, by decide, by decide, by decide, by decide, by decide⟩
  exact (optionOrderIgnored (.cons moved .nil) "hall" none).1

example : build "hall" none [⟨"Name", .text, "column=title,column=label"⟩] ≠
    build "hall" none [⟨"Name", .text, "column=label,column=title"⟩] := by decide

end Model

end LiveSchema
