import LiveSchema.Catalog.Grammar
import Mathlib.Data.List.TakeDrop
import Mathlib.Data.List.TakeWhile
/-! Texts that are trimmed and cut. What is taken off stands at the ends, and a word is found again whatever blanks
stand around it; pieces hold no separator. -/
namespace LiveSchema
open Text Catalog

def Around (word text : List Char) : Prop :=
  ∃ before after, text = before ++ word ++ after ∧ ∀ c ∈ before ++ after, isBlank c = true

structure Solid (word : List Char) : Prop where
  filled : word ≠ []
  first : ∀ c ∈ word.head?, isBlank c = false
  last : ∀ c ∈ word.getLast?, isBlank c = false

section
variable {c separator : Char} {cs ds word text before after : List Char} {drop : Char → Bool}

theorem dropWhileKeeps (first : ∀ c ∈ cs.head?, drop c = false) : cs.dropWhile drop = cs := by
  cases cs with
  | nil => rfl
  | cons c cs => simp [first c rfl]

theorem trimByKeeps (first : ∀ c ∈ cs.head?, drop c = false)
    (last : ∀ c ∈ cs.getLast?, drop c = false) : trimBy drop cs = cs := by
  rw [trimBy, dropWhileKeeps first, dropWhileKeeps (by simpa using last), List.reverse_reverse]

theorem trimByInner {before after : List Char} (nonempty : cs ≠ [])
    (first : ∀ c ∈ cs.head?, drop c = false) (last : ∀ c ∈ cs.getLast?, drop c = false)
    (outer : ∀ c ∈ before ++ after, drop c = true) : trimBy drop (before ++ cs ++ after) = cs := by
  simp only [List.mem_append] at outer
  have front : (before ++ cs ++ after).dropWhile drop = cs ++ after := by
    rw [List.append_assoc, List.dropWhile_append_of_pos fun c member => outer c (.inl member)]
    refine dropWhileKeeps fun c head => first c ?_
    cases cs with
    | nil => contradiction
    | cons => exact head
  rw [trimBy, front, List.reverse_append,
    List.dropWhile_append_of_pos fun c member => outer c (.inr (List.mem_reverse.mp member)),
    dropWhileKeeps (by simpa using last), List.reverse_reverse]

theorem firstLeft {p : Char → Prop} (nonempty : cs ≠ []) (left : ∀ c ∈ cs.head?, p c) :
    ∀ c ∈ (cs ++ ds).head?, p c := by
  cases cs with
  | nil => contradiction
  | cons c cs => exact left

theorem lastRight {p : Char → Prop} (nonempty : ds ≠ []) (right : ∀ c ∈ ds.getLast?, p c) :
    ∀ c ∈ (cs ++ ds).getLast?, p c := by
  intro c last
  rw [List.getLast?_append, List.getLast?_eq_some_getLast nonempty, Option.some_or] at last
  exact right c (List.getLast?_eq_some_getLast nonempty ▸ last)

theorem lastAppend {p : Char → Prop} (left : ∀ c ∈ cs.getLast?, p c) (right : ∀ c ∈ ds.getLast?, p c) :
    ∀ c ∈ (cs ++ ds).getLast?, p c := by
  by_cases empty : ds = []
  · rw [empty, List.append_nil]
    exact left
  · exact lastRight empty right

theorem headOfDropWhile (p : Char → Bool) (cs : List Char) : ∀ c ∈ (cs.dropWhile p).head?, p c = false := by
  intro c first
  have kept := List.head?_dropWhile_not p cs
  rw [Option.mem_def.mp first] at kept
  simpa using kept

theorem pieceLacks : ∀ p ∈ pieces separator cs, separator ∉ p := by
  induction cs with
  | nil => simp [pieces]
  | cons c cs ih =>
    rw [pieces]
    split
    · simpa using ih
    · rename_i other
      cases form : pieces separator cs with
      | nil => exact absurd form (piecesFilled separator cs)
      | cons first rest =>
        rw [form] at ih
        obtain ⟨head, later⟩ := List.forall_mem_cons.mp ih
        refine List.forall_mem_cons.mpr ⟨?_, later⟩
        simp [Ne.symm other, head]

theorem trimmedWithin (member : c ∈ trimBy drop cs) : c ∈ cs :=
  (List.dropWhile_sublist drop).mem <|
    List.mem_reverse.mp ((List.dropWhile_sublist drop).mem (List.mem_reverse.mp member))

theorem trimmedEnds (drop : Char → Bool) (cs : List Char) :
    (∀ c ∈ (trimBy drop cs).head?, drop c = false) ∧ ∀ c ∈ (trimBy drop cs).getLast?, drop c = false := by
  constructor
  · intro c head
    have front : trimBy drop cs <+: cs.dropWhile drop := by
      rw [trimBy, ← List.reverse_suffix, List.reverse_reverse]
      exact List.dropWhile_suffix drop
    obtain ⟨back, split⟩ := front
    refine headOfDropWhile drop cs c ?_
    rw [← split]
    cases form : trimBy drop cs with
    | nil => simp [form] at head
    | cons d ds => simpa [form] using head
  · intro c last
    rw [trimBy, List.getLast?_reverse] at last
    exact headOfDropWhile drop _ c last

theorem trimEndForm (cs : List Char) : ∃ back, cs = trimEnd cs ++ back ∧ ∀ c ∈ back, isBlank c = true := by
  refine ⟨(cs.reverse.takeWhile isBlank).reverse, ?_, ?_⟩
  · rw [trimEnd, ← List.reverse_append, List.takeWhile_append_dropWhile, List.reverse_reverse]
  · exact fun c member => List.mem_takeWhile_imp (List.mem_reverse.mp member)

theorem trimEndRead (last : ∀ c ∈ cs.getLast?, isBlank c = false) (blank : ∀ c ∈ ds, isBlank c = true) :
    trimEnd (cs ++ ds) = cs := by
  rw [trimEnd, List.reverse_append,
    List.dropWhile_append_of_pos fun c member => blank c (List.mem_reverse.mp member),
    dropWhileKeeps (by simpa using last), List.reverse_reverse]

theorem trimAround (cs : List Char) : Around (trim cs) cs := by
  obtain ⟨back, split, blank⟩ := trimEndForm (cs.dropWhile isBlank)
  refine ⟨cs.takeWhile isBlank, back, ?_, ?_⟩
  · have whole := List.takeWhile_append_dropWhile (p := isBlank) (l := cs)
    rw [split, ← List.append_assoc] at whole
    exact whole.symm
  · intro c member
    rcases List.mem_append.mp member with front | behind
    · exact List.mem_takeWhile_imp front
    · exact blank c behind

theorem trimWord (solid : Solid word) (around : Around word text) : trim text = word := by
  obtain ⟨before, after, rfl, blank⟩ := around
  exact trimByInner solid.filled solid.first solid.last blank

theorem solidTrim (filled : trim cs ≠ []) : Solid (trim cs) :=
  ⟨filled, (trimmedEnds isBlank cs).1, (trimmedEnds isBlank cs).2⟩

theorem splitForm : splitOnce? separator cs = some (before, after) ↔
    cs = before ++ separator :: after ∧ separator ∉ before := by
  rw [splitOnce?, List.span_eq_takeWhile_dropWhile]
  constructor
  · intro found
    have whole := List.takeWhile_append_dropWhile (p := (· != separator)) (l := cs)
    have lacks : separator ∉ cs.takeWhile (· != separator) :=
      fun inside => by simpa using List.mem_takeWhile_imp inside
    cases form : cs.dropWhile (· != separator) with
    | nil => simp [form] at found
    | cons c rest =>
      have stop := headOfDropWhile (· != separator) cs c (by rw [form]; rfl)
      obtain rfl : c = separator := by simpa using stop
      simp only [form, Option.some.injEq, Prod.mk.injEq] at found
      obtain ⟨rfl, rfl⟩ := found
      exact ⟨(form ▸ whole).symm, lacks⟩
  · rintro ⟨rfl, lacks⟩
    have pass : ∀ c ∈ before, (c != separator) = true := by
      intro c inside
      simpa using fun same : c = separator => lacks (same ▸ inside)
    rw [List.takeWhile_append_of_pos pass, List.dropWhile_append_of_pos pass]
    simp

theorem splitNone : splitOnce? separator cs = none ↔ separator ∉ cs := by
  constructor
  · intro none inside
    obtain ⟨before, after, rfl, lacks⟩ := List.eq_append_cons_of_mem inside
    rw [splitForm.mpr ⟨rfl, lacks⟩] at none
    contradiction
  · intro lacks
    cases found : splitOnce? separator cs with
    | none => rfl
    | some parts =>
      rw [(splitForm.mp found).1] at lacks
      simp at lacks

theorem blankTrimmed : trim cs = [] ↔ ∀ c ∈ cs, isBlank c = true := by
  constructor
  · intro empty
    obtain ⟨before, after, split, blank⟩ := trimAround cs
    rw [empty, List.append_nil] at split
    rwa [split]
  · intro blank
    simp [trim, trimBy, List.dropWhile_eq_nil_iff.mpr blank]

theorem trimRespaced (around : Around cs text) : trim text = trim cs := by
  obtain ⟨before, after, rfl, outside⟩ := around
  obtain ⟨front, back, split, blank⟩ := trimAround cs
  by_cases empty : trim cs = []
  · have inside := blankTrimmed.mp empty
    rw [empty, blankTrimmed]
    grind
  · refine trimWord (solidTrim empty) ⟨before ++ front, back ++ after, ?_, by grind⟩
    conv_lhs => rw [split]
    simp only [List.append_assoc]

end

end LiveSchema
