import LiveSchema.Proofs.ItemCuts
import LiveSchema.Proofs.Trimming
import Mathlib.Data.List.Forall2
/-! A body divided into its items. Items whose quotes and parentheses are closed are found again between the commas
that join them; and whatever the body is, its items are what stands between some of its commas. -/
namespace LiveSchema.Catalog
open Text

def quotePairs : List (Char × Char) := [('\'', '\''), ('"', '"'), ('\x60', '\x60'), ('[', ']')]

def signs : List Char := ['\'', '"', '\x60', '[', '(', ')']

/-- The text closes the quotes that it opens and as many parentheses more than it opens. It never closes one too
many, and its commas stand inside quotes and parentheses. -/
inductive Balanced : Nat → List Char → Prop
  | done : Balanced 0 []
  | plain {depth : Nat} {c : Char} {cs : List Char} (other : c ∉ signs)
    (comma : c = ',' → depth ≠ 0) (rest : Balanced depth cs) : Balanced depth (c :: cs)
  | quoted {depth : Nat} {opening closing : Char} {text cs : List Char} (pair : (opening, closing) ∈ quotePairs)
    (inside : closing ∉ text) (rest : Balanced depth cs) : Balanced depth (opening :: text ++ closing :: cs)
  | opened {depth : Nat} {cs : List Char} (rest : Balanced (depth + 1) cs) : Balanced depth ('(' :: cs)
  | closed {depth : Nat} {cs : List Char} (rest : Balanced depth cs) : Balanced (depth + 1) (')' :: cs)

structure Whole (item : List Char) : Prop where
  balanced : Balanced 0 item
  first : ∀ c ∈ item.head?, isBlank c = false
  last : ∀ c ∈ item.getLast?, isBlank c = false

section Balanced
variable {depth : Nat} {c opening closing : Char} {cs item piece : List Char}

theorem pairCloses (pair : (opening, closing) ∈ quotePairs) : closingQuote? opening = some closing := by
  have all : ∀ p ∈ quotePairs, closingQuote? p.1 = some p.2 := by decide
  exact all _ pair

theorem otherInner (other : c ∉ signs) : isInner c = true := by
  simp only [signs, List.mem_cons, List.not_mem_nil, or_false, not_or] at other
  simp [isInner, closingQuote?, other]

theorem blankInner (blank : isBlank c = true) : isInner c = true ∧ (c = ',' → depth ≠ 0) := by
  have solid : ∀ d ∈ ',' :: signs, isBlank d = false := by decide
  have other : c ∉ ',' :: signs := fun sign => by simp [solid c sign] at blank
  obtain ⟨comma, sign⟩ := not_or.mp (List.mem_cons.not.mp other)
  exact ⟨otherInner sign, fun same => absurd same comma⟩

theorem balancedPasses (balanced : Balanced depth cs) : Passes depth 0 cs := by
  induction balanced with
  | done => exact passesNil
  | plain other comma _ ih =>
    exact passesAppend (passesInner (List.forall_mem_singleton.mpr ⟨otherInner other, comma⟩)) ih
  | @quoted _ _ closing text cs pair inside _ ih =>
    have parts := passesAppend (passesQuoted (pairCloses pair) inside) ih
    rwa [List.append_assoc] at parts
  | opened _ ih => exact passesAppend passesOpen ih
  | closed _ ih => exact passesAppend passesClose ih

theorem plainThen {ds : List Char} (plain : ∀ c ∈ cs, c ∉ signs ∧ (c = ',' → depth ≠ 0))
    (rest : Balanced depth ds) : Balanced depth (cs ++ ds) := by
  induction cs with
  | nil => exact rest
  | cons c cs ih =>
    obtain ⟨⟨other, comma⟩, later⟩ := List.forall_mem_cons.mp plain
    exact .plain other comma (ih later)

theorem piecePasses (whole : Whole item) (around : Around item piece) : Passes 0 0 piece := by
  obtain ⟨before, after, rfl, blank⟩ := around
  obtain ⟨front, back⟩ := List.forall_mem_append.mp blank
  have blanksPass {cs : List Char} (blank : ∀ c ∈ cs, isBlank c = true) : Passes 0 0 cs :=
    passesInner fun c member => blankInner (blank c member)
  exact passesAppend (passesAppend (blanksPass front) (balancedPasses whole.balanced)) (blanksPass back)

theorem listsPiece (whole : Whole item) (around : Around item piece) : Lists piece [item] := by
  have trimmed : trim piece = item := (trimRespaced around).trans (trimByKeeps whole.first whole.last)
  rw [← trimmed]
  exact listsItem (piecePasses whole around)

theorem listsWhole {given pieces : List (List Char)} (whole : ∀ i ∈ item :: given, Whole i)
    (around : Around item piece) (others : List.Forall₂ Around given pieces) :
    Lists ([','].intercalate (piece :: pieces)) (item :: given) := by
  induction others generalizing item piece with
  | nil =>
    rw [List.intercalate_singleton]
    exact listsPiece (whole item List.mem_cons_self) around
  | cons next _ ih =>
    obtain ⟨here, later⟩ := List.forall_mem_cons.mp whole
    rw [List.intercalate_cons_cons, List.append_assoc, List.singleton_append]
    exact listsAppend (listsPiece here around) (ih later next)

end Balanced

section Division
variable {texts : List (List Char)}

theorem cutFilled (depth : Nat) (quote : Option Char) (body : List Char) : cutItems depth quote body ≠ [] := by
  have filled (c : Char) (ps : List (List Char)) : consFirst c ps ≠ [] := by
    cases ps <;> simp [consFirst]
  fun_cases cutItems depth quote body with
  | case1 => simp
  | case2 => exact filled _ _
  | case3 => simp
  | case4 => exact filled _ _

theorem joinedFirst {c : Char} (filled : texts ≠ []) :
    [','].intercalate (consFirst c texts) = c :: [','].intercalate texts := by
  obtain ⟨first, rest, rfl⟩ := List.exists_cons_of_ne_nil filled
  cases rest with
  | nil => simp [consFirst]
  | cons second rest => simp [consFirst, List.intercalate_cons_cons]

theorem cutJoined (depth : Nat) (quote : Option Char) (body : List Char) :
    [','].intercalate (cutItems depth quote body) = body := by
  fun_induction cutItems depth quote body with
  | case1 => simp
  | case2 depth q c cs ih => rw [joinedFirst (cutFilled _ _ _), ih]
  | case3 depth c cs comma ih =>
    obtain ⟨first, rest, cut⟩ := List.exists_cons_of_ne_nil (cutFilled 0 none cs)
    rw [cut] at ih ⊢
    rw [List.intercalate_cons_cons, ih, comma.1]
    rfl
  | case4 depth c cs _ ih => rw [joinedFirst (cutFilled _ _ _), ih]

end Division

theorem bodyDivided :
    (∀ given pieces, given ≠ [] → (∀ item ∈ given, Whole item) → List.Forall₂ Around given pieces →
      items ([','].intercalate pieces) = given) ∧
    ∀ body, ∃ pieces, pieces ≠ [] ∧ [','].intercalate pieces = body ∧ items body = pieces.map trim ∧
      List.Forall₂ Around (items body) pieces := by
  constructor
  · intro given pieces filled whole around
    cases around with
    | nil => contradiction
    | cons first others => exact (listsWhole whole first others).alone
  · intro body
    refine ⟨cutItems 0 none body, cutFilled 0 none body, cutJoined 0 none body, rfl, ?_⟩
    rw [items, List.forall₂_map_left_iff, List.forall₂_same]
    exact fun piece _ => trimAround piece

def priceItem : List Char := "price DECIMAL(10,2)".toList

def noteItem : List Char := "[due, by] TEXT DEFAULT 'p,''(q'".toList

theorem priceItemsDivided :
    Whole priceItem ∧ Whole noteItem ∧
      items "price DECIMAL(10,2) ,\n  [due, by] TEXT DEFAULT 'p,''(q'".toList = [priceItem, noteItem] := by
  have price : Whole priceItem := by
    have parts : priceItem = "price DECIMAL".toList ++ '(' :: ("10,2".toList ++ [')']) := by decide
    refine ⟨parts ▸ plainThen (by decide) (.opened (plainThen (by decide) (.closed .done))), by decide, by decide⟩
  have note : Whole noteItem := by
    have parts : noteItem = '[' :: "due, by".toList ++ ']' :: (" TEXT DEFAULT ".toList ++
      ('\'' :: "p,".toList ++ '\'' :: ('\'' :: "(q".toList ++ '\'' :: []))) := by decide
    refine ⟨parts ▸ .quoted (by decide) (by decide) (plainThen (by decide)
      (.quoted (by decide) (by decide) (.quoted (by decide) (by decide) .done))), by decide, by decide⟩
  have around : List.Forall₂ Around [priceItem, noteItem] [priceItem ++ [' '], "\n  ".toList ++ noteItem] :=
    .cons ⟨[], [' '], by decide, by decide⟩ (.cons ⟨"\n  ".toList, [], by decide, by decide⟩ .nil)
  refine ⟨price, note, ?_⟩
  exact bodyDivided.1 [priceItem, noteItem] _ (by decide) (by simp [price, note]) around

end LiveSchema.Catalog
