import LiveSchema.Catalog.Grammar
import LiveSchema.Proofs.Trimming
import Mathlib.Data.List.TakeDrop
import Mathlib.Data.List.TakeWhile
/-! What the readers of the grammar take from the front of a text, said without them: a run of characters,
blanks, words in any case. -/
namespace LiveSchema
open Text Catalog

structure Gap (cs : List Char) : Prop where
  filled : cs ≠ []
  blank : ∀ c ∈ cs, isBlank c = true

inductive Spaced : List String → List Char → Prop where
  | nil : Spaced [] []
  | cons {keyword keywords blanks written rest} (gap : Gap blanks)
    (same : written.map foldLetter = keyword.toList) (later : Spaced keywords rest) :
    Spaced (keyword :: keywords) (blanks ++ (written ++ rest))

def isKeyword (keyword : String) : Bool := keyword.toList.head?.any (!isBlank ·)

section Readers
variable {cs ds run rest : List Char} {keyword : String} {keywords : List String}

theorem runRead {p : Char → Bool} (nonempty : cs ≠ []) (run : ∀ c ∈ cs, p c = true)
    (stop : ∀ c ∈ ds.head?, p c = false) : run? p (cs ++ ds) = some (cs, ds) := by
  have stopped : ds.takeWhile p = [] := by
    cases ds with
    | nil => rfl
    | cons d ds => simp [stop d rfl]
  have split : (cs ++ ds).span p = (cs, ds) := by
    rw [List.span_eq_takeWhile_dropWhile, List.takeWhile_append_of_pos run,
      List.dropWhile_append_of_pos run, stopped, dropWhileKeeps stop, List.append_nil]
  cases cs with
  | nil => contradiction
  | cons c cs => simp only [run?, split]

theorem gapFirst {blanks : List Char} (gap : Gap blanks) (rest : List Char) :
    ∀ c ∈ (blanks ++ rest).head?, isBlank c = true :=
  firstLeft gap.filled fun c head => gap.blank c (List.mem_of_mem_head? head)

theorem runForm {p : Char → Bool} : run? p cs = some (run, rest) ↔
    cs = run ++ rest ∧ run ≠ [] ∧ (∀ c ∈ run, p c = true) ∧ ∀ c ∈ rest.head?, p c = false := by
  constructor
  · intro found
    rw [run?, List.span_eq_takeWhile_dropWhile] at found
    split at found
    · contradiction
    · rename_i filled split
      cases found
      obtain ⟨rfl, rfl⟩ := Prod.mk.inj split
      exact ⟨List.takeWhile_append_dropWhile.symm, filled, fun c member => List.mem_takeWhile_imp member,
        headOfDropWhile p cs⟩
  · rintro ⟨rfl, filled, inside, stop⟩
    exact runRead filled inside stop

theorem blanksForm : blanks? cs = some rest ↔
    ∃ gap, Gap gap ∧ cs = gap ++ rest ∧ ∀ c ∈ rest.head?, isBlank c = false := by
  constructor
  · intro found
    cases cs with
    | nil => contradiction
    | cons c cs =>
      rw [blanks?] at found
      split at found
      · rename_i blank
        cases found
        refine ⟨c :: cs.takeWhile isBlank, ⟨List.cons_ne_nil _ _, ?_⟩, ?_, headOfDropWhile isBlank cs⟩
        · exact List.forall_mem_cons.mpr ⟨blank, fun d member => List.mem_takeWhile_imp member⟩
        · rw [List.cons_append, skipBlanks, List.takeWhile_append_dropWhile]
      · contradiction
  · rintro ⟨gap, ⟨filled, blank⟩, rfl, first⟩
    cases gap with
    | nil => contradiction
    | cons c gap =>
      have within : ∀ d ∈ gap, isBlank d = true := fun d member => blank d (List.mem_cons_of_mem c member)
      rw [List.cons_append, blanks?, if_pos (blank c List.mem_cons_self), skipBlanks,
        List.dropWhile_append_of_pos within, dropWhileKeeps first]

theorem blanksRead (first : ∀ c ∈ cs.head?, isBlank c = false) : blanks? (' ' :: cs) = some cs := by
  have one : isBlank ' ' = true := by decide
  rw [blanks?, if_pos one, skipBlanks, dropWhileKeeps first]

theorem wordForm : word? keyword cs = some rest ↔
    ∃ written, cs = written ++ rest ∧ written.map foldLetter = keyword.toList := by
  unfold word?
  generalize keyword.toList = letters
  induction letters generalizing cs with
  | nil => simp [dropKeyword?]
  | cons k ks ih =>
    cases cs with
    | nil => simp [dropKeyword?]
    | cons c cs =>
      rw [dropKeyword?]
      constructor
      · intro found
        split at found
        · rename_i same
          obtain ⟨written, rfl, folded⟩ := ih.mp found
          exact ⟨c :: written, rfl, by simp [same, folded]⟩
        · contradiction
      · rintro ⟨written, text, folded⟩
        cases written with
        | nil => contradiction
        | cons d written =>
          obtain ⟨rfl, rfl⟩ := List.cons.inj text
          obtain ⟨same, later⟩ := List.cons.inj folded
          rw [if_pos same]
          exact ih.mpr ⟨written, rfl, later⟩

theorem blankFolds {c : Char} (blank : isBlank c = true) : foldLetter c = c := by
  have other (d : Char) (no : isBlank d = false) : c ≠ d := by
    rintro rfl
    rw [blank] at no
    contradiction
  have lower : ¬ c.isUpper := by
    intro upper
    have letter : c.val ≥ 'A'.val ∧ c.val ≤ 'Z'.val := of_decide_eq_true upper
    have bounds : 65 ≤ c.toNat ∧ c.toNat ≤ 90 := by
      simpa [UInt32.le_iff_toNat_le, ← Char.toNat_val] using letter
    simp only [isBlank, Bool.or_eq_true, Bool.and_eq_true, decide_eq_true_eq, beq_iff_eq] at blank
    omega
  rw [foldLetter, if_neg (other _ (by decide)), if_neg (other _ (by decide)), asciiLower, if_neg lower]

theorem keywordStart {written : List Char} (known : isKeyword keyword = true)
    (same : written.map foldLetter = keyword.toList) (rest : List Char) :
    ∀ c ∈ (written ++ rest).head?, isBlank c = false := by
  rw [isKeyword, ← same] at known
  intro c head
  cases written with
  | nil => contradiction
  | cons d written =>
    cases head
    by_contra blank
    rw [Bool.not_eq_false] at blank
    simp [blankFolds blank, blank] at known

theorem wordsForm (known : ∀ k ∈ keywords, isKeyword k = true) : words? keywords cs = some rest ↔
    ∃ front, Spaced keywords front ∧ cs = front ++ rest := by
  induction keywords generalizing cs with
  | nil =>
    constructor
    · intro found
      exact ⟨[], .nil, Option.some.inj found⟩
    · rintro ⟨_, ⟨⟩, rfl⟩
      rfl
  | cons keyword keywords ih =>
    have others (text : List Char) := @ih text fun k member => known k (List.mem_cons_of_mem keyword member)
    simp only [words?, Option.bind_eq_bind, Option.bind_eq_some_iff]
    constructor
    · rintro ⟨atWord, blanks, behind, word, found⟩
      obtain ⟨gap, isGap, rfl, _⟩ := blanksForm.mp blanks
      obtain ⟨written, rfl, same⟩ := wordForm.mp word
      obtain ⟨front, spaced, rfl⟩ := (others _).mp found
      exact ⟨gap ++ (written ++ front), .cons isGap same spaced, by simp only [List.append_assoc]⟩
    · rintro ⟨_, spaced, rfl⟩
      cases spaced with
      | @cons _ _ gap written front isGap same later =>
        have start := keywordStart (known keyword List.mem_cons_self) same (front ++ rest)
        refine ⟨written ++ (front ++ rest), blanksForm.mpr ⟨gap, isGap, ?_, start⟩, front ++ rest,
          wordForm.mpr ⟨written, rfl, same⟩, (others _).mpr ⟨front, later, rfl⟩⟩
        simp only [List.append_assoc]

theorem spacedRead (known : ∀ k ∈ keywords, isKeyword k = true) (read : words? keywords cs = some []) :
    Spaced keywords cs := by
  obtain ⟨front, spaced, rfl⟩ := (wordsForm known).mp read
  rwa [List.append_nil]

end Readers

end LiveSchema
