import LiveSchema.Proofs.PhraseText
/-! The characters of literals. Beside the text of the caller a literal shows letters, digits and few signs;
a number begins with its sign and has digits behind it. -/
namespace LiveSchema

namespace Text

theorem doubledCharacters (s : List Char) : ∀ c ∈ doubleQuotes s, c ∈ s := by
  fun_induction doubleQuotes s with
  | case1 => simp
  | case2 cs ih => grind
  | case3 c cs _ ih => grind

theorem escapedCharacters (s : List Char) :
    ∀ c ∈ s.flatMap escapeChar, c ∈ s ∨ c ∈ ['\\', 'n', 'r', 't'] := by
  intro c member
  obtain ⟨b, inside, shown⟩ := List.mem_flatMap.mp member
  unfold escapeChar at shown
  grind

theorem hexCharacters (bytes : List UInt8) : ∀ c ∈ bytes.flatMap hexByte, c.isAlphanum = true := by
  have digit : ∀ n : Fin 16, (hexDigit n).isAlphanum = true := by decide
  intro c member
  obtain ⟨b, -, shown⟩ := List.mem_flatMap.mp member
  have small : b.toNat / 16 < 16 := by have := b.toNat_lt; omega
  have rest : b.toNat % 16 < 16 := by omega
  simp only [hexByte, List.mem_cons, List.not_mem_nil, or_false] at shown
  rcases shown with rfl | rfl
  · exact digit ⟨_, small⟩
  · exact digit ⟨_, rest⟩

end Text

theorem kindStops {kind : Char → Bool} {rest : List Char} (ends : ∀ c ∈ rest.head?, kind c = false) :
    rest.takeWhile kind = [] ∧ rest.dropWhile kind = rest := by
  cases rest with
  | nil => exact ⟨rfl, rfl⟩
  | cons c cs => simp [ends c rfl]

theorem zerosBefore (k n : Nat) : ∀ c ∈ List.replicate k '0' ++ Nat.toDigits 10 n, c.isDigit = true := by
  intro c member
  rcases List.mem_append.mp member with zero | digit
  · rw [List.eq_of_mem_replicate zero]
    rfl
  · exact Nat.isDigit_of_mem_toDigits (by decide) (by decide) digit

theorem integerText (n : Int64) :
    (toString n.toInt).toList = (if n < 0 then ['-'] else []) ++ n.toInt.natAbs.repr.toList := by
  have shown : toString n.toInt = n.toInt.repr := rfl
  have sign : n < 0 ↔ n.toInt < 0 := Int64.lt_iff_toInt_lt
  rw [shown, Int.repr_eq_if]
  by_cases negative : n < 0
  · have below := sign.mp negative
    have magnitude : (-n.toInt).toNat = n.toInt.natAbs := by omega
    simp [negative, Int.not_le.mpr below, magnitude]
  · have above : 0 ≤ n.toInt := Int.not_lt.mp (mt sign.mpr negative)
    have magnitude : n.toInt.toNat = n.toInt.natAbs := by omega
    simp [negative, above, magnitude]

theorem integerStart (n : Int64) :
    ∃ c cs, (toString n.toInt).toList = c :: cs ∧ (c = '-' ∨ c.isDigit = true) := by
  obtain ⟨c, cs, shown⟩ := List.exists_cons_of_ne_nil (by simp : n.toInt.natAbs.repr.toList ≠ [])
  rw [integerText, shown]
  by_cases negative : n < 0
  · exact ⟨'-', c :: cs, by simp [negative], .inl rfl⟩
  · exact ⟨c, cs, by simp [negative], .inr (Lexeme.digitsOf _ c (shown ▸ List.mem_cons_self))⟩

theorem Shortest.decimalCharacters (d : Decimal) : ∀ c ∈ d.text, c.isDigit = true ∨ c = '.' := by
  intro c member
  unfold Decimal.text at member
  dsimp only at member
  split at member
  · left
    split at member
    · rw [List.mem_singleton.mp member]
      rfl
    · exact zerosBefore _ _ c (List.mem_append.mpr (List.mem_append.mp member).symm)
  · generalize written : List.replicate _ '0' ++ Nat.toDigits 10 d.digits = padded at member
    have digits : ∀ c ∈ padded, c.isDigit = true := written ▸ zerosBefore _ _
    have whole {n : Nat} (shown : c ∈ padded.take n) : c.isDigit = true :=
      digits c (List.mem_of_mem_take shown)
    have part {n : Nat} (shown : c ∈ ((padded.drop n).reverse.dropWhile (· == '0')).reverse) :
        c.isDigit = true := by
      have kept := (List.dropWhile_sublist _).subset (List.mem_reverse.mp shown)
      exact digits c (List.mem_of_mem_drop (List.mem_reverse.mp kept))
    split at member
    · exact .inl (whole member)
    · rcases List.mem_append.mp member with shown | shown
      · exact .inl (whole shown)
      · exact (List.mem_cons.mp shown).symm.imp part id

namespace Timestamp

theorem yearSigned (year : Int) :
    ∃ sign ∈ [[], ['-'], ['+']], yearText year = sign ++ padded 4 year.natAbs := by
  unfold yearText
  split
  · exact ⟨['-'], by decide, rfl⟩
  split
  · exact ⟨['+'], by decide, rfl⟩
  · exact ⟨[], by decide, rfl⟩

end Timestamp

def literalCharacter (c : Char) : Bool := c.isAlphanum || ['\'', '\\', '.', '-', '+', ':', ' '].contains c

theorem timestampCharacters (t : Timestamp) : ∀ c ∈ t.chars, literalCharacter c = true := by
  have digit {c : Char} (is : c.isDigit = true) : literalCharacter c = true := by
    simp [literalCharacter, Char.isAlphanum, is]
  have padded {width n : Nat} : ∀ c ∈ Timestamp.padded width n, literalCharacter c = true :=
    fun c member => digit (zerosBefore _ n c member)
  have year : ∀ c ∈ Timestamp.yearText t.year, literalCharacter c = true := by
    obtain ⟨sign, is, written⟩ := Timestamp.yearSigned t.year
    have all : ∀ sign ∈ [[], ['-'], ['+']], sign.all literalCharacter = true := by decide
    have signs := List.all_eq_true.mp (all sign is)
    rw [written]
    exact List.forall_mem_append.mpr ⟨signs, padded⟩
  simp only [Timestamp.chars, List.forall_mem_append, List.forall_mem_cons]
  exact ⟨⟨⟨⟨⟨year, rfl, padded⟩, rfl, padded⟩, rfl, padded⟩, rfl, padded⟩, rfl, padded⟩

theorem literalCharacters (d : Dialect) (v : Value) :
    ∀ c ∈ (d.literal v).toList, literalCharacter c = true ∨ ∃ s, v = .text s ∧ c ∈ s.toList := by
  intro c member
  have digit (is : c.isDigit = true) : literalCharacter c = true := by
    simp [literalCharacter, Char.isAlphanum, is]
  have word {text : String} (all : text.toList.all literalCharacter = true) (shown : c ∈ text.toList) :
      literalCharacter c = true := List.all_eq_true.mp all c shown
  have between {before after : String} {inner : List Char}
      (all : (before ++ after).toList.all literalCharacter = true)
      (shown : c ∈ (before ++ String.ofList inner ++ after).toList) : literalCharacter c = true ∨ c ∈ inner := by
    have edge := word all
    simp only [String.toList_append, String.toList_ofList, List.mem_append] at shown edge
    grind
  cases v with
  | null => exact .inl (word (by decide : "NULL".toList.all literalCharacter = true) member)
  | bool b =>
    cases b with
    | false => exact .inl (word (by decide : "FALSE".toList.all literalCharacter = true) member)
    | true => exact .inl (word (by decide : "TRUE".toList.all literalCharacter = true) member)
  | int n =>
    rw [Dialect.literal, integerText] at member
    rcases List.mem_append.mp member with sign | shown
    · exact .inl (word (by decide : "-".toList.all literalCharacter = true) (by grind))
    · exact .inl (digit (Lexeme.digitsOf _ c shown))
  | float x =>
    rw [Dialect.literal] at member
    split at member
    · rw [Shortest.text, String.toList_ofList] at member
      rcases List.mem_append.mp member with sign | shown
      · exact .inl (word (by decide : "-".toList.all literalCharacter = true) (by grind))
      · rcases Shortest.decimalCharacters _ c shown with is | rfl
        · exact .inl (digit is)
        · exact .inl rfl
    · exact .inl (word (by decide : "NULL".toList.all literalCharacter = true) member)
  | text s =>
    cases d with
    | sqlite =>
      rcases between (by decide) member with sign | shown
      · exact .inl sign
      · exact .inr ⟨s, rfl, Text.doubledCharacters _ c shown⟩
    | sqlServer =>
      rcases between (by decide) member with sign | shown
      · exact .inl sign
      · rcases Text.escapedCharacters _ c shown with kept | escape
        · exact .inr ⟨s, rfl, kept⟩
        · exact .inl (List.all_eq_true.mp (by decide : ['\\', 'n', 'r', 't'].all literalCharacter = true) c escape)
  | blob bytes =>
    rcases between (by decide) member with sign | shown
    · exact .inl sign
    · exact .inl (by simp [literalCharacter, Text.hexCharacters bytes c shown])
  | timestamp t =>
    rcases between (by decide) member with sign | shown
    · exact .inl sign
    · exact .inl (timestampCharacters t c shown)

end LiveSchema
