import LiveSchema.Catalog.Items
import LiveSchema.Text.Quoted
/-! Cutting a written list into its items. A text passes from one depth of parentheses to another if it is
taken as a whole there, whatever follows: none of its commas separates items, and the quotes it opens it
closes. -/
namespace LiveSchema.Catalog
open Text

/- What holds of the characters of a text is decided along the text, not over all characters. -/
section Textwise
variable (holds : Char → Prop) [DecidablePred holds]

scoped instance (priority := high) textwise (cs : List Char) : Decidable (∀ c ∈ cs, holds c) :=
  List.decidableBAll holds cs

scoped instance (priority := high) edgewise (edge : Option Char) : Decidable (∀ c ∈ edge, holds c) :=
  Option.decidableForallMem edge

end Textwise

def Passes (before after : Nat) (cs : List Char) : Prop :=
  ∀ rest, cutItems before none (cs ++ rest) = cs.foldr consFirst (cutItems after none rest)

section Passes
variable {a b c depth : Nat} {cs ds : List Char}

theorem passesNil : Passes depth depth [] := fun _ => rfl

theorem passesAppend (first : Passes a b cs) (second : Passes b c ds) : Passes a c (cs ++ ds) := by
  intro rest
  rw [List.append_assoc, first, second, List.foldr_append]

theorem passesOpen : Passes depth (depth + 1) ['('] := by
  intro rest
  simp [cutItems, depthAfter, closingQuote?]

theorem passesClose : Passes (depth + 1) depth [')'] := by
  intro rest
  simp [cutItems, depthAfter, closingQuote?]

def isInner (c : Char) : Bool := (closingQuote? c).isNone && !"()".toList.contains c

theorem innerKeeps {c : Char} (inner : isInner c = true) (depth : Nat) :
    closingQuote? c = none ∧ depthAfter depth c = depth := by
  simp only [isInner, Bool.and_eq_true, Option.isNone_iff_eq_none, Bool.not_eq_true',
    List.contains_eq_mem, decide_eq_false_iff_not] at inner
  refine ⟨inner.1, ?_⟩
  unfold depthAfter
  split
  · simp at inner
  · simp at inner
  · rfl

theorem passesInner (inner : ∀ c ∈ cs, isInner c = true ∧ (c = ',' → depth ≠ 0)) :
    Passes depth depth cs := by
  induction cs with
  | nil => exact passesNil
  | cons c cs ih =>
    have later := ih fun d member => inner d (List.mem_cons_of_mem c member)
    obtain ⟨here, comma⟩ := inner c List.mem_cons_self
    have keeps := innerKeeps here depth
    intro rest
    have uncut : ¬(c = ',' ∧ depth = 0) := fun ⟨isComma, zero⟩ => comma isComma zero
    rw [List.cons_append, cutItems, if_neg uncut, keeps.1, keeps.2, later]
    rfl

theorem passesParens (inside : Passes (depth + 1) (depth + 1) cs) :
    Passes depth depth ('(' :: cs ++ [')']) :=
  passesAppend (passesAppend passesOpen inside) passesClose

theorem insideQuote {q : Char} (open_ : q ∉ cs) (rest : List Char) :
    cutItems depth (some q) (cs ++ rest) = cs.foldr consFirst (cutItems depth (some q) rest) := by
  induction cs with
  | nil => rfl
  | cons c cs ih =>
    simp only [List.mem_cons, not_or] at open_
    simp [cutItems, Ne.symm open_.1, ih open_.2]

theorem passesQuoted {opening closing : Char} (pair : closingQuote? opening = some closing) (open_ : closing ∉ cs) :
    Passes depth depth (opening :: cs ++ [closing]) := by
  intro rest
  have quote : ¬(opening = ',' ∧ depth = 0) := by
    rintro ⟨rfl, -⟩
    contradiction
  have level : depthAfter depth opening = depth := by
    unfold depthAfter
    split
    · contradiction
    · contradiction
    · rfl
  have text : opening :: cs ++ [closing] ++ rest = opening :: (cs ++ closing :: rest) := by simp
  rw [text, cutItems, if_neg quote, pair, level, insideQuote open_]
  simp [cutItems]

theorem passesBracketed (open_ : ']' ∉ cs) : Passes depth depth ('[' :: cs ++ [']']) := passesQuoted rfl open_

theorem passesLiteral (cs : List Char) : Passes depth depth ('\'' :: doubleQuotes cs ++ ['\'']) := by
  have inside (rest : List Char) : cutItems depth (some '\'') (doubleQuotes cs ++ '\'' :: rest) =
      (doubleQuotes cs ++ ['\'']).foldr consFirst (cutItems depth none rest) := by
    fun_induction doubleQuotes cs with
    | case1 => simp [cutItems]
    | case2 cs ih => simp [cutItems, ih, depthAfter, closingQuote?]
    | case3 c cs notQuote ih =>
      have other : c ≠ '\'' := fun same => notQuote same
      simp [cutItems, ih, other]
  intro rest
  have start : cutItems depth none ('\'' :: (doubleQuotes cs ++ '\'' :: rest)) =
      consFirst '\'' (cutItems depth (some '\'') (doubleQuotes cs ++ '\'' :: rest)) := by
    simp [cutItems, depthAfter, closingQuote?]
  have text : '\'' :: doubleQuotes cs ++ ['\''] ++ rest =
      '\'' :: (doubleQuotes cs ++ '\'' :: rest) := by simp
  rw [text, start, inside]
  rfl

theorem foldrFirst (cs piece : List Char) (others : List (List Char)) :
    cs.foldr consFirst (piece :: others) = (cs ++ piece) :: others := by
  induction cs with
  | nil => rfl
  | cons c cs ih => rw [List.foldr_cons, ih]; rfl

end Passes

structure Lists (text : List Char) (texts : List (List Char)) : Prop where
  alone : items text = texts
  before : ∀ rest, items (text ++ ',' :: rest) = texts ++ items rest

section Lists
variable {item text other : List Char} {texts others : List (List Char)}

theorem trimBlank {blank : Char} (isOne : isBlank blank = true) (cs : List Char) :
    trim (blank :: cs) = trim cs := by
  simp [trim, trimBy, isOne]

theorem listsItem (passes : Passes 0 0 item) : Lists item [trim item] where
  alone := by
    have whole := passes []
    rw [List.append_nil, cutItems, foldrFirst, List.append_nil] at whole
    simp [items, whole]
  before rest := by
    have comma : cutItems 0 none (',' :: rest) = [] :: cutItems 0 none rest := by simp [cutItems]
    rw [items, passes, comma, foldrFirst, List.append_nil]
    rfl

theorem listsBlankItem (passes : Passes 0 0 item) : Lists (' ' :: item) [trim item] := by
  have space : Passes 0 0 [' '] := passesInner (by decide)
  have spaced : Passes 0 0 (' ' :: item) := passesAppend space passes
  rw [← trimBlank (by decide : isBlank ' ' = true) item]
  exact listsItem spaced

theorem listsAppend (first : Lists text texts) (second : Lists other others) :
    Lists (text ++ ',' :: other) (texts ++ others) where
  alone := by rw [first.before, second.alone]
  before rest := by
    rw [List.append_assoc, List.cons_append, first.before, second.before, List.append_assoc]

theorem listsJoined {first : String} {rest : List String}
    (passes : ∀ s ∈ first :: rest, Passes 0 0 s.toList) :
    Lists (joinWith "," (first :: rest)).toList ((first :: rest).map (trim ·.toList)) := by
  induction rest generalizing first with
  | nil => exact listsItem (passes first List.mem_cons_self)
  | cons second rest ih =>
    have later := ih fun s member => passes s (List.mem_cons_of_mem first member)
    have all := listsAppend (listsItem (passes first List.mem_cons_self)) later
    simpa [joinWith, String.append_assoc] using all

end Lists

end LiveSchema.Catalog
