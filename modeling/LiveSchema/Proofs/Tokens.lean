import LiveSchema.Catalog.Items
import LiveSchema.Text.Letters
import LiveSchema.Text.Quoted
/-! The tokens of a definition as SQLite cuts them: words whatever their case, quoted parts of any content, and single
signs. Quotes must be closed within a text for its tokens to be independent of what stands behind it. -/
namespace LiveSchema
open Text

inductive Token where
  | word (letters : List Char)
  | quoted
  | sign (c : Char)
  deriving DecidableEq, Repr

namespace Token

def named (word : String) : Token := .word word.toList

def isSpace (c : Char) : Bool := [' ', '\t', '\n', '\r', '\x0c'].contains c

def isWordPart (c : Char) : Bool := c.isAlphanum || c == '_' || c == '$' || decide (128 ≤ c.toNat)

/-- Where the cutting stands: a word so far, in capital letters, or a quote that waits for its end. -/
inductive Place where
  | between
  | word (letters : List Char)
  | quoted (closing : Char)
  deriving DecidableEq

namespace Place

def opening (c : Char) : Place × List Token :=
  if isWordPart c then (.word [asciiUpper c], [])
  else if isSpace c then (.between, [])
  else match Catalog.closingQuote? c with
    | some closing => (.quoted closing, [Token.quoted])
    | none => (.between, [.sign c])

def next : Place → Char → Place × List Token
  | .between, c => opening c
  | .word letters, c =>
    if isWordPart c then (.word (letters ++ [asciiUpper c]), [])
    else ((opening c).1, .word letters :: (opening c).2)
  | .quoted closing, c => (if c = closing then .between else .quoted closing, [])

def run : Place → List Char → Place × List Token
  | p, [] => (p, [])
  | p, c :: cs => (((p.next c).1.run cs).1, (p.next c).2 ++ ((p.next c).1.run cs).2)

def left : Place → List Token
  | .word letters => [.word letters]
  | _ => []

def isOpen : Place → Bool
  | .quoted _ => true
  | _ => false

theorem runAppend (p : Place) (a b : List Char) :
    p.run (a ++ b) = (((p.run a).1.run b).1, (p.run a).2 ++ ((p.run a).1.run b).2) := by
  induction a generalizing p with
  | nil => rfl
  | cons c rest ih => rw [List.cons_append, run, run, ih, List.append_assoc]

end Place

end Token

open Token

def Parted (text : List Char) : Prop := ∀ c ∈ text.head?, isWordPart c = false

instance : (text : List Char) → Decidable (Parted text)
  | [] => isTrue fun _ none => nomatch none
  | c :: _ => decidable_of_iff (isWordPart c = false) (by simp [Parted])

def Closed (text : List Char) : Prop := (Place.between.run text).1.isOpen = false

instance (text : List Char) : Decidable (Closed text) :=
  inferInstanceAs (Decidable ((Place.between.run text).1.isOpen = false))

def tokens (text : List Char) : List Token := (Place.between.run text).2 ++ (Place.between.run text).1.left

section
variable {a b : List Char}

theorem partedAppend (first : Parted a) (second : Parted b) : Parted (a ++ b) := by
  cases a with
  | nil => exact second
  | cons c rest => exact first

theorem partedBlank (text : List Char) : Parted (' ' :: text) := by
  intro c first
  cases first
  decide

theorem runsAnew (closed : Closed a) (parted : Parted b) :
    ((Place.between.run a).1.run b).1.isOpen = (Place.between.run b).1.isOpen ∧
    ((Place.between.run a).1.run b).2 ++ ((Place.between.run a).1.run b).1.left =
      (Place.between.run a).1.left ++ tokens b := by
  rw [Closed] at closed
  cases place : (Place.between.run a).1 with
  | between => exact ⟨rfl, rfl⟩
  | quoted closing =>
    rw [place] at closed
    contradiction
  | word letters =>
    cases b with
    | nil => exact ⟨rfl, rfl⟩
    | cons c rest =>
      have other : isWordPart c = false := parted c rfl
      simp [Place.run, Place.next, other, Place.left, tokens]

theorem closedAppend (first : Closed a) (second : Closed b) (parted : Parted b) : Closed (a ++ b) := by
  rw [Closed, Place.runAppend]
  exact (runsAnew first parted).1.trans second

theorem tokensAppend (closed : Closed a) (parted : Parted b) : tokens (a ++ b) = tokens a ++ tokens b := by
  rw [tokens, Place.runAppend, List.append_assoc, (runsAnew closed parted).2, ← List.append_assoc]
  rfl

end

theorem bracketTokens {name : String} (closed : ']' ∉ name.toList) :
    Closed (bracket name).toList ∧ tokens (bracket name).toList = [.quoted] := by
  have inside (cs : List Char) (closed : ']' ∉ cs) : (Place.quoted ']').run (cs ++ [']']) = (.between, []) := by
    induction cs with
    | nil => rfl
    | cons c rest ih =>
      simp only [List.mem_cons, not_or] at closed
      rw [List.cons_append, Place.run, Place.next, if_neg (Ne.symm closed.1), ih closed.2]
      rfl
  have text : (bracket name).toList = ['['] ++ (name.toList ++ [']']) := by simp [bracket]
  have run : Place.between.run (bracket name).toList = (.between, [.quoted]) := by
    rw [text, Place.runAppend]
    change (((Place.quoted ']').run (name.toList ++ [']'])).1,
      [Token.quoted] ++ ((Place.quoted ']').run (name.toList ++ [']'])).2) = _
    rw [inside _ closed]
    rfl
  rw [Closed, tokens, run]
  exact ⟨rfl, rfl⟩

end LiveSchema
