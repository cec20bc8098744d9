import LiveSchema.Proofs.Phrases
/-! Phrases as text. A text is cut into lexemes before it is read: operators and the words behind an operand
by their blanks, names by their brackets, numbers and parameters as far as their characters go. A closing
bracket inside a name would end the name early, and a parameter named by a number is the indexed one; such
lexemes are not found again. -/
namespace LiveSchema

def wordCharacter (c : Char) : Bool := c.isAlphanum || c == '_'

def Apart (text : List Char) : Prop := ∀ c ∈ text.head?, wordCharacter c = false

namespace Lexeme

def spaced : List (String × Lexeme) :=
  [("AND ", .operator .and), ("OR ", .operator .or), ("= ", .operator .equals),
    ("<> ", .operator .notEqual), ("> ", .operator .greater), (">= ", .operator .greaterEqual),
    ("< ", .operator .less), ("<= ", .operator .lessEqual), ("+ ", .operator .add),
    ("- ", .operator .sub), ("* ", .operator .mul), ("/ ", .operator .div), ("% ", .operator .modulo),
    ("<< ", .operator .shiftLeft), (">> ", .operator .shiftRight), ("& ", .operator .bitAnd),
    ("| ", .operator .bitOr), ("^ ", .operator .bitXor), ("LIKE ", .operator .like),
    ("IS NULL", .nullTest false), ("IS NOT NULL", .nullTest true), ("IN ", .isIn)]

def spaced? (text : List Char) : Option (Lexeme × List Char) :=
  spaced.findSome? fun (spelling, l) => (spelling.toList.isPrefixOf? text).map (l, ·)

def number? (word : List Char) : Option Nat :=
  if word ≠ [] ∧ word.all Char.isDigit then some (Nat.ofDigitChars 10 word 0) else none

def ofWord? (word : List Char) : Option Lexeme :=
  if word = "NULL".toList then some (.literal .null)
  else (number? word).map fun n => .literal (.int (Int64.ofNat n))

def ofParameter (name : List Char) : Lexeme :=
  match number? name with
  | some n => .placeholder (.indexed (UInt64.ofNat n))
  | none => .placeholder (.named (String.ofList name))

def first? : List Char → Option (Lexeme × List Char)
  | '(' :: cs => some (.openParen, cs)
  | ')' :: cs => some (.closeParen, cs)
  | ',' :: cs => some (.comma, cs)
  | '!' :: cs => some (.sign .not, cs)
  | '~' :: cs => some (.sign .complement, cs)
  | '-' :: cs => some (.sign .negate, cs)
  | '?' :: cs => some (.placeholder .positional, cs)
  | '@' :: cs => some (ofParameter (cs.takeWhile wordCharacter), cs.dropWhile wordCharacter)
  | '[' :: cs =>
    match cs.dropWhile (· != ']') with
    | [] => none
    | _ :: rest => some (.name (String.ofList (cs.takeWhile (· != ']'))), rest)
  | ' ' :: cs => spaced? cs
  | cs => (ofWord? (cs.takeWhile wordCharacter)).map (·, cs.dropWhile wordCharacter)

def cutAll (text : List Char) : Option (List Lexeme) :=
  if text = [] then some []
  else
    match first? text with
    | none => none
    | some (l, rest) =>
      if rest.length < text.length then (cutAll rest).map (l :: ·) else none
termination_by text.length

def valueLegible : Value → Bool
  | .null => true
  | .int n => decide (0 ≤ n.toInt)
  | _ => false

def parameterLegible : Parameter → Bool
  | .named spelling => spelling.toList.all wordCharacter && (number? spelling.toList).isNone
  | .positional | .indexed _ => true

def legible : Lexeme → Bool
  | .name column => !column.toList.contains ']'
  | .literal v => valueLegible v
  | .placeholder p => parameterLegible p
  | .operator op => op != .assign
  | .sign _ | .nullTest _ | .isIn | .openParen | .closeParen | .comma => true
  | .word _ | .verbatim _ | .dot => false

theorem takeWord {word rest : List Char} (all : ∀ c ∈ word, wordCharacter c = true) (apart : Apart rest) :
    (word ++ rest).takeWhile wordCharacter = word ∧ (word ++ rest).dropWhile wordCharacter = rest := by
  have stops : rest.takeWhile wordCharacter = [] ∧ rest.dropWhile wordCharacter = rest := by
    cases rest with
    | nil => exact ⟨rfl, rfl⟩
    | cons c cs =>
      have other := apart c rfl
      simp [other]
  rw [List.takeWhile_append_of_pos all, List.dropWhile_append_of_pos all, stops.1, stops.2]
  simp

theorem firstName {column : String} (closed : ']' ∉ column.toList) (rest : List Char) :
    first? ('[' :: (column.toList ++ ']' :: rest)) = some (.name column, rest) := by
  have inside : ∀ c ∈ column.toList, (c != ']') = true := fun c member => by
    simpa using fun same : c = ']' => closed (same ▸ member)
  have taken : (column.toList ++ ']' :: rest).takeWhile (· != ']') = column.toList := by
    rw [List.takeWhile_append_of_pos inside]
    simp
  have left : (column.toList ++ ']' :: rest).dropWhile (· != ']') = ']' :: rest := by
    rw [List.dropWhile_append_of_pos inside]
    simp
  simp [first?, taken, left]

theorem digitsOf (n : Nat) : ∀ c ∈ n.repr.toList, c.isDigit = true := by
  intro c member
  rw [Nat.repr_eq_ofList_toDigits, String.toList_ofList] at member
  exact Nat.isDigit_of_mem_toDigits (by decide) (by decide) member

theorem digitIsWord {c : Char} (digit : c.isDigit = true) : wordCharacter c = true := by
  simp [wordCharacter, Char.isAlphanum, digit]

theorem numberOf (n : Nat) : number? n.repr.toList = some n := by
  have all : n.repr.toList ≠ [] ∧ n.repr.toList.all Char.isDigit = true :=
    ⟨by simp, by simpa using digitsOf n⟩
  rw [number?, if_pos all, Nat.repr_eq_ofList_toDigits, String.toList_ofList,
    Nat.ofDigitChars_ten_toDigits]

theorem firstWord {word rest : List Char} (some_ : word ≠ []) (all : ∀ c ∈ word, wordCharacter c = true)
    (apart : Apart rest) : first? (word ++ rest) = (ofWord? word).map (·, rest) := by
  obtain ⟨c, cs, rfl⟩ := List.exists_cons_of_ne_nil some_
  have first : wordCharacter c = true := all c List.mem_cons_self
  have taken := takeWord all apart
  rw [List.cons_append] at taken ⊢
  rw [first?]
  · rw [taken.1, taken.2]
  all_goals
    intro _ same
    obtain ⟨rfl, -⟩ := List.cons.inj same
    contradiction

theorem firstNumber {n : Int64} (nonneg : 0 ≤ n.toInt) {rest : List Char} (apart : Apart rest) :
    first? ((toString n.toInt).toList ++ rest) = some (.literal (.int n), rest) := by
  obtain ⟨k, same⟩ := Int.eq_ofNat_of_zero_le nonneg
  have written : toString n.toInt = k.repr := by rw [same]; rfl
  have other : k.repr.toList ≠ "NULL".toList := fun equal => by
    have digit := digitsOf k 'N' (equal ▸ List.mem_cons_self)
    contradiction
  have value : Int64.ofNat k = n := by
    rw [← Int64.ofInt_eq_ofNat, ← same, Int64.ofInt_toInt]
  rw [written, firstWord (by simp) (fun c member => digitIsWord (digitsOf k c member))
    apart, ofWord?, if_neg other, numberOf]
  simp [value]

theorem ofNamed {spelling : String} (other : number? spelling.toList = none) :
    ofParameter spelling.toList = .placeholder (.named spelling) := by
  simp [ofParameter, other]

theorem ofIndexed (index : UInt64) :
    ofParameter index.toNat.repr.toList = .placeholder (.indexed index) := by
  rw [ofParameter, numberOf]
  simp

theorem firstParameter {spelling rest : List Char} (all : ∀ c ∈ spelling, wordCharacter c = true)
    (apart : Apart rest) : first? ('@' :: (spelling ++ rest)) = some (ofParameter spelling, rest) := by
  have taken := takeWord all apart
  rw [first?, taken.1, taken.2]

theorem firstOperator {op : BinaryOp} (other : op ≠ .assign) (rest : List Char) :
    first? (' ' :: (op.symbol.toList ++ ' ' :: rest)) = some (.operator op, rest) := by
  cases op <;> first | rfl | contradiction

def isWord : Lexeme → Bool
  | .literal _ | .placeholder _ => true
  | _ => false

theorem firstText (d : Dialect) {l : Lexeme} (shown : l.legible = true) {rest : List Char}
    (apart : l.isWord = true → Apart rest) : first? ((l.text d).toList ++ rest) = some (l, rest) := by
  cases l with
  | name column =>
    have closed : ']' ∉ column.toList := by simpa [legible] using shown
    simpa [text, Dialect.mask, Text.bracket] using firstName closed rest
  | literal v =>
    cases v with
    | null =>
      have word : "NULL".toList.all wordCharacter = true := by decide
      exact firstWord (by decide) (List.all_eq_true.mp word) (apart rfl)
    | int n => exact firstNumber (by simpa [legible, valueLegible] using shown) (apart rfl)
    | _ => contradiction
  | placeholder q =>
    cases q with
    | positional => simp [text, Dialect.placeholder, first?]
    | named spelling =>
      simp only [legible, parameterLegible, Bool.and_eq_true, List.all_eq_true, Option.isNone_iff_eq_none] at shown
      simpa [text, Dialect.placeholder, ofNamed shown.2] using firstParameter shown.1 (apart rfl)
    | indexed index =>
      have digits (c) (member : c ∈ index.toNat.repr.toList) := digitIsWord (digitsOf _ c member)
      have first := firstParameter digits (apart rfl)
      rw [ofIndexed] at first
      simpa [text, Dialect.placeholder] using first
  | sign op => cases op <;> simp [text, UnaryOp.symbol, first?]
  | operator op =>
    have other : op ≠ .assign := by simpa [legible] using shown
    simpa [text] using firstOperator other rest
  | nullTest negated => cases negated <;> simp [text, first?] <;> rfl
  | isIn =>
    simp [text, first?]
    rfl
  | openParen | closeParen | comma => simp [text, first?]
  | _ => contradiction

theorem someText (d : Dialect) {l : Lexeme} (shown : l.legible = true) : (l.text d).toList ≠ [] := by
  cases l with
  | literal v =>
    cases v with
    | int n => simp [text, Dialect.literal, Int.repr_eq_if]; split <;> simp
    | _ => first | contradiction | simp [text, Dialect.literal]
  | placeholder q => cases q <;> simp [text, Dialect.placeholder]
  | sign op => cases op <;> simp [text, UnaryOp.symbol]
  | nullTest negated => cases negated <;> simp [text]
  | _ => first | contradiction | simp [text, Dialect.mask, Text.bracket]

theorem cutFirst (d : Dialect) {l : Lexeme} (shown : l.legible = true) {rest : List Lexeme}
    (apart : l.isWord = true → Apart (textAll d rest).toList)
    (later : cutAll (textAll d rest).toList = some rest) :
    cutAll (textAll d (l :: rest)).toList = some (l :: rest) := by
  have some_ := someText d shown
  have shorter : (textAll d rest).toList.length < ((l.text d).toList ++ (textAll d rest).toList).length := by
    have := List.length_pos_iff.mpr some_
    simp only [List.length_append]
    omega
  rw [textAll, String.toList_append, cutAll, if_neg (List.append_ne_nil_of_left_ne_nil some_ _),
    firstText d shown apart]
  dsimp only
  rw [if_pos shorter, later, Option.map_some]

end Lexeme

theorem readApart {levels : List Level} {w : Starts} {p q : Phrase} {lexemes : List Lexeme}
    (read : readPhrase levels w (some p) lexemes = some q) (d : Dialect) :
    Apart (Lexeme.textAll d lexemes).toList := by
  intro c top
  cases lexemes with
  | nil => simp [Lexeme.textAll] at top
  | cons l rest =>
    have begins (b : Char) (same : b = c) (other : wordCharacter b = false) : wordCharacter c = false :=
      same ▸ other
    cases l with
    | operator | isIn => exact begins ' ' (by simpa [Lexeme.textAll, Lexeme.text] using top) rfl
    | nullTest negated =>
      exact begins ' ' (by cases negated <;> simpa [Lexeme.textAll, Lexeme.text] using top) rfl
    | comma => exact begins ',' (by simpa [Lexeme.textAll, Lexeme.text] using top) rfl
    | closeParen => exact begins ')' (by simpa [Lexeme.textAll, Lexeme.text] using top) rfl
    | _ => simp [readPhrase] at read

theorem cutRead {levels : List Level} {w : Starts} {hand : Option Phrase} {lexemes : List Lexeme}
    {p : Phrase} (read : readPhrase levels w hand lexemes = some p) (d : Dialect)
    (shown : ∀ l ∈ lexemes, l.legible = true) :
    Lexeme.cutAll (Lexeme.textAll d lexemes).toList = some lexemes := by
  have onward (l : Lexeme) (rest : List Lexeme) (shown : ∀ k ∈ l :: rest, k.legible = true) :
      ∀ k ∈ rest, k.legible = true := fun k member => shown k (List.mem_cons_of_mem l member)
  fun_induction readPhrase levels w hand lexemes with
  | case1 => simp [Lexeme.textAll, Lexeme.cutAll]
  | case2 _ _ _ _ ih | case3 _ _ _ _ ih | case4 _ _ _ _ ih =>
    exact Lexeme.cutFirst d (shown _ List.mem_cons_self) (fun _ => readApart read d)
      (ih read (onward _ _ shown))
  | case9 _ _ _ rest ih =>
    have later := onward _ _ shown
    refine Lexeme.cutFirst d (shown _ List.mem_cons_self) (fun word => by cases word) ?_
    exact Lexeme.cutFirst d (later _ List.mem_cons_self) (fun word => by cases word)
      (ih read (onward _ _ later))
  | case14 => contradiction
  | _ =>
    rename_i ih
    exact Lexeme.cutFirst d (shown _ List.mem_cons_self) (fun word => by cases word)
      (ih read (onward _ _ shown))

def readText (text : String) : Option Phrase := do
  readPhrase [] [] none (← Lexeme.cutAll text.toList)

theorem readTextAll {lexemes : List Lexeme} {p : Phrase} (read : readPhrase [] [] none lexemes = some p)
    (d : Dialect) (shown : ∀ l ∈ lexemes, l.legible = true) :
    readText (Lexeme.textAll d lexemes) = some p := by
  rw [readText, cutRead read d shown]
  exact read

/-- The text of a tree is read as a phrase: its lexemes always, and its characters if every lexeme is
legible. -/
def Expr.TextReads (d : Dialect) (e : Expr) (p : Phrase) : Prop :=
  ∃ lexemes, e.render d = .of lexemes ∧ e.compile d = .ok (Lexeme.textAll d lexemes) ∧
    readPhrase [] [] none lexemes = some p ∧
    ((∀ l ∈ lexemes, l.legible = true) → readText (Lexeme.textAll d lexemes) = some p)

theorem Expr.textReadsPlain {chain : BinaryOp → BinaryOp → Prop} {e : Expr} (plain : e.Plain chain)
    (d : Dialect) :
    e.TextReads d (Starts.whole (e.enter [])) := by
  have rendered := renderPlain plain d
  have read := readPlain plain [] [] []
  rw [List.append_nil, readPhrase] at read
  exact ⟨e.lexemes, rendered, by rw [compile, rendered]; rfl, read, readTextAll read d⟩

theorem Expr.textReadsOne {e : Expr} {d : Dialect} {p q : Phrase} (first : e.TextReads d p)
    (second : e.TextReads d q) : p = q := by
  obtain ⟨lexemes, rendered, -, read, -⟩ := first
  obtain ⟨again, renderedAgain, -, readAgain, -⟩ := second
  have same : lexemes = again := congrArg Rendering.lexemes (rendered.symm.trans renderedAgain)
  subst same
  exact Option.some.inj (read.symm.trans readAgain)

end LiveSchema
