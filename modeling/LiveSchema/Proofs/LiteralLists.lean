import LiveSchema.Proofs.LiteralText
import LiveSchema.Proofs.Spelling
import LiveSchema.Session.Wire
/-! Lists of literals as a database reads them. A quoted text goes on to the first quote that is not doubled,
so what stands in it can neither end it nor reach the literal behind it. -/
namespace LiveSchema
open Text

namespace Literal

def words : List (String × Value) := [("NULL", .null), ("TRUE", .bool true), ("FALSE", .bool false)]

def word? (text : List Char) : Option (Value × List Char) :=
  words.findSome? fun (spelling, v) => (spelling.toList.isPrefixOf? text).map (v, ·)

def quoted? : List Char → Option (List Char × List Char)
  | [] => none
  | '\'' :: '\'' :: cs => (quoted? cs).map fun (s, rest) => ('\'' :: s, rest)
  | '\'' :: rest => some ([], rest)
  | c :: cs => (quoted? cs).map fun (s, rest) => (c :: s, rest)

def unsigned? (text : List Char) : Option (Nat × List Char) :=
  (Lexeme.number? (text.takeWhile Char.isDigit)).map (·, text.dropWhile Char.isDigit)

def signed? : List Char → Option (Int × List Char)
  | '-' :: cs => (unsigned? cs).map fun (n, rest) => (-n, rest)
  | '+' :: cs => (unsigned? cs).map fun (n, rest) => (n, rest)
  | cs => (unsigned? cs).map fun (n, rest) => (n, rest)

/-- A number that has no room in 64 bits is no literal. -/
def integer? (text : List Char) : Option (Value × List Char) := do
  let (n, rest) ← signed? text
  if (Int64.ofInt n).toInt = n then some (.int (Int64.ofInt n), rest) else none

def first? : List Char → Option (Value × List Char)
  | 'X' :: '\'' :: cs => do
    let (digits, rest) ← quoted? cs
    return (.blob (← hexPairs? digits), rest)
  | '\'' :: cs => (quoted? cs).map fun (s, rest) => (.text (String.ofList s), rest)
  | cs => (word? cs).or (integer? cs)

theorem quotedShorter {text s rest : List Char} (read : quoted? text = some (s, rest)) :
    rest.length < text.length := by
  fun_induction quoted? text generalizing s rest with
  | case1 => contradiction
  | case2 cs ih =>
    obtain ⟨⟨inner, _⟩, found, same⟩ := Option.map_eq_some_iff.mp read
    obtain ⟨-, rfl⟩ := Prod.mk.inj same
    have shorter := ih found
    simp only [List.length_cons]
    omega
  | case3 cs =>
    obtain ⟨-, rfl⟩ := Prod.mk.inj (Option.some.inj read)
    exact Nat.lt_succ_self _
  | case4 c cs _ _ ih =>
    obtain ⟨⟨inner, _⟩, found, same⟩ := Option.map_eq_some_iff.mp read
    obtain ⟨-, rfl⟩ := Prod.mk.inj same
    exact Nat.lt_succ_of_lt (ih found)

theorem wordShorter {text rest : List Char} {v : Value} (read : word? text = some (v, rest)) :
    rest.length < text.length := by
  obtain ⟨⟨spelling, w⟩, listed, found⟩ := List.exists_of_findSome?_eq_some read
  obtain ⟨behind, starts, same⟩ := Option.map_eq_some_iff.mp found
  obtain ⟨-, rfl⟩ := Prod.mk.inj same
  obtain rfl := List.isPrefixOf?_eq_some_iff_append_eq.mp starts
  have some_ : ∀ p ∈ words, 0 < p.1.toList.length := by decide
  have begins : 0 < spelling.toList.length := some_ _ listed
  rw [List.length_append]
  omega

theorem unsignedShorter {text rest : List Char} {n : Nat} (read : unsigned? text = some (n, rest)) :
    rest.length < text.length := by
  obtain ⟨k, found, same⟩ := Option.map_eq_some_iff.mp read
  obtain ⟨-, rfl⟩ := Prod.mk.inj same
  have digits : text.takeWhile Char.isDigit ≠ [] := by
    intro none
    rw [none] at found
    contradiction
  have begins := List.length_pos_iff.mpr digits
  have whole := congrArg List.length (List.takeWhile_append_dropWhile (p := Char.isDigit) (l := text))
  rw [List.length_append] at whole
  omega

theorem signedShorter {text rest : List Char} {n : Int} (read : signed? text = some (n, rest)) :
    rest.length < text.length := by
  unfold signed? at read
  split at read <;> obtain ⟨⟨k, _⟩, found, same⟩ := Option.map_eq_some_iff.mp read <;>
    obtain ⟨-, rfl⟩ := Prod.mk.inj same
  · exact Nat.lt_succ_of_lt (unsignedShorter found)
  · exact Nat.lt_succ_of_lt (unsignedShorter found)
  · exact unsignedShorter found

theorem firstShorter {text rest : List Char} {v : Value} (read : first? text = some (v, rest)) :
    rest.length < text.length := by
  unfold first? at read
  split at read
  · obtain ⟨⟨digits, _⟩, found, shown⟩ := Option.bind_eq_some_iff.mp read
    obtain ⟨bytes, -, same⟩ := Option.bind_eq_some_iff.mp shown
    obtain ⟨-, rfl⟩ := Prod.mk.inj (Option.some.inj same)
    exact Nat.lt_succ_of_lt (Nat.lt_succ_of_lt (quotedShorter found))
  · obtain ⟨⟨inner, _⟩, found, same⟩ := Option.map_eq_some_iff.mp read
    obtain ⟨-, rfl⟩ := Prod.mk.inj same
    exact Nat.lt_succ_of_lt (quotedShorter found)
  · obtain found | ⟨-, found⟩ := Option.or_eq_some_iff.mp read
    · exact wordShorter found
    · obtain ⟨⟨n, _⟩, number, room⟩ := Option.bind_eq_some_iff.mp found
      dsimp only at room
      split at room
      · obtain ⟨-, rfl⟩ := Prod.mk.inj (Option.some.inj room)
        exact signedShorter number
      · contradiction

def listed? (text : List Char) : Option (List Value) :=
  match read : first? text with
  | some (v, []) => some [v]
  | some (v, ',' :: rest) =>
    have : rest.length < text.length := Nat.lt_of_succ_lt (firstShorter read)
    (listed? rest).map (v :: ·)
  | _ => none
termination_by text.length

def all? (text : List Char) : Option (List Value) := if text = [] then some [] else listed? text

section
variable {text rest : List Char} {v : Value} {vs : List Value}

theorem lastRead (read : first? text = some (v, [])) : listed? text = some [v] := by
  rw [listed?]
  split <;> simp_all

theorem nextRead (read : first? text = some (v, ',' :: rest)) :
    listed? text = (listed? rest).map (v :: ·) := by
  rw [listed?]
  split <;> simp_all

end

theorem quotedRead (s : List Char) {rest : List Char} (ends : rest.head? ≠ some '\'') :
    quoted? (doubleQuotes s ++ '\'' :: rest) = some (s, rest) := by
  fun_induction doubleQuotes s with
  | case1 =>
    rw [List.nil_append, quoted?]
    rintro cs rfl
    exact ends rfl
  | case2 cs ih => simp [quoted?, ih]
  | case3 c cs other ih =>
    rw [List.cons_append, quoted?, ih]
    · rfl
    · rintro _ rfl
      contradiction
    · exact other

theorem undoubled {s : List Char} (lacks : '\'' ∉ s) : doubleQuotes s = s := by
  fun_induction doubleQuotes s with
  | case1 => rfl
  | case2 cs ih => simp at lacks
  | case3 c cs other ih => rw [ih fun inside => lacks (List.mem_cons_of_mem c inside)]

theorem pairsRead (bytes : List UInt8) : hexPairs? (bytes.flatMap hexByte) = some bytes := by
  induction bytes with
  | nil => rfl
  | cons b rest ih =>
    have small : b.toNat / 16 < 16 := by have := b.toNat_lt; omega
    have high : hexValue? (hexDigit (b.toNat / 16)) = some (b.toNat / 16) := hexDigitValue ⟨_, small⟩
    have low : hexValue? (hexDigit (b.toNat % 16)) = some (b.toNat % 16) :=
      hexDigitValue ⟨_, Nat.mod_lt _ (by decide)⟩
    have joined : 16 * (b.toNat / 16) + b.toNat % 16 = b.toNat := Nat.div_add_mod _ _
    rw [List.flatMap_cons, hexByte, List.cons_append, List.singleton_append, hexPairs?, high, low, ih]
    simp only [Option.pure_def, Option.bind_eq_bind, Option.bind_some, joined, UInt8.ofNat_toNat]

theorem unsignedRead (n : Nat) {rest : List Char} (ends : ∀ c ∈ rest.head?, c.isDigit = false) :
    unsigned? (n.repr.toList ++ rest) = some (n, rest) := by
  have digits := Lexeme.digitsOf n
  have stops := kindStops ends
  rw [unsigned?, List.takeWhile_append_of_pos digits, List.dropWhile_append_of_pos digits, stops.1, stops.2,
    List.append_nil, Lexeme.numberOf]
  rfl

theorem signedRead (n : Int64) {rest : List Char} (ends : ∀ c ∈ rest.head?, c.isDigit = false) :
    signed? ((toString n.toInt).toList ++ rest) = some (n.toInt, rest) := by
  have sign : n < 0 ↔ n.toInt < 0 := Int64.lt_iff_toInt_lt
  have magnitude := unsignedRead n.toInt.natAbs ends
  rw [integerText]
  by_cases negative : n < 0
  · have below : -(n.toInt.natAbs : Int) = n.toInt := by have := sign.mp negative; omega
    rw [if_pos negative, List.append_assoc, List.singleton_append, signed?, magnitude]
    exact congrArg (fun k => some (k, rest)) below
  · have above : (n.toInt.natAbs : Int) = n.toInt := by have := mt sign.mpr negative; omega
    obtain ⟨c, cs, shown⟩ := List.exists_cons_of_ne_nil (by simp : n.toInt.natAbs.repr.toList ≠ [])
    have digit := Lexeme.digitsOf _ c (shown ▸ List.mem_cons_self)
    rw [shown] at magnitude
    rw [if_neg negative, List.nil_append, shown, signed?]
    · rw [magnitude]
      exact congrArg (fun k => some (k, rest)) above
    all_goals
      intro _ same
      obtain ⟨rfl, -⟩ := List.cons.inj same
      contradiction

def Ends (rest : List Char) : Prop := ∀ c ∈ rest.head?, c = ','

theorem wordRead {p : String × Value} (listed : p ∈ words) (rest : List Char) :
    first? (p.1.toList ++ rest) = some (p.2, rest) := by
  simp only [words, List.mem_cons, List.not_mem_nil, or_false] at listed
  rcases listed with rfl | rfl | rfl <;> rfl

theorem wordStart {c : Char} {cs : List Char} (other : c ∉ ['N', 'T', 'F']) : word? (c :: cs) = none := by
  simp only [List.mem_cons, List.not_mem_nil, or_false, not_or] at other
  obtain ⟨null, true_, false_⟩ := other
  simp [word?, words, List.isPrefixOf?, Ne.symm null, Ne.symm true_, Ne.symm false_]

theorem integerRead (n : Int64) {rest : List Char} (ends : Ends rest) :
    first? ((toString n.toInt).toList ++ rest) = some (.int n, rest) := by
  have others : ∀ c ∈ rest.head?, c.isDigit = false := fun c first => by
    rw [ends c first]
    rfl
  have number : integer? ((toString n.toInt).toList ++ rest) = some (.int n, rest) := by
    rw [integer?, signedRead n others]
    simp
  obtain ⟨c, cs, shown, start⟩ := integerStart n
  have other : c ∉ ['N', 'T', 'F', 'X', '\''] := fun listed => by
    simp only [List.mem_cons, List.not_mem_nil, or_false] at listed
    rcases start with rfl | digit
    · simp at listed
    · rcases listed with rfl | rfl | rfl | rfl | rfl <;> contradiction
  rw [shown] at number ⊢
  rw [List.cons_append, first?, wordStart (by grind)]
  · exact number
  all_goals
    intro _ same
    obtain ⟨rfl, -⟩ := List.cons.inj same
    simp at other

theorem firstRead {v : Value}
    (kind : v.type? ∈ [none, some .bool, some .int, some .text, some .blob]) {rest : List Char}
    (ends : Ends rest) : first? ((Dialect.sqlite.literal v).toList ++ rest) = some (v, rest) := by
  have unquoted : rest.head? ≠ some '\'' := fun quote => by
    have comma := ends _ quote
    contradiction
  cases v with
  | null => exact wordRead (p := ("NULL", .null)) (by decide) rest
  | bool b =>
    cases b with
    | false => exact wordRead (p := ("FALSE", .bool false)) (by decide) rest
    | true => exact wordRead (p := ("TRUE", .bool true)) (by decide) rest
  | int n => exact integerRead n ends
  | text s =>
    have shown : (Dialect.sqlite.literal (.text s)).toList ++ rest =
        '\'' :: (doubleQuotes s.toList ++ '\'' :: rest) := by
      simp [Dialect.literal, Dialect.stringLiteral, quoteDoubled]
    rw [shown, first?, quotedRead _ unquoted]
    simp
  | blob bytes =>
    have lacks : '\'' ∉ bytes.flatMap hexByte := fun quote => by
      have letter := hexCharacters bytes _ quote
      contradiction
    have shown : (Dialect.sqlite.literal (.blob bytes)).toList ++ rest =
        'X' :: '\'' :: (doubleQuotes (bytes.flatMap hexByte) ++ '\'' :: rest) := by
      rw [undoubled lacks]
      simp [Dialect.literal, hexBytes]
    rw [shown, first?, quotedRead _ unquoted]
    simp [pairsRead]
  | float x => simp [Value.type?] at kind
  | timestamp t => simp [Value.type?] at kind

theorem literalsListed {vs : List Value}
    (kinds : ∀ v ∈ vs, v.type? ∈ [none, some .bool, some .int, some .text, some .blob]) (some_ : vs ≠ []) :
    listed? ([','].intercalate (vs.map fun v => (Dialect.sqlite.literal v).toList)) = some vs := by
  induction vs with
  | nil => contradiction
  | cons v rest ih =>
    obtain ⟨kind, others⟩ := List.forall_mem_cons.mp kinds
    cases rest with
    | nil =>
      have read : first? ((Dialect.sqlite.literal v).toList ++ []) = some (v, []) :=
        firstRead kind (by simp [Ends])
      rw [List.append_nil] at read
      simpa using lastRead read
    | cons next rest =>
      have behind := ih others (by simp)
      rw [List.map_cons] at behind
      rw [List.map_cons, List.map_cons, List.intercalate_cons_cons, List.append_assoc, List.singleton_append,
        nextRead (firstRead kind (by simp [Ends])), behind]
      rfl

theorem literalsWritten (d : Dialect) (vs : List Value) :
    (Rendering.joinWith .comma (Expr.renderAll d (vs.map .value))).result d =
      .ok (String.ofList ([','].intercalate (vs.map fun v => (d.literal v).toList))) := by
  have each : List.Forall₂ (Rendering.Writes d) (Expr.renderAll d (vs.map .value))
      (vs.map fun v => (d.literal v).toList) := by
    rw [Expr.renderAllMap, List.map_map, List.forall₂_map_left_iff, List.forall₂_map_right_iff,
      List.forall₂_same]
    exact fun v _ => ⟨rfl, by simp [Expr.render, Rendering.of, Rendering.text, Lexeme.textAll, Lexeme.text]⟩
  rw [Rendering.resultWrites, String.toList_ofList, Rendering.writesJoined]
  exact ⟨_, each, by simp [Lexeme.text]⟩

theorem literalsReadBack {vs : List Value}
    (kinds : ∀ v ∈ vs, v.type? ∈ [none, some .bool, some .int, some .text, some .blob]) :
    ∃ text, (Rendering.joinWith .comma (Expr.renderAll .sqlite (vs.map .value))).result .sqlite = .ok text ∧
      all? text.toList = some vs := by
  refine ⟨_, literalsWritten .sqlite vs, ?_⟩
  rw [String.toList_ofList, all?]
  cases vs with
  | nil => rfl
  | cons v rest =>
    have read := literalsListed kinds (List.cons_ne_nil v rest)
    have shown : [','].intercalate ((v :: rest).map fun v => (Dialect.sqlite.literal v).toList) ≠ [] := by
      intro none
      rw [none, listed?] at read
      contradiction
    rwa [if_neg shown]

def edges : List Value :=
  [.text "','", .text "", .text "'", .null, .bool false, .text "NULL", .int (-9223372036854775808), .blob [],
    .blob [0x27, 0xc3], .int 7, .text "X''"]

theorem edgesReadBack :
    (∀ v ∈ edges, v.type? ∈ [none, some .bool, some .int, some .text, some .blob]) ∧
      ∃ text, (Rendering.joinWith .comma (Expr.renderAll .sqlite (edges.map .value))).result .sqlite = .ok text ∧
        text = "''',''','','''',NULL,FALSE,'NULL',-9223372036854775808,X'',X'27C3',7,'X'''''" ∧
        all? text.toList = some edges := by
  have kinds : ∀ v ∈ edges, v.type? ∈ [none, some .bool, some .int, some .text, some .blob] := by decide
  obtain ⟨text, written, read⟩ := literalsReadBack kinds
  have shown := written.symm.trans (literalsWritten .sqlite edges)
  exact ⟨kinds, text, written, (Except.ok.inj shown).trans (by decide), read⟩

end Literal

end LiveSchema
