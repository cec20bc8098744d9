import LiveSchema.Json.Buffered
import LiveSchema.Json.Reader
import LiveSchema.Json.Writer
/-! The text of JSON values as it is read. A string is found again whatever its characters are, and the text of a
list or an object is read part by part, with what follows it left over. -/
namespace LiveSchema.Json
open Text

def lettered : List Char := ['\n', '\r', '\t', '\x08', '\x0c']

/-- How a character of a string comes back: control characters without a letter come back as code units. -/
def pieceOf (c : Char) : Piece := if c.toNat < 32 ∧ c ∉ lettered then .unit c.toNat else .char c

section Strings
variable {c : Char} {cs : List Char} {rest : List Symbol}

theorem hexValueOfLower : ∀ n : Fin 16, hexValue? (lowerHex n) = some n.val := by decide

theorem controlUnit (control : c.toNat < 32) :
    codeUnit? (some '0') (some '0') (some (lowerHex (c.toNat / 16))) (some (lowerHex (c.toNat % 16))) =
      some c.toNat := by
  have zero : hexValue? '0' = some 0 := rfl
  have high := hexValueOfLower ⟨c.toNat / 16, by omega⟩
  have low := hexValueOfLower ⟨c.toNat % 16, by omega⟩
  simp only [codeUnit?, zero, high, low, Option.bind_eq_bind, Option.bind_some, Option.pure_def, Option.some.injEq]
  omega

theorem plainPiece (visible : 32 ≤ c.toNat) (quote : c ≠ '"') (escape : c ≠ '\\') (rest : List Symbol) :
    readPieces (some c :: rest) = (readPieces rest).map fun r => (.char c :: r.1, r.2) := by
  rw [readPieces, if_neg (by simp [escape, Nat.not_lt.mpr visible])]
  · exact quote
  · intros
    contradiction
  · intros
    contradiction

theorem pieceEscaped (c : Char) (rest : List Symbol) :
    readPieces ((escape c).map some ++ rest) = (readPieces rest).map fun r => (pieceOf c :: r.1, r.2) := by
  unfold escape
  split
  · rename_i sign
    rcases sign with rfl | rfl <;> rfl
  rename_i unsigned
  split
  · subst c; rfl
  split
  · subst c; rfl
  split
  · subst c; rfl
  split
  · subst c; rfl
  split
  · subst c; rfl
  -- No letter stands for the character.
  have unlettered : c ∉ lettered := by simp_all [lettered]
  split
  · rename_i control
    have piece : pieceOf c = .unit c.toNat := if_pos ⟨control, unlettered⟩
    simp only [List.map_cons, List.map_nil, List.cons_append, List.nil_append, readPieces, controlUnit control,
      piece]
  · rename_i visible
    have piece : pieceOf c = .char c := if_neg fun control => visible control.1
    obtain ⟨quote, slash⟩ := not_or.mp unsigned
    rw [piece]
    exact plainPiece (Nat.not_lt.mp visible) quote slash rest

theorem pieceSpelled (c : Char) (ps : List Piece) : spell? (pieceOf c :: ps) = (spell? ps).map (c :: ·) := by
  unfold pieceOf
  split
  · rename_i control
    have single : isHigh c.toNat = false ∧ isLow c.toNat = false := by
      simp only [isHigh, isLow, Bool.and_eq_false_iff, decide_eq_false_iff_not]
      omega
    cases ps with
    | nil => simp [spell?, single, Char.ofNat_toNat]
    | cons p ps =>
      cases p <;> simp [spell?, single, Char.ofNat_toNat]
  · rfl

theorem piecesSpelled (cs : List Char) : spell? (cs.map pieceOf) = some cs := by
  induction cs with
  | nil => rfl
  | cons c cs ih => rw [List.map_cons, pieceSpelled, ih, Option.map_some]

theorem piecesRead (cs : List Char) (rest : List Symbol) :
    readPieces ((cs.flatMap escape ++ ['"']).map some ++ rest) = some (cs.map pieceOf, rest) := by
  induction cs with
  | nil => rfl
  | cons c cs ih =>
    rw [List.flatMap_cons, List.append_assoc, List.map_append, List.append_assoc, pieceEscaped, ih]
    rfl

end Strings

theorem spaceEnded {c : Char} (solid : isSpace (some c) = false) (rest : List Symbol) :
    skipSpace (some c :: rest) = some c :: rest := List.dropWhile_cons_of_neg (by simp [solid])

structure ReadsBack (j : Json) : Prop where
  starts : ∃ c cs, j.chars = c :: cs ∧ isSpace (some c) = false ∧ c ≠ ']'
  reads : ∀ bound rest, j.chars.length ≤ bound → read bound (j.chars.map some ++ rest) = some (j, rest)

section Values
variable {elements : List Json} {members : List (String × Json)}

theorem readsBackOf {j : Json} {c : Char} {cs : List Char} (shown : j.chars = c :: cs)
    (solid : isSpace (some c) = false) (other : c ≠ ']')
    (reads : ∀ bound rest, cs.length ≤ bound → read (bound + 1) (some c :: (cs.map some ++ rest)) = some (j, rest)) :
    ReadsBack j where
  starts := ⟨c, cs, shown, solid, other⟩
  reads bound rest enough := by
    rw [shown] at enough ⊢
    cases bound with
    | zero => cases enough
    | succ bound => exact reads bound rest (Nat.le_of_succ_le_succ enough)

theorem stringReadsBack (s : String) : ReadsBack (.string s) := by
  have shown : (Json.string s).chars = '"' :: (s.toList.flatMap escape ++ ['"']) := rfl
  refine readsBackOf shown rfl (by decide) fun bound rest _ => ?_
  rw [read, spaceEnded rfl]
  simp only [piecesRead, Option.map_some, ofPieces, piecesSpelled, String.ofList_toList]

theorem boolReadsBack (b : Bool) : ReadsBack (.bool b) := by
  cases b <;> exact readsBackOf rfl rfl (by decide) fun _ _ _ => rfl

theorem elementsRead {e : Json} (each : ∀ d ∈ e :: elements, ReadsBack d) (bound : Nat) (rest : List Symbol)
    (enough : (elementChars (e :: elements)).length ≤ bound) :
    readElements bound ((elementChars (e :: elements)).map some ++ rest) = some (e :: elements, rest) := by
  induction elements generalizing e bound with
  | nil =>
    have length : e.chars.length + 1 ≤ bound := by simpa [elementChars, moreElementChars] using enough
    obtain ⟨bound, rfl⟩ : ∃ n, bound = n + 1 := Nat.exists_eq_add_one.mpr (by omega)
    have first := (each e List.mem_cons_self).reads bound (some ']' :: rest) (by omega)
    have shown : (elementChars [e]).map some ++ rest = e.chars.map some ++ some ']' :: rest := by
      simp [elementChars, moreElementChars]
    rw [shown, readElements, first]
    rfl
  | cons d elements ih =>
    obtain ⟨here, later⟩ := List.forall_mem_cons.mp each
    have length : e.chars.length + 1 + (elementChars (d :: elements)).length ≤ bound := by
      simp only [elementChars, moreElementChars, List.length_append, List.length_cons] at enough ⊢
      omega
    obtain ⟨bound, rfl⟩ : ∃ n, bound = n + 1 := Nat.exists_eq_add_one.mpr (by omega)
    have first := here.reads bound (some ',' :: ((elementChars (d :: elements)).map some ++ rest)) (by omega)
    have others := ih later bound (by omega)
    have shown : (elementChars (e :: d :: elements)).map some ++ rest =
        e.chars.map some ++ some ',' :: ((elementChars (d :: elements)).map some ++ rest) := by
      simp [elementChars, moreElementChars]
    rw [shown, readElements, first]
    simp only [Option.bind_eq_bind, Option.bind_some, spaceEnded (rfl : isSpace (some ',') = false), others,
      Option.map_some]

theorem openedArray (bound : Nat) (rest : List Symbol) : read (bound + 1) (some '[' :: rest) =
    match skipSpace rest with
    | some ']' :: rest => some (.array [], rest)
    | rest => (readElements bound rest).map fun r => (.array r.1, r.2) := rfl

theorem openedObject (bound : Nat) (rest : List Symbol) : read (bound + 1) (some '\x7b' :: rest) =
    match skipSpace rest with
    | some '\x7d' :: rest => some (.object [], rest)
    | rest => (readMembers bound rest).map fun r => (ofMembers r.1, r.2) := rfl

theorem openedMember (bound : Nat) (rest : List Symbol) : readMembers (bound + 1) (some '"' :: rest) =
    (readPieces rest).bind fun key =>
      match skipSpace key.2 with
      | some ':' :: rest => (read bound rest).bind fun v =>
        match skipSpace v.2 with
        | some ',' :: rest => (readMembers bound rest).map fun r => ((key.1, v.1) :: r.1, r.2)
        | some '\x7d' :: rest => some ([(key.1, v.1)], rest)
        | _ => none
      | _ => none := rfl

theorem arrayReadsBack (each : ∀ e ∈ elements, ReadsBack e) : ReadsBack (.array elements) := by
  refine readsBackOf rfl rfl (by decide) fun bound rest enough => ?_
  rw [openedArray]
  cases elements with
  | nil => rfl
  | cons e elements =>
    have inner := elementsRead each bound rest enough
    obtain ⟨c, cs, shown, solid, other⟩ := (each e List.mem_cons_self).starts
    rw [elementChars, shown, List.cons_append, List.map_cons, List.cons_append] at inner ⊢
    rw [spaceEnded solid]
    split
    · simp_all
    · rw [inner]
      rfl

theorem memberRead (k : String) {v : Json} (reads : ReadsBack v) {bound : Nat} (fits : v.chars.length ≤ bound)
    (rest : List Symbol) :
    readMembers (bound + 1) ((stringChars k).map some ++ some ':' :: (v.chars.map some ++ rest)) =
      match skipSpace rest with
      | some ',' :: rest => (readMembers bound rest).map fun r => ((k.toList.map pieceOf, v) :: r.1, r.2)
      | some '\x7d' :: rest => some ([(k.toList.map pieceOf, v)], rest)
      | _ => none := by
  have shown : (stringChars k).map some ++ some ':' :: (v.chars.map some ++ rest) =
      some '"' :: ((k.toList.flatMap escape ++ ['"']).map some ++ some ':' :: (v.chars.map some ++ rest)) := by
    simp [stringChars]
  have value := reads.reads bound rest fits
  rw [shown, openedMember, piecesRead, Option.bind_some]
  simp only [spaceEnded (rfl : isSpace (some ':') = false), value, Option.bind_some]

theorem membersRead {m : String × Json} (each : ∀ n ∈ m :: members, ReadsBack n.2) (bound : Nat)
    (rest : List Symbol) (enough : (memberChars (m :: members)).length ≤ bound) :
    readMembers bound ((memberChars (m :: members)).map some ++ rest) =
      some ((m :: members).map fun n => (n.1.toList.map pieceOf, n.2), rest) := by
  induction members generalizing m bound with
  | nil =>
    have length : m.2.chars.length + 1 ≤ bound := by
      simp only [memberChars, moreMemberChars, List.length_append, List.length_cons] at enough
      omega
    obtain ⟨bound, rfl⟩ : ∃ n, bound = n + 1 := Nat.exists_eq_add_one.mpr (by omega)
    have shown : (memberChars [m]).map some ++ rest =
        (stringChars m.1).map some ++ some ':' :: (m.2.chars.map some ++ some '\x7d' :: rest) := by
      simp [memberChars, moreMemberChars]
    rw [shown, memberRead m.1 (each m List.mem_cons_self) (by omega)]
    rfl
  | cons n members ih =>
    obtain ⟨here, later⟩ := List.forall_mem_cons.mp each
    have length : m.2.chars.length + 1 + (memberChars (n :: members)).length ≤ bound := by
      simp only [memberChars, moreMemberChars, List.length_append, List.length_cons] at enough ⊢
      omega
    obtain ⟨bound, rfl⟩ : ∃ n, bound = n + 1 := Nat.exists_eq_add_one.mpr (by omega)
    have others := ih later bound (by omega)
    have shown : (memberChars (m :: n :: members)).map some ++ rest = (stringChars m.1).map some ++
        some ':' :: (m.2.chars.map some ++ some ',' :: ((memberChars (n :: members)).map some ++ rest)) := by
      simp [memberChars, moreMemberChars]
    rw [shown, memberRead m.1 here (by omega)]
    simp only [spaceEnded (rfl : isSpace (some ',') = false), others, Option.map_some, List.map_cons]

theorem membersSpelled (members : List (String × Json)) :
    ofMembers (members.map fun m => (m.1.toList.map pieceOf, m.2)) = .object members := by
  have spelled : (members.map fun m => (m.1.toList.map pieceOf, m.2)).mapM
      (fun m => (spell? m.1).map fun s => (String.ofList s, m.2)) = some members := by
    induction members with
    | nil => rfl
    | cons m members ih => simp [piecesSpelled, ih]
  rw [ofMembers, spelled]

theorem objectReadsBack (each : ∀ m ∈ members, ReadsBack m.2) : ReadsBack (.object members) := by
  refine readsBackOf rfl rfl (by decide) fun bound rest enough => ?_
  rw [openedObject]
  cases members with
  | nil => rfl
  | cons m members =>
    have inner := membersRead each bound rest enough
    have shown : (memberChars (m :: members)).map some ++ rest = some '"' ::
        ((m.1.toList.flatMap escape ++ '"' :: ':' :: m.2.chars ++ moreMemberChars members).map some ++ rest) := by
      simp [memberChars, stringChars]
    rw [shown] at inner ⊢
    rw [spaceEnded rfl]
    change (readMembers bound _).map (fun r => (ofMembers r.1, r.2)) = _
    rw [inner, Option.map_some, membersSpelled]

end Values

inductive Plain : Nat → Json → Prop
  | string {depth : Nat} (s : String) : Plain depth (.string s)
  | bool {depth : Nat} (b : Bool) : Plain depth (.bool b)
  | array {depth : Nat} {elements : List Json} (each : ∀ e ∈ elements, Plain depth e) :
    Plain (depth + 1) (.array elements)
  | object {depth : Nat} {members : List (String × Json)} (each : ∀ m ∈ members, Plain depth m.2) :
    Plain (depth + 1) (.object members)

section Plain
variable {depth : Nat} {j : Json}

theorem plainReadsBack (plain : Plain depth j) : ReadsBack j := by
  induction plain with
  | string s => exact stringReadsBack s
  | bool b => exact boolReadsBack b
  | array _ ih => exact arrayReadsBack ih
  | object _ ih => exact objectReadsBack ih

theorem elementsHoldable {elements : List Json} (each : ∀ e ∈ elements, holdable depth e = true) :
    holdableElements depth elements = true := by
  induction elements with
  | nil => rfl
  | cons e elements ih =>
    obtain ⟨here, later⟩ := List.forall_mem_cons.mp each
    rw [holdableElements, here, ih later]
    rfl

theorem membersHoldable {members : List (String × Json)} (each : ∀ m ∈ members, holdable depth m.2 = true) :
    holdableMembers depth members = true := by
  induction members with
  | nil => rfl
  | cons m members ih =>
    obtain ⟨here, later⟩ := List.forall_mem_cons.mp each
    rw [holdableMembers, here, ih later]
    rfl

theorem plainHoldable (plain : Plain depth j) : holdable depth j = true := by
  induction plain with
  | string s => rw [holdable]
  | bool b => rw [holdable]
  | array _ ih => rw [holdable, elementsHoldable ih]
  | object _ ih => rw [holdable, membersHoldable ih]

theorem textReadBack (plain : Plain depth j) : ofSymbols? (j.text.toList.map some) = some j := by
  have whole := (plainReadsBack plain).reads (j.chars.length + 1) [] (by omega)
  rw [List.append_nil] at whole
  rw [ofSymbols?, text, String.toList_ofList, List.length_map, whole]
  rfl

end Plain

end LiveSchema.Json
