/-! Blank characters, trimming and cutting at a separator, on lists of characters. A blank is any
character of the Unicode property White_Space. -/
namespace LiveSchema.Text

def isBlank (c : Char) : Bool :=
  let n := c.toNat
  (9 ≤ n && n ≤ 13) || n == 0x20 || n == 0x85 || n == 0xA0 || n == 0x1680 ||
    (0x2000 ≤ n && n ≤ 0x200A) || n == 0x2028 || n == 0x2029 || n == 0x202F || n == 0x205F ||
    n == 0x3000

def skipBlanks (cs : List Char) : List Char := cs.dropWhile isBlank

def trimBy (drop : Char → Bool) (cs : List Char) : List Char :=
  ((cs.dropWhile drop).reverse.dropWhile drop).reverse

def trim (cs : List Char) : List Char := trimBy isBlank cs

def consFirst (c : Char) : List (List Char) → List (List Char)
  | [] => [[c]]
  | piece :: rest => (c :: piece) :: rest

def pieces (separator : Char) : List Char → List (List Char)
  | [] => [[]]
  | c :: cs => if c = separator then [] :: pieces separator cs else consFirst c (pieces separator cs)

theorem piecesFilled (separator : Char) (cs : List Char) : pieces separator cs ≠ [] := by
  cases cs with
  | nil => simp [pieces]
  | cons c cs =>
    unfold pieces
    split
    · simp
    · cases pieces separator cs <;> simp [consFirst]

def splitOnce? (separator : Char) (cs : List Char) : Option (List Char × List Char) :=
  match cs.span (· != separator) with
  | (_, []) => none
  | (before, _ :: after) => some (before, after)

def joinWith (separator : String) : List String → String
  | [] => ""
  | [text] => text
  | text :: rest => text ++ separator ++ joinWith separator rest

end LiveSchema.Text
