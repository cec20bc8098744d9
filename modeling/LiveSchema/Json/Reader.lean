import LiveSchema.Json.Basic
import LiveSchema.Text.Quoted
/-! Strict reading of JSON. The input is a list of symbols: characters, and in raw input also bytes that
belong to no character, which may stand inside strings only. A string spells a text unless such a byte
or half a surrogate pair is in it. -/
namespace LiveSchema.Json
open Text

abbrev Symbol := Option Char

inductive Piece where
  | char (c : Char)
  | unit (n : Nat)
  | stray
  deriving DecidableEq, Repr

def isSpace : Symbol → Bool
  | some c => c == ' ' || c == '\n' || c == '\t' || c == '\r'
  | none => false

def skipSpace (input : List Symbol) : List Symbol := input.dropWhile isSpace

def simpleEscape? : Char → Option Char
  | '"' => some '"'
  | '\\' => some '\\'
  | '/' => some '/'
  | 'b' => some '\x08'
  | 'f' => some '\x0c'
  | 'n' => some '\n'
  | 'r' => some '\r'
  | 't' => some '\t'
  | _ => none

def codeUnit? (a b c d : Symbol) : Option Nat := do
  return 4096 * (← hexValue? (← a)) + 256 * (← hexValue? (← b)) + 16 * (← hexValue? (← c)) +
    (← hexValue? (← d))

def readPieces : List Symbol → Option (List Piece × List Symbol)
  | [] => none
  | none :: rest => (readPieces rest).map fun r => (.stray :: r.1, r.2)
  | some '"' :: rest => some ([], rest)
  | some '\\' :: some 'u' :: a :: b :: c :: d :: rest =>
    match codeUnit? a b c d with
    | some n => (readPieces rest).map fun r => (.unit n :: r.1, r.2)
    | none => none
  | some '\\' :: some e :: rest =>
    match simpleEscape? e with
    | some c => (readPieces rest).map fun r => (.char c :: r.1, r.2)
    | none => none
  | some c :: rest =>
    if c.toNat < 32 ∨ c = '\\' then none
    else (readPieces rest).map fun r => (.char c :: r.1, r.2)

def isHigh (n : Nat) : Bool := 0xD800 ≤ n && n < 0xDC00

def isLow (n : Nat) : Bool := 0xDC00 ≤ n && n < 0xE000

def spell? : List Piece → Option (List Char)
  | [] => some []
  | .char c :: rest => (spell? rest).map (c :: ·)
  | .stray :: _ => none
  | .unit high :: .unit low :: rest =>
    if isHigh high && isLow low then
      (spell? rest).map (Char.ofNat (0x10000 + (high - 0xD800) * 0x400 + (low - 0xDC00)) :: ·)
    else if isHigh high || isLow high then none
    else (spell? (.unit low :: rest)).map (Char.ofNat high :: ·)
  | .unit n :: rest =>
    if isHigh n || isLow n then none else (spell? rest).map (Char.ofNat n :: ·)

def readDigits : List Symbol → List Char × List Symbol
  | some c :: rest =>
    if c.isDigit then
      let r := readDigits rest
      (c :: r.1, r.2)
    else ([], some c :: rest)
  | rest => ([], rest)

def someDigits? (input : List Symbol) : Option (List Char × List Symbol) :=
  match readDigits input with
  | ([], _) => none
  | r => some r

def wholeDigits? (input : List Symbol) : Option (List Char × List Symbol) :=
  match readDigits input with
  | ([], _) => none
  | ('0' :: _ :: _, _) => none
  | r => some r

def fractionDigits? : List Symbol → Option (Option (List Char) × List Symbol)
  | some '.' :: rest => (someDigits? rest).map fun r => (some r.1, r.2)
  | rest => some (none, rest)

def exponentDigits? : List Symbol → Option (Option (Bool × List Char) × List Symbol)
  | some c :: rest =>
    if c = 'e' ∨ c = 'E' then
      match rest with
      | some '+' :: rest => (someDigits? rest).map fun r => (some (false, r.1), r.2)
      | some '-' :: rest => (someDigits? rest).map fun r => (some (true, r.1), r.2)
      | rest => (someDigits? rest).map fun r => (some (false, r.1), r.2)
    else some (none, some c :: rest)
  | rest => some (none, rest)

def magnitude? (negative : Bool) (input : List Symbol) : Option (Number × List Symbol) := do
  let (whole, rest) ← wholeDigits? input
  let (fraction, rest) ← fractionDigits? rest
  let (exponent, rest) ← exponentDigits? rest
  return (⟨negative, whole, fraction, exponent⟩, rest)

def number? : List Symbol → Option (Number × List Symbol)
  | some '-' :: rest => magnitude? true rest
  | rest => magnitude? false rest

def dropWord? : List Char → List Symbol → Option (List Symbol)
  | [], rest => some rest
  | c :: cs, some d :: rest => if c = d then dropWord? cs rest else none
  | _ :: _, _ => none

def ofPieces (pieces : List Piece) : Json :=
  match spell? pieces with
  | some s => .string (String.ofList s)
  | none => .garbled

def ofMembers (members : List (List Piece × Json)) : Json :=
  match members.mapM fun m => (spell? m.1).map fun s => (String.ofList s, m.2) with
  | some spelled => .object spelled
  | none => .garbled

mutual
/-- A value at the front of the input. The bound falls with every call. A container and its first part
are two calls for two symbols, so one more than the length of the input is enough. -/
def read : Nat → List Symbol → Option (Json × List Symbol)
  | 0, _ => none
  | bound + 1, input =>
    match skipSpace input with
    | some '"' :: rest => (readPieces rest).map fun r => (ofPieces r.1, r.2)
    | some '[' :: rest =>
      match skipSpace rest with
      | some ']' :: rest => some (.array [], rest)
      | rest => (readElements bound rest).map fun r => (.array r.1, r.2)
    | some '\x7b' :: rest =>
      match skipSpace rest with
      | some '\x7d' :: rest => some (.object [], rest)
      | rest => (readMembers bound rest).map fun r => (ofMembers r.1, r.2)
    | some 't' :: rest => (dropWord? "rue".toList rest).map fun rest => (.bool true, rest)
    | some 'f' :: rest => (dropWord? "alse".toList rest).map fun rest => (.bool false, rest)
    | some 'n' :: rest => (dropWord? "ull".toList rest).map fun rest => (.null, rest)
    | rest => (number? rest).map fun r => (.number r.1, r.2)

def readElements : Nat → List Symbol → Option (List Json × List Symbol)
  | 0, _ => none
  | bound + 1, input => do
    let (e, rest) ← read bound input
    match skipSpace rest with
    | some ',' :: rest => (readElements bound rest).map fun r => (e :: r.1, r.2)
    | some ']' :: rest => some ([e], rest)
    | _ => none

def readMembers : Nat → List Symbol → Option (List (List Piece × Json) × List Symbol)
  | 0, _ => none
  | bound + 1, input =>
    match skipSpace input with
    | some '"' :: rest => do
      let (key, rest) ← readPieces rest
      match skipSpace rest with
      | some ':' :: rest => do
        let (v, rest) ← read bound rest
        match skipSpace rest with
        | some ',' :: rest => (readMembers bound rest).map fun r => ((key, v) :: r.1, r.2)
        | some '\x7d' :: rest => some ([(key, v)], rest)
        | _ => none
      | _ => none
    | _ => none
end

def ofSymbols? (input : List Symbol) : Option Json :=
  match read (input.length + 1) input with
  | some (j, rest) => if skipSpace rest = [] then some j else none
  | none => none

def ofText? (text : String) : Option Json := ofSymbols? (text.toList.map some)

end LiveSchema.Json
