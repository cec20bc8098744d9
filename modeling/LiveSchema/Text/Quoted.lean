/-! Quoted text. A quote inside a literal is either written twice or escaped with a backslash; names
stand in brackets and bytes are pairs of hexadecimal digits. -/
namespace LiveSchema.Text

def doubleQuotes : List Char → List Char
  | [] => []
  | '\'' :: cs => '\'' :: '\'' :: doubleQuotes cs
  | c :: cs => c :: doubleQuotes cs

def escapeChar (c : Char) : List Char :=
  if c = '\'' ∨ c = '%' ∨ c = '_' ∨ c = '\\' then ['\\', c]
  else if c = '\n' then ['\\', 'n']
  else if c = '\r' then ['\\', 'r']
  else if c = '\t' then ['\\', 't']
  else [c]

def quoteDoubled (s : String) : String := "'" ++ String.ofList (doubleQuotes s.toList) ++ "'"

def quoteEscaped (s : String) : String := "'" ++ String.ofList (s.toList.flatMap escapeChar) ++ "'"

def bracket (name : String) : String := "[" ++ name ++ "]"

def hexDigit (n : Nat) : Char := if n < 10 then Char.ofNat (48 + n) else Char.ofNat (55 + n)

def hexByte (b : UInt8) : List Char := [hexDigit (b.toNat / 16), hexDigit (b.toNat % 16)]

def hexBytes (bytes : List UInt8) : String := String.ofList (bytes.flatMap hexByte)

def hexValue? (c : Char) : Option Nat :=
  if 48 ≤ c.toNat ∧ c.toNat ≤ 57 then some (c.toNat - 48)
  else if 65 ≤ c.toNat ∧ c.toNat ≤ 70 then some (c.toNat - 55)
  else if 97 ≤ c.toNat ∧ c.toNat ≤ 102 then some (c.toNat - 87)
  else none

theorem hexDigitValue : ∀ n : Fin 16, hexValue? (hexDigit n) = some n.val := by decide

end LiveSchema.Text
