import LiveSchema.Json.Basic
import LiveSchema.Text.Quoted
/-! JSON text of values. Control characters are escaped and all other characters stand as they are. -/
namespace LiveSchema.Json

def lowerHex (n : Nat) : Char := if n < 10 then Char.ofNat (48 + n) else Char.ofNat (87 + n)

def escape (c : Char) : List Char :=
  if c = '"' ∨ c = '\\' then ['\\', c]
  else if c = '\n' then ['\\', 'n']
  else if c = '\r' then ['\\', 'r']
  else if c = '\t' then ['\\', 't']
  else if c = '\x08' then ['\\', 'b']
  else if c = '\x0c' then ['\\', 'f']
  else if c.toNat < 32 then ['\\', 'u', '0', '0', lowerHex (c.toNat / 16), lowerHex (c.toNat % 16)]
  else [c]

def stringChars (s : String) : List Char := '"' :: s.toList.flatMap escape ++ ['"']

def Number.chars (n : Number) : List Char :=
  (if n.negative then ['-'] else []) ++ n.whole ++ n.fraction.elim [] ('.' :: ·) ++
    n.exponent.elim [] fun e => 'e' :: (if e.1 then ['-'] else []) ++ e.2

mutual
def chars : Json → List Char
  | .null | .garbled => "null".toList
  | .bool b => (if b then "true" else "false").toList
  | .number n => n.chars
  | .string s => stringChars s
  | .array elements => '[' :: elementChars elements
  | .object members => '\x7b' :: memberChars members

def elementChars : List Json → List Char
  | [] => [']']
  | e :: rest => e.chars ++ moreElementChars rest

def moreElementChars : List Json → List Char
  | [] => [']']
  | e :: rest => ',' :: e.chars ++ moreElementChars rest

def memberChars : List (String × Json) → List Char
  | [] => ['\x7d']
  | (k, v) :: rest => stringChars k ++ ':' :: v.chars ++ moreMemberChars rest

def moreMemberChars : List (String × Json) → List Char
  | [] => ['\x7d']
  | (k, v) :: rest => ',' :: stringChars k ++ ':' :: v.chars ++ moreMemberChars rest
end

def text (j : Json) : String := String.ofList j.chars

end LiveSchema.Json
