import LiveSchema.Json.Basic
/-! Values that can be held, while their text is read, before their meaning is known. A schema is such a
value, since its kind may come last: all of it must spell texts, be nested less than 128 deep and have
numbers that do not overflow. A value that is already there has no such limits. -/
namespace LiveSchema.Json

/-- The nearest multiple of a power of two with 53 binary digits; a tie goes to the even one. -/
def round53 (n : Nat) : Nat :=
  let unit := Nat.pow 2 (Nat.log2 n - 52)
  let below := n / unit
  let left := 2 * (n % unit)
  (if unit < left ∨ (left = unit ∧ below % 2 = 1) then below + 1 else below) * unit

def significand : Nat → List Char → Nat × Nat
  | n, [] => (n, 0)
  | n, c :: rest =>
    let m := 10 * n + (c.toNat - 48)
    if m < Nat.pow 2 64 then significand m rest else (n, rest.length + 1)

/-- A number overflows if its significand times the power of ten is beyond the greatest binary64. Digits
of the whole part that do not fit count as places, those of the fraction are dropped. -/
def Number.overflows (n : Number) : Bool :=
  let (whole, places) := significand 0 n.whole
  let fraction := n.fraction.getD []
  let (digits, dropped) := significand whole fraction
  let exponent := n.exponent.elim 0 fun e =>
    let k : Int := natOfDigits e.2
    if e.1 then -k else k
  let power : Int := places - (fraction.length - dropped : Int) + exponent
  digits != 0 && (308 < power ||
    (0 ≤ power && Nat.pow 2 1024 - Nat.pow 2 970 ≤ round53 digits * round53 (Nat.pow 10 power.toNat)))

mutual
def holdable : Nat → Json → Bool
  | _, .null | _, .bool _ | _, .string _ => true
  | _, .number n => !n.overflows
  | _, .garbled => false
  | 0, .array _ | 0, .object _ => false
  | depth + 1, .array elements => holdableElements depth elements
  | depth + 1, .object members => holdableMembers depth members

def holdableElements : Nat → List Json → Bool
  | _, [] => true
  | depth, e :: rest => holdable depth e && holdableElements depth rest

def holdableMembers : Nat → List (String × Json) → Bool
  | _, [] => true
  | depth, (_, v) :: rest => holdable depth v && holdableMembers depth rest
end

end LiveSchema.Json
