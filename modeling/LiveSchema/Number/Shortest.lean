import LiveSchema.Number.Binary64
/-! The shortest decimal text of a binary number. Of all decimals that read back as the number, those
with the fewest digits are taken, of these the nearest to the number, and of two equally near ones the
larger. The text is positional at every magnitude. -/
namespace LiveSchema.Shortest

structure Decimal where
  digits : Nat
  exponent : Int
  deriving DecidableEq, Repr

/-- The reals that round to a number, as multiples of a power of two; the number is `middle`, and the
ends belong to the interval iff `closed`. -/
structure Interval where
  low : Nat
  middle : Nat
  high : Nat
  exponent : Int
  closed : Bool
  deriving DecidableEq, Repr

/-- The lower half of the gap is smaller at the start of a binade. -/
def interval (x : Binary64) : Interval :=
  let m := x.significand
  { low := if x.fraction = 0 ∧ 1 < x.exponentField then 4 * m - 1 else 4 * m - 2
    middle := 4 * m
    high := 4 * m + 2
    exponent := x.exponent - 2
    closed := m % 2 == 0 }

def scales (binary decimal : Int) : Nat × Nat :=
  (Nat.pow 2 binary.toNat * Nat.pow 10 (-decimal).toNat,
    Nat.pow 10 decimal.toNat * Nat.pow 2 (-binary).toNat)

def Interval.holds (i : Interval) (digits : Nat) (exponent : Int) : Bool :=
  let (a, b) := scales i.exponent exponent
  if i.closed then i.low * a ≤ digits * b && digits * b ≤ i.high * a
  else i.low * a < digits * b && digits * b < i.high * a

def Interval.onGrid? (i : Interval) (exponent : Int) : Option Decimal :=
  let (a, b) := scales i.exponent exponent
  let below := i.middle * a / b
  let left := i.middle * a % b
  match i.holds below exponent, i.holds (below + 1) exponent with
  | true, true => some ⟨if b ≤ 2 * left then below + 1 else below, exponent⟩
  | true, false => some ⟨below, exponent⟩
  | false, true => some ⟨below + 1, exponent⟩
  | false, false => none

def Interval.search (i : Interval) : Nat → Int → Decimal
  | 0, exponent => ⟨0, exponent⟩
  | tries + 1, exponent => (i.onGrid? exponent).getD (i.search tries (exponent - 1))

/-- A decimal exponent not below that of the leading digit: the number is less than
`2 ^ (log₂ m + 1 + q)`, `2 ^ 93 < 10 ^ 28`, and one more place covers the negative powers. -/
def startExponent (x : Binary64) : Int :=
  let top := (Nat.log2 x.significand : Int) + 1 + x.exponent
  (top * 28 + 92) / 93 + 1

def decimal (x : Binary64) : Decimal :=
  if x.significand = 0 then ⟨0, 0⟩ else (interval x).search 25 (startExponent x)

def Decimal.text (d : Decimal) : List Char :=
  let digits := Nat.toDigits 10 d.digits
  if 0 ≤ d.exponent then
    if d.digits = 0 then ['0'] else digits ++ List.replicate d.exponent.toNat '0'
  else
    let places := (-d.exponent).toNat
    let padded := List.replicate (places + 1 - digits.length) '0' ++ digits
    let whole := padded.take (padded.length - places)
    let part := ((padded.drop (padded.length - places)).reverse.dropWhile (· == '0')).reverse
    if part = [] then whole else whole ++ '.' :: part

def text (x : Binary64) : String :=
  String.ofList ((if x.isNegative then ['-'] else []) ++ (decimal x).text)

end LiveSchema.Shortest
