/-! Binary floating-point numbers, held as their bits. A finite number is its significand times a
power of two; the comparison is that of the numbers, so a not-a-number differs from itself and the two
zeros agree. -/
namespace LiveSchema

structure Binary64 where
  bits : UInt64
  deriving DecidableEq, Repr

structure Binary32 where
  bits : UInt32
  deriving DecidableEq, Repr

namespace Binary64

def isNegative (x : Binary64) : Bool := x.bits.toNat / Nat.pow 2 63 == 1

def exponentField (x : Binary64) : Nat := x.bits.toNat / Nat.pow 2 52 % Nat.pow 2 11

def fraction (x : Binary64) : Nat := x.bits.toNat % Nat.pow 2 52

def isFinite (x : Binary64) : Bool := x.exponentField != 2047

def isNaN (x : Binary64) : Bool := x.exponentField == 2047 && x.fraction != 0

def isZero (x : Binary64) : Bool := x.exponentField == 0 && x.fraction == 0

def significand (x : Binary64) : Nat :=
  if x.exponentField = 0 then x.fraction else Nat.pow 2 52 + x.fraction

def exponent (x : Binary64) : Int :=
  if x.exponentField = 0 then -1074 else (x.exponentField : Int) - 1075

def equal (x y : Binary64) : Bool :=
  !x.isNaN && !y.isNaN && (x == y || (x.isZero && y.isZero))

end Binary64

namespace Binary32

def negativeBit (x : Binary32) : Nat := x.bits.toNat / Nat.pow 2 31

def exponentField (x : Binary32) : Nat := x.bits.toNat / Nat.pow 2 23 % Nat.pow 2 8

def fraction (x : Binary32) : Nat := x.bits.toNat % Nat.pow 2 23

/-- The bits of the same number in double width. A number below the normal range of the single format
is normal in the double one; a not-a-number keeps its payload and becomes quiet. -/
def widenBits (x : Binary32) : Nat :=
  let sign := x.negativeBit * Nat.pow 2 63
  if x.exponentField = 255 then
    sign + 2047 * Nat.pow 2 52 +
      (if x.fraction = 0 then 0 else Nat.pow 2 51 + x.fraction % Nat.pow 2 22 * Nat.pow 2 29)
  else if x.exponentField = 0 then
    if x.fraction = 0 then sign
    else sign + (874 + Nat.log2 x.fraction) * Nat.pow 2 52 +
      (x.fraction * Nat.pow 2 (52 - Nat.log2 x.fraction) - Nat.pow 2 52)
  else sign + (x.exponentField + 896) * Nat.pow 2 52 + x.fraction * Nat.pow 2 29

def widen (x : Binary32) : Binary64 := ⟨UInt64.ofNat x.widenBits⟩

end Binary32

end LiveSchema
