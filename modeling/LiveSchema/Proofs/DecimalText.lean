import LiveSchema.Proofs.LiteralText
import Mathlib.Algebra.Order.Field.Power
import Mathlib.Algebra.Order.Ring.Rat
import Mathlib.Data.List.TakeWhile
import Mathlib.Data.Rat.Cast.Order
import Mathlib.Tactic.FieldSimp
import Mathlib.Tactic.Linarith
import Mathlib.Tactic.NormNum
import Mathlib.Tactic.Positivity
import Mathlib.Tactic.Ring
/-! Decimals and the numbers they stand for. A decimal is written like a natural number only if it is that
number. -/
namespace LiveSchema.Shortest

def Decimal.value (d : Decimal) : ℚ := d.digits * 10 ^ d.exponent

theorem zerosBehind {n : Nat} (positive : 0 < n) (k : Nat) :
    Nat.toDigits 10 (n * 10 ^ k) = Nat.toDigits 10 n ++ List.replicate k '0' := by
  induction k with
  | zero => simp
  | succ k ih =>
    have more : 0 < n * 10 ^ k := by positivity
    have split : n * 10 ^ (k + 1) = 10 * (n * 10 ^ k) + 0 := by ring
    rw [split, ← Nat.toDigits_append_toDigits (by decide) more (by decide), ih, Nat.toDigits_zero,
      List.append_assoc, ← List.replicate_succ']

namespace Decimal
variable {d : Decimal}

theorem textOfWhole (whole : 0 ≤ d.exponent) :
    d.text = Nat.toDigits 10 (d.digits * 10 ^ d.exponent.toNat) := by
  unfold text
  dsimp only
  rw [if_pos whole]
  by_cases none : d.digits = 0
  · rw [if_pos none, none, Nat.zero_mul, Nat.toDigits_zero]
  · rw [if_neg none, zerosBehind (Nat.pos_of_ne_zero none)]

theorem valueOfWhole (whole : 0 ≤ d.exponent) : d.value = (d.digits * 10 ^ d.exponent.toNat : Nat) := by
  rw [value, Nat.cast_mul, Nat.cast_pow, ← zpow_natCast, Int.toNat_of_nonneg whole]
  rfl

theorem zerosHidden {digits : List Char} (hidden : (digits.reverse.dropWhile (· == '0')).reverse = []) :
    Nat.ofDigitChars 10 digits 0 = 0 := by
  have zeros : digits = List.replicate digits.length '0' := by
    refine List.eq_replicate_iff.mpr ⟨rfl, fun c member => ?_⟩
    have all := List.dropWhile_eq_nil_iff.mp (List.reverse_eq_nil_iff.mp hidden)
    simpa using all c (List.mem_reverse.mpr member)
  rw [zeros, Nat.ofDigitChars_replicate_zero, Nat.mul_zero]

theorem valueOfText {k : Nat} (written : d.text = Nat.toDigits 10 k) : d.value = k := by
  by_cases whole : 0 ≤ d.exponent
  · have same := congrArg (Nat.ofDigitChars 10 · 0) ((textOfWhole whole).symm.trans written)
    simp only [Nat.ofDigitChars_ten_toDigits] at same
    rw [valueOfWhole whole, same]
  · have unpointed : '.' ∉ d.text := fun point => by
      have digit := Nat.isDigit_of_mem_toDigits (by decide) (by decide) (written ▸ point)
      contradiction
    unfold text at written unpointed
    dsimp only at written unpointed
    rw [if_neg whole] at written unpointed
    generalize places : (-d.exponent).toNat = p at written unpointed
    generalize shown : List.replicate (p + 1 - (Nat.toDigits 10 d.digits).length) '0' ++
      Nat.toDigits 10 d.digits = padded at written unpointed
    have long : p < padded.length := by
      rw [← shown, List.length_append, List.length_replicate]
      omega
    split at written
    case isFalse shown => exact absurd (by simp [shown]) unpointed
    case isTrue hidden =>
      have behind : (padded.drop (padded.length - p)).length = p := by
        rw [List.length_drop]
        omega
      have all : Nat.ofDigitChars 10 padded 0 = d.digits := by
        rw [← shown, Nat.ofDigitChars_append, Nat.ofDigitChars_replicate_zero, Nat.mul_zero,
          Nat.ofDigitChars_ten_toDigits]
      have scaled : d.digits = 10 ^ p * k := by
        rw [← all, ← List.take_append_drop (padded.length - p) padded, Nat.ofDigitChars_append, written,
          Nat.ofDigitChars_ten_toDigits, Nat.ofDigitChars_eq_ofDigitChars_zero, behind, zerosHidden hidden,
          Nat.add_zero]
      have exponent : d.exponent = -(p : Int) := by omega
      rw [value, scaled, exponent, zpow_neg, zpow_natCast]
      push_cast
      field_simp

end Decimal

end LiveSchema.Shortest
