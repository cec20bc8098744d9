import LiveSchema.Proofs.DecimalText
/-! The shortest decimal of a number. The search ends in the rounding interval of the number, and for a whole
number it ends at a whole decimal; so it is known which floats are written like an integer. -/
namespace LiveSchema

namespace Binary64
variable {x : Binary64}

def magnitude (x : Binary64) : ℚ := x.significand * 2 ^ x.exponent

def IsWhole (x : Binary64) : Prop := ∃ k : Nat, x.magnitude = k

theorem significandBelow (x : Binary64) : x.significand < 2 ^ 53 := by
  have part : x.fraction < 2 ^ 52 := Nat.mod_lt _ (by decide)
  unfold significand
  simp only [Nat.pow_eq]
  split <;> omega

theorem exponentMost (finite : x.isFinite = true) : x.exponent ≤ 971 := by
  have field : x.exponentField < 2 ^ 11 := Nat.mod_lt _ (by decide)
  have other : x.exponentField ≠ 2047 := by simpa [isFinite] using finite
  unfold exponent
  split <;> omega

theorem significandLeast (normal : -1074 < x.exponent) : 2 ^ 52 ≤ x.significand := by
  unfold exponent at normal
  unfold significand
  simp only [Nat.pow_eq]
  split at normal <;> split <;> omega

end Binary64

namespace Shortest

def Interval.Contains (i : Interval) (r : ℚ) : Prop :=
  if i.closed then i.low * 2 ^ i.exponent ≤ r ∧ r ≤ i.high * 2 ^ i.exponent
  else i.low * 2 ^ i.exponent < r ∧ r < i.high * 2 ^ i.exponent

theorem powerSplit {base : ℚ} (nonzero : base ≠ 0) (e : Int) :
    base ^ e.toNat = base ^ (-e).toNat * base ^ e := by
  rw [← zpow_natCast, ← zpow_natCast, ← zpow_add₀ nonzero]
  congr 1
  omega

theorem commonUnit (binary decimal : Int) : ∃ unit : ℚ, 0 < unit ∧
    ((scales binary decimal).1 : ℚ) = unit * 2 ^ binary ∧
    ((scales binary decimal).2 : ℚ) = unit * 10 ^ decimal := by
  refine ⟨2 ^ (-binary).toNat * 10 ^ (-decimal).toNat, by positivity, ?_, ?_⟩
  · simp only [scales, Nat.pow_eq, Nat.cast_mul, Nat.cast_pow, Nat.cast_ofNat]
    rw [powerSplit (by norm_num) binary]
    ring
  · simp only [scales, Nat.pow_eq, Nat.cast_mul, Nat.cast_pow, Nat.cast_ofNat]
    rw [powerSplit (by norm_num) decimal]
    ring

section
variable {i : Interval} {e : Int} {k : Nat}

theorem holdsContains : i.holds k e = true ↔ i.Contains (k * 10 ^ e) := by
  obtain ⟨unit, positive, binary, decimal⟩ := commonUnit i.exponent e
  have left (n : Nat) : ((n * (scales i.exponent e).1 : Nat) : ℚ) = unit * (n * 2 ^ i.exponent) := by
    rw [Nat.cast_mul, binary]
    ring
  have right (n : Nat) : ((n * (scales i.exponent e).2 : Nat) : ℚ) = unit * (n * 10 ^ e) := by
    rw [Nat.cast_mul, decimal]
    ring
  unfold Interval.holds Interval.Contains
  dsimp only
  split
  · rw [Bool.and_eq_true, decide_eq_true_iff, decide_eq_true_iff, ← Nat.cast_le (α := ℚ),
      ← Nat.cast_le (α := ℚ), left, left, right, mul_le_mul_iff_right₀ positive,
      mul_le_mul_iff_right₀ positive]
  · rw [Bool.and_eq_true, decide_eq_true_iff, decide_eq_true_iff, ← Nat.cast_lt (α := ℚ),
      ← Nat.cast_lt (α := ℚ), left, left, right, mul_lt_mul_iff_right₀ positive,
      mul_lt_mul_iff_right₀ positive]

theorem onGridHeld {found : Decimal} (taken : i.onGrid? e = some found) :
    found.exponent = e ∧ i.Contains found.value := by
  unfold Interval.onGrid? at taken
  dsimp only at taken
  split at taken
  case h_1 below above =>
    cases taken
    refine ⟨rfl, holdsContains.mp ?_⟩
    dsimp only
    split
    · exact above
    · exact below
  case h_2 below _ => cases taken; exact ⟨rfl, holdsContains.mp below⟩
  case h_3 _ above => cases taken; exact ⟨rfl, holdsContains.mp above⟩
  case h_4 => cases taken

def Interval.Spans (i : Interval) : Prop := i.low < i.middle ∧ i.middle + 2 ≤ i.high

theorem gridHit (near : i.holds (i.middle * (scales i.exponent e).1 / (scales i.exponent e).2) e = true ∨
    i.holds (i.middle * (scales i.exponent e).1 / (scales i.exponent e).2 + 1) e = true) :
    i.onGrid? e ≠ none := by
  unfold Interval.onGrid?
  dsimp only
  split <;> simp_all

theorem unitPositive (binary decimal : Int) : 0 < (scales binary decimal).2 := by
  simp [scales]

theorem finerGridHit (spans : i.Spans) (finer : (10 : ℚ) ^ e < 2 * 2 ^ i.exponent) : i.onGrid? e ≠ none := by
  refine gridHit (.inr ?_)
  have positive := unitPositive i.exponent e
  have closer : (scales i.exponent e).2 < 2 * (scales i.exponent e).1 := by
    obtain ⟨unit, some, binary, decimal⟩ := commonUnit i.exponent e
    have cast : ((scales i.exponent e).2 : ℚ) < (2 * (scales i.exponent e).1 : Nat) := by
      rw [Nat.cast_mul, binary, decimal, Nat.cast_ofNat, mul_left_comm]
      exact mul_lt_mul_of_pos_left finer some
    exact_mod_cast cast
  unfold Interval.holds
  dsimp only
  generalize (scales i.exponent e).1 = a at *
  generalize (scales i.exponent e).2 = b at *
  have before : i.middle * a < (i.middle * a / b + 1) * b := by
    rw [Nat.add_mul, Nat.one_mul]
    exact Nat.lt_div_mul_add positive
  have behind : (i.middle * a / b + 1) * b ≤ i.middle * a + b := by
    rw [Nat.add_mul, Nat.one_mul]
    exact Nat.add_le_add_right (Nat.div_mul_le_self _ _) b
  have low : i.low * a ≤ i.middle * a := Nat.mul_le_mul_right a (Nat.le_of_lt spans.1)
  have high : i.middle * a + 2 * a ≤ i.high * a := by
    rw [← Nat.add_mul]
    exact Nat.mul_le_mul_right a spans.2
  split <;> simp <;> omega

theorem ownGridHit (spans : i.Spans) (own : (i.middle : ℚ) * 2 ^ i.exponent = k * 10 ^ e) :
    i.onGrid? e ≠ none := by
  refine gridHit (.inl ?_)
  obtain ⟨unit, positive, binary, decimal⟩ := commonUnit i.exponent e
  have scaled : i.middle * (scales i.exponent e).1 = k * (scales i.exponent e).2 := by
    have cast : ((i.middle * (scales i.exponent e).1 : Nat) : ℚ) = (k * (scales i.exponent e).2 : Nat) := by
      rw [Nat.cast_mul, Nat.cast_mul, binary, decimal, mul_left_comm, own, mul_left_comm]
    exact_mod_cast cast
  rw [scaled, Nat.mul_div_cancel _ (unitPositive _ _), holdsContains, ← own, Interval.Contains]
  have power : (0 : ℚ) < 2 ^ i.exponent := by positivity
  have low : (i.low : ℚ) < i.middle := by exact_mod_cast spans.1
  have high : (i.middle : ℚ) < i.high := by
    have below : i.middle < i.high := Nat.lt_of_lt_of_le (by omega) spans.2
    exact_mod_cast below
  have left := mul_lt_mul_of_pos_right low power
  have right := mul_lt_mul_of_pos_right high power
  split
  · exact ⟨left.le, right.le⟩
  · exact ⟨left, right⟩

/-- The search passes over no grid that has a point in the interval. -/
theorem searchFound {tries : Nat} {start : Int} (hit : i.onGrid? e ≠ none) (first : e ≤ start)
    (reached : start < e + tries) :
    e ≤ (i.search tries start).exponent ∧ i.Contains (i.search tries start).value := by
  induction tries generalizing start with
  | zero => omega
  | succ tries ih =>
    rw [Interval.search]
    cases taken : i.onGrid? start with
    | some found =>
      obtain ⟨same, held⟩ := onGridHeld taken
      exact ⟨by simpa [same] using first, held⟩
    | none =>
      have other : e ≠ start := fun same => hit (same ▸ taken)
      exact ih (by omega) (by omega)

end

def fineExponent (binary : Int) : Int := ((53 + binary) * 28 + 92) / 93 - 23

theorem fineGrid {binary : Int} (most : binary ≤ 971) :
    (10 : ℚ) ^ fineExponent binary < 2 * 2 ^ (binary - 2) := by
  have below : 93 * fineExponent binary ≤ 28 * binary - 563 := by
    unfold fineExponent
    omega
  generalize fineExponent binary = e at below
  refine lt_of_pow_lt_pow_left₀ 28 (by positivity) ?_
  have left : ((10 : ℚ) ^ e) ^ 28 = (10 ^ 28) ^ e := by
    rw [← zpow_natCast, ← zpow_natCast, zpow_comm]
  have right : ((2 : ℚ) * 2 ^ (binary - 2)) ^ 28 = 2 ^ (28 * (binary - 1)) := by
    rw [← zpow_one_add₀ (by norm_num), ← zpow_natCast, ← zpow_mul]
    congr 1
    push_cast
    ring
  rw [left, right]
  -- 10 ^ 28 lies between 2 ^ 93 and 2 ^ 94; which bound helps depends on the sign.
  rcases le_or_gt 0 e with up | down
  · calc ((10 : ℚ) ^ 28) ^ e ≤ (2 ^ (94 : Int)) ^ e := zpow_le_zpow_left₀ up (by norm_num) (by norm_num)
      _ = 2 ^ (94 * e) := (zpow_mul _ _ _).symm
      _ < 2 ^ (28 * (binary - 1)) := zpow_lt_zpow_right₀ (by norm_num) (by omega)
  · calc ((10 : ℚ) ^ 28) ^ e ≤ (2 ^ (93 : Int)) ^ e := by
          rw [← neg_neg e, zpow_neg, zpow_neg _ (-e)]
          exact inv_anti₀ (by positivity) (zpow_le_zpow_left₀ (by omega) (by norm_num) (by norm_num))
      _ = 2 ^ (93 * e) := (zpow_mul _ _ _).symm
      _ < 2 ^ (28 * (binary - 1)) := zpow_lt_zpow_right₀ (by norm_num) (by omega)

section
variable {x : Binary64}

theorem intervalSpans (nonzero : x.significand ≠ 0) : (interval x).Spans := by
  refine ⟨?_, Nat.le_refl _⟩
  dsimp only [interval]
  split <;> omega

theorem startReach (nonzero : x.significand ≠ 0) :
    fineExponent x.exponent ≤ startExponent x ∧ startExponent x < fineExponent x.exponent + 25 := by
  have top : Nat.log2 x.significand < 53 := (Nat.log2_lt nonzero).mpr x.significandBelow
  unfold fineExponent startExponent
  dsimp only
  omega

theorem decimalNear (finite : x.isFinite = true) (nonzero : x.significand ≠ 0) :
    fineExponent x.exponent ≤ (decimal x).exponent ∧ (interval x).Contains (decimal x).value := by
  have hit : (interval x).onGrid? (fineExponent x.exponent) ≠ none :=
    finerGridHit (intervalSpans nonzero) (fineGrid (Binary64.exponentMost finite))
  obtain ⟨first, reached⟩ := startReach nonzero
  rw [decimal, if_neg nonzero]
  exact searchFound hit first reached

theorem containedBounds {r : ℚ} (inside : (interval x).Contains r) :
    (x.significand - 1 / 2) * 2 ^ x.exponent ≤ r ∧ r ≤ (x.significand + 1 / 2) * 2 ^ x.exponent := by
  have quarter : (2 : ℚ) ^ (interval x).exponent = 2 ^ x.exponent / 4 := by
    rw [interval, zpow_sub₀ (by norm_num)]
    norm_num
  have power : (0 : ℚ) < 2 ^ x.exponent := by positivity
  have low : (4 * x.significand - 2 : ℚ) ≤ (interval x).low := by
    have below : 4 * x.significand ≤ (interval x).low + 2 := by
      dsimp only [interval]
      split <;> omega
    have cast : ((4 * x.significand : Nat) : ℚ) ≤ ((interval x).low + 2 : Nat) := by exact_mod_cast below
    push_cast at cast
    linarith
  have high : ((interval x).high : ℚ) = 4 * x.significand + 2 := by simp [interval]
  have left := mul_le_mul_of_nonneg_right low power.le
  have between : (interval x).low * (2 ^ x.exponent / 4) ≤ r ∧ r ≤ (interval x).high * (2 ^ x.exponent / 4) := by
    rw [← quarter]
    unfold Interval.Contains at inside
    split at inside
    · exact inside
    · exact ⟨inside.1.le, inside.2.le⟩
  rw [high] at between
  constructor <;> linarith [between.1, between.2]

theorem decimalWhole (finite : x.isFinite = true) (whole : x.IsWhole) : 0 ≤ (decimal x).exponent := by
  by_cases none : x.significand = 0
  · rw [decimal, if_pos none]
  by_cases fine : 0 ≤ fineExponent x.exponent
  · exact fine.trans (decimalNear finite none).1
  -- Otherwise the grid of the whole numbers is searched, and the number is on it.
  obtain ⟨k, same⟩ := whole
  have own : ((interval x).middle : ℚ) * 2 ^ (interval x).exponent = k * 10 ^ (0 : Int) := by
    rw [zpow_zero, mul_one, ← same, Binary64.magnitude, interval, zpow_sub₀ (by norm_num)]
    push_cast
    ring
  have started : 0 ≤ startExponent x := by
    have positive : 0 < x.magnitude := by
      have leading : (0 : ℚ) < x.significand := by exact_mod_cast Nat.pos_of_ne_zero none
      unfold Binary64.magnitude
      positivity
    have one : (1 : ℚ) ≤ x.magnitude := by
      rw [same] at positive ⊢
      exact_mod_cast positive
    have top : (x.significand : ℚ) < 2 ^ (Nat.log2 x.significand + 1) := by
      exact_mod_cast Nat.lt_log2_self
    have below : (1 : ℚ) < 2 ^ ((Nat.log2 x.significand : Int) + 1 + x.exponent) := by
      rw [zpow_add₀ (by norm_num)]
      refine one.trans_lt (mul_lt_mul_of_pos_right ?_ (by positivity))
      exact_mod_cast top
    have above := (one_lt_zpow_iff_right₀ (by norm_num)).mp below
    unfold startExponent
    dsimp only
    omega
  have reached := (startReach none).2
  rw [decimal, if_neg none]
  exact (searchFound (ownGridHit (intervalSpans none) own) started (by omega)).1

theorem wholeContained {k : Nat} (small : x.exponent ≤ 0) (inside : (interval x).Contains k) :
    x.magnitude = k := by
  obtain ⟨low, high⟩ := containedBounds inside
  have unit : (2 : ℚ) ^ x.exponent * 2 ^ (-x.exponent).toNat = 1 := by
    rw [← zpow_natCast, ← zpow_add₀ (by norm_num), Int.toNat_of_nonneg (by omega), add_neg_cancel, zpow_zero]
  have power : (0 : ℚ) ≤ 2 ^ (-x.exponent).toNat := by positivity
  have left := mul_le_mul_of_nonneg_right low power
  have right := mul_le_mul_of_nonneg_right high power
  rw [mul_assoc, unit, mul_one] at left right
  have scaled : k * 2 ^ (-x.exponent).toNat = x.significand := by
    have below : (2 * x.significand : ℚ) ≤ 2 * (k * 2 ^ (-x.exponent).toNat) + 1 := by linarith
    have above : (2 * (k * 2 ^ (-x.exponent).toNat) : ℚ) ≤ 2 * x.significand + 1 := by linarith
    have lower : 2 * x.significand ≤ 2 * (k * 2 ^ (-x.exponent).toNat) + 1 := by exact_mod_cast below
    have upper : 2 * (k * 2 ^ (-x.exponent).toNat) ≤ 2 * x.significand + 1 := by exact_mod_cast above
    omega
  rw [Binary64.magnitude, ← scaled, Nat.cast_mul, Nat.cast_pow, Nat.cast_ofNat, mul_assoc, mul_comm (2 ^ _),
    unit, mul_one]

theorem largeWhole (large : 0 ≤ x.exponent) : x.IsWhole := by
  refine ⟨x.significand * 2 ^ x.exponent.toNat, ?_⟩
  rw [Binary64.magnitude, Nat.cast_mul, Nat.cast_pow, Nat.cast_ofNat, ← zpow_natCast, Int.toNat_of_nonneg large]

theorem decimalBelow {r : ℚ} (below : x.magnitude < 2 ^ 63) (inside : (interval x).Contains r) : r < 2 ^ 63 := by
  have exponent : x.exponent ≤ 10 := by
    by_contra large
    have least : (2 ^ 52 : ℚ) ≤ x.significand := by exact_mod_cast Binary64.significandLeast (x := x) (by omega)
    have power : (2 : ℚ) ^ (11 : Int) ≤ 2 ^ x.exponent := zpow_le_zpow_right₀ (by norm_num) (by omega)
    have product : (2 ^ 52 : ℚ) * 2 ^ (11 : Int) ≤ x.magnitude := by
      unfold Binary64.magnitude
      gcongr
    norm_num at product below
    linarith
  have power : (2 : ℚ) ^ x.exponent ≤ 2 ^ (10 : Int) := zpow_le_zpow_right₀ (by norm_num) exponent
  have most : (x.significand : ℚ) + 1 ≤ 2 ^ 53 := by exact_mod_cast x.significandBelow
  calc r ≤ (x.significand + 1 / 2) * 2 ^ x.exponent := (containedBounds inside).2
    _ ≤ (x.significand + 1 / 2) * 2 ^ (10 : Int) := by gcongr
    _ < 2 ^ 53 * 2 ^ (10 : Int) := by gcongr; linarith
    _ = 2 ^ 63 := by norm_num

/-- The limit itself has a shorter decimal in its interval, above it. -/
theorem decimalOfLimit (exponent : x.exponent = 11) (least : x.significand = 2 ^ 52) :
    decimal x = ⟨9223372036854776, 3⟩ := by
  have fields : x.fraction = 0 ∧ 1 < x.exponentField := by
    have part : x.fraction < 2 ^ 52 := Nat.mod_lt _ (by decide)
    unfold Binary64.exponent at exponent
    unfold Binary64.significand at least
    simp only [Nat.pow_eq] at least
    split at exponent <;> split at least <;> omega
  have between : interval x = ⟨4 * 2 ^ 52 - 1, 4 * 2 ^ 52, 4 * 2 ^ 52 + 2, 9, true⟩ := by
    rw [interval, exponent, least, if_pos fields]
    rfl
  have start : startExponent x = 21 := by
    rw [startExponent, exponent, least]
    decide +kernel
  rw [decimal, if_neg (by omega), between, start]
  decide +kernel

theorem decimalAbove (finite : x.isFinite = true) (above : 2 ^ 63 ≤ x.magnitude) : 2 ^ 63 < (decimal x).value := by
  have exponent : 11 ≤ x.exponent := by
    by_contra small
    have most : (x.significand : ℚ) < 2 ^ 53 := by exact_mod_cast x.significandBelow
    have power : (2 : ℚ) ^ x.exponent ≤ 2 ^ (10 : Int) := zpow_le_zpow_right₀ (by norm_num) (by omega)
    have product : x.magnitude < 2 ^ 53 * 2 ^ (10 : Int) := by
      unfold Binary64.magnitude
      exact mul_lt_mul most power (by positivity) (by positivity)
    norm_num at product above
    linarith
  have least := Binary64.significandLeast (x := x) (by omega)
  by_cases limit : x.exponent = 11 ∧ x.significand = 2 ^ 52
  · rw [decimalOfLimit limit.1 limit.2, Decimal.value]
    norm_num
  · obtain ⟨low, -⟩ := containedBounds (decimalNear finite (by omega)).2
    refine lt_of_lt_of_le ?_ low
    by_cases next : x.exponent = 11
    · have more : (2 ^ 52 + 1 : ℚ) ≤ x.significand := by
        have different : x.significand ≠ 2 ^ 52 := fun same => limit ⟨next, same⟩
        exact_mod_cast (by omega : 2 ^ 52 + 1 ≤ x.significand)
      calc (2 ^ 63 : ℚ) < (2 ^ 52 + 1 - 1 / 2) * 2 ^ (11 : Int) := by norm_num
        _ ≤ (x.significand - 1 / 2) * 2 ^ x.exponent := by rw [next]; gcongr
    · have least : (2 ^ 52 : ℚ) ≤ x.significand := by exact_mod_cast least
      have power : (2 : ℚ) ^ (12 : Int) ≤ 2 ^ x.exponent := zpow_le_zpow_right₀ (by norm_num) (by omega)
      calc (2 ^ 63 : ℚ) < (2 ^ 52 - 1 / 2) * 2 ^ (12 : Int) := by norm_num
        _ ≤ (x.significand - 1 / 2) * 2 ^ x.exponent := by gcongr; linarith

theorem decimalPositive (finite : x.isFinite = true) (nonzero : x.significand ≠ 0) : 0 < (decimal x).value := by
  have least : (1 : ℚ) ≤ x.significand := by exact_mod_cast Nat.one_le_iff_ne_zero.mpr nonzero
  have half : (0 : ℚ) < x.significand - 1 / 2 := by linarith
  have low := (containedBounds (decimalNear finite nonzero).2).1
  exact lt_of_lt_of_le (by positivity) low

theorem signsAlike {p q : Prop} [Decidable p] [Decidable q] {a b : List Char} (first : '-' ∉ a)
    (second : '-' ∉ b) :
    (if p then ['-'] else []) ++ a = (if q then ['-'] else []) ++ b ↔ (p ↔ q) ∧ a = b := by
  by_cases left : p <;> by_cases right : q
  · simp [left, right]
  · have other : '-' :: a ≠ b := by rintro rfl; simp at second
    simpa [left, right] using other
  · have other : a ≠ '-' :: b := by rintro rfl; simp at first
    simpa [left, right] using other
  · simp [left, right]

theorem writtenLike {n : Int64} : text x = toString n.toInt ↔
    (x.isNegative = true ↔ n < 0) ∧ (decimal x).text = Nat.toDigits 10 n.toInt.natAbs := by
  have first : '-' ∉ (decimal x).text := fun shown => by
    have kind := decimalCharacters _ _ shown
    contradiction
  have second : '-' ∉ Nat.toDigits 10 n.toInt.natAbs := fun shown => by
    have digit := Nat.isDigit_of_mem_toDigits (by decide) (by decide) shown
    contradiction
  rw [← String.toList_inj, integerText, text, String.toList_ofList, Nat.repr_eq_ofList_toDigits,
    String.toList_ofList, signsAlike first second]

theorem integerOf {k : Nat} (negative : Bool) (below : k < 2 ^ 63) (minus : negative = true → k ≠ 0) :
    ∃ n : Int64, (negative = true ↔ n < 0) ∧ n.toInt.natAbs = k := by
  refine ⟨Int64.ofInt (if negative then -k else k), ?_⟩
  rw [Int64.lt_iff_toInt_lt, Int64.toInt_ofInt_of_le (by split <;> omega) (by split <;> omega), Int64.toInt_zero]
  cases negative with
  | false => simp
  | true =>
    have some := minus rfl
    simp only [if_true, true_iff]
    omega

theorem writtenAsInteger (finite : x.isFinite = true) : (∃ n : Int64, text x = toString n.toInt) ↔
    x.IsWhole ∧ x.magnitude < 2 ^ 63 ∧ ¬(x.isNegative = true ∧ x.significand = 0) := by
  constructor
  · rintro ⟨n, same⟩
    obtain ⟨signs, written⟩ := writtenLike.mp same
    have value := Decimal.valueOfText written
    by_cases zero : x.significand = 0
    · have none : x.magnitude = 0 := by simp [Binary64.magnitude, zero]
      refine ⟨⟨0, by simp [none]⟩, by rw [none]; norm_num, fun minus => ?_⟩
      have digits : n.toInt.natAbs = 0 := by
        rw [decimal, if_pos zero, Decimal.value] at value
        exact_mod_cast (by simpa using value.symm : (n.toInt.natAbs : ℚ) = 0)
      have below := Int64.lt_iff_toInt_lt.mp (signs.mp minus.1)
      rw [Int64.toInt_zero] at below
      omega
    · have inside := value ▸ (decimalNear finite zero).2
      refine ⟨?_, ?_, fun minus => zero minus.2⟩
      · rcases le_total x.exponent 0 with small | large
        · exact ⟨_, wholeContained small inside⟩
        · exact largeWhole large
      · by_contra above
        have limit := value ▸ decimalAbove finite (not_lt.mp above)
        have least := n.le_toInt
        have most := n.toInt_lt
        have inRange : n.toInt.natAbs ≤ 2 ^ 63 := by omega
        have cast : (n.toInt.natAbs : ℚ) ≤ 2 ^ 63 := by exact_mod_cast inRange
        linarith
  · rintro ⟨whole, below, signed⟩
    have exponent := decimalWhole finite whole
    have value := Decimal.valueOfWhole exponent
    generalize digits : (decimal x).digits * 10 ^ (decimal x).exponent.toNat = k at value
    have bounded : (k : ℚ) < 2 ^ 63 := by
      by_cases zero : x.significand = 0
      · rw [← value, decimal, if_pos zero, Decimal.value]
        norm_num
      · exact decimalBelow below (value ▸ (decimalNear finite zero).2)
    have minus (negative : x.isNegative = true) : k ≠ 0 := fun none => by
      have positive := decimalPositive finite (fun zero => signed ⟨negative, zero⟩)
      rw [value, none] at positive
      simp at positive
    obtain ⟨n, signs, magnitude⟩ := integerOf x.isNegative (by exact_mod_cast bounded) minus
    exact ⟨n, writtenLike.mpr ⟨signs, by rw [Decimal.textOfWhole exponent, digits, magnitude]⟩⟩

end

end Shortest

end LiveSchema
