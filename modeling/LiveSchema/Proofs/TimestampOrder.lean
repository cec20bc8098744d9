import LiveSchema.Proofs.LiteralText
import LiveSchema.Proofs.Spelling
import LiveSchema.Session.Rows
import Mathlib.Algebra.Ring.Nat
/-! Timestamps as text. Within the years of four digits every part of a timestamp has its place in the text, so
texts compare as the times that they show. -/
namespace LiveSchema

theorem digitsCompare {as bs : List Char} (long : as.length = bs.length) (left : ∀ c ∈ as, c.isDigit = true)
    (right : ∀ c ∈ bs, c.isDigit = true) (m n : Nat) :
    Nat.ofDigitChars 10 as m < Nat.ofDigitChars 10 bs n ↔ m < n ∨ m = n ∧ as < bs := by
  induction as generalizing bs m n with
  | nil =>
    cases bs with
    | nil => simp [Nat.ofDigitChars]
    | cons b bs => cases long
  | cons a as ih =>
    cases bs with
    | nil => cases long
    | cons b bs =>
      obtain ⟨digit, later⟩ := List.forall_mem_cons.mp left
      obtain ⟨digit', later'⟩ := List.forall_mem_cons.mp right
      have bounds := Char.isDigit_iff_toNat.mp digit
      have bounds' := Char.isDigit_iff_toNat.mp digit'
      simp only [Char.reduceToNat] at bounds bounds'
      have less : 10 * m + (a.toNat - 48) < 10 * n + (b.toNat - 48) ↔ m < n ∨ m = n ∧ a < b := by
        have byNumber : a < b ↔ a.toNat < b.toNat := Iff.rfl
        rw [byNumber]
        omega
      have same : 10 * m + (a.toNat - 48) = 10 * n + (b.toNat - 48) ↔ m = n ∧ a = b := by
        rw [← Char.toNat_inj]
        omega
      rw [Nat.ofDigitChars_cons, Nat.ofDigitChars_cons, ih (Nat.succ.inj long) later later', List.cons_lt_cons_iff]
      simp only [Char.reduceToNat, less, same, and_or_left, or_assoc, and_assoc]

theorem appendCompare {as bs : List Char} (long : as.length = bs.length) (cs ds : List Char) :
    as ++ cs < bs ++ ds ↔ as < bs ∨ as = bs ∧ cs < ds := by
  induction as generalizing bs with
  | nil =>
    obtain rfl := List.length_eq_zero_iff.mp long.symm
    simp
  | cons a as ih =>
    cases bs with
    | nil => cases long
    | cons b bs =>
      simp only [List.cons_append, List.cons_lt_cons_iff, ih (Nat.succ.inj long), List.cons.injEq, and_or_left,
        or_assoc, and_assoc]

namespace Timestamp
variable {width m n : Nat}

theorem paddedLength (positive : 0 < width) (fits : n < 10 ^ width) : (padded width n).length = width := by
  have few := (Nat.length_toDigits_le_iff (by decide) positive).mpr fits
  simp only [padded, List.length_append, List.length_replicate]
  omega

theorem paddedNumber (width n : Nat) : Nat.ofDigitChars 10 (padded width n) 0 = n := by
  rw [padded, Nat.ofDigitChars_append, Nat.ofDigitChars_replicate_zero, Nat.mul_zero,
    Nat.ofDigitChars_ten_toDigits]

theorem paddedCompare (positive : 0 < width) (left : m < 10 ^ width) (right : n < 10 ^ width) (cs ds : List Char) :
    (padded width m ++ cs < padded width n ++ ds ↔ m < n ∨ m = n ∧ cs < ds) ∧
      (padded width m ++ cs = padded width n ++ ds ↔ m = n ∧ cs = ds) := by
  have long : (padded width m).length = (padded width n).length :=
    (paddedLength positive left).trans (paddedLength positive right).symm
  have same : padded width m = padded width n ↔ m = n := by
    refine ⟨fun alike => ?_, congrArg _⟩
    rw [← paddedNumber width m, alike, paddedNumber]
  have less : padded width m < padded width n ↔ m < n := by
    have digits := digitsCompare long (zerosBefore _ m) (zerosBefore _ n) 0 0
    rw [paddedNumber, paddedNumber] at digits
    simpa using digits.symm
  constructor
  · rw [appendCompare long, less, same]
  · rw [← same]
    exact ⟨fun alike => List.append_inj alike long, fun ⟨first, later⟩ => first ▸ later ▸ rfl⟩

def shownFields (t : Timestamp) : List Int := [t.year, t.month, t.day, t.hour, t.minute, t.shownSecond]

def HasFourDigitYear (t : Timestamp) : Prop := 0 ≤ t.year ∧ t.year ≤ 9999

theorem yearPadded {t : Timestamp} (dated : t.HasFourDigitYear) :
    yearText t.year = padded 4 t.year.natAbs ∧ t.year.natAbs < 10 ^ 4 := by
  have notNegative := dated.1
  have notGreater := dated.2
  constructor
  · rw [yearText, if_neg (by omega), if_neg (by omega)]
  · omega

theorem fieldsFit (t : Timestamp) : t.month < 10 ^ 2 ∧ t.day < 10 ^ 2 ∧ t.hour < 10 ^ 2 ∧ t.minute < 10 ^ 2 ∧
    t.shownSecond < 10 ^ 2 := by
  have second := t.shownSecondMost
  have calendar := t.valid
  simp only [isCalendarTime, Bool.and_eq_true, decide_eq_true_eq] at calendar
  have month : t.month ≤ 12 ∧ daysInMonth t.year t.month ≤ 31 := by
    unfold daysInMonth at *
    grind
  omega

theorem charsLength {t : Timestamp} (dated : t.HasFourDigitYear) : t.chars.length = 19 := by
  obtain ⟨year, fits⟩ := yearPadded dated
  obtain ⟨month, day, hour, minute, second⟩ := t.fieldsFit
  rw [chars, year]
  simp only [List.length_append, List.length_cons, paddedLength (by decide) fits, paddedLength (by decide) month,
    paddedLength (by decide) day, paddedLength (by decide) hour, paddedLength (by decide) minute,
    paddedLength (by decide) second]

theorem charsCompare {t u : Timestamp} (dated : t.HasFourDigitYear) (dated' : u.HasFourDigitYear) :
    (t.chars < u.chars ↔ t.shownFields < u.shownFields) ∧ (t.chars = u.chars ↔ t.shownFields = u.shownFields) := by
  obtain ⟨year, fits⟩ := yearPadded dated
  obtain ⟨year', fits'⟩ := yearPadded dated'
  obtain ⟨month, day, hour, minute, second⟩ := t.fieldsFit
  obtain ⟨month', day', hour', minute', second'⟩ := u.fieldsFit
  have years : (t.year.natAbs < u.year.natAbs ↔ t.year < u.year) ∧
      (t.year.natAbs = u.year.natAbs ↔ t.year = u.year) := by
    have notNegative := dated.1
    have notNegative' := dated'.1
    omega
  have yearPlace := paddedCompare (by decide) fits fits'
  have monthPlace := paddedCompare (by decide) month month'
  have dayPlace := paddedCompare (by decide) day day'
  have hourPlace := paddedCompare (by decide) hour hour'
  have minutePlace := paddedCompare (by decide) minute minute'
  have secondPlace := paddedCompare (by decide) second second' [] []
  simp only [List.append_nil, List.lt_irrefl, and_false, or_false, and_true] at secondPlace
  rw [chars, chars, year, year']
  simp only [List.append_assoc, List.cons_append, shownFields, List.cons_lt_cons_iff, List.cons.injEq, Int.ofNat_lt,
    Int.natCast_inj, yearPlace, monthPlace, dayPlace, hourPlace, minutePlace, secondPlace, years, Char.lt_irrefl,
    List.lt_irrefl, false_or, true_and, or_false, and_true, and_false, and_self]

end Timestamp

theorem quotedCompare {s s' : String} (long : s.toList.length = s'.toList.length) :
    ("'" ++ s ++ "'" < "'" ++ s' ++ "'" ↔ s < s') ∧ ("'" ++ s ++ "'" = "'" ++ s' ++ "'" ↔ s = s') := by
  have written (s : String) : ("'" ++ s ++ "'").toList = '\'' :: (s.toList ++ ['\'']) := by simp
  constructor
  · rw [String.lt_iff, String.lt_iff, written, written, List.cons_lt_cons_self, appendCompare long]
    simp only [List.lt_irrefl, and_false, or_false]
  · rw [← String.toList_inj, written, written, List.cons_inj_right, List.append_left_inj, String.toList_inj]

theorem timestampsSort (d : Dialect) (t u : Timestamp) (dated : t.HasFourDigitYear) (dated' : u.HasFourDigitYear) :
    ∃ shown shown' : String,
      (Expr.value (.timestamp t)).compile d = .ok ("'" ++ shown ++ "'") ∧
      (Expr.value (.timestamp u)).compile d = .ok ("'" ++ shown' ++ "'") ∧
      Value.bound (.timestamp t) = .text shown ∧ Value.bound (.timestamp u) = .text shown' ∧
      (shown < shown' ↔ t.shownFields < u.shownFields) ∧ (shown = shown' ↔ t.shownFields = u.shownFields) ∧
      ("'" ++ shown ++ "'" < "'" ++ shown' ++ "'" ↔ t.shownFields < u.shownFields) ∧
      ("'" ++ shown ++ "'" = "'" ++ shown' ++ "'" ↔ t.shownFields = u.shownFields) := by
  have order : (t.text < u.text ↔ t.shownFields < u.shownFields) ∧
      (t.text = u.text ↔ t.shownFields = u.shownFields) := by
    have compared := Timestamp.charsCompare dated dated'
    rwa [String.lt_iff, ← String.toList_inj, Timestamp.text, Timestamp.text, String.toList_ofList,
      String.toList_ofList]
  have long : t.text.toList.length = u.text.toList.length := by
    rw [Timestamp.text, Timestamp.text, String.toList_ofList, String.toList_ofList, Timestamp.charsLength dated,
      Timestamp.charsLength dated']
  have quoted := quotedCompare long
  exact ⟨t.text, u.text, Expr.compiledValue d _, Expr.compiledValue d _, rfl, rfl, order.1, order.2,
    quoted.1.trans order.1, quoted.2.trans order.2⟩

def leapSecond : Timestamp := ⟨987, 12, 31, 23, 59, 59, 1500000000, by decide⟩

def newYear : Timestamp := ⟨988, 1, 1, 0, 0, 0, 250000000, by decide⟩

theorem newYearSorts :
    leapSecond.HasFourDigitYear ∧ newYear.HasFourDigitYear ∧
    leapSecond.text = "0987-12-31 23:59:60" ∧ newYear.text = "0988-01-01 00:00:00" ∧
    ∃ shown shown' : String,
      (Expr.value (.timestamp leapSecond)).compile .sqlite = .ok ("'" ++ shown ++ "'") ∧
      Value.bound (.timestamp newYear) = .text shown' ∧ shown < shown' ∧ shown ≠ shown' := by
  have dated : leapSecond.HasFourDigitYear := ⟨by decide, by decide⟩
  have dated' : newYear.HasFourDigitYear := ⟨by decide, by decide⟩
  obtain ⟨shown, shown', literal, -, -, bound, less, same, -⟩ :=
    timestampsSort .sqlite leapSecond newYear dated dated'
  exact ⟨dated, dated', by decide, by decide, shown, shown', literal, bound, less.mpr (by decide),
    mt same.mp (by decide)⟩

end LiveSchema
