import LiveSchema.Proofs.Spelling
/-! Text literals with backslashes as a database reads them. A backslash belongs to the character behind it, so
the literal ends at the first quote without one, wherever the text has quotes or backslashes of its own. -/
namespace LiveSchema

namespace Text

def escapeMeaning : Char → Char
  | 'n' => '\n'
  | 'r' => '\r'
  | 't' => '\t'
  | c => c

def unescaped? : List Char → Option (List Char × List Char)
  | [] => none
  | ['\\'] => none
  | '\'' :: rest => some ([], rest)
  | '\\' :: c :: cs => (unescaped? cs).map fun (s, rest) => (escapeMeaning c :: s, rest)
  | c :: cs => (unescaped? cs).map fun (s, rest) => (c :: s, rest)

def escapedLiteral? : List Char → Option (List Char × List Char)
  | '\'' :: cs => unescaped? cs
  | _ => none

def lineControls : List Char := ['\n', '\r', '\t']

theorem escapeForm (c : Char) :
    (∃ e, escapeChar c = ['\\', e] ∧ escapeMeaning e = c ∧ e ∉ lineControls) ∨
      escapeChar c = [c] ∧ c ≠ '\'' ∧ c ≠ '\\' ∧ c ∉ lineControls := by
  by_cases sign : c ∈ ['\'', '%', '_', '\\']
  · left
    simp only [List.mem_cons, List.not_mem_nil, or_false] at sign
    rcases sign with rfl | rfl | rfl | rfl <;> exact ⟨_, rfl, rfl, by decide⟩
  by_cases control : c ∈ lineControls
  · left
    simp only [lineControls, List.mem_cons, List.not_mem_nil, or_false] at control
    rcases control with rfl | rfl | rfl
    · exact ⟨'n', rfl, rfl, by decide⟩
    · exact ⟨'r', rfl, rfl, by decide⟩
    · exact ⟨'t', rfl, rfl, by decide⟩
  · right
    simp_all [escapeChar, lineControls]

theorem plainRead {c : Char} (quote : c ≠ '\'') (escape : c ≠ '\\') (cs : List Char) :
    unescaped? (c :: cs) = (unescaped? cs).map fun (s, rest) => (c :: s, rest) := by
  rw [unescaped?]
  · rintro rfl
    contradiction
  · exact quote
  · rintro _ _ rfl
    contradiction

theorem escapeRead (c : Char) (cs : List Char) :
    unescaped? (escapeChar c ++ cs) = (unescaped? cs).map fun (s, rest) => (c :: s, rest) := by
  obtain ⟨e, written, rfl, -⟩ | ⟨written, quote, escape, -⟩ := escapeForm c
  · rw [written]
    rfl
  · rw [written]
    exact plainRead quote escape cs

theorem escapedRead (s rest : List Char) : unescaped? (s.flatMap escapeChar ++ '\'' :: rest) = some (s, rest) := by
  induction s with
  | nil => rfl
  | cons c s ih =>
    rw [List.flatMap_cons, List.append_assoc, escapeRead, ih]
    rfl

theorem escapedVisible (s : List Char) : ∀ control ∈ lineControls, control ∉ s.flatMap escapeChar := by
  intro control is shown
  obtain ⟨c, -, inside⟩ := List.mem_flatMap.mp shown
  obtain ⟨e, written, -, other⟩ | ⟨written, -, -, other⟩ := escapeForm c
  · rw [written] at inside
    rcases List.mem_cons.mp inside with rfl | last
    · exact absurd is (by decide)
    · exact other (List.mem_singleton.mp last ▸ is)
  · rw [written] at inside
    exact other (List.mem_singleton.mp inside ▸ is)

end Text

namespace Expr
open Text

theorem escapedReadBack (s : String) : ∃ text, (Expr.value (.text s)).compile .sqlServer = .ok text ∧
    (∀ rest, escapedLiteral? (text.toList ++ rest) = some (s.toList, rest)) ∧
    ∀ control ∈ lineControls, control ∉ text.toList := by
  have shown : (quoteEscaped s).toList = '\'' :: (s.toList.flatMap escapeChar ++ ['\'']) := by
    simp [quoteEscaped]
  refine ⟨quoteEscaped s, ?_, fun rest => ?_, fun control is inside => ?_⟩
  · rw [compiledValue]
    rfl
  · rw [shown, List.cons_append, List.append_assoc, escapedLiteral?]
    exact escapedRead s.toList rest
  · have quote : control ≠ '\'' := by
      rintro rfl
      exact absurd is (by decide)
    rw [shown, List.mem_cons, List.mem_append, List.mem_singleton] at inside
    rcases inside with first | inner | last
    · exact quote first
    · exact escapedVisible s.toList control is inner
    · exact quote last

example : (Expr.value (.text "\\n'\n\\")).compile .sqlServer = .ok "'\\\\n\\'\\n\\\\'" := rfl

end Expr

end LiveSchema
