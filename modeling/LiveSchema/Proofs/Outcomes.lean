import Mathlib.Data.List.Forall2
import Mathlib.Data.List.Induction
/-! What comes of steps that are taken one after another. Steps that cannot fail come to what is read off the list of
them; those that can all succeed, or the first that does not is told. -/
namespace LiveSchema

theorem foldReads {σ α : Type} {next : σ → α → σ} {made : List α → σ}
    (step : ∀ parts a, next (made parts) a = made (parts ++ [a])) (parts : List α) :
    parts.foldl next (made []) = made parts := by
  induction parts using List.reverseRecOn with
  | nil => rfl
  | append_singleton parts a ih => rw [List.foldl_concat, ih, step]

section
variable {ε α β : Type} {e : ε} {b : β}

theorem okThen {first : Except ε α} {rest : α → Except ε β} :
    (first >>= rest) = .ok b ↔ ∃ a, first = .ok a ∧ rest a = .ok b := by
  cases first <;> simp [bind, Except.bind]

theorem errorThen {first : Except ε α} {rest : α → Except ε β} :
    (first >>= rest) = .error e ↔ first = .error e ∨ ∃ a, first = .ok a ∧ rest a = .error e := by
  cases first <;> simp [bind, Except.bind]

theorem okMap {first : Except ε α} {f : α → β} : first.map f = .ok b ↔ ∃ a, first = .ok a ∧ f a = b := by
  cases first <;> simp [Except.map]

variable {step : α → Except ε β} {parts : List α}

theorem okEach {results : List β} :
    parts.mapM step = .ok results ↔ List.Forall₂ (fun a b => step a = .ok b) parts results := by
  induction parts generalizing results with
  | nil => simp [pure, Except.pure, eq_comm]
  | cons a rest ih =>
    rw [List.mapM_cons, okThen, List.forall₂_cons_left_iff]
    simp only [okThen, ih]
    constructor
    · rintro ⟨b, here, others, later, made⟩
      exact ⟨b, others, here, later, (Except.ok.inj made).symm⟩
    · rintro ⟨b, others, here, later, rfl⟩
      exact ⟨b, here, others, later, rfl⟩

theorem errorEach : parts.mapM step = .error e ↔
    ∃ before a after, parts = before ++ a :: after ∧ (∀ earlier ∈ before, ∃ b, step earlier = .ok b) ∧
      step a = .error e := by
  induction parts with
  | nil => simp [pure, Except.pure]
  | cons a rest ih =>
    have last (others : List β) (b : β) : (pure (b :: others) : Except ε (List β)) ≠ .error e :=
      fun made => nomatch made
    rw [List.mapM_cons, errorThen]
    simp only [errorThen, last, and_false, exists_false, or_false, ih]
    constructor
    · rintro (here | ⟨b, here, before, other, after, rfl, earlier, failed⟩)
      · exact ⟨[], a, rest, rfl, List.forall_mem_nil _, here⟩
      · exact ⟨a :: before, other, after, rfl, List.forall_mem_cons.mpr ⟨⟨b, here⟩, earlier⟩, failed⟩
    · rintro ⟨before, other, after, split, earlier, failed⟩
      cases before with
      | nil =>
        cases split
        exact .inl failed
      | cons first before =>
        cases split
        obtain ⟨⟨b, here⟩, earlier⟩ := List.forall_mem_cons.mp earlier
        exact .inr ⟨b, here, before, other, after, rfl, earlier, failed⟩

end

end LiveSchema
