import LiveSchema.Proofs.GroupMatching
import Mathlib.Data.Finset.Card
import Mathlib.Data.Fintype.EquivFin
/-! Pairing the groups of two lists. Two lists compare as the same groups exactly if their places can be paired
off so that paired groups have the same set of columns. Groups are taken out one after another and never put
back, but no choice among like groups spoils the rest. -/
namespace LiveSchema.ColumnGroup

def columnSet (g : ColumnGroup) : Finset String := g.columns.toFinset

/-- Every place of the one list has a place of the other to itself, with the same columns there. -/
def Paired (left right : List ColumnGroup) : Prop :=
  ∃ pairing : Fin left.length ≃ Fin right.length, ∀ i, (left.get i).columnSet = (right.get (pairing i)).columnSet

section
variable {f g : ColumnGroup} {groups left right others rest : List ColumnGroup}

theorem coversColumnSet : f.covers g = true ↔ f.columnSet = g.columnSet := by
  rw [coversIff, Finset.ext_iff]
  simp only [columnSet, List.mem_toFinset]

theorem everyColumnSet (columns : Finset String) : ∃ g : ColumnGroup, g.columnSet = columns :=
  ⟨⟨"", columns.toList⟩, columns.toList_toFinset⟩

theorem timesPlaces (g : ColumnGroup) (groups : List ColumnGroup) :
    times g groups = Fintype.card {i : Fin groups.length // (groups.get i).columnSet = g.columnSet} := by
  have places : times g groups = (List.finRange groups.length).countP fun i => (groups.get i).covers g := by
    conv_lhs => rw [times, ← List.map_get_finRange groups]
    rw [List.countP_map]
    rfl
  have distinct := (List.nodup_finRange groups.length).card_eq_countP
    (P := fun i => (groups.get i).columnSet = g.columnSet)
  rw [places, Fintype.card_subtype, ← List.toFinset_finRange, distinct]
  exact List.countP_congr fun i _ => by simp [coversColumnSet]

theorem pairedOfTimes (alike : ∀ g, times g left = times g right) : Paired left right := by
  have places (columns : Finset String) :
      Nonempty ({i : Fin left.length // (left.get i).columnSet = columns} ≃
        {j : Fin right.length // (right.get j).columnSet = columns}) := by
    obtain ⟨g, rfl⟩ := everyColumnSet columns
    have count := alike g
    rw [timesPlaces, timesPlaces] at count
    exact Fintype.card_eq.mp count
  have pairing (columns : Finset String) := Classical.choice (places columns)
  exact ⟨Equiv.ofFiberEquiv pairing, fun i => (Equiv.ofFiberEquiv_map pairing i).symm⟩

theorem timesOfPaired (paired : Paired left right) (g : ColumnGroup) : times g left = times g right := by
  obtain ⟨pairing, same⟩ := paired
  rw [timesPlaces, timesPlaces]
  exact Fintype.card_congr (pairing.subtypeEquiv fun i => by rw [same i])

theorem sameGroupsSymm : sameGroups left right = sameGroups right left := sameGroupsCongr fun _ => eq_comm

theorem sameGroupsTrans (first : sameGroups left right = true) (second : sameGroups right others = true) :
    sameGroups left others = true :=
  sameGroupsIff.mpr fun c => (sameGroupsIff.mp first c).trans (sameGroupsIff.mp second c)

theorem sameGroupsOfPerm (moved : left.Perm others) (shifted : right.Perm rest) :
    sameGroups others rest = sameGroups left right := by
  refine sameGroupsCongr fun c => ?_
  rw [times, times, ← moved.countP_eq, ← shifted.countP_eq]
  rfl

/-- Whichever like group is taken out, and however the others are kept, the comparison goes on alike. -/
theorem sameGroupsTaken (same : f.columnSet = g.columnSet) (kept : right.Perm (g :: rest)) :
    sameGroups (f :: left) right = sameGroups left rest := by
  have occurs (c : ColumnGroup) : times c right = times c rest + times c [f] := by
    rw [timesSame (coversColumnSet.mpr same), ← timesCons]
    exact kept.countP_eq _
  refine sameGroupsCongr fun c => ?_
  rw [timesCons, occurs, Nat.add_right_cancel_iff]

theorem swapOutPerm (before after : List ColumnGroup) (g : ColumnGroup) :
    (before ++ g :: after).Perm (g :: swapOut before.length (before ++ g :: after)) := by
  rcases List.eq_nil_or_concat' after with rfl | ⟨others, last, rfl⟩
  · simp [swapOut]
  · have moved : swapOut before.length (before ++ g :: (others ++ [last])) = before ++ last :: others := by
      have final : (before ++ g :: (others ++ [last])).getLast? = some last := by
        rw [← List.cons_append, ← List.append_assoc, List.getLast?_concat]
      have replaced : (before ++ g :: (others ++ [last])).set before.length last = before ++ last :: others ++ [last] := by
        simp
      simp only [swapOut, final, replaced, List.dropLast_concat]
    rw [moved]
    exact List.perm_middle.trans ((List.perm_append_comm.append_left before).cons g)

theorem pairedOffAlike (long : left.length = right.length) : pairOff left right = sameGroups left right := by
  induction left generalizing right with
  | nil =>
    obtain rfl := List.length_eq_zero_iff.mp long.symm
    rfl
  | cons f left ih =>
    rw [pairOff]
    split
    · rename_i i found
      obtain ⟨inside, like, -⟩ := List.findIdx?_eq_some_iff_getElem.mp found
      have split : right = right.take i ++ right[i] :: right.drop (i + 1) := by simp
      have place : (right.take i).length = i := by simp [Nat.le_of_lt inside]
      have taken := swapOutPerm (right.take i) (right.drop (i + 1)) right[i]
      rw [place, ← split] at taken
      have fewer := taken.length_eq
      rw [List.length_cons] at long fewer
      rw [ih (by omega), sameGroupsTaken (coversColumnSet.mp like).symm taken]
    · rename_i absent
      refine (Bool.eq_false_iff.mpr fun same => ?_).symm
      obtain ⟨g, member, like⟩ := coveredOfSame (sameGroupsSymm.trans same) List.mem_cons_self
      exact absurd like (by simpa using List.findIdx?_eq_none_iff.mp absent g member)

theorem scannedAlike (left right : List ColumnGroup) : scanGroups left right = sameGroups left right := by
  by_cases long : left.length = right.length
  · simp only [scanGroups, long, decide_true, Bool.true_and, pairedOffAlike long]
  · have differ : sameGroups left right = false := by
      refine Bool.eq_false_iff.mpr fun same => long ?_
      obtain ⟨pairing, -⟩ := pairedOfTimes (sameGroupsIff.mp same)
      simpa using Fintype.card_congr pairing
    simp only [scanGroups, long, decide_false, Bool.false_and, differ]

end

theorem sameGroupsPaired (left right : List ColumnGroup) :
    (sameGroups left right = true ↔ Paired left right) ∧
    (∀ f g rest, f.columnSet = g.columnSet → right.Perm (g :: rest) →
      sameGroups (f :: left) right = sameGroups left rest) ∧
    sameGroups left left = true ∧ sameGroups left right = sameGroups right left ∧
    (∀ further, sameGroups left right = true → sameGroups right further = true →
      sameGroups left further = true) ∧
    ∀ moved shifted, left.Perm moved → right.Perm shifted → sameGroups moved shifted = sameGroups left right :=
  ⟨sameGroupsIff.trans ⟨pairedOfTimes, timesOfPaired⟩, fun _ _ _ => sameGroupsTaken, sameGroupsRefl left,
    sameGroupsSymm, fun _ => sameGroupsTrans, fun _ _ => sameGroupsOfPerm⟩

def seatGroups : List ColumnGroup := [⟨"place", ["row", "seat"]⟩, ⟨"hall", ["hall"]⟩, ⟨"seat", ["seat", "row"]⟩]

def storedSeatGroups : List ColumnGroup := [⟨"", ["seat", "row"]⟩, ⟨"", ["row", "seat", "row"]⟩, ⟨"", ["hall"]⟩]

def hallGroups : List ColumnGroup := [⟨"place", ["row", "seat"]⟩, ⟨"hall", ["hall"]⟩, ⟨"wing", ["hall"]⟩]

theorem seatGroupsPaired :
    Paired seatGroups storedSeatGroups ∧ ¬Paired seatGroups hallGroups ∧
    sameGroups seatGroups storedSeatGroups =
      sameGroups seatGroups.tail [⟨"", ["hall"]⟩, ⟨"", ["row", "seat", "row"]⟩] ∧
    sameGroups storedSeatGroups seatGroups = true ∧ sameGroups seatGroups seatGroups.reverse = true ∧
    sameGroups seatGroups.reverse storedSeatGroups = true := by
  have same : sameGroups seatGroups storedSeatGroups = true := by decide
  have back : sameGroups storedSeatGroups seatGroups.reverse = true := by decide
  have kept : storedSeatGroups.Perm [⟨"", ["seat", "row"]⟩, ⟨"", ["hall"]⟩, ⟨"", ["row", "seat", "row"]⟩] := by
    decide
  obtain ⟨paired, -, -, symmetric, transitive, permuted⟩ := sameGroupsPaired seatGroups storedSeatGroups
  obtain ⟨counted, -⟩ := sameGroupsPaired seatGroups hallGroups
  obtain ⟨-, taken, -⟩ := sameGroupsPaired seatGroups.tail storedSeatGroups
  refine ⟨paired.mp same, fun alike => ?_, taken ⟨"place", ["row", "seat"]⟩ _ _ (by decide) kept,
    symmetric.symm.trans same, transitive _ same back, ?_⟩
  · exact absurd (counted.mpr alike) (by decide)
  · exact (permuted _ _ (List.reverse_perm _).symm (.refl _)).trans same

end LiveSchema.ColumnGroup
