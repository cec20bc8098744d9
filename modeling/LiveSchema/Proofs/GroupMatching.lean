import LiveSchema.Column
import Mathlib.Data.List.Perm.Basic
/-! Comparing lists of groups. Two lists hold the same groups exactly if every set of columns occurs in both
the same number of times. -/
namespace LiveSchema.ColumnGroup

def times (g : ColumnGroup) (groups : List ColumnGroup) : Nat := groups.countP (·.covers g)

section
variable {f g : ColumnGroup} {rest left right left' right' : List ColumnGroup}

theorem coversAlike (same : f.covers g = true) (c : ColumnGroup) : f.covers c = g.covers c :=
  Bool.eq_iff_iff.mpr
    ⟨fun covers => coversTrans (coversSymm same) covers, fun covers => coversTrans same covers⟩

theorem timesCons (g f : ColumnGroup) (groups : List ColumnGroup) :
    times g (f :: groups) = times g groups + times g [f] := by
  simp only [times, List.countP_cons, List.countP_nil, Nat.zero_add]

theorem timesSame (same : f.covers g = true) (c : ColumnGroup) : times c [f] = times c [g] := by
  simp only [times, List.countP_cons, List.countP_nil, coversAlike same c]

theorem takeOutTimes (taken : takeOut? f right = some rest) (c : ColumnGroup) :
    times c right = times c rest + times c [f] := by
  induction right generalizing rest with
  | nil => contradiction
  | cons g others ih =>
    unfold takeOut? at taken
    split at taken
    · rename_i same
      cases taken
      rw [timesCons, timesSame same]
    · obtain ⟨left, inner, rfl⟩ := Option.map_eq_some_iff.mp taken
      rw [timesCons, timesCons c g left, ih inner]
      omega

theorem takeOutNone (absent : takeOut? f right = none) : times f right = 0 := by
  induction right with
  | nil => rfl
  | cons g others ih =>
    unfold takeOut? at absent
    split at absent
    · contradiction
    · rename_i differs
      rw [timesCons, ih (Option.map_eq_none_iff.mp absent)]
      simp [times, differs]

theorem sameGroupsIff : sameGroups left right = true ↔ ∀ c, times c left = times c right := by
  induction left generalizing right with
  | nil =>
    cases right with
    | nil => simp [sameGroups]
    | cons g others =>
      have occurs : times g (g :: others) ≠ 0 := by
        simp [times, coversRefl]
      refine ⟨fun same => by simp [sameGroups] at same, fun same => absurd (same g).symm occurs⟩
  | cons f others ih =>
    unfold sameGroups
    cases taken : takeOut? f right with
    | none =>
      have occurs : times f (f :: others) ≠ 0 := by
        simp [times, coversRefl]
      refine ⟨nofun, fun same => absurd ((same f).trans (takeOutNone taken)) occurs⟩
    | some rest =>
      have counts := takeOutTimes taken
      refine ih.trans (forall_congr' fun c => ?_)
      rw [timesCons, counts c]
      omega

theorem sameGroupsCongr (alike : ∀ c, times c left' = times c right' ↔ times c left = times c right) :
    sameGroups left' right' = sameGroups left right :=
  Bool.eq_iff_iff.mpr (sameGroupsIff.trans ((forall_congr' alike).trans sameGroupsIff.symm))

theorem sameGroupsRefl (groups : List ColumnGroup) : sameGroups groups groups = true :=
  sameGroupsIff.mpr fun _ => rfl

theorem sameGroupsRenamed (names : ColumnGroup → String) (left right : List ColumnGroup) :
    sameGroups (left.map fun g => ⟨names g, g.columns⟩) right = sameGroups left right := by
  refine sameGroupsCongr fun c => ?_
  have counts : times c (left.map fun g => ⟨names g, g.columns⟩) = times c left := by
    rw [times, List.countP_map]
    rfl
  rw [counts]

theorem coveredOfSame (same : sameGroups left right = true) (member : g ∈ right) :
    ∃ f ∈ left, f.covers g = true := by
  have occurs : 0 < times g right := List.countP_pos_iff.mpr ⟨g, member, coversRefl g⟩
  rw [← sameGroupsIff.mp same g] at occurs
  exact List.countP_pos_iff.mp occurs

theorem sameOfNames (leftNames : (left.map (·.name)).Nodup) (rightNames : (right.map (·.name)).Nodup)
    (matched : ∀ f ∈ left, ∃ g ∈ right, g.name = f.name ∧ f.covers g = true)
    (all : ∀ g ∈ right, ∃ f ∈ left, f.name = g.name) : sameGroups left right = true := by
  refine sameGroupsIff.mpr fun c => ?_
  induction left generalizing right with
  | nil =>
    cases right with
    | nil => rfl
    | cons g others =>
      obtain ⟨f, none, _⟩ := all g List.mem_cons_self
      cases none
  | cons f others ih =>
    obtain ⟨g, member, same, covers⟩ := matched f List.mem_cons_self
    obtain ⟨before, after, rfl⟩ := List.append_of_mem member
    have order : (before ++ g :: after).Perm (g :: (before ++ after)) := List.perm_middle
    have names := (order.map (·.name)).nodup_iff.mp rightNames
    simp only [List.map_cons, List.nodup_cons] at leftNames names
    have rest := ih leftNames.2 names.2 (by
      intro f' inside
      obtain ⟨g', member', same', covers'⟩ := matched f' (List.mem_cons_of_mem f inside)
      rcases List.mem_cons.mp (order.mem_iff.mp member') with rfl | elsewhere
      · exact absurd (List.mem_map.mpr ⟨f', inside, same'.symm.trans same⟩) leftNames.1
      · exact ⟨g', elsewhere, same', covers'⟩) (by
      intro g' inside
      obtain ⟨f', member', same'⟩ := all g' (order.mem_iff.mpr (List.mem_cons_of_mem g inside))
      rcases List.mem_cons.mp member' with rfl | elsewhere
      · exact absurd (List.mem_map.mpr ⟨g', inside, same'.symm.trans same.symm⟩) names.1
      · exact ⟨f', elsewhere, same'⟩)
    rw [timesCons, rest, timesSame covers, ← timesCons]
    exact (order.countP_eq _).symm

end

end LiveSchema.ColumnGroup
