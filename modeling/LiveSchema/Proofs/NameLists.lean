import LiveSchema.Proofs.StoredDefinition
/-! Lists of names in brackets. The names of a group are cut at every comma and freed of blanks and quotes at
both ends; the name of a column is taken from inside its brackets, and columns are cut outside quotes. Both
give the names that were written exactly if none holds a comma or ends in what is taken off. -/
namespace LiveSchema
open Text Catalog

section Names
variable {columns : List String} {cs : List Char}

theorem namesFreed : ∀ n ∈ names cs, ',' ∉ n.toList ∧
    (∀ c ∈ n.toList.head?, isEdge c = false) ∧ ∀ c ∈ n.toList.getLast?, isEdge c = false := by
  intro n member
  obtain ⟨p, piece, rfl⟩ := List.mem_map.mp member
  rw [String.toList_ofList]
  exact ⟨fun comma => pieceLacks p piece (trimmedWithin comma), trimmedEnds isEdge p⟩

theorem namesReadIff (filled : columns ≠ []) (named : ∀ n ∈ columns, n ≠ "" ∧ ']' ∉ n.toList) :
    names (Dialect.sqlite.maskAll columns).toList = columns ↔ ∀ n ∈ columns, LegibleName n := by
  constructor
  · intro read n member
    obtain ⟨nonempty, closed⟩ := named n member
    obtain ⟨whole, first, last⟩ := namesFreed n (read ▸ member)
    exact ⟨nonempty, closed, whole, first, last⟩
  · exact namesRead filled

end Names

theorem bracketedName {n : String} {rest : List Char} {c : Column} (named : n ≠ "" ∧ ']' ∉ n.toList)
    (found : column? ((bracket n).toList ++ rest) = some c) : c.name = n := by
  have text : (bracket n).toList = '[' :: (n.toList ++ [']']) := by simp [bracket]
  have filled : n.toList ≠ [] := by simpa using named.1
  rw [text, column?, quotedNameRead rfl filled named.2] at found
  simp only [Option.bind_eq_bind, Option.bind_some, Option.bind_eq_some_iff] at found
  obtain ⟨_, _, _, _, _, _, made⟩ := found
  cases made
  exact String.ofList_toList

theorem namesReadAlike {columns : List String} (filled : columns ≠ [])
    (named : ∀ n ∈ columns, n ≠ "" ∧ ']' ∉ n.toList) :
    (∀ n ∈ columns,
      (∀ rest c, column? ((bracket n).toList ++ rest) = some c → c.name = n) ∧
      ∀ c : Column, c.name = n → c.IsDeclared → (∀ s ∈ c.default, LegibleDefault s) →
        ∃ definition, c.definition .sqlite = .ok definition ∧
          (column? definition.toList).map (·.name) = some n) ∧
    (names (Dialect.sqlite.maskAll columns).toList = columns ↔ ∀ n ∈ columns, LegibleName n) := by
  refine ⟨fun n member => ⟨fun rest c found => bracketedName (named n member) found, ?_⟩,
    namesReadIff filled named⟩
  rintro c rfl declared defaults
  obtain ⟨nonempty, closed⟩ := named c.name member
  refine ⟨c.definitionText, c.definitionWritten, ?_⟩
  rw [columnForm.mpr (Column.columnWritten declared nonempty closed defaults)]
  rfl

def shelfNames : List String := ["it's (new)", "due date"]

theorem shelfNamesRead :
    (∃ definition, (Column.declared "due date" .int).definition .sqlite = .ok definition ∧
      (column? definition.toList).map (·.name) = some "due date") ∧
    names (Dialect.sqlite.maskAll shelfNames).toList = shelfNames := by
  have named : ∀ n ∈ shelfNames, n ≠ "" ∧ ']' ∉ n.toList := by decide
  obtain ⟨items, list⟩ := namesReadAlike (List.cons_ne_nil _ _) named
  have date := (items "due date" (by decide)).2 (Column.declared "due date" .int) rfl ⟨⟨_, rfl⟩, rfl⟩
  exact ⟨date (fun s none => nomatch none), list.mpr (by decide)⟩

theorem listedNameMayBeCut : ¬ ∀ columns : List String, columns ≠ [] →
    (∀ n ∈ columns, n ≠ "" ∧ ']' ∉ n.toList) →
    names (Dialect.sqlite.maskAll columns).toList = columns := by
  intro all
  have whole := all ["a,b", "c"] (List.cons_ne_nil _ _) (by decide)
  have cut : names (Dialect.sqlite.maskAll ["a,b", "c"]).toList = ["a", "b", "c"] := by decide +kernel
  rw [cut] at whole
  contradiction

end LiveSchema
