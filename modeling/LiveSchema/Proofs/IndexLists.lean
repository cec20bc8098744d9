import LiveSchema.Proofs.IndexDefinition
import LiveSchema.Proofs.NameLists
/-! The column list of an index. It ends where its parenthesis is closed, but a definition is read up to its
last character: what stands behind the list is refused only if it does not end in a parenthesis. -/
namespace LiveSchema
open Text Catalog

/-- What stands before the parenthesis that closes an open one, and what stands behind it. Parentheses and
quotes in between are passed over as in cutting. -/
def closing? : Nat → Option Char → List Char → Option (List Char × List Char)
  | _, _, [] => none
  | depth, some q, c :: cs =>
    (closing? depth (if c = q then none else some q) cs).map fun found => (c :: found.1, found.2)
  | depth, none, c :: cs =>
    if c = ')' ∧ depth = 0 then some ([], cs)
    else (closing? (depthAfter depth c) (closingQuote? c) cs).map fun found => (c :: found.1, found.2)

def elements (list : List Char) : List String :=
  (cutItems 0 none list).map fun p => String.ofList (unquote p)

def OnlyList (definition : String) (g : ColumnGroup) : Prop :=
  ∃ index opened list, openedList? (trimEnd definition.toList) = some (index, opened) ∧
    closing? 0 none opened = some (list, []) ∧ g.columns = elements list

section Lists
variable {depth : Nat} {quote : Option Char} {c : Char} {cs list behind opened : List Char}

theorem closingForm (closed : closing? depth quote cs = some (list, behind)) :
    cs = list ++ ')' :: behind := by
  fun_induction closing? depth quote cs generalizing list with
  | case1 => contradiction
  | case2 depth q c cs ih =>
    obtain ⟨⟨inner, rest⟩, found, made⟩ := Option.map_eq_some_iff.mp closed
    cases made
    rw [List.cons_append, ← ih found]
  | case3 depth c cs closes =>
    cases closed
    rw [closes.1, List.nil_append]
  | case4 depth c cs _ ih =>
    obtain ⟨⟨inner, rest⟩, found, made⟩ := Option.map_eq_some_iff.mp closed
    cases made
    rw [List.cons_append, ← ih found]

theorem trimmedKeeps {drop : Char → Bool} (kept : drop c = false) (member : c ∈ cs) : c ∈ trimBy drop cs := by
  have behindFront (ds : List Char) (inside : c ∈ ds) : c ∈ ds.dropWhile drop := by
    rw [← List.takeWhile_append_dropWhile (p := drop) (l := ds), List.mem_append] at inside
    rcases inside with front | back
    · rw [List.mem_takeWhile_imp front] at kept
      contradiction
    · exact back
  rw [trimBy, List.mem_reverse]
  exact behindFront _ (List.mem_reverse.mpr (behindFront _ member))

theorem firstLacks {separator : Char} {texts : List (List Char)}
    (lacks : ∀ p ∈ consFirst c texts, separator ∉ p) :
    c ≠ separator ∧ ∀ p ∈ texts, separator ∉ p := by
  cases texts with
  | nil => simpa [consFirst, eq_comm] using lacks
  | cons first rest =>
    obtain ⟨here, later⟩ := List.forall_mem_cons.mp lacks
    obtain ⟨other, within⟩ := not_or.mp (List.mem_cons.not.mp here)
    exact ⟨Ne.symm other, List.forall_mem_cons.mpr ⟨within, later⟩⟩

theorem cutAtCommas (lacks : ∀ p ∈ cutItems depth quote cs, ',' ∉ p) :
    pieces ',' cs = cutItems depth quote cs := by
  fun_induction cutItems depth quote cs with
  | case1 => rfl
  | case2 depth q c cs ih =>
    obtain ⟨other, later⟩ := firstLacks lacks
    rw [pieces, if_neg other, ih later]
  | case3 depth c cs comma ih =>
    rw [pieces, if_pos comma.1, ih (List.forall_mem_cons.mp lacks).2]
  | case4 depth c cs _ ih =>
    obtain ⟨other, later⟩ := firstLacks lacks
    rw [pieces, if_neg other, ih later]

theorem namesElements : names list = elements list ↔ ∀ p ∈ cutItems 0 none list, ',' ∉ p := by
  constructor
  · intro same p piece comma
    have element : String.ofList (unquote p) ∈ names list := same ▸ List.mem_map_of_mem piece
    have whole := (namesFreed _ element).1
    rw [String.toList_ofList] at whole
    exact whole (trimmedKeeps (by decide) comma)
  · intro lacks
    rw [names, cutAtCommas lacks, elements]

end Lists

section Index
variable {table definition : String} {index opened list behind : List Char} {g : ColumnGroup}

theorem groupRead : readIndex table definition = .ok g ↔ index? table definition = some g := by
  rw [readIndex]
  cases index? table definition <;> simp

theorem groupRefused : readIndex table definition = .error (.unreadable definition) ↔
    ¬ ∃ g, readIndex table definition = .ok g := by
  rw [readIndex]
  cases index? table definition <;> simp

theorem listedGroup (found : openedList? (trimEnd definition.toList) = some (index, opened)) :
    index? table definition = some g ↔ ∃ inner, opened = inner ++ [')'] ∧ inner ≠ [] ∧
      groupName? table index = some g.name ∧ names inner = g.columns := by
  rw [indexForm, found]
  constructor
  · rintro ⟨_, inner, same, filled, named, columns⟩
    cases same
    exact ⟨inner, rfl, filled, named, columns⟩
  · rintro ⟨inner, rfl, filled, named, columns⟩
    exact ⟨index, inner, rfl, filled, named, columns⟩

theorem groupAccepted (found : openedList? (trimEnd definition.toList) = some (index, opened)) :
    (∃ g, readIndex table definition = .ok g) ↔
      groupName? table index ≠ none ∧ opened.getLast? = some ')' ∧ opened ≠ [')'] := by
  simp only [groupRead, listedGroup found]
  constructor
  · rintro ⟨g, inner, rfl, filled, named, _⟩
    refine ⟨by simp [named], by simp, fun alone => ?_⟩
    exact filled (List.append_cancel_right alone)
  · rintro ⟨named, last, more⟩
    obtain ⟨name, named⟩ := Option.ne_none_iff_exists'.mp named
    obtain ⟨inner, rfl⟩ := List.getLast?_eq_some_iff.mp last
    exact ⟨⟨name, names inner⟩, inner, rfl, fun empty => more (by rw [empty]; rfl), named, rfl⟩

theorem onlyListIff (found : openedList? (trimEnd definition.toList) = some (index, opened))
    (read : readIndex table definition = .ok g) : OnlyList definition g ↔
      ∃ list, closing? 0 none opened = some (list, []) ∧ ∀ p ∈ cutItems 0 none list, ',' ∉ p := by
  obtain ⟨inner, text, _, _, columns⟩ := (listedGroup found).mp (groupRead.mp read)
  have listIsInner {list : List Char} (closed : closing? 0 none opened = some (list, [])) :
      names list = g.columns := by
    have same : inner ++ [')'] = list ++ [')'] := text.symm.trans (closingForm closed)
    rw [← List.append_cancel_right same, columns]
  constructor
  · rintro ⟨_, _, list, again, closed, elementwise⟩
    cases found.symm.trans again
    exact ⟨list, closed, namesElements.mp ((listIsInner closed).trans elementwise)⟩
  · rintro ⟨list, closed, lacks⟩
    exact ⟨index, opened, list, found, closed, (listIsInner closed).symm.trans (namesElements.mpr lacks)⟩

/-- Whatever is accepted is only a list exactly if every definition that ends in a parenthesis closes its list
there, with no comma hidden in it. A text behind the list is refused only if the name is of no index of the
table or the text does not end in a parenthesis; else it is read as part of the names. -/
theorem indexListsRead (table definition : String) :
    ((∀ g, readIndex table definition = .ok g → OnlyList definition g) ↔
      ∀ index opened, openedList? (trimEnd definition.toList) = some (index, opened) →
        groupName? table index ≠ none → opened.getLast? = some ')' →
        ∃ list, closing? 0 none opened = some (list, []) ∧ ∀ p ∈ cutItems 0 none list, ',' ∉ p) ∧
    ∀ index opened list behind, openedList? (trimEnd definition.toList) = some (index, opened) →
      closing? 0 none opened = some (list, behind) → behind ≠ [] →
      (readIndex table definition = .error (.unreadable definition) ↔
        groupName? table index = none ∨ behind.getLast? ≠ some ')') ∧
      ∀ g, readIndex table definition = .ok g → g.columns = names (list ++ ')' :: behind.dropLast) := by
  constructor
  · constructor
    · intro only index opened found named last
      by_cases alone : opened = [')']
      · exact ⟨[], by rw [alone]; rfl, by decide⟩
      · obtain ⟨g, read⟩ := (groupAccepted found).mpr ⟨named, last, alone⟩
        exact (onlyListIff found read).mp (only g read)
    · intro closes g read
      obtain ⟨index, inner, found, _⟩ := indexForm.mp (groupRead.mp read)
      obtain ⟨named, last, _⟩ := (groupAccepted found).mp ⟨g, read⟩
      exact (onlyListIff found read).mpr (closes index _ found named last)
  · intro index opened list behind found closed tail
    have text := closingForm closed
    have last : opened.getLast? = behind.getLast? := by
      rw [text, List.append_cons, List.getLast?_append, List.getLast?_eq_some_getLast tail, Option.some_or]
    have more : opened ≠ [')'] := by simp [text, List.append_eq_singleton_iff, tail]
    constructor
    · rw [groupRefused, groupAccepted found, last, and_iff_left more, not_and_or, not_ne_iff]
    · intro g read
      obtain ⟨inner, again, _, _, columns⟩ := (listedGroup found).mp (groupRead.mp read)
      have inside : inner = (list ++ ')' :: behind).dropLast := by
        rw [← text, again, List.dropLast_concat]
      rw [← columns, inside, List.dropLast_append_of_ne_nil (List.cons_ne_nil _ _),
        List.dropLast_cons_of_ne_nil tail]

end Index

def openJobs : String := "CREATE INDEX idx_job_open ON job ([due],[rank]) WHERE done IS NULL"

theorem openJobsRefused : closing? 0 none "[due],[rank]) WHERE done IS NULL".toList =
      some ("[due],[rank]".toList, " WHERE done IS NULL".toList) ∧
    readIndex "job" openJobs = .error (.unreadable openJobs) := by
  have found : openedList? (trimEnd openJobs.toList) =
      some ("idx_job_open".toList, "[due],[rank]) WHERE done IS NULL".toList) := by
    decide +kernel
  have closed : closing? 0 none "[due],[rank]) WHERE done IS NULL".toList =
      some ("[due],[rank]".toList, " WHERE done IS NULL".toList) := by
    decide +kernel
  obtain ⟨refused, _⟩ := (indexListsRead "job" openJobs).2 _ _ _ _ found closed (by decide)
  exact ⟨closed, refused.mpr (.inr (by decide))⟩

/-- A predicate in parentheses is read into the name of the last column. -/
theorem partialIndexMayBeRead : ¬ ∀ table definition g, readIndex table definition = .ok g →
    OnlyList definition g := by
  intro all
  have read : readIndex "t" "CREATE INDEX idx_t_a ON t (a) WHERE (a > 0)" =
      .ok ⟨"a", ["a) WHERE (a > 0"]⟩ := by
    decide +kernel
  have found : openedList? (trimEnd "CREATE INDEX idx_t_a ON t (a) WHERE (a > 0)".toList) =
      some ("idx_t_a".toList, "a) WHERE (a > 0)".toList) := by
    decide +kernel
  have closed : closing? 0 none "a) WHERE (a > 0)".toList =
      some ("a".toList, " WHERE (a > 0)".toList) := by
    decide +kernel
  obtain ⟨_, _, _, again, atEnd, _⟩ := all _ _ _ read
  cases found.symm.trans again
  obtain ⟨_, noTail⟩ := Prod.mk.inj (Option.some.inj (closed.symm.trans atEnd))
  exact absurd noTail (by decide)

end LiveSchema
