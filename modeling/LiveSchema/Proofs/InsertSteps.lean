import LiveSchema.Proofs.StatementText
import Mathlib.Data.List.DropRight
/-! Inserts that are put together step by step. Columns and values are kept in two lists that change together, so
that each column stands at the place of its value; a query takes the place of all columns before it, and a value the
place of a query. -/
namespace LiveSchema

namespace Insert

inductive Step where
  | value (column : String) (e : Expr)
  | field (m : Model) (field : String) (e : Expr)
  | query (columns : List String) (command : String)
  | identity

namespace Step

def apply (s : Insert) : Step → Except ModelError Insert
  | value column e => .ok (s.value column e)
  | field m name e => s.field m name e
  | query columns command => .ok (s.fromQuery columns command)
  | identity => .ok s.returningIdentity

def error? : Step → Option ModelError
  | field m name _ =>
    match m.field name with
    | .ok _ => none
    | .error err => some err
  | _ => none

def pair? : Step → Option (String × Expr)
  | value column e => some (column, e)
  | field m name e => (m.field name).toOption.map fun c => (c.name, e)
  | _ => none

def query? : Step → Option (List String × String)
  | query columns command => some (columns, command)
  | _ => none

def isIdentity : Step → Bool
  | identity => true
  | _ => false

end Step

def assemble (table : String) (steps : List Step) : Except ModelError Insert := steps.foldlM Step.apply { table }

/-- A step that fails gives nothing back. Who has a copy of the insert goes on with that. -/
def after (s : Insert) (step : Step) : Insert := (step.apply s).toOption.getD s

def assembled (table : String) (steps : List Step) : Insert := steps.foldl after { table }

def Aligned (s : Insert) : Prop :=
  match s.source with
  | .values values => s.columns.length = values.length
  | .query _ => True

inductive Listing where
  | pairs (pairs : List (String × Expr))
  | query (columns : List String) (command : String)

def listing (s : Insert) : Listing :=
  match s.source with
  | .values values => .pairs (s.columns.zip values)
  | .query command => .query s.columns command

namespace Listing

def value (column : String) (e : Expr) : Listing → Listing
  | pairs ps => .pairs (ps ++ [(column, e)])
  | query _ _ => .pairs [(column, e)]

def after (l : Listing) (step : Step) : Listing :=
  match step.query?, step.pair? with
  | some (columns, command), _ => query columns command
  | none, some (column, e) => l.value column e
  | none, none => l

end Listing

def lastQuery (steps : List Step) : Option (List String × String) := (steps.filterMap Step.query?).getLast?

def lastPairs (steps : List Step) : List (String × Expr) :=
  (steps.rtakeWhile (·.query?.isNone)).filterMap Step.pair?

def lastListing (steps : List Step) : Listing :=
  match lastPairs steps, lastQuery steps with
  | [], some (columns, command) => .query columns command
  | pairs, _ => .pairs pairs

def returningText (steps : List Step) : String := if steps.any (·.isIdentity) then " RETURNING rowid" else ""

section
variable {table column name command : String} {columns : List String} {e : Expr} {m : Model} {c : Column}
  {err : ModelError} {steps : List Step} {step : Step} {s t : Insert} {pairs : List (String × Expr)}

/-- What a step comes to, with what is read off the step itself. -/
inductive Effect (step : Step) : Prop
  | valued (column : String) (e : Expr) (pair : step.pair? = some (column, e)) (query : step.query? = none)
      (identity : step.isIdentity = false) (effect : ∀ s, after s step = s.value column e)
  | nothing (pair : step.pair? = none) (query : step.query? = none) (identity : step.isIdentity = false)
      (effect : ∀ s, after s step = s)
  | queried (columns : List String) (command : String) (query : step.query? = some (columns, command))
      (identity : step.isIdentity = false) (effect : ∀ s, after s step = s.fromQuery columns command)
  | identified (pair : step.pair? = none) (query : step.query? = none) (identity : step.isIdentity = true)
      (effect : ∀ s, after s step = s.returningIdentity)

theorem stepEffect (step : Step) : Effect step := by
  cases step with
  | value column e => exact .valued column e rfl rfl rfl fun s => rfl
  | field m name e =>
    cases found : m.field name with
    | ok c =>
      refine .valued c.name e ?_ rfl rfl fun s => ?_ <;>
        simp [after, Step.apply, Insert.field, Step.pair?, found, Except.toOption]
    | error err =>
      refine .nothing ?_ rfl rfl fun s => ?_ <;>
        simp [after, Step.apply, Insert.field, Step.pair?, found, Except.toOption, bind, Except.bind]
  | query columns command => exact .queried columns command rfl rfl fun s => rfl
  | identity => exact .identified rfl rfl rfl fun s => rfl

theorem alignedValue (aligned : s.Aligned) : (s.value column e).Aligned := by
  unfold Aligned Insert.value at *
  cases source : s.source with
  | values values => simpa [source] using aligned
  | query command => rfl

/-- Were the lists of different lengths, the new column would stand at the place of another value. -/
theorem listingValue (aligned : s.Aligned) : (s.value column e).listing = s.listing.value column e := by
  unfold Aligned listing Insert.value at *
  cases source : s.source with
  | values values =>
    rw [source] at aligned
    exact congrArg Listing.pairs (List.zip_append aligned)
  | query command => rfl

theorem valueKeeps : (s.value column e).table = s.table ∧ (s.value column e).returnIdentity = s.returnIdentity := by
  unfold Insert.value
  cases s.source <;> exact ⟨rfl, rfl⟩

theorem alignedAfter (aligned : s.Aligned) (step : Step) : (after s step).Aligned := by
  cases stepEffect step with
  | valued column e _ _ _ effect => exact (effect s).symm ▸ alignedValue aligned
  | nothing _ _ _ effect => exact (effect s).symm ▸ aligned
  | queried columns command _ _ effect => exact (effect s).symm ▸ trivial
  | identified _ _ _ effect => exact (effect s).symm ▸ aligned

theorem listingAfter (aligned : s.Aligned) (step : Step) : (after s step).listing = s.listing.after step := by
  unfold Listing.after
  cases stepEffect step with
  | valued column e pair query _ effect => rw [effect, listingValue aligned, query, pair]
  | nothing pair query _ effect => rw [effect, query, pair]
  | queried columns command query _ effect =>
    rw [effect, query]
    rfl
  | identified pair query _ effect =>
    rw [effect, query, pair]
    rfl

theorem keptAfter (s : Insert) (step : Step) : (after s step).table = s.table ∧
    (after s step).returnIdentity = (s.returnIdentity || step.isIdentity) := by
  cases stepEffect step with
  | valued column e _ _ identity effect =>
    rw [effect, identity, Bool.or_false]
    exact valueKeeps
  | nothing _ _ identity effect =>
    rw [effect, identity, Bool.or_false]
    exact ⟨rfl, rfl⟩
  | queried columns command _ identity effect =>
    rw [effect, identity, Bool.or_false]
    exact ⟨rfl, rfl⟩
  | identified _ _ identity effect =>
    rw [effect, identity, Bool.or_true]
    exact ⟨rfl, rfl⟩

theorem pairsBehind (other : step.query? = none) :
    lastPairs (steps ++ [step]) = lastPairs steps ++ step.pair?.toList := by
  rw [lastPairs, List.rtakeWhile_concat_pos _ _ _ (by simp [other]), List.filterMap_append]
  rfl

theorem queryBehind (other : step.query? = none) : lastQuery (steps ++ [step]) = lastQuery steps := by
  simp [lastQuery, other]

theorem listingNext (steps : List Step) (step : Step) :
    (lastListing steps).after step = lastListing (steps ++ [step]) := by
  cases asked : step.query? with
  | some query =>
    have none : lastPairs (steps ++ [step]) = [] := by
      rw [lastPairs, List.rtakeWhile_concat_neg _ _ _ (by simp [asked])]
      rfl
    have last : lastQuery (steps ++ [step]) = some query := by simp [lastQuery, asked]
    have shown : lastListing (steps ++ [step]) = .query query.1 query.2 := by rw [lastListing, none, last]
    rw [shown, Listing.after, asked]
  | none =>
    rw [Listing.after, asked, lastListing, lastListing, pairsBehind asked, queryBehind asked]
    cases step.pair? with
    | none => simp
    | some pair =>
      cases lastPairs steps with
      | nil => cases lastQuery steps <;> rfl
      | cons p rest => rfl

structure Made (table : String) (steps : List Step) (s : Insert) : Prop where
  table : s.table = table
  aligned : s.Aligned
  listing : s.listing = lastListing steps
  identity : s.returnIdentity = steps.any (·.isIdentity)

theorem stepMade (made : Made table steps s) (step : Step) : Made table (steps ++ [step]) (after s step) where
  table := (keptAfter s step).1.trans made.table
  aligned := alignedAfter made.aligned step
  listing := by rw [listingAfter made.aligned, made.listing, listingNext]
  identity := by simp [(keptAfter s step).2, made.identity]

theorem stepsMade (table : String) (steps : List Step) : Made table steps (assembled table steps) := by
  induction steps using List.reverseRecOn with
  | nil => exact ⟨rfl, rfl, rfl, rfl⟩
  | append_singleton steps step ih =>
    rw [assembled, List.foldl_concat]
    exact stepMade ih step

theorem listsOfPairs (aligned : s.Aligned) (shown : s.listing = .pairs pairs) :
    s.columns = pairs.map (·.1) ∧ s.source = .values (pairs.map (·.2)) := by
  unfold listing at shown
  unfold Aligned at aligned
  split at aligned
  · rename_i values source
    rw [source] at shown ⊢
    cases shown
    rw [List.map_fst_zip (Nat.le_of_eq aligned), List.map_snd_zip (Nat.le_of_eq aligned.symm)]
    exact ⟨rfl, rfl⟩
  · rename_i source
    rw [source] at shown
    contradiction

theorem listsOfQuery (shown : s.listing = .query columns command) : s.columns = columns ∧ s.source = .query command := by
  unfold listing at shown
  split at shown
  · contradiction
  · rename_i source
    cases shown
    exact ⟨rfl, source⟩

theorem identityMade (made : Made table steps s) : s.identityText .sqlite = pure (returningText steps) := by
  rw [identityText, made.identity, returningText]
  split <;> rfl

theorem afterIdentity (s : Insert) (step : Step) :
    after s.returningIdentity step = (after s step).returningIdentity := by
  cases stepEffect step with
  | valued column e _ _ _ effect =>
    rw [effect, effect]
    unfold Insert.value returningIdentity
    cases s.source <;> rfl
  | nothing _ _ _ effect => rw [effect, effect]
  | queried columns command _ _ effect =>
    rw [effect, effect]
    rfl
  | identified _ _ _ effect => rw [effect, effect]

theorem laterIdentity (s : Insert) (later : List Step) :
    later.foldl after s.returningIdentity = (later.foldl after s).returningIdentity := by
  induction later generalizing s with
  | nil => rfl
  | cons step rest ih => rw [List.foldl_cons, afterIdentity, ih, List.foldl_cons]

theorem appliedOrFailed (s : Insert) (step : Step) :
    step.apply s = step.error?.elim (.ok (after s step)) .error ∧ (step.error? ≠ none → after s step = s) := by
  cases step with
  | field m name e =>
    cases found : m.field name <;>
      simp [after, Step.apply, Insert.field, Step.error?, found, Except.toOption, bind, Except.bind, pure, Except.pure]
  | _ => exact ⟨rfl, fun failed => absurd rfl failed⟩

theorem assembledOrFailed (s : Insert) (steps : List Step) :
    steps.foldlM Step.apply s = (steps.findSome? (·.error?)).elim (.ok (steps.foldl after s)) .error := by
  induction steps generalizing s with
  | nil => rfl
  | cons step rest ih =>
    rw [List.foldlM_cons, (appliedOrFailed s step).1, List.findSome?_cons, List.foldl_cons]
    cases step.error? with
    | none => exact ih (after s step)
    | some err => rfl

theorem failuresAddNothing (s : Insert) (steps : List Step) :
    (steps.filter (·.error?.isNone)).foldl after s = steps.foldl after s := by
  induction steps generalizing s with
  | nil => rfl
  | cons step rest ih =>
    rw [List.foldl_cons, ← ih]
    cases failed : step.error? with
    | none => rw [List.filter_cons_of_pos (by simp [failed]), List.foldl_cons]
    | some err =>
      rw [List.filter_cons_of_neg (by simp [failed]), (appliedOrFailed s step).2 (by simp [failed])]

end

/-- Columns and values are never misaligned. Each value since the last query stands at the place of its column; a query
that nothing follows stands alone with its columns. A field that is not there ends the assembly, or adds nothing if
the assembly goes on, and asking for the identity of the row changes nothing else. -/
theorem columnsKeepValues (table : String) (steps : List Step) :
    (lastPairs steps ≠ [] ∨ lastQuery steps = none →
      (assembled table steps).columns = (lastPairs steps).map (·.1) ∧
      (assembled table steps).source = .values ((lastPairs steps).map (·.2)) ∧
      (assembled table steps).prepare .sqlite = do
        let values ← (lastPairs steps).mapM (·.2.compile .sqlite)
        return "INSERT INTO " ++ table ++ " (" ++ Dialect.sqlite.maskAll ((lastPairs steps).map (·.1)) ++
          ") VALUES (" ++ Text.joinWith "," values ++ ")" ++ returningText steps) ∧
    (∀ columns command, lastPairs steps = [] → lastQuery steps = some (columns, command) →
      (assembled table steps).columns = columns ∧ (assembled table steps).source = .query command ∧
      (assembled table steps).prepare .sqlite = .ok ("INSERT INTO " ++ table ++ " (" ++
        Dialect.sqlite.maskAll columns ++ ") " ++ command ++ returningText steps)) ∧
    assemble table steps = (steps.findSome? (·.error?)).elim (.ok (assembled table steps)) .error ∧
    assemble table (steps.filter (·.error?.isNone)) = .ok (assembled table steps) ∧
    ∀ earlier later, steps = earlier ++ .identity :: later →
      assembled table steps = (assembled table (earlier ++ later)).returningIdentity := by
  have made := stepsMade table steps
  refine ⟨?_, ?_, assembledOrFailed _ steps, ?_, ?_⟩
  · intro valued
    have listed : lastListing steps = .pairs (lastPairs steps) := by
      unfold lastListing
      split <;> simp_all
    obtain ⟨columns, source⟩ := listsOfPairs made.aligned (made.listing.trans listed)
    have closed : ") VALUES (" = ")" ++ " VALUES (" := rfl
    refine ⟨columns, source, ?_⟩
    rw [Insert.prepared, identityMade made, made.table, columns, source, InsertSource.text, List.mapM_map, closed]
    simp only [String.append_assoc, bind_assoc, pure_bind, Function.comp_def]
  · intro columns command none asked
    have listed : lastListing steps = .query columns command := by rw [lastListing, none, asked]
    obtain ⟨columns, source⟩ := listsOfQuery (made.listing.trans listed)
    have closed : ") " = ")" ++ " " := rfl
    refine ⟨columns, source, ?_⟩
    rw [Insert.prepared, identityMade made, made.table, columns, source, InsertSource.text, closed]
    simp only [String.append_assoc, pure_bind]
    rfl
  · have none : (steps.filter (·.error?.isNone)).findSome? (·.error?) = none := by
      simp [List.findSome?_eq_none_iff]
    rw [assemble, assembledOrFailed, none, failuresAddNothing]
    rfl
  · rintro earlier later rfl
    rw [assembled, assembled, List.foldl_append, List.foldl_append, List.foldl_cons]
    exact laterIdentity _ later

def clubModel : Model where
  table := "club"
  source := .table
  columns := [{ name := "city", field := some "City", valueType := some .text }]
  indices := []
  uniques := []

def clubQueried : List Step :=
  [.value "founder" (.value (.text "Ada")), .query ["name"] "SELECT name FROM draft",
    .field clubModel "Zip" (.value (.int 7)), .identity]

def clubSteps : List Step :=
  clubQueried ++ [.field clubModel "City" (.value (.text "Turin")), .value "age" (.value (.int 3))]

theorem clubColumnsKeepValues :
    (lastPairs clubSteps ≠ [] ∧ (assembled "club" clubSteps).columns = ["city", "age"] ∧
      (assembled "club" clubSteps).prepare .sqlite =
        .ok "INSERT INTO club ([city],[age]) VALUES ('Turin',3) RETURNING rowid") ∧
    (lastPairs clubQueried = [] ∧ lastQuery clubQueried = some (["name"], "SELECT name FROM draft") ∧
      (assembled "club" clubQueried).prepare .sqlite =
        .ok "INSERT INTO club ([name]) SELECT name FROM draft RETURNING rowid") ∧
    assemble "club" clubSteps = .error (.unknownField "club" "Zip") ∧
    assemble "club" (clubSteps.eraseIdx 2) = .ok (assembled "club" clubSteps) ∧
    assembled "club" clubQueried = (assembled "club" (clubQueried.eraseIdx 3)).returningIdentity := by
  have added : lastPairs clubSteps = [("city", .value (.text "Turin")), ("age", .value (.int 3))] := rfl
  have filled : lastPairs clubSteps ≠ [] := by simp [added]
  obtain ⟨valued, -, failed, passed, -⟩ := columnsKeepValues "club" clubSteps
  obtain ⟨-, queried, -, -, identity⟩ := columnsKeepValues "club" clubQueried
  obtain ⟨columns, -, written⟩ := valued (.inl filled)
  obtain ⟨-, -, selected⟩ := queried ["name"] "SELECT name FROM draft" rfl rfl
  exact ⟨⟨filled, columns, written⟩, ⟨rfl, rfl, selected⟩, failed, passed, identity (clubQueried.take 3) [] rfl⟩

end Insert

end LiveSchema
