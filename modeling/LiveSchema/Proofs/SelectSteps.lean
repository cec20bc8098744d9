import LiveSchema.Proofs.StatementText
/-! Selects that are put together step by step. What the steps add is written clause by clause, in the order of the
steps within a clause; of what they set the last is written. Unions are set, so those before the last are lost. -/
namespace LiveSchema

namespace Select

inductive Step where
  | column (e : Expr)
  | columns (es : List Expr)
  | table (table : String)
  | query (command : String)
  | label (label : String)
  | join (j : Join)
  | filter (condition : Expr)
  | grouping (terms : List Expr)
  | union (u : UnionClause)
  | order (term : Expr × Order)
  | limit (n : UInt64)
  | offset (n : UInt64)

namespace Step

def apply (s : Select) : Step → Select
  | column e => s.addColumns [e]
  | columns es => s.addColumns es
  | table name => s.fromTable name
  | query command => s.fromQuery command
  | label name => s.labelled name
  | join j => s.join j
  | filter condition => s.filtered condition
  | grouping terms => s.grouping terms
  | union u => s.unionWith u.command u.all
  | order term => s.ordered term.1 term.2
  | limit n => s.limited n
  | offset n => s.skipping n

def added : Step → List Expr
  | column e => [e]
  | columns es => es
  | _ => []

def source? : Step → Option Expr
  | table name => some (.table name)
  | query command => some (.subquery command)
  | _ => none

def label? : Step → Option String
  | label name => some name
  | _ => none

def join? : Step → Option Join
  | join j => some j
  | _ => none

def filter? : Step → Option Expr
  | filter condition => some condition
  | _ => none

def grouping? : Step → Option (List Expr)
  | grouping terms => some terms
  | _ => none

def union? : Step → Option UnionClause
  | union u => some u
  | _ => none

def order? : Step → Option (Expr × Order)
  | order term => some term
  | _ => none

def limit? : Step → Option UInt64
  | limit n => some n
  | _ => none

def offset? : Step → Option UInt64
  | offset n => some n
  | _ => none

end Step

def assembled (steps : List Step) : Select := steps.foldl Step.apply {}

def modelSteps (m : Model) : List Step := [.columns (m.columns.map (.column ·.name)), .table m.table]

section
variable {α : Type}

def each (part? : Step → Option α) (steps : List Step) : List α := steps.filterMap part?

def last (part? : Step → Option α) (steps : List Step) : Option α := (each part? steps).getLast?

end

def written (d : Dialect) (steps : List Step) (unions : List UnionClause) : Except RenderError String := do
  let columns ← (steps.flatMap Step.added).mapM (·.compile d)
  let source ← (last Step.source? steps).mapM (·.compile d)
  let joins ← (each Step.join? steps).mapM (·.text d)
  let filter ← (last Step.filter? steps).mapM (·.compile d)
  let groupBy ← ((last Step.grouping? steps).getD []).mapM (·.compile d)
  let orderBy ← (each Step.order? steps).mapM (termText d)
  return "SELECT " ++ columnText columns ++ clauseText " FROM " source ++
    clauseText " AS " (last Step.label? steps) ++ String.join joins ++ clauseText " WHERE " filter ++
    listText " GROUP BY " groupBy ++ String.join (unions.map (·.text)) ++ listText " ORDER BY " orderBy ++
    clauseText " LIMIT " ((last Step.limit? steps).map fun n => toString n.toNat) ++
    clauseText " OFFSET " ((last Step.offset? steps).map fun n => toString n.toNat)

def made (steps : List Step) : Select where
  columns := steps.flatMap Step.added
  source := last Step.source? steps
  label := last Step.label? steps
  joins := each Step.join? steps
  filter := last Step.filter? steps
  groupBy := (last Step.grouping? steps).getD []
  union := last Step.union? steps
  orderBy := each Step.order? steps
  limit := last Step.limit? steps
  offset := last Step.offset? steps

section
variable {α : Type} {d : Dialect} {steps : List Step} {unions others : List UnionClause} {text : String}

theorem eachBehind (part? : Step → Option α) (steps : List Step) (step : Step) :
    each part? (steps ++ [step]) = each part? steps ++ (part? step).toList := by
  rw [each, List.filterMap_append]
  rfl

theorem lastBehind (part? : Step → Option α) (steps : List Step) (step : Step) :
    last part? (steps ++ [step]) = (part? step).or (last part? steps) := by
  rw [last, eachBehind, last]
  cases part? step <;> simp

theorem stepMade (steps : List Step) (step : Step) : step.apply (made steps) = made (steps ++ [step]) := by
  have added : (steps ++ [step]).flatMap Step.added = steps.flatMap Step.added ++ step.added := by simp
  simp only [made, lastBehind, eachBehind, added]
  cases step <;> simp [Step.apply, addColumns, fromTable, fromQuery, labelled, Select.join, filtered, Select.grouping,
    unionWith, ordered, limited, skipping, Step.added, Step.source?, Step.label?, Step.join?, Step.filter?,
    Step.grouping?, Step.union?, Step.order?, Step.limit?, Step.offset?]

theorem stepsMade (steps : List Step) : assembled steps = made steps := foldReads stepMade steps

theorem lastUnionWritten (d : Dialect) (steps : List Step) :
    (assembled steps).prepare d = written d steps (last Step.union? steps).toList := by
  have single (u : Option UnionClause) : String.join (u.toList.map (·.text)) = u.elim "" UnionClause.text := by
    cases u <;> simp
  rw [stepsMade, Select.prepared, written, single]
  rfl

theorem writtenAround (prepared : written d steps unions = .ok text) : ∃ front back : String, ∀ others,
    written d steps others = .ok (front ++ String.join (others.map (·.text)) ++ back) := by
  simp only [written, okThen] at prepared
  obtain ⟨columns, columnsKnown, source, sourceKnown, joins, joinsKnown, filter, filterKnown, groupBy, groupByKnown,
    orderBy, orderByKnown, -⟩ := prepared
  refine ⟨"SELECT " ++ columnText columns ++ clauseText " FROM " source ++ clauseText " AS " (last Step.label? steps) ++
    String.join joins ++ clauseText " WHERE " filter ++ listText " GROUP BY " groupBy,
    listText " ORDER BY " orderBy ++ clauseText " LIMIT " ((last Step.limit? steps).map fun n => toString n.toNat) ++
    clauseText " OFFSET " ((last Step.offset? steps).map fun n => toString n.toNat), fun others => ?_⟩
  simp only [written, columnsKnown, sourceKnown, joinsKnown, filterKnown, groupByKnown, orderByKnown, bind, Except.bind,
    String.append_assoc]
  rfl

theorem unionsTold (prepared : written d steps unions = .ok text) : written d steps others = .ok text ↔
    String.join (others.map (·.text)) = String.join (unions.map (·.text)) := by
  obtain ⟨front, back, around⟩ := writtenAround prepared
  rw [around] at prepared ⊢
  rw [← prepared, Except.ok.injEq, String.append_left_inj, String.append_right_inj]

theorem unionShown (u : UnionClause) : u.text ≠ "" := by
  obtain ⟨command, all⟩ := u
  cases all <;> simp [UnionClause.text, String.append_eq_empty_iff]

theorem lastUnionAll (unions : List UnionClause) : String.join (unions.map (·.text)) =
    String.join (unions.getLast?.toList.map (·.text)) ↔ unions.length ≤ 1 := by
  rcases List.eq_nil_or_concat' unions with rfl | ⟨earlier, u, rfl⟩
  · simp
  · have joined : String.join ((earlier ++ [u]).map (·.text)) = String.join (earlier.map (·.text)) ++ u.text := by
      simp
    have single : String.join ((earlier ++ [u]).getLast?.toList.map (·.text)) = "" ++ u.text := by simp
    rw [joined, single, String.append_left_inj]
    cases earlier with
    | nil => simp
    | cons first rest => simp [String.append_eq_empty_iff, unionShown]

end

/-- Nothing that is added is lost but a union. The clauses stand in their order whatever the order of the steps, each
with all that was added to it; of the unions only the last is written, so all are written if there is only one. -/
theorem addedPartsWritten (d : Dialect) (steps : List Step) :
    (assembled steps).prepare d = written d steps (last Step.union? steps).toList ∧
    (∀ text, (assembled steps).prepare d = .ok text →
      (written d steps (each Step.union? steps) = .ok text ↔ (each Step.union? steps).length ≤ 1)) ∧
    ∀ m : Model, steps.foldl Step.apply (.ofModel m) = assembled (modelSteps m ++ steps) := by
  refine ⟨lastUnionWritten d steps, ?_, ?_⟩
  · intro text prepared
    rw [lastUnionWritten] at prepared
    rw [unionsTold prepared]
    exact lastUnionAll _
  · intro m
    rw [assembled, List.foldl_append]
    rfl

def guestSteps : List Step :=
  [.offset 10, .order (.column "age", .descending), .union ⟨"SELECT name, age FROM visitor", false⟩,
    .filter (.binary .greater (.column "age") (.value (.int 17))), .column (.column "name"), .limit 5,
    .join { table := "room" }, .table "guest", .order (.column "name", .ascending),
    .columns [.column "age", .column "city"], .join { table := "key", label := some "k" }]

def guestText : String := "SELECT [name], [age], [city] FROM guest INNER JOIN room INNER JOIN key AS k " ++
  "WHERE [age] > 17 UNION SELECT name, age FROM visitor ORDER BY [age] DESC, [name] LIMIT 5 OFFSET 10"

theorem guestPartsWritten : (assembled guestSteps).prepare .sqlite = .ok guestText ∧
    (each Step.union? guestSteps).length ≤ 1 ∧
    written .sqlite guestSteps (each Step.union? guestSteps) = .ok guestText := by
  have prepared : (assembled guestSteps).prepare .sqlite = .ok guestText := by decide +kernel
  have single : (each Step.union? guestSteps).length ≤ 1 := Nat.le_refl 1
  exact ⟨prepared, single, ((addedPartsWritten .sqlite guestSteps).2.1 guestText prepared).mpr single⟩

def archiveSteps : List Step :=
  [.table "person", .union ⟨"SELECT * FROM old", false⟩, .union ⟨"SELECT * FROM older", true⟩]

theorem unionMayBeLost : ¬ ∀ (d : Dialect) (steps : List Step) (text : String), (assembled steps).prepare d = .ok text →
    written d steps (each Step.union? steps) = .ok text := by
  intro kept
  have prepared : (assembled archiveSteps).prepare .sqlite =
      .ok "SELECT * FROM person UNION ALL SELECT * FROM older" := by rfl
  have both : written .sqlite archiveSteps (each Step.union? archiveSteps) =
      .ok "SELECT * FROM person UNION SELECT * FROM old UNION ALL SELECT * FROM older" := by rfl
  have same := both.symm.trans (kept .sqlite archiveSteps _ prepared)
  exact absurd (Except.ok.inj same) (by decide)

end Select

end LiveSchema
