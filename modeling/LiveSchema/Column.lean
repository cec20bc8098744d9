import LiveSchema.Value
/-! Columns and groups of columns. A column is declared in a model, with a generic type, or read back
from a catalog, with the type text found there. A group backs an index or a unique constraint. -/
namespace LiveSchema

structure Column where
  name : String
  field : Option String := none
  valueType : Option ValueType := none
  primaryKey : Bool := false
  unique : Bool := false
  autoIncrement : Bool := false
  notNull : Bool := false
  default : Option String := none
  dbType : String := ""
  deriving DecidableEq, Repr

namespace Column

def declared (name : String) (type : ValueType) : Column := { name, valueType := some type }

def introspected (name dbType : String) : Column := { name, dbType }

/-- A row copied into the column needs a made-up value: the column refuses NULL and the database
supplies nothing. -/
def requiresFill (c : Column) : Bool := c.notNull && !c.autoIncrement && c.default.isNone

end Column

structure ColumnGroup where
  name : String
  columns : List String
  deriving DecidableEq, Repr

namespace ColumnGroup

def covers (a b : ColumnGroup) : Bool :=
  a.columns.all (b.columns.contains ·) && b.columns.all (a.columns.contains ·)

theorem coversIff (a b : ColumnGroup) :
    a.covers b = true ↔ ∀ c, c ∈ a.columns ↔ c ∈ b.columns := by
  simp only [covers, Bool.and_eq_true, List.all_eq_true, List.contains_iff_mem]
  exact ⟨fun h c => ⟨h.1 c, h.2 c⟩, fun h => ⟨fun c => (h c).1, fun c => (h c).2⟩⟩

theorem coversRefl (a : ColumnGroup) : a.covers a = true := (coversIff a a).2 fun _ => Iff.rfl

theorem coversSymm {a b : ColumnGroup} (h : a.covers b = true) : b.covers a = true :=
  (coversIff b a).2 fun c => ((coversIff a b).1 h c).symm

theorem coversTrans {a b c : ColumnGroup} (h : a.covers b = true) (k : b.covers c = true) :
    a.covers c = true :=
  (coversIff a c).2 fun x => ((coversIff a b).1 h x).trans ((coversIff b c).1 k x)

def takeOut? (g : ColumnGroup) : List ColumnGroup → Option (List ColumnGroup)
  | [] => none
  | h :: rest => if h.covers g then some rest else (takeOut? g rest).map (h :: ·)

def sameGroups : List ColumnGroup → List ColumnGroup → Bool
  | [], right => right.isEmpty
  | g :: left, right =>
    match takeOut? g right with
    | some rest => sameGroups left rest
    | none => false

/-- The last group moves to the place from which one is taken out. -/
def swapOut (i : Nat) (groups : List ColumnGroup) : List ColumnGroup :=
  match groups.getLast? with
  | some last => (groups.set i last).dropLast
  | none => []

def pairOff : List ColumnGroup → List ColumnGroup → Bool
  | [], _ => true
  | g :: left, unmatched =>
    match unmatched.findIdx? (·.covers g) with
    | some i => pairOff left (swapOut i unmatched)
    | none => false

/-- Compares as `sameGroups` does, with the lengths first and without keeping the order of what is left. -/
def scanGroups (left right : List ColumnGroup) : Bool := left.length = right.length && pairOff left right

end ColumnGroup

end LiveSchema
