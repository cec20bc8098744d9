import LiveSchema.Session.Basic
/-! Results of statements. The cells of a row become values one by one; a scalar or a set is read from
rows of exactly one column. -/
namespace LiveSchema

/-- A number of single precision has no value here. -/
def Cell.value? : Cell → Option Value
  | .null => some .null
  | .bool b => some (.bool b)
  | .int n => some (.int n)
  | .float x => some (.float x)
  | .single _ => none
  | .text s => some (.text s)
  | .blob bytes => some (.blob bytes)

namespace Row

def valuesFrom : Nat → Row → Except Failure (List Value)
  | _, [] => .ok []
  | index, cell :: rest =>
    match cell.value? with
    | some v => (valuesFrom (index + 1) rest).map (v :: ·)
    | none => .error (.undecodableCell index)

def values (row : Row) : Except Failure (List Value) := valuesFrom 0 row

def single (row : Row) : Except Failure Value :=
  match row with
  | [cell] =>
    match cell.value? with
    | some v => .ok v
    | none => .error (.undecodableCell 0)
  | _ => .error (.columnCount row.length)

end Row

namespace Rows

def all (rows : List Row) : Except Failure (List (List Value)) := rows.mapM Row.values

def scalar (rows : List Row) : Except Failure Value :=
  match rows with
  | [] => .error .noRows
  | row :: _ => row.single

def set (rows : List Row) : Except Failure (List Value) := rows.mapM Row.single

end Rows

/-- The form in which an argument reaches the database, which has no type for times. -/
def Value.bound : Value → Value
  | .timestamp t => .text t.text
  | v => v

namespace Session

def command (sql : String) (arguments : List Value) : Session (List Row × Nat) :=
  send .command sql (arguments.map Value.bound)

def execute (sql : String) (arguments : List Value) : Session Nat := do
  return (← command sql arguments).2

def fetchAll (sql : String) (arguments : List Value) : Session (List (List Value)) := do
  ofExcept id (Rows.all (← command sql arguments).1)

def scalar (sql : String) (arguments : List Value) : Session Value := do
  ofExcept id (Rows.scalar (← command sql arguments).1)

def set (sql : String) (arguments : List Value) : Session (List Value) := do
  ofExcept id (Rows.set (← command sql arguments).1)

end Session

end LiveSchema
