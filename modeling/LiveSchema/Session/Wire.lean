import LiveSchema.Json.Record
import LiveSchema.Json.Writer
import LiveSchema.Reconcile.Difference
import LiveSchema.Session.Basic
/-! Requests, replies and values as JSON, for a database on the other end of a line. Texts, truth values
and NULL stand for themselves; other values are objects whose only key names their kind, with integers in
decimal and bits and bytes in hexadecimal. -/
namespace LiveSchema
open Json Text

def hexText (width n : Nat) : String :=
  let digits := Nat.toDigits 16 n
  String.ofList (List.replicate (width - digits.length) '0' ++ digits)

def hexNat? (s : String) : Option Nat :=
  s.toList.foldlM (fun n c => do return 16 * n + (← hexValue? c)) 0

def hexPairs? : List Char → Option (List UInt8)
  | [] => some []
  | a :: b :: rest => do
    let byte := 16 * (← hexValue? a) + (← hexValue? b)
    return UInt8.ofNat byte :: (← hexPairs? rest)
  | [_] => none

def decimal? (s : String) : Option Int :=
  match s.toList with
  | '-' :: digits => (String.ofList digits).toNat?.map fun n => -(n : Int)
  | '+' :: digits => (String.ofList digits).toNat?.map Int.ofNat
  | _ => s.toNat?.map Int.ofNat

def integer? : Json → Option Int
  | .number n => n.int?
  | _ => none

namespace Timestamp

def json (t : Timestamp) : Json :=
  .array (.int t.year ::
    [t.month, t.day, t.hour, t.minute, t.second, t.nanosecond].map Json.nat)

def ofJson? (j : Json) : Option Timestamp := do
  match ← list? integer? j with
  | [year, month, day, hour, minute, second, nanosecond] =>
    ofFields? year month.toNat day.toNat hour.toNat minute.toNat second.toNat nanosecond.toNat
  | _ => none

end Timestamp

namespace Value

def json : Value → Json
  | .null => .null
  | .bool b => .bool b
  | .int n => .object [("int", .string (toString n.toInt))]
  | .float x => .object [("float", .string (hexText 16 x.bits.toNat))]
  | .text s => .string s
  | .blob bytes =>
    .object [("blob", .string (String.join (bytes.map fun b => hexText 2 b.toNat)))]
  | .timestamp t => .object [("ts", t.json)]

def ofJson? : Json → Option Value
  | .null => some .null
  | .bool b => some (.bool b)
  | .string s => some (.text s)
  | .object [("int", .string n)] => (decimal? n).map fun n => .int (Int64.ofInt n)
  | .object [("float", .string x)] => (hexNat? x).map fun n => .float ⟨UInt64.ofNat n⟩
  | .object [("blob", .string b)] => (hexPairs? b.toList).map .blob
  | .object [("ts", t)] => (Timestamp.ofJson? t).map .timestamp
  | _ => none

end Value

def Cell.ofValue? : Value → Option Cell
  | .null => some .null
  | .bool b => some (.bool b)
  | .int n => some (.int n)
  | .float x => some (.float x)
  | .text s => some (.text s)
  | .blob bytes => some (.blob bytes)
  | .timestamp _ => none

def Cell.ofJson? : Json → Option Cell
  | .object [("int32", .string n)] | .object [("int16", .string n)] =>
    (decimal? n).map fun n => .int (Int64.ofInt n)
  | .object [("real", .string x)] => (hexNat? x).map fun n => .single ⟨UInt32.ofNat n⟩
  | j => (Value.ofJson? j).bind ofValue?

def Reply.ofJson? (j : Json) : Option Reply :=
  match fields? ["error", "rows", "affected"] j with
  | some [error, rows, affected] => do
    match ← optional string? error with
    | some report => return .failed report
    | none =>
      return .answered ((← optional (list? (list? Cell.ofJson?)) rows).getD [])
        (← (← optional string? affected).elim (some 0) String.toNat?)
  | _ => none

def Request.json : Request → Json
  | .statement _ sql arguments =>
    .object [("sql", .string sql), ("args", .array (arguments.map Value.json))]
  | .transaction step => .object [("tx", .string step.name)]

def SchemaUpdate.json : SchemaUpdate → Json
  | .created => .object [("path", .string "created")]
  | .viewReplaced => .object [("path", .string "view_replaced")]
  | .additive r =>
    .object [("path", .string "additive"), ("added_columns", .strings r.addedColumns),
      ("added_uniques", .strings r.addedUniques), ("dropped_indices", .strings r.droppedIndices),
      ("created_indices", .strings r.createdIndices)]
  | .recreated r =>
    .object [("path", .string "recreated"), ("copied_columns", .strings r.copiedColumns),
      ("filled_columns", .strings r.filledColumns), ("dropped_columns", .strings r.droppedColumns),
      ("rows_copied", .nat r.rowsCopied)]

end LiveSchema
