import LiveSchema.CopyPlan
import LiveSchema.Definition
/-! Work with a database as a finite tree of requests and replies. A session ends with a result or a
failure, or asks for something and goes on with the reply. The database itself is no part of it: a
session is run against anything that replies. -/
namespace LiveSchema

/-- One cell of a result row. Integers of all widths are one kind; a number of single precision is a
kind of its own. -/
inductive Cell where
  | null
  | bool (b : Bool)
  | int (n : Int64)
  | float (x : Binary64)
  | single (x : Binary32)
  | text (s : String)
  | blob (bytes : List UInt8)
  deriving DecidableEq, Repr

abbrev Row := List Cell

inductive Reply where
  | failed (report : String)
  | answered (rows : List Row) (affected : Nat)
  deriving DecidableEq, Repr

inductive TransactionStep where
  | start
  | commit
  | rollback
  deriving DecidableEq, Repr

def TransactionStep.name : TransactionStep → String
  | .start => "begin"
  | .commit => "commit"
  | .rollback => "rollback"

inductive CatalogQuery where
  | presence (name : String)
  | entry (name : String)
  | entries
  | indices (table : String)
  deriving DecidableEq, Repr

inductive Purpose where
  | catalog (q : CatalogQuery)
  | change (c : Change)
  | copy (p : CopyPlan)
  | command
  deriving DecidableEq, Repr

inductive Request where
  | statement (purpose : Purpose) (sql : String) (arguments : List Value)
  | transaction (step : TransactionStep)
  deriving DecidableEq, Repr

inductive Failure where
  | render (e : RenderError)
  | schema (e : SchemaError)
  | execution (sql report : String)
  | undecodable (sql : String)
  | columnCount (actual : Nat)
  | noRows
  | undecodableCell (index : Nat)
  | transaction (step : TransactionStep) (report : String)
  | mismatch (name : String)
  | pendingBackup (table backup : String)
  | noBackup (backup : String)
  deriving DecidableEq, Repr

def Failure.message : Failure → String
  | .render e => e.message
  | .schema e => e.message
  | .execution sql report => s!"Failed to execute '{sql}': error returned from database: {report}"
  | .undecodable sql => s!"Failed to execute '{sql}': unexpected result columns"
  | .columnCount actual => s!"Expected 1 result column(s), got {actual}"
  | .noRows => "No result rows were returned by the statement"
  | .undecodableCell index => s!"Cannot decode result column {index}"
  | .transaction step report =>
    s!"Failed to {step.name} transaction: error returned from database: {report}"
  | .mismatch name => s!"Schema mismatch: '{name}' is a table but the model declares a view"
  | .pendingBackup table backup =>
    s!"Backup table '{backup}' of '{table}' is left from an interrupted rebuild; " ++
      "restore or discard it first"
  | .noBackup backup => s!"No backup table '{backup}'"

inductive Session (α : Type) where
  | done (a : α)
  | fail (e : Failure)
  | ask (r : Request) (next : Reply → Session α)

namespace Session

variable {α β σ : Type}

def bind : Session α → (α → Session β) → Session β
  | .done a, f => f a
  | .fail e, _ => .fail e
  | .ask r next, f => .ask r fun reply => (next reply).bind f

instance : Monad Session where
  pure := .done
  bind := bind

/-- The same requests with the failure as a result, so that the session can go on after it. -/
def outcome : Session α → Session (Except Failure α)
  | .done a => .done (.ok a)
  | .fail e => .done (.error e)
  | .ask r next => .ask r fun reply => (next reply).outcome

def ofExcept {ε : Type} (cause : ε → Failure) : Except ε α → Session α
  | .ok a => .done a
  | .error e => .fail (cause e)

def run (respond : σ → Request → σ × Reply) : Session α → σ → Except Failure α × σ
  | .done a, s => (.ok a, s)
  | .fail e, s => (.error e, s)
  | .ask r next, s => (next (respond s r).2).run respond (respond s r).1

theorem runSeq (respond : σ → Request → σ × Reply) (p : Session α) (f : α → Session β) (s : σ) :
    (p.bind f).run respond s =
      match p.run respond s with
      | (.ok a, t) => (f a).run respond t
      | (.error e, t) => (.error e, t) := by
  induction p generalizing s with
  | done a => rfl
  | fail e => rfl
  | ask r next ih => exact ih _ _

theorem runOutcome (respond : σ → Request → σ × Reply) (p : Session α) (s : σ) :
    p.outcome.run respond s = (.ok (p.run respond s).1, (p.run respond s).2) := by
  induction p generalizing s with
  | done a => rfl
  | fail e => rfl
  | ask r next ih => exact ih _ _

def send (purpose : Purpose) (sql : String) (arguments : List Value) : Session (List Row × Nat) :=
  .ask (.statement purpose sql arguments) fun
    | .failed report => .fail (.execution sql report)
    | .answered rows affected => .done (rows, affected)

def transactionStep (step : TransactionStep) : Session Unit :=
  .ask (.transaction step) fun
    | .failed report => .fail (.transaction step report)
    | .answered .. => .done ()

def inTransaction (body : Session α) : Session α := do
  transactionStep .start
  match ← body.outcome with
  | .ok a =>
    transactionStep .commit
    return a
  | .error e =>
    transactionStep .rollback
    .fail e

def change (d : Dialect) (c : Change) : Session Unit := do
  let sql ← ofExcept .render (c.sql d)
  let _ ← send (.change c) sql []

def changes (d : Dialect) : List Change → Session Unit
  | [] => .done ()
  | c :: rest => do
    change d c
    changes d rest

end Session

structure Script where
  replies : List Reply
  log : List Request := []
  deriving DecidableEq, Repr

def Script.respond (s : Script) (r : Request) : Script × Reply :=
  match s.replies with
  | [] => ({ s with log := s.log ++ [r] }, .answered [] 0)
  | reply :: rest => (⟨rest, s.log ++ [r]⟩, reply)

end LiveSchema
