import LiveSchema.Json.Schemas
import LiveSchema.ModelFile
import LiveSchema.Reconcile.Update
import LiveSchema.Session.Wire
/-! Command line. The database is reached through the standard streams: every request is written as a
line of JSON and answered by one, and the last line is the result. -/
namespace LiveSchema

inductive Task where
  | inspect (name : Option String)
  | exists (name : String)
  | update (path : String)
  | restore (name : String)
  | discardBackup (name : String)
  deriving DecidableEq, Repr

structure Arguments where
  dialect : Dialect
  task : Task
  deriving DecidableEq, Repr

def Task.ofWords? : List String → Option Task
  | ["inspect"] => some (.inspect none)
  | ["inspect", name] => some (.inspect (some name))
  | ["exists", name] => some (.exists name)
  | ["update", path] => some (.update path)
  | ["restore", name] => some (.restore name)
  | ["discard-backup", name] => some (.discardBackup name)
  | _ => none

def Arguments.ofWords? : List String → Option Arguments
  | "--dialect" :: "sqlite" :: rest => (Task.ofWords? rest).map (⟨.sqlite, ·⟩)
  | "--dialect" :: "sqlserver" :: rest => (Task.ofWords? rest).map (⟨.sqlServer, ·⟩)
  | words => (Task.ofWords? words).map (⟨.sqlite, ·⟩)

def usage : String :=
  "usage: [--dialect sqlite|sqlserver] inspect [NAME] | exists NAME | update MODEL | " ++
    "restore NAME | discard-backup NAME"

def writeLine (text : String) : IO Unit := do
  let output ← IO.getStdout
  output.putStrLn text
  output.flush

def readReply : IO Reply := do
  let line ← (← IO.getStdin).getLine
  match (Json.ofText? line).bind Reply.ofJson? with
  | some reply => return reply
  | none => throw (IO.userError "the reply is not understood")

def Session.converse {α : Type} : Session α → IO (Except Failure α)
  | .done a => return .ok a
  | .fail e => return .error e
  | .ask r next => do
    writeLine r.json.text
    (next (← readReply)).converse

def loadModel (path : String) : IO Model := do
  let bytes : Option (List UInt8) ←
    try pure (some (← IO.FS.readBinFile path).toList) catch _ => pure none
  match ModelFile.load bytes with
  | .error .unreadable => throw (IO.userError s!"IO error: {path}")
  | .error .malformed => throw (IO.userError s!"Serialization error: {path}")
  | .ok file =>
    match file.model with
    | .ok m => return m
    | .error e => throw (IO.userError e.message)

def Task.session (d : Dialect) : Task → IO (Session Json)
  | .inspect (some name) => return do return (← Session.readSchema d name).json
  | .inspect none => return do return .array ((← Session.readAllSchemas d).map Schema.json)
  | .exists name => return do return .bool (← Session.objectExists d name)
  | .update path => do
    let m ← loadModel path
    return do return (← Session.update d m).json
  | .restore name => return do
    Session.restoreBackup d name
    return .null
  | .discardBackup name => return do
    Session.discardBackup d name
    return .null

end LiveSchema

open LiveSchema in
def main (words : List String) : IO UInt32 := do
  match Arguments.ofWords? words with
  | none =>
    IO.eprintln usage
    return 2
  | some arguments =>
    match ← (← arguments.task.session arguments.dialect).converse with
    | .ok result =>
      writeLine result.text
      return 0
    | .error e =>
      IO.eprintln e.message
      return 1
