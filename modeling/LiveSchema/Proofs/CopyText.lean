import LiveSchema.CopyPlan
import LiveSchema.Proofs.StatementText
/-! The text of the statement that copies rows: what it selects of the old table, and the columns of the new one that
this is for. It can always be written. -/
namespace LiveSchema
open Rendering

def CopySource.text (d : Dialect) (column : String) : CopySource → String
  | .column => d.mask column
  | .columnOr fill => "COALESCE(" ++ d.mask column ++ "," ++ d.literal fill ++ ")"
  | .fixed fill => d.literal fill

def CopyPlan.query (d : Dialect) (p : CopyPlan) : String :=
  "SELECT " ++ Text.joinWith ", " (p.columns.map fun c => c.2.text d c.1) ++ " FROM " ++ p.source

def CopyPlan.text (d : Dialect) (p : CopyPlan) : String :=
  "INSERT INTO " ++ p.target ++ " (" ++ d.maskAll (p.columns.map (·.1)) ++ ") " ++ p.query d

section
variable {d : Dialect} {p : CopyPlan}

namespace CopyPlan

def lexemesOf (column : String) : CopySource → List Lexeme
  | .column => [.name column]
  | .columnOr fill => [.word "COALESCE", .openParen, .name column, .comma, .literal fill, .closeParen]
  | .fixed fill => [.literal fill]

theorem sourceText (column : String) (source : CopySource) :
    (expression column source).compile d = pure (source.text d column) := by
  have rendered : (expression column source).render d = of (lexemesOf column source) := by cases source <;> rfl
  have text : Lexeme.textAll d (lexemesOf column source) = source.text d column := by
    rw [← String.toList_inj]
    cases source <;> simp [lexemesOf, Lexeme.textAll, Lexeme.text, CopySource.text]
  rw [Expr.compile, rendered, resultOf, text]

theorem selectText (d : Dialect) (p : CopyPlan) : p.select.prepare d =
    pure ("SELECT " ++ columnText (p.columns.map fun c => c.2.text d c.1) ++ " FROM " ++ p.source) := by
  have texts : p.select.columns.mapM (·.compile d) = pure (p.columns.map fun c => c.2.text d c.1) := by
    change (p.columns.map fun c => expression c.1 c.2).mapM _ = _
    rw [List.mapM_map]
    simp only [Function.comp_def, sourceText]
    exact List.mapM_pure
  rw [Select.prepared, texts]
  simp [select, Select.fromTable, Select.addColumns, clauseText, listText, tableText, String.append_assoc]

theorem queryText (filled : p.columns ≠ []) : p.select.prepare d = pure (p.query d) := by
  rw [selectText, columnText, if_neg (by simpa using filled)]
  rfl

theorem insertText (d : Dialect) (p : CopyPlan) (query : String) :
    ({ table := p.target : Insert }.fromQuery (p.columns.map (·.1)) query).prepare d =
      pure ("INSERT INTO " ++ p.target ++ " (" ++ d.maskAll (p.columns.map (·.1)) ++ ")" ++ (" " ++ query) ++ "") :=
  Insert.prepared d _

theorem copyText (filled : p.columns ≠ []) : p.sql d = pure (p.text d) := by
  have closed : p.text d = "INSERT INTO " ++ p.target ++ " (" ++ d.maskAll (p.columns.map (·.1)) ++ (")" ++ " ") ++
      p.query d := rfl
  rw [CopyPlan.sql, queryText filled, pure_bind, insertText, closed]
  simp only [String.append_assoc, String.append_empty]

def lists (p : CopyPlan) : CopyLists where
  targets := p.columns.map (·.1)
  sources := p.columns.map fun c => expression c.1 c.2
  copied := p.copiedColumns
  filled := p.filledColumns

theorem columnEntered (live : Table) (l : CopyLists) (c : Column) :
    l.enter d live c = (sourceOf? d live c).elim l fun source => {
      targets := l.targets ++ [c.name]
      sources := l.sources ++ [expression c.name source]
      copied := l.copied ++ if isFixed source then [] else [c.name]
      filled := l.filled ++ if isFixed source then [c.name] else [] } := by
  unfold CopyLists.enter sourceOf?
  cases live.column? c.name with
  | some previous =>
    dsimp only
    split <;> simp [CopyLists.push, isFixed, expression]
  | none =>
    dsimp only
    split <;> simp [CopyLists.push, isFixed, expression]

theorem listsNext (m : Model) (live : Table) (columns : List Column) (c : Column) :
    (ofModel d { m with columns } live).lists.enter d live c =
      (ofModel d { m with columns := columns ++ [c] } live).lists := by
  rw [columnEntered]
  unfold lists copiedColumns filledColumns ofModel
  cases found : sourceOf? d live c with
  | none => simp [found]
  | some source => cases source <;> simp [found, isFixed]

theorem listsGathered (d : Dialect) (m : Model) (live : Table) :
    CopyLists.ofModel d m live = (ofModel d m live).lists :=
  foldReads (listsNext m live) m.columns

end CopyPlan

theorem copyWritten (p : CopyPlan) : ∃ sql, p.sql .sqlite = .ok sql := by
  rw [CopyPlan.sql, CopyPlan.selectText]
  exact ⟨_, CopyPlan.insertText .sqlite p _⟩

end

end LiveSchema
