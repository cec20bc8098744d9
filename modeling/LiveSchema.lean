import LiveSchema.Main
import LiveSchema.Statement.RowChange
import LiveSchema.Proofs.Observation
import LiveSchema.Proofs.Requests
import LiveSchema.Proofs.CopiedRows
import LiveSchema.Proofs.Database
import LiveSchema.Proofs.BackupSafety
import LiveSchema.Proofs.CopyBeforeDrop
import LiveSchema.Proofs.ColumnCase
import LiveSchema.Proofs.ArithmeticText
import LiveSchema.Proofs.ArithmeticValue
import LiveSchema.Proofs.ArithmeticMeaning
import LiveSchema.Proofs.ItemCuts
import LiveSchema.Proofs.ColumnText
import LiveSchema.Proofs.StoredDefinition
import LiveSchema.Proofs.EndedTraces
import LiveSchema.Proofs.GroupMatching
import LiveSchema.Proofs.ChangeEffects
import LiveSchema.Proofs.Settled
import LiveSchema.Proofs.SettledUpdates
import LiveSchema.Proofs.FixedPoint
import LiveSchema.Proofs.Undone
import LiveSchema.Proofs.Phrases
import LiveSchema.Proofs.Grouping
import LiveSchema.Proofs.PhraseText
import LiveSchema.Proofs.ConditionText
import LiveSchema.Proofs.TestedItems
import LiveSchema.Proofs.Examine
import LiveSchema.Proofs.InPlaceTransaction
import LiveSchema.Proofs.ForeignIndices
import LiveSchema.Proofs.Nodes
import LiveSchema.Proofs.MisusedCalls
import LiveSchema.Proofs.LiteralText
import LiveSchema.Proofs.Spelling
import LiveSchema.Proofs.CommentMarkers
import LiveSchema.Proofs.LiteralLists
import LiveSchema.Proofs.Placeholders
import LiveSchema.Proofs.NameLists
import LiveSchema.Proofs.TableConstraints
import LiveSchema.Proofs.IndexDefinition
import LiveSchema.Proofs.IndexLists
import LiveSchema.Proofs.ReadColumns
import LiveSchema.Proofs.AllSchemas
import LiveSchema.Proofs.CarriedRows
import LiveSchema.Proofs.FirstFailure
import LiveSchema.Proofs.ReadOnlyRefusals
import LiveSchema.Proofs.AddedUniques
import LiveSchema.Proofs.LeftBackup
import LiveSchema.Proofs.ReportedChanges
import LiveSchema.Proofs.NullComparisons
import LiveSchema.Proofs.DecimalText
import LiveSchema.Proofs.ShortestDecimal
import LiveSchema.Proofs.NumberKinds
import LiveSchema.Proofs.EscapedText
import LiveSchema.Proofs.DialectAgreement
import LiveSchema.Proofs.FieldOptions
import LiveSchema.Proofs.DeclaredModels
import LiveSchema.Proofs.ColumnsByField
import LiveSchema.Proofs.OptionOrder
import LiveSchema.Proofs.Outcomes
import LiveSchema.Proofs.ResultForms
import LiveSchema.Proofs.InsertSteps
import LiveSchema.Proofs.KeyConstraints
import LiveSchema.Proofs.SelectSteps
import LiveSchema.Proofs.GroupPairing
import LiveSchema.Proofs.ItemDivision
import LiveSchema.Proofs.TimestampOrder
import LiveSchema.Proofs.JsonText
import LiveSchema.Proofs.SchemaJson
