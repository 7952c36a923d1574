import BinaryRecord.Command.Options
import BinaryRecord.Command.Run
import BinaryRecord.Definition
import BinaryRecord.Definition.Grammar
import BinaryRecord.Definition.Reading
import BinaryRecord.Field
import BinaryRecord.Folder
import BinaryRecord.Host
import BinaryRecord.Host.ListingOrder
import BinaryRecord.Host.Literal
import BinaryRecord.Host.Standard
import BinaryRecord.Json
import BinaryRecord.Json.Reader
import BinaryRecord.Json.Reading
import BinaryRecord.Main
import BinaryRecord.Name
import BinaryRecord.Packing
import BinaryRecord.Record
import BinaryRecord.Record.Build
import BinaryRecord.Record.Declaration
import BinaryRecord.Record.Document
import BinaryRecord.RowTable
import BinaryRecord.Storage.Entry
import BinaryRecord.Storage.Tree
import BinaryRecord.Text.Character
import BinaryRecord.Text.Encoding
import BinaryRecord.Text.Lines
import BinaryRecord.Text.Pattern
import BinaryRecord.Text.Run
import BinaryRecord.Text.Trimming
import BinaryRecord.Text.Utf8
import BinaryRecord.Proofs.Appending
import BinaryRecord.Proofs.BrokenRuns
import BinaryRecord.Proofs.Building
import BinaryRecord.Proofs.ContinuedPacking
import BinaryRecord.Proofs.DefinitionFaults
import BinaryRecord.Proofs.DefinitionForm
import BinaryRecord.Proofs.DefinitionLines
import BinaryRecord.Proofs.Documents
import BinaryRecord.Proofs.DuplicateRecords
import BinaryRecord.Proofs.EntryNames
import BinaryRecord.Proofs.FieldIdentifiers
import BinaryRecord.Proofs.FileNames
import BinaryRecord.Proofs.FlagIndependence
import BinaryRecord.Proofs.FolderChanges
import BinaryRecord.Proofs.FolderRecords
import BinaryRecord.Proofs.FolderRowTables
import BinaryRecord.Proofs.Identifiers
import BinaryRecord.Proofs.LoadedDefinitions
import BinaryRecord.Proofs.Packing
import BinaryRecord.Proofs.PackingCuts
import BinaryRecord.Proofs.PackingFaults
import BinaryRecord.Proofs.RecordFields
import BinaryRecord.Proofs.RecordFiles
import BinaryRecord.Proofs.RecordNames
import BinaryRecord.Proofs.RecordRuns
import BinaryRecord.Proofs.RejectedRecords
import BinaryRecord.Proofs.Rejections
import BinaryRecord.Proofs.Renaming
import BinaryRecord.Proofs.RenamingPass
import BinaryRecord.Proofs.RenamingRounds
import BinaryRecord.Proofs.RowNames
import BinaryRecord.Proofs.RowTables
import BinaryRecord.Proofs.SnakeCase
import BinaryRecord.Proofs.SnakeForm
import BinaryRecord.Proofs.SourceText
import BinaryRecord.Proofs.StructLines
import BinaryRecord.Proofs.WrittenRecords
import BinaryRecord.Proofs.WrittenRowTables
