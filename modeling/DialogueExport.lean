import DialogueExport.Main
import DialogueExport.Proofs.Text.ByteOrder
import DialogueExport.Proofs.LineTable.Rows
import DialogueExport.Proofs.Scan.Deliveries
import DialogueExport.Proofs.Scan.Position
import DialogueExport.Proofs.Scan.Speaker
import DialogueExport.Proofs.LineTable.Origin
import DialogueExport.Proofs.Csv.RoundTrip
import DialogueExport.Proofs.Scan.Emitted
import DialogueExport.Proofs.LineTable.Completeness
import DialogueExport.Proofs.LineTable.Failure
import DialogueExport.Proofs.Export.OneFile
import DialogueExport.Proofs.Export.FirstFailure
import DialogueExport.Proofs.FilePath.Output
import DialogueExport.Proofs.FileSystem.Places
import DialogueExport.Proofs.Export.Isolation
import DialogueExport.Proofs.Json.Steps
import DialogueExport.Proofs.Json.Printed
import DialogueExport.Proofs.Program.RoundTrip
import DialogueExport.Proofs.LineTable.ByTag
import DialogueExport.Proofs.Scan.Effective
import DialogueExport.Proofs.Inspection.Agreement
import DialogueExport.Proofs.Scan.Repeats
import DialogueExport.Proofs.Scan.Options
import DialogueExport.Proofs.Scan.Capture
import DialogueExport.Proofs.CommandLine.Checks
import DialogueExport.Proofs.Direction.Grammar
import DialogueExport.Proofs.Export.UntaggedReport
import DialogueExport.Proofs.Json.Grammar
import DialogueExport.Proofs.Json.Tokens
import DialogueExport.Proofs.Json.Skipped
import DialogueExport.Proofs.Json.Extent
import DialogueExport.Proofs.Program.Extent
import DialogueExport.Proofs.Json.Found
import DialogueExport.Proofs.Json.Layout
import DialogueExport.Proofs.Program.Layout
import DialogueExport.Proofs.Program.Loading
import DialogueExport.Proofs.Program.WrittenForm
import DialogueExport.Proofs.LineTable.Rearrangement
import DialogueExport.Proofs.LineTable.Warnings
import DialogueExport.Proofs.LineTable.Recast
