import OptionDefaults.Text.Bytes
import OptionDefaults.Text.Lines
import OptionDefaults.Text.Position
import OptionDefaults.Text.Quoted
import OptionDefaults.Numeric.Decimal
import OptionDefaults.Numeric.Shortest
import OptionDefaults.Json.Alike
import OptionDefaults.Json.Reader
import OptionDefaults.Document.Reader
import OptionDefaults.Policy.WireForm
import OptionDefaults.Table.Reader
import OptionDefaults.Table.Builtin
import OptionDefaults.Resolution.Pass
import OptionDefaults.Annotation.Completed
import OptionDefaults.Pattern.Support
import OptionDefaults.Log.FieldValue
import OptionDefaults.Log.Filter
import OptionDefaults.Log.Line
import OptionDefaults.CommandLine.Run
import OptionDefaults.Main
import OptionDefaults.Proofs.Convergence
import OptionDefaults.Proofs.Explanations
import OptionDefaults.Proofs.Reordering
import OptionDefaults.Proofs.Additions
import OptionDefaults.Proofs.Scalars
import OptionDefaults.Proofs.WrittenValues
import OptionDefaults.Proofs.AcceptedValues
import OptionDefaults.Proofs.FilledValues
import OptionDefaults.Proofs.DocumentText
import OptionDefaults.Proofs.Comments
import OptionDefaults.Proofs.CommentPlaces
import OptionDefaults.Proofs.NotesByKey
import OptionDefaults.Proofs.WrittenOut
import OptionDefaults.Proofs.Dependence
import OptionDefaults.Proofs.Slices
import OptionDefaults.Proofs.RegionFlow
import OptionDefaults.Proofs.DefinedOptions
import OptionDefaults.Proofs.KeyOrder
import OptionDefaults.Proofs.OwnOutput
import OptionDefaults.Proofs.ForwardReferences
import OptionDefaults.Proofs.PolicyForms
import OptionDefaults.Proofs.Replay
import OptionDefaults.Proofs.DescriptorForms
import OptionDefaults.Proofs.ObjectTexts
import OptionDefaults.Proofs.AcceptedTables
