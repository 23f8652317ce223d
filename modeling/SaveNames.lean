import SaveNames.StoredNames.Operation
import SaveNames.Command.Run
import SaveNames.Main
import SaveNames.Proofs.Slots
import SaveNames.Proofs.Units
import SaveNames.Proofs.Codes
import SaveNames.Proofs.Reading
import SaveNames.Proofs.Writing
import SaveNames.Proofs.Greedy
import SaveNames.Proofs.Outcome
import SaveNames.Proofs.RoundTrip
import SaveNames.Proofs.Padding
import SaveNames.Proofs.DecimalPoint
import SaveNames.Proofs.Canonical
import SaveNames.Proofs.Hex
import SaveNames.Proofs.StoredNames.Fields
import SaveNames.Proofs.StoredNames.PaddingStyle
import SaveNames.Proofs.StoredNames.Reachable
import SaveNames.Proofs.StoredNames.Revert
import SaveNames.Proofs.StoredNames.Setters
import SaveNames.Proofs.StoredNames.DefaultName
import SaveNames.Proofs.StoredNames.StyleHistory
import SaveNames.Proofs.StoredNames.Independence
import SaveNames.Proofs.StoredNames.Caps
import SaveNames.Proofs.Command.Lines
import SaveNames.Proofs.Command.Pipeline
import SaveNames.Proofs.Concatenation
import SaveNames.Proofs.DanglingLead
import SaveNames.Proofs.WrittenBytes
import SaveNames.Proofs.ReplacedText
import SaveNames.Proofs.ReplacedBytes
import SaveNames.Proofs.StoredNames.WriteBack
import SaveNames.Proofs.HexGrammar
import SaveNames.Proofs.InPlace
import SaveNames.Proofs.StoredNames.InPlace
import SaveNames.Proofs.Command.Parts
import SaveNames.Proofs.Command.Precedence
import SaveNames.Proofs.LeastKey
import SaveNames.Proofs.Partition
import SaveNames.Proofs.Resynchronisation
import SaveNames.Proofs.Json.Grammar
import SaveNames.Proofs.Json.Parser
import SaveNames.Proofs.Json.Printer
import SaveNames.Proofs.SettingsFile
