import Linewise.CommandLine.CheckFixtures
import Linewise.CommandLine.Compile
import Linewise.Execution.Commands
import Linewise.Main
import Linewise.Pattern
import Linewise.Proofs.BlockAlignment
import Linewise.Proofs.DeclarationLanguage
import Linewise.Proofs.EntryDetection
import Linewise.Proofs.FixtureIndependence
import Linewise.Proofs.LastToken
import Linewise.Proofs.LayoutEdits
import Linewise.Proofs.LineByLine
import Linewise.Proofs.LiteralEnd
import Linewise.Proofs.LiveCall
import Linewise.Proofs.PassBounds
import Linewise.Proofs.PositionalArguments
import Linewise.Proofs.PrintLanguage
import Linewise.Proofs.PrintedText
import Linewise.Proofs.RulePriority
import Linewise.Proofs.SignatureLanguage
import Linewise.Proofs.Subset
import Linewise.Proofs.TopLevelCommas
