import ScriptStyle.Main
import ScriptStyle.Proofs.Literal.RequotedValue
import ScriptStyle.Proofs.Edit.Replacing
import ScriptStyle.Proofs.Diagnostic.Merging
import ScriptStyle.Proofs.Scanner.Tiling
import ScriptStyle.Proofs.Scanner.Checkpoints
import ScriptStyle.Proofs.Scanner.Newlines
import ScriptStyle.Proofs.Scanner.TemplatePieces
import ScriptStyle.Proofs.Grammar.Layout.Source
import ScriptStyle.Proofs.Style.FixesTogether
import ScriptStyle.Proofs.Style.SemicolonsAccounted
import ScriptStyle.Proofs.Style.OmittedSemicolons
import ScriptStyle.Proofs.Style.Passes
import ScriptStyle.Proofs.Style.FixingFiles
import ScriptStyle.Proofs.Style.LiteralsShown
import ScriptStyle.Proofs.Style.TemplateLines
import ScriptStyle.Proofs.Report.Failures
import ScriptStyle.Proofs.Grammar.Shape.Source
import ScriptStyle.Proofs.Grammar.ChainStatement
import ScriptStyle.Proofs.Text.LinePositions
import ScriptStyle.Proofs.Grammar.Progress.Source
