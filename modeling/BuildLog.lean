import BuildLog.About
import BuildLog.Main
import BuildLog.Proofs.ChangedSettings
import BuildLog.Proofs.ExactNames
import BuildLog.Proofs.KnownTools
import BuildLog.Proofs.WordRows
import BuildLog.Proofs.RulesOnTokens
import BuildLog.Proofs.ArgumentRun
import BuildLog.Proofs.JoinedLines
import BuildLog.Proofs.WrittenEntries
import BuildLog.Proofs.BuiltinArguments
import BuildLog.Proofs.TrialOrder
import BuildLog.Proofs.QueryTokens
import BuildLog.Proofs.WrittenTokens
import BuildLog.Proofs.CommandCuts
import BuildLog.Proofs.InstalledTools
import BuildLog.Proofs.QueryLine
import BuildLog.Proofs.QueryTool
import BuildLog.Proofs.RecordFaults
import BuildLog.Proofs.ReportCounts
import BuildLog.Proofs.ProjectPaths
import BuildLog.Proofs.UnparsedReports
import BuildLog.Proofs.FilePaths
import BuildLog.Proofs.WorkerPool
import BuildLog.Proofs.EncodedTexts
import BuildLog.Proofs.WrittenJson
import BuildLog.Proofs.KeptSettings
import BuildLog.Proofs.Detours
import BuildLog.Proofs.ResolvedPaths
import BuildLog.Proofs.DrivePaths
import BuildLog.Proofs.LongForms
import BuildLog.Proofs.RecordShapes
import BuildLog.Proofs.RuleOrder
import BuildLog.Proofs.ValueSpellings
import BuildLog.Proofs.QuotedArguments
import BuildLog.Proofs.DefinedNames
import BuildLog.Proofs.SingleFindings
import BuildLog.Proofs.RegularPatterns
import BuildLog.Proofs.LiteralNames
import BuildLog.Proofs.ExtendedNames
import BuildLog.Proofs.SplitTexts
import BuildLog.Proofs.LoadedSettings
import BuildLog.Proofs.OptionSettings
import BuildLog.Proofs.ShortNames
