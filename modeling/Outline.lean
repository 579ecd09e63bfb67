import Outline.Main
import Outline.Proofs.Walks
import Outline.Proofs.LineOrigins
import Outline.Proofs.CallLines
import Outline.Proofs.LineLimits
import Outline.Proofs.ComponentAssembly
import Outline.Proofs.ConfigFiles
import Outline.Proofs.CommandRuns
import Outline.Proofs.SupportedFiles
import Outline.Proofs.ScanFailures
import Outline.Proofs.ScanOutput
import Outline.Proofs.ScanAfterInit
import Outline.Proofs.TemplateTags
import Outline.Proofs.FileOutcomes
import Outline.Proofs.NamedPlaces
import Outline.Proofs.MethodPatterns
import Outline.Proofs.MethodScan
import Outline.Proofs.ComponentMethods
import Outline.Proofs.CommentedSheets
import Outline.Proofs.LineLocality
import Outline.Proofs.PriorityOrder
import Outline.Proofs.Annotations
import Outline.Proofs.ConfigOverlay
import Outline.Proofs.JsonReader
import Outline.Proofs.RegistryLookup
import Outline.Proofs.CaseFolding
import Outline.Proofs.ComponentNames
import Outline.Proofs.InsightBlocks
import Outline.Proofs.RelativePaths
import Outline.Proofs.GlobEndings
import Outline.Proofs.MinifiedFiles
import Outline.Proofs.DeclaratorChains
