import Ident160.Ident.Arith
import Ident160.Ident.Text
import Ident160.LimbList.Grammar
import Ident160.LimbList.Combinators
import Ident160.Main
import Ident160.Proofs.LimbTokens
import Ident160.Proofs.LimbParsers
import Ident160.Proofs.LimbNotation
import Ident160.Proofs.Positional
import Ident160.Proofs.IdentNumbers
import Ident160.Proofs.HexDecoding
import Ident160.Proofs.IdentReading
import Ident160.Proofs.LineReading
import Ident160.Proofs.LineInvariants
import Ident160.Proofs.OutputFaults
import Ident160.Proofs.LimbArguments
import Ident160.Proofs.FormatLines
import Ident160.Proofs.FormatRuns
import Ident160.Proofs.LimbRendering
import Ident160.Proofs.IdentBits
import Ident160.Proofs.XorMetric
import Ident160.Proofs.Layers
import Ident160.Proofs.SeedRounding
import Ident160.Proofs.VariableValues
import Ident160.Proofs.Decoding
import Ident160.Proofs.EnvironmentSeed
import Ident160.Proofs.SettingPlaces
import Ident160.Proofs.SettingLayers
import Ident160.Proofs.IdentOrder
import Ident160.Proofs.TagCounts
import Ident160.Proofs.SeededDraws
import Ident160.Proofs.Descriptions
import Ident160.Proofs.FileChanges
import Ident160.Proofs.Sessions
import Ident160.Proofs.Findings
import Ident160.Proofs.RunCourses
import Ident160.Proofs.RunTraces
import Ident160.Proofs.Renderings
import Ident160.Proofs.ChosenFileReports
import Ident160.Proofs.SettingsRepair
import Ident160.Proofs.PairedRuns
import Ident160.Proofs.Sums
import Ident160.Proofs.Products
import Ident160.Proofs.Shifts
import Ident160.Proofs.LongDivision
import Ident160.Proofs.BinaryExpansion
import Ident160.Proofs.FirstShapes
import Ident160.Proofs.LimbFaults
import Ident160.Proofs.TextLines
import Ident160.Proofs.DescriptionLines
import Ident160.Proofs.RandomListing
import Ident160.Proofs.LimbProgress
import Ident160.Proofs.CheckedSteps
import Ident160.Proofs.CheckedColumns
import Ident160.Proofs.CheckedPlaces
import Ident160.Proofs.CheckedDivision
