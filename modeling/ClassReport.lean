import ClassReport.Main
import ClassReport.Proofs.ClassFileLayout
import ClassReport.Proofs.ClassFileRoundTrip
import ClassReport.Proofs.CutClassFiles
import ClassReport.Proofs.SignatureGrammar
import ClassReport.Proofs.FileWriting
import ClassReport.Proofs.CharsetDecoding
import ClassReport.Proofs.DelimitedText
import ClassReport.Proofs.TableWriting
import ClassReport.Proofs.TableHeaders
import ClassReport.Proofs.TableReadBack
import ClassReport.Proofs.RunSteps
import ClassReport.Proofs.RunTables
import ClassReport.Proofs.RunFailures
import ClassReport.Proofs.PackedClasses
import ClassReport.Proofs.PairedRuns
import ClassReport.Proofs.DiscoveryOrder
import ClassReport.Proofs.Verbosity
import ClassReport.Proofs.ConsoleLimit
import ClassReport.Proofs.UnreadableClasses
import ClassReport.Proofs.ParameterAnnotations
import ClassReport.Proofs.GenericMethods
import ClassReport.Proofs.ListedMembers
import ClassReport.Proofs.ModifiedUtf8Scan
import ClassReport.Proofs.WholeTypes
import ClassReport.Proofs.UnreportedEntries
import ClassReport.Proofs.FailedWrites
import ClassReport.Proofs.ClassPaths
import ClassReport.Proofs.ReportOrder
import ClassReport.Proofs.MemberConversion
import ClassReport.Proofs.AnnotationCells
import ClassReport.Proofs.PoolNumbering
import ClassReport.Proofs.AnnotationFields
import ClassReport.Proofs.OptionValues
import ClassReport.Proofs.SignatureScan
