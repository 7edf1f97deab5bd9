import CnfAudit.Assignment
import CnfAudit.Assignment.Unassigned
import CnfAudit.Certificate
import CnfAudit.Certificate.Reader
import CnfAudit.CommandLine.Arguments
import CnfAudit.CommandLine.Run
import CnfAudit.Diagnostic
import CnfAudit.Digest
import CnfAudit.FileTree
import CnfAudit.Formula
import CnfAudit.Formula.Header
import CnfAudit.Formula.Source
import CnfAudit.Formula.Stream
import CnfAudit.Input
import CnfAudit.Integer
import CnfAudit.Limits
import CnfAudit.Literal
import CnfAudit.Literal.Order
import CnfAudit.Main
import CnfAudit.Mode
import CnfAudit.Octets
import CnfAudit.Path
import CnfAudit.Proofs.BodyText
import CnfAudit.Proofs.CertificatePass
import CnfAudit.Proofs.CertificateText
import CnfAudit.Proofs.ClauseLines
import CnfAudit.Proofs.ClauseOrder
import CnfAudit.Proofs.CommandRuns
import CnfAudit.Proofs.Consumers
import CnfAudit.Proofs.Consumption
import CnfAudit.Proofs.Diagnostics
import CnfAudit.Proofs.Draining
import CnfAudit.Proofs.Extensions
import CnfAudit.Proofs.FaultLines
import CnfAudit.Proofs.FaultOrigins
import CnfAudit.Proofs.Fields
import CnfAudit.Proofs.FileTrees
import CnfAudit.Proofs.FinishedStreams
import CnfAudit.Proofs.FirstPolarity
import CnfAudit.Proofs.FirstUnsatisfied
import CnfAudit.Proofs.FormulaText
import CnfAudit.Proofs.IntegerTokens
import CnfAudit.Proofs.Interleaving
import CnfAudit.Proofs.LineOrder
import CnfAudit.Proofs.LiteralWords
import CnfAudit.Proofs.Literals
import CnfAudit.Proofs.Modes
import CnfAudit.Proofs.NumberedLines
import CnfAudit.Proofs.OpenVariables
import CnfAudit.Proofs.Placement
import CnfAudit.Proofs.Pulls
import CnfAudit.Proofs.ReadAhead
import CnfAudit.Proofs.ReaderSteps
import CnfAudit.Proofs.Recording
import CnfAudit.Proofs.Rendering
import CnfAudit.Proofs.Renumbering
import CnfAudit.Proofs.ReportText
import CnfAudit.Proofs.SkippedLines
import CnfAudit.Proofs.SparseForm
import CnfAudit.Proofs.SparseReading
import CnfAudit.Proofs.Spelling
import CnfAudit.Proofs.StreamPieces
import CnfAudit.Proofs.StreamStates
import CnfAudit.Proofs.TableLength
import CnfAudit.Proofs.Verified
import CnfAudit.Proofs.Watching
import CnfAudit.Report
import CnfAudit.Report.Given
import CnfAudit.Text.Blank
import CnfAudit.Text.Decimal
import CnfAudit.Text.Digit
import CnfAudit.Text.Hexadecimal
import CnfAudit.Text.Lines
import CnfAudit.Text.Printable
import CnfAudit.Text.Quoted
import CnfAudit.Text.Utf8
import CnfAudit.Validation
import CnfAudit.Verdict
