import Worksheet.Log.Throttle
import Worksheet.Main
import Worksheet.Range
import Worksheet.Proofs.Completeness
import Worksheet.Proofs.Order
import Worksheet.Proofs.Parsing
import Worksheet.Proofs.Dependents
import Worksheet.Proofs.Eager
import Worksheet.Proofs.Detection
import Worksheet.Proofs.Sums
import Worksheet.Proofs.Frame
import Worksheet.Proofs.Schedule
import Worksheet.Proofs.Totality
import Worksheet.Proofs.Flattening
import Worksheet.Proofs.AddressCodec
import Worksheet.Proofs.PlainCells
import Worksheet.Proofs.Journal
import Worksheet.Proofs.Finiteness
import Worksheet.Proofs.Reports
import Worksheet.Proofs.Requests
import Worksheet.Proofs.Strictness
import Worksheet.Proofs.Mentions
import Worksheet.Proofs.Recalculation
import Worksheet.Proofs.Commands
import Worksheet.Proofs.Literals
import Worksheet.Proofs.FalseReferences
import Worksheet.Proofs.RowSplits
import Worksheet.Proofs.TextEnds
import Worksheet.Proofs.Multiples
import Worksheet.Proofs.MonthEnds
import Worksheet.Proofs.Clocks
import Worksheet.Proofs.Comparisons
import Worksheet.Proofs.NumberTexts
import Worksheet.Proofs.DamagedLines
import Worksheet.Proofs.LineBreaks
import Worksheet.Proofs.TornLines
import Worksheet.Proofs.JournalTails
import Worksheet.Proofs.Overrides
import Worksheet.Proofs.Truncation
