import Spreadsheet.Main
import Spreadsheet.Proofs.AddressText
import Spreadsheet.Proofs.Assignments
import Spreadsheet.Proofs.ByteScan
import Spreadsheet.Proofs.ConditionalSum
import Spreadsheet.Proofs.Cursor
import Spreadsheet.Proofs.Depth
import Spreadsheet.Proofs.FiniteResult
import Spreadsheet.Proofs.GivingUp
import Spreadsheet.Proofs.Iterations
import Spreadsheet.Proofs.LeadingNumber
import Spreadsheet.Proofs.LetterCase
import Spreadsheet.Proofs.NameSearch
import Spreadsheet.Proofs.Normalize
import Spreadsheet.Proofs.Outcome
import Spreadsheet.Proofs.OwnText
import Spreadsheet.Proofs.Parser.Fault
import Spreadsheet.Proofs.Precedents
import Spreadsheet.Proofs.Preview
import Spreadsheet.Proofs.RangeText
import Spreadsheet.Proofs.Reentry
import Spreadsheet.Proofs.Reference
import Spreadsheet.Proofs.Refusal
import Spreadsheet.Proofs.RepeatedNames
import Spreadsheet.Proofs.Resolver
import Spreadsheet.Proofs.Seek
import Spreadsheet.Proofs.Selection
import Spreadsheet.Proofs.Shadow
import Spreadsheet.Proofs.Shift
import Spreadsheet.Proofs.Solution
import Spreadsheet.Proofs.Statistics
import Spreadsheet.Proofs.Stored
import Spreadsheet.Proofs.Strict
import Spreadsheet.Proofs.Unread
import Spreadsheet.Proofs.WatchList
import Spreadsheet.Proofs.WholeRounding
import Spreadsheet.Proofs.Word
import Spreadsheet.Sheet.Document
import Spreadsheet.Sheet.InPlace
import Spreadsheet.Sheet.Statistics
