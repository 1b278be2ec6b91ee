import Quorum.Main
import Quorum.Proofs.Ascending
import Quorum.Proofs.Ballot
import Quorum.Proofs.Ballot.Plurality
import Quorum.Proofs.Lagrange
import Quorum.Proofs.Selection
import Quorum.Proofs.Recovery.Reference
import Quorum.Proofs.Recovery.Honest
import Quorum.Proofs.Numeral.Spelling
import Quorum.Proofs.Share
import Quorum.Proofs.Bundle.Entries
import Quorum.Proofs.Recovery.Document
import Quorum.Proofs.Bundle.WellFormed
import Quorum.Proofs.Numeral.Decimal
import Quorum.Proofs.Recovery.Faults
import Quorum.Proofs.Share.Base
import Quorum.Proofs.Json.Grammar
import Quorum.Proofs.Json.Reading
import Quorum.Proofs.Yaml.Loading
import Quorum.Proofs.Yaml.Document
import Quorum.Proofs.Bundle.Reading
import Quorum.Proofs.Bundle.Loading
import Quorum.Proofs.Bundle.Acceptance
import Quorum.Proofs.Bundle.Arrangement
import Quorum.Proofs.Json.Lexeme
import Quorum.Proofs.Json.Text
import Quorum.Proofs.Bundle.Writing
import Quorum.Proofs.Json.Repeats
import Quorum.Proofs.Bundle.Overwriting
import Quorum.Proofs.Data
import Quorum.Proofs.Recovery.Presentation
import Quorum.Proofs.Recovery.Support
import Quorum.Proofs.Bundle.Values
import Quorum.Proofs.Recovery.Reports
import Quorum.Proofs.Recovery.Limit
import Quorum.Proofs.Recovery.File
import Quorum.Proofs.CommandLine.Arguments
import Quorum.Proofs.CommandLine.Response
import Quorum.Proofs.Recovery.Checks
import Quorum.Proofs.Recovery.Bounds
import Quorum.Proofs.Recovery.Symmetry
import Quorum.Proofs.Formula.Grammar
import Quorum.Proofs.Formula.Printing
import Quorum.Proofs.Formula.Operation
import Quorum.Proofs.Formula.Substitution
import Quorum.Proofs.Formula.Template
import Quorum.Proofs.Formula.Malformation
import Quorum.Proofs.Share.Formula
import Quorum.Proofs.Share.Malformation
import Quorum.Proofs.Numeral.Canonical
import Quorum.Proofs.Share.Points
import Quorum.Proofs.Bundle.Respelling
import Quorum.Proofs.Numeral.Literal
import Quorum.Proofs.Numeral.DigitLimit
import Quorum.Proofs.Fault
import Quorum.Proofs.Text.LetterCase
import Quorum.Proofs.Settings
import Quorum.Selection.Search
import Quorum.Proofs.Selection.Search
