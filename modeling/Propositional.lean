import Propositional.Main
import Propositional.Proofs.Nesting
import Propositional.Proofs.RoundTrip
import Propositional.Proofs.Rows
import Propositional.Proofs.Validity
import Propositional.Proofs.Brackets
import Propositional.Proofs.ErrorPosition
import Propositional.Proofs.ReadBack
import Propositional.Proofs.Updates
import Propositional.Proofs.RowOrder
import Propositional.Proofs.Tables
import Propositional.Proofs.Answers
import Propositional.Proofs.Reports
import Propositional.Proofs.Listing
import Propositional.Proofs.Spelling
import Propositional.Proofs.Models
import Propositional.Proofs.Unmatched
import Propositional.Proofs.BracketErrors
import Propositional.Proofs.Bounds
import Propositional.Proofs.Counting
import Propositional.Proofs.Calls
import Propositional.Proofs.Input
import Propositional.Proofs.Inorder
import Propositional.Proofs.UniqueReading
import Propositional.Proofs.Edits
import Propositional.Proofs.Layout
