import TableCalc.Proofs.Evaluation.Termination
import TableCalc.Proofs.Table.OnDemand
import TableCalc.Proofs.Table.Locality
import TableCalc.Proofs.Table.WellFormed
import TableCalc.Proofs.Table.RootCause
import TableCalc.Proofs.Evaluation.SingleReference
import TableCalc.Proofs.Table.SingleReference
import TableCalc.Proofs.Expression.Lexeme
import TableCalc.Proofs.Evaluation.Inline
import TableCalc.Proofs.Table.Inline
import TableCalc.Proofs.Table.Ceiling
import TableCalc.Proofs.Table.Reader
import TableCalc.Proofs.Evaluation.Quote
import TableCalc.Proofs.Table.Layout
import TableCalc.Proofs.Document
import TableCalc.Proofs.Table.Calls
import TableCalc.Proofs.Evaluation.TwoPhase
import TableCalc.Proofs.Evaluation.Grammar
import TableCalc.Proofs.Evaluation.Frame
import TableCalc.Proofs.Table.Frame
import TableCalc.Proofs.Command
import TableCalc.Proofs.Command.Layout
import TableCalc.Proofs.Evaluation.Trail
import TableCalc.Proofs.Expression.Address
import TableCalc.Proofs.Table.Spelling
import TableCalc.Proofs.Table.Token
import TableCalc.Proofs.Table.LineEndings
