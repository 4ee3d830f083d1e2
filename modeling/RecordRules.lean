import RecordRules.Expr.Library
import RecordRules.Main
import RecordRules.Proofs.Condition.Nesting
import RecordRules.Proofs.Grammar.Composition
import RecordRules.Proofs.RuleSet.Fields
import RecordRules.Proofs.Written.Reread
import RecordRules.Session
import RecordRules.Proofs.Number.Order
import RecordRules.Proofs.Value.Comparison
import RecordRules.Proofs.Batch.Lines
import RecordRules.Proofs.Evaluation.ParseErrors
import RecordRules.Proofs.RuleSet.Evaluable
import RecordRules.Proofs.Condition.FirstFault
import RecordRules.Proofs.Value.Arithmetic
import RecordRules.Proofs.Evaluation.ShortCircuit
import RecordRules.Proofs.Evaluation.Membership
import RecordRules.Proofs.Evaluation.Missing
import RecordRules.Proofs.Lexer.Layout
import RecordRules.Proofs.Lexer.Rejection
import RecordRules.Proofs.Condition.Exported
import RecordRules.Proofs.RuleSet.Compilation
import RecordRules.Proofs.RuleSet.Policies
import RecordRules.Proofs.Value.JsonForm
import RecordRules.Proofs.Value.Casts
import RecordRules.Proofs.Session.Registries
import RecordRules.Proofs.Cursor.Agreement
import RecordRules.Proofs.Cursor.Balance
import RecordRules.Proofs.Names.FirstOccurrence
