import CypherCompose.Text.Identifier
import CypherCompose.Text.Literal
import CypherCompose.Text.Lowercase
import CypherCompose.Text.Blank
import CypherCompose.Text.Printable
import CypherCompose.Decimal.Shortest
import CypherCompose.Value.Basic
import CypherCompose.Value.Equality
import CypherCompose.Error
import CypherCompose.Parameter.Registry
import CypherCompose.Expr.Render
import CypherCompose.Session
import CypherCompose.Builder
import CypherCompose.Statement
import CypherCompose.Mutation
import CypherCompose.Connection
import CypherCompose.Log.Journal
import CypherCompose.Proofs.Scan
import CypherCompose.Proofs.Fragment
import CypherCompose.Proofs.Induction
import CypherCompose.Proofs.Enclosure
import CypherCompose.Proofs.Lexeme
import CypherCompose.Proofs.Grammar
import CypherCompose.Proofs.Levels
import CypherCompose.Proofs.Brackets
import CypherCompose.Proofs.Structure
import CypherCompose.Proofs.Drafts
import CypherCompose.Proofs.Normal
import CypherCompose.Proofs.Arithmetic
import CypherCompose.Proofs.Regrouping
import CypherCompose.Proofs.Leaves
import CypherCompose.Proofs.Trace
import CypherCompose.Proofs.ClauseTrace
import CypherCompose.Proofs.Quoting
import CypherCompose.Proofs.Recording
import CypherCompose.Proofs.ParameterTable
import CypherCompose.Proofs.ClauseGrammar
import CypherCompose.Proofs.Acceptance
import CypherCompose.Proofs.AccessModes
import CypherCompose.Proofs.Granting
import CypherCompose.Proofs.Composition
import CypherCompose.Proofs.Noninterference
import CypherCompose.Proofs.Redaction
import CypherCompose.Proofs.Routing
import CypherCompose.Proofs.TableHistory
import CypherCompose.Proofs.Writing
import CypherCompose.Proofs.WellTyped
import CypherCompose.Proofs.Blame
import CypherCompose.Proofs.ErrorFamily
import CypherCompose.Proofs.Chunks
import CypherCompose.Proofs.PatternGrammar
import CypherCompose.Proofs.PatternReading
import CypherCompose.Proofs.Flattening
import CypherCompose.Proofs.Folding
import CypherCompose.Proofs.SetLayout
import CypherCompose.Proofs.NameSearch
import CypherCompose.Proofs.FreshNames
import CypherCompose.Proofs.MutationBinding
import CypherCompose.Proofs.MergeCompleteness
import CypherCompose.Proofs.RegistrationOrder
import CypherCompose.Proofs.Groupings
import CypherCompose.Proofs.NameReading
import CypherCompose.Proofs.TakenNames
import CypherCompose.Proofs.Constants
import CypherCompose.Proofs.LiteralReading
import CypherCompose.Proofs.SortKeys
import CypherCompose.Proofs.OrderBy
import CypherCompose.Proofs.ClauseArguments
import CypherCompose.Proofs.Assembly
import CypherCompose.Proofs.MergePatterns
