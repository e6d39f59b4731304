import AccessRules.Answers.Basic
import AccessRules.Answers.Shared
import AccessRules.Check.Basic
import AccessRules.Data.Assoc
import AccessRules.Data.SortedMap
import AccessRules.Decimal.Double
import AccessRules.Decimal.Floating
import AccessRules.Decimal.Shortest
import AccessRules.Decision.Failure
import AccessRules.Decision.Plan
import AccessRules.Decision.TwoPhase
import AccessRules.Exchange.Decision
import AccessRules.Exchange.Record
import AccessRules.Exchange.Settings
import AccessRules.Exchange.Subject
import AccessRules.Json.Read
import AccessRules.Json.Value
import AccessRules.Log.Filter
import AccessRules.Log.Level
import AccessRules.Log.Lines
import AccessRules.Log.Nesting
import AccessRules.Log.Pattern
import AccessRules.Policy.Dictionary
import AccessRules.Rule.Book
import AccessRules.Rule.Formula
import AccessRules.Rule.Parse
import AccessRules.Rule.Token
import AccessRules.Service.Authorize
import AccessRules.Service.Request
import AccessRules.Session.Basic
import AccessRules.Settings.Basic
import AccessRules.Settings.File
import AccessRules.Settings.Layers
import AccessRules.Settings.Policy
import AccessRules.Settings.Value
import AccessRules.Subject.Basic
import AccessRules.Subject.Instance
import AccessRules.Text.Case
import AccessRules.Text.CaseTable
import AccessRules.Text.LetterTable
import AccessRules.Text.Outline
import AccessRules.Text.White
import AccessRules.Tree.Basic
import AccessRules.Tree.Evaluate
import AccessRules.Yaml.Cursor
import AccessRules.Yaml.Document
import AccessRules.Yaml.Lexeme
import AccessRules.Yaml.Node
import AccessRules.Yaml.Scalar
import AccessRules.Yaml.Tag
import AccessRules.Proofs.Kleene
import AccessRules.Proofs.Forms
import AccessRules.Proofs.Evaluation
import AccessRules.Proofs.Ledger
import AccessRules.Proofs.Planning
import AccessRules.Proofs.Preview
import AccessRules.Proofs.FailClosed
import AccessRules.Proofs.Verdict
import AccessRules.Proofs.SingleRun
import AccessRules.Proofs.Splitting
import AccessRules.Proofs.Grammar
import AccessRules.Proofs.Canonical
import AccessRules.Proofs.Loading
import AccessRules.Proofs.Batch
import AccessRules.Proofs.TwoRuns
import AccessRules.Proofs.Isolation
import AccessRules.Proofs.Labels
import AccessRules.Proofs.Replay
import AccessRules.Proofs.Blindness
import AccessRules.Proofs.Transparency
import AccessRules.Proofs.Queue
import AccessRules.Proofs.LetterCase
import AccessRules.Proofs.Declaring
import AccessRules.Proofs.Categories
import AccessRules.Proofs.Monotone
import AccessRules.Proofs.Naming
import AccessRules.Proofs.ShortCircuit
import AccessRules.Proofs.Places
import AccessRules.Proofs.Resuming
import AccessRules.Proofs.Unambiguous
import AccessRules.Proofs.Building
import AccessRules.Proofs.Deciding
import AccessRules.Proofs.Promptness
import AccessRules.Proofs.Bookkeeping
import AccessRules.Proofs.Flights
import AccessRules.Proofs.SingleFlight
import AccessRules.Proofs.Together
import AccessRules.Proofs.Trimming
import AccessRules.Proofs.Offence
import AccessRules.Proofs.Reading
import AccessRules.Proofs.Renumbering
import AccessRules.Proofs.LastDeclared
import AccessRules.Proofs.ShortestDecimal
import AccessRules.Proofs.NumberTexts
import AccessRules.Proofs.CompactText
import AccessRules.Proofs.ChangeKeys
import AccessRules.Proofs.Spelling
import AccessRules.Proofs.Admission
import AccessRules.Proofs.Records
import AccessRules.Proofs.RoundTrip
import AccessRules.Proofs.Reports
import AccessRules.Proofs.Validation
import AccessRules.Proofs.Layering
import AccessRules.Proofs.Overrides
import AccessRules.Proofs.LoadedSettings
