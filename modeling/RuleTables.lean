import RuleTables.Cli.Develop
import RuleTables.Expr.Draft
import RuleTables.Expr.Outline
import RuleTables.Log.Line
import RuleTables.Main
import RuleTables.Service.Exchange
import RuleTables.Proofs.Shape
import RuleTables.Proofs.RowGroups
import RuleTables.Proofs.RowMeaning
import RuleTables.Proofs.InlineMeaning
import RuleTables.Proofs.Columns
import RuleTables.Proofs.Validity
import RuleTables.Proofs.Constrained
import RuleTables.Proofs.RuleBlocks
import RuleTables.Proofs.Alternatives
import RuleTables.Proofs.Places
import RuleTables.Proofs.RecordText
import RuleTables.Proofs.RecordRoundTrip
import RuleTables.Proofs.RecordStable
import RuleTables.Proofs.JsonText
import RuleTables.Proofs.TreeRoundTrip
import RuleTables.Proofs.TreeText
import RuleTables.Proofs.StrictReading
import RuleTables.Proofs.DocumentText
import RuleTables.Proofs.FlatForm
import RuleTables.Proofs.Gate
import RuleTables.Proofs.Writable
import RuleTables.Proofs.Refusal
import RuleTables.Proofs.TreeLimits
import RuleTables.Proofs.StringLiterals
import RuleTables.Proofs.Posting
import RuleTables.Proofs.Echo
import RuleTables.Proofs.PostedDocument
import RuleTables.Proofs.ExpressionAnswers
import RuleTables.Proofs.Transport
import RuleTables.Proofs.StoredText
import RuleTables.Proofs.EvaluationOrder
import RuleTables.Proofs.FaultClasses
import RuleTables.Proofs.Tally
import RuleTables.Proofs.RuleCount
import RuleTables.Proofs.GenerationMeters
import RuleTables.Proofs.RequestMeters
import RuleTables.Proofs.ValidateFlag
import RuleTables.Proofs.FeelReading
import RuleTables.Proofs.RowSplit
import RuleTables.Proofs.ExitCodes
import RuleTables.Proofs.RecordLocality
import RuleTables.Proofs.RecordNesting
import RuleTables.Proofs.LeafOrder
import RuleTables.Proofs.Identifiers
import RuleTables.Proofs.CompiledDocument
import RuleTables.Proofs.DrawnIdentifiers
import RuleTables.Proofs.DraftRuns
import RuleTables.Proofs.Acceptance
import RuleTables.Proofs.GroupedRows
import RuleTables.Proofs.UnquotedValues
import RuleTables.Proofs.NumericValues
import RuleTables.Proofs.ListedValues
import RuleTables.Proofs.Chains
import RuleTables.Proofs.DecodeAnswers
import RuleTables.Proofs.JsonRefusal
import RuleTables.Proofs.Sameness
import RuleTables.Proofs.ParameterNames
