import ResponseShape.Files.Tree
import ResponseShape.Main
import ResponseShape.Proofs.Fields
import ResponseShape.Proofs.Table
import ResponseShape.Proofs.Registry
import ResponseShape.Proofs.Preorder
import ResponseShape.Proofs.Visit
import ResponseShape.Proofs.Survey
import ResponseShape.Proofs.Closed
import ResponseShape.Proofs.Stateless
import ResponseShape.Proofs.Owner
import ResponseShape.Proofs.Order
import ResponseShape.Proofs.Calls
import ResponseShape.Proofs.Settled
import ResponseShape.Proofs.Extension
import ResponseShape.Proofs.Distinct
import ResponseShape.Proofs.Termination
import ResponseShape.Proofs.Sample
import ResponseShape.Proofs.Rendering
import ResponseShape.Proofs.Rereading
import ResponseShape.Proofs.Parsing
import ResponseShape.Proofs.Phrases
import ResponseShape.Proofs.Declarations
import ResponseShape.Proofs.Reading
import ResponseShape.Proofs.PrintedExpressions
import ResponseShape.Proofs.PrintedStatements
import ResponseShape.Proofs.RoundTrip
import ResponseShape.Proofs.Delimiters
import ResponseShape.Proofs.Together
import ResponseShape.Proofs.Spans
import ResponseShape.Proofs.Spanning
import ResponseShape.Proofs.Accepted
import ResponseShape.Proofs.Scanning
import ResponseShape.Proofs.Comments
import ResponseShape.Proofs.Draft
import ResponseShape.Proofs.DraftText
import ResponseShape.Proofs.DraftTokens
import ResponseShape.Proofs.Writes
import ResponseShape.Proofs.Decoding
import ResponseShape.Proofs.Positions
import ResponseShape.Proofs.Namespaces
import ResponseShape.Proofs.OperatorTrees
import ResponseShape.Proofs.Beside
import ResponseShape.Proofs.OperandEnd
import ResponseShape.Proofs.Chains
import ResponseShape.Proofs.ConditionalMerge
import ResponseShape.Proofs.RepeatedKeys
import ResponseShape.Proofs.ReturnScan
import ResponseShape.Proofs.WrittenReturns
import ResponseShape.Proofs.Pieces
import ResponseShape.Proofs.Layout
import ResponseShape.Proofs.Joined
import ResponseShape.Proofs.Quotes
import ResponseShape.Proofs.AllOrNothing
import ResponseShape.Proofs.Spellings
import ResponseShape.Proofs.Meaning
import ResponseShape.Proofs.Renaming
import ResponseShape.Proofs.SelfNames
import ResponseShape.Proofs.LetterCase
import ResponseShape.Proofs.ImportForms
import ResponseShape.Proofs.GroupedImports
import ResponseShape.Proofs.Cursor
import ResponseShape.Proofs.CursorPhrases
import ResponseShape.Proofs.CursorDeclarations
import ResponseShape.Proofs.CursorSteps
import ResponseShape.Proofs.CursorRuns
import ResponseShape.Proofs.CursorMeaning
import ResponseShape.Proofs.CursorBounds
import ResponseShape.Proofs.CursorProgress
import ResponseShape.Proofs.Nesting
import ResponseShape.Proofs.Braces
import ResponseShape.Proofs.Members
import ResponseShape.Proofs.MethodDeclarations
import ResponseShape.Proofs.ClassBody
