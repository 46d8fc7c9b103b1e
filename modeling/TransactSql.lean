import TransactSql.Unicode.Letters
import TransactSql.Unicode.Blank
import TransactSql.Binary64.Reading
import TransactSql.Binary64.Writing
import TransactSql.Collation.Map
import TransactSql.Collation.Request
import TransactSql.Error
import TransactSql.Value.BuiltIn
import TransactSql.Parse
import TransactSql.Predicate.Grammar
import TransactSql.Execution
import TransactSql.Client.Command
import TransactSql.Proofs.Collation.MapEntries
import TransactSql.Proofs.Collation.Dictionary
import TransactSql.Proofs.Value.WellFormed
import TransactSql.Proofs.Parse.Answers
import TransactSql.Proofs.Parse.Requests
import TransactSql.Proofs.Parse.Grammar
import TransactSql.Proofs.Parse.Layout
import TransactSql.Proofs.Execution.Layout
import TransactSql.Proofs.Parse.Following
import TransactSql.Proofs.Expression.Grouping
import TransactSql.Proofs.Store.Tables
import TransactSql.Proofs.Store.Catalogs
import TransactSql.Proofs.Expression.Leaves
import TransactSql.Proofs.Statement.Effects
import TransactSql.Proofs.Execution.Turns
import TransactSql.Proofs.Execution.Calls
import TransactSql.Proofs.Query.Visiting
import TransactSql.Proofs.Lexer.Boundaries
import TransactSql.Proofs.Lexer.Significant
import TransactSql.Proofs.Lexer.Tiling
import TransactSql.Proofs.Statement.Failures
import TransactSql.Proofs.Parse.Failures
import TransactSql.Proofs.Execution.Batches
import TransactSql.Proofs.Lexer.Replacing
import TransactSql.Proofs.Parse.Replacing
import TransactSql.Proofs.Execution.Replacing
import TransactSql.Proofs.Expression.Literals
import TransactSql.Proofs.Lexer.Writing
import TransactSql.Proofs.Parse.Reading
import TransactSql.Proofs.Statement.Values
import TransactSql.Proofs.Statement.Script
import TransactSql.Proofs.Store.Loading
import TransactSql.Proofs.Execution.RoundTrip
import TransactSql.Proofs.Lexer.Ending
import TransactSql.Proofs.Execution.Ending
import TransactSql.Proofs.Client.Protocol
import TransactSql.Proofs.Execution.Fetching
import TransactSql.Proofs.Execution.Independence
import TransactSql.Proofs.Collation.Spelling
import TransactSql.Proofs.Store.Spelling
import TransactSql.Proofs.Statement.Spelling
import TransactSql.Proofs.Lexer.Spelling
import TransactSql.Proofs.Parse.Spelling
import TransactSql.Proofs.Execution.Spelling
import TransactSql.Proofs.Parse.Nesting
import TransactSql.Proofs.Expression.Depth
import TransactSql.Proofs.Query.Depth
import TransactSql.Proofs.Expression.Height
import TransactSql.Proofs.Query.Height
import TransactSql.Proofs.Predicate.Junctions
import TransactSql.Proofs.Execution.Finishing
import TransactSql.Proofs.Lexer.Separators
import TransactSql.Proofs.Value.Integers
import TransactSql.Proofs.Client.Parameters
import TransactSql.Proofs.Store.Inserting
import TransactSql.Proofs.Store.Reordering
import TransactSql.Proofs.Predicate.Grouping
import TransactSql.Proofs.Store.Places
import TransactSql.Proofs.Query.Composing
import TransactSql.Proofs.Lexer.Quoting
import TransactSql.Proofs.Value.Widening
import TransactSql.Proofs.Value.Ordering
import TransactSql.Proofs.Value.IntegerTexts
import TransactSql.Proofs.Expression.Nulls
import TransactSql.Proofs.Expression.Fallbacks
import TransactSql.Proofs.Value.Failures
import TransactSql.Proofs.Expression.Typing
import TransactSql.Proofs.Query.Typing
import TransactSql.Proofs.Binary64.Denotation
import TransactSql.Proofs.Value.FloatOrdering
import TransactSql.Proofs.Binary64.Decimals
import TransactSql.Proofs.Client.Navigation
import TransactSql.Proofs.Execution.Finite
import TransactSql.Proofs.Value.FloatIntegers
import TransactSql.Proofs.Parse.Peeking
import TransactSql.Proofs.Client.Counting
import TransactSql.Proofs.Store.TableNames
import TransactSql.Proofs.Query.Dependence
import TransactSql.Proofs.Lexer.Longest
