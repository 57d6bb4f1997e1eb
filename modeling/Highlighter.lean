import Highlighter.CommandLine
import Highlighter.Main
import Highlighter.Proofs.Embedding.Raw
import Highlighter.Proofs.Registry.WarmUp
import Highlighter.Proofs.Stream.Compact
import Highlighter.Proofs.Stream.Runs
import Highlighter.Proofs.Embedding.Coverage
import Highlighter.Proofs.Embedding.Meaning
import Highlighter.Proofs.Regex.Run
import Highlighter.Proofs.Pattern.Expr
import Highlighter.Proofs.Pattern.Parts
import Highlighter.Proofs.Union.Member
import Highlighter.Proofs.Pattern.Meaning
import Highlighter.Proofs.Union.Renumber
import Highlighter.Proofs.Regex.ClassBody
import Highlighter.Proofs.Regex.Loops
import Highlighter.Proofs.Regex.Regular.Meaning
import Highlighter.Proofs.Regex.Regular.Reading
import Highlighter.Proofs.Regex.Extended.ClassText
import Highlighter.Proofs.Regex.Extended.Meaning
import Highlighter.Proofs.Regex.Extended.Reading
import Highlighter.Proofs.Regex.Extended.Easy
import Highlighter.Proofs.Regex.Extended.Plan
import Highlighter.Proofs.Regex.Compiled
import Highlighter.Proofs.Union.Joined
import Highlighter.Proofs.Union.FirstMatch
import Highlighter.Proofs.Registry.Growth
import Highlighter.Proofs.Embedding.Failures
import Highlighter.Proofs.Registry.Confluence
import Highlighter.Proofs.Union.Groups
import Highlighter.Proofs.Lexer.Agreement
import Highlighter.Proofs.Pattern.CaseFold
import Highlighter.Proofs.Pattern.Folded
import Highlighter.Proofs.Regex.Ignoring
import Highlighter.Proofs.Union.CaseModes
import Highlighter.Proofs.Lexer.Partition
import Highlighter.Proofs.Lexer.Rules
import Highlighter.Proofs.Embedding.Calls
import Highlighter.Proofs.Embedding.Depth
import Highlighter.Proofs.Embedding.Termination
import Highlighter.Proofs.Registry.Contributions
import Highlighter.Proofs.Embedding.Laziness
import Highlighter.Proofs.Regex.Extent
import Highlighter.Proofs.Registry.Described
import Highlighter.Proofs.Embedding.Whole
import Highlighter.Proofs.Embedding.Builtins
import Highlighter.Proofs.Stream.Canonical
import Highlighter.Proofs.Embedding.Emission
import Highlighter.Proofs.CommandLine.Reading
import Highlighter.Proofs.CommandLine.Output
import Highlighter.Proofs.Registry.Stability
import Highlighter.Proofs.Registry.History
import Highlighter.Proofs.Stream.Fixpoints
import Highlighter.Proofs.Stream.Merging
import Highlighter.Proofs.Embedding.Shape
import Highlighter.Proofs.Embedding.Remembering
import Highlighter.Proofs.Embedding.Shift
import Highlighter.Proofs.Registry.Registration
import Highlighter.Proofs.Registry.Auxiliary
import Highlighter.Proofs.Registry.Failing
import Highlighter.Proofs.Registry.Rounds
import Highlighter.Proofs.Unicode.Words
import Highlighter.Proofs.Regex.Taken
import Highlighter.Proofs.Pattern.ClassMembers
import Highlighter.Proofs.Regex.ClassEnd
import Highlighter.Proofs.Regex.FoldedClass
import Highlighter.Proofs.Pattern.Quiet
import Highlighter.Proofs.Regex.QuietClass
import Highlighter.Proofs.Regex.Regular.Alike
import Highlighter.Proofs.Regex.Regular.Quiet
import Highlighter.Proofs.Union.WholeCase
import Highlighter.Proofs.Regex.Regular.OneChar
import Highlighter.Proofs.Regex.Extended.OneChar
import Highlighter.Proofs.Union.Codes
import Highlighter.Proofs.Lexer.Shortcuts
import Highlighter.Proofs.Lexer.Dispatch
import Highlighter.Proofs.Unicode.Property
import Highlighter.Proofs.Regex.ClassExtent
import Highlighter.Proofs.Regex.Regular.Derivation
import Highlighter.Proofs.Regex.Regular.Splitting
import Highlighter.Proofs.Pattern.Marks
import Highlighter.Proofs.Regex.Context
import Highlighter.Proofs.Regex.Regular.Becoming
import Highlighter.Proofs.Union.Recast
import Highlighter.Proofs.Regex.Regular.Rows
import Highlighter.Proofs.Union.RegularItems
import Highlighter.Proofs.Union.RegularRows
import Highlighter.Proofs.Union.RegularUnion
import Highlighter.Proofs.Lexer.Joining
import Highlighter.Proofs.Embedding.Region
import Highlighter.Proofs.Pattern.Lossless
import Highlighter.Proofs.Pattern.NormalRanges
import Highlighter.Proofs.GrammarFile.Translation
import Highlighter.Proofs.Lexer.Repeats
