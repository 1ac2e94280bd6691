import ParserAlgebra.Text.Basic
import ParserAlgebra.Draft
import ParserAlgebra.Parser.Choice
import ParserAlgebra.Parser.Continuation
import ParserAlgebra.Parser.Repetition
import ParserAlgebra.Parser.Lexeme
import ParserAlgebra.Value.Function
import ParserAlgebra.Value.Serial
import ParserAlgebra.Proofs.Run.Congruence
import ParserAlgebra.Proofs.Run.Limit
import ParserAlgebra.Proofs.Remainder.Leaf
import ParserAlgebra.Proofs.Reach
import ParserAlgebra.Proofs.Remainder.Run
import ParserAlgebra.Proofs.Choice.ShortCircuit
import ParserAlgebra.Proofs.Run.Entered
import ParserAlgebra.Proofs.Choice.Skipped
import ParserAlgebra.Proofs.Termination.Leaf
import ParserAlgebra.Proofs.Termination.Strict
import ParserAlgebra.Proofs.Termination.LeftRecursion
import ParserAlgebra.Proofs.Diagnostics
import ParserAlgebra.Proofs.Draft.Protocol
import ParserAlgebra.Proofs.Draft.AsGrammar
import ParserAlgebra.Proofs.Draft.Stability
import ParserAlgebra.Proofs.Draft.TieOrder
import ParserAlgebra.Proofs.Fault.Reading
import ParserAlgebra.Proofs.Fault.Origin
import ParserAlgebra.Proofs.Fault.Complete
import ParserAlgebra.Proofs.Lossless
import ParserAlgebra.Proofs.Location
import ParserAlgebra.Proofs.Run.Simulation
import ParserAlgebra.Proofs.Discarded
import ParserAlgebra.Proofs.Logging
import ParserAlgebra.Proofs.Lines
import ParserAlgebra.Proofs.Excerpt
import ParserAlgebra.Proofs.Integer
import ParserAlgebra.Proofs.Quotation
import ParserAlgebra.Proofs.Quotation.Escaping
import ParserAlgebra.Proofs.Quotation.Plain
import ParserAlgebra.Proofs.Quotation.Ending
import ParserAlgebra.Proofs.Decimal
import ParserAlgebra.Proofs.Repetition
import ParserAlgebra.Proofs.Run.Conclusion
import ParserAlgebra.Proofs.Repetition.Fixed
import ParserAlgebra.Proofs.Repetition.Recursive
import ParserAlgebra.Proofs.Repetition.Separated
import ParserAlgebra.Proofs.Integer.Lists
import ParserAlgebra.Proofs.Bracketing
import ParserAlgebra.Proofs.Choice.Bracketing
import ParserAlgebra.Proofs.Sequence.Bracketing
import ParserAlgebra.Proofs.Sequence.Concatenation
import ParserAlgebra.Proofs.Caseless
import ParserAlgebra.Proofs.Choice.LeftFactoring
import ParserAlgebra.Proofs.Caseless.Letters
import ParserAlgebra.Proofs.Caseless.OneByOne
import ParserAlgebra.Proofs.Lines.Coordinates
import ParserAlgebra.Proofs.Repetition.CodePoints
import ParserAlgebra.Proofs.Nesting
import ParserAlgebra.Proofs.Parity
import ParserAlgebra.Proofs.Repetition.LongestPrefix
