import ParserAlgebra.Value.Basic
import ParserAlgebra.Text.Quote
/-!
# The written form of values

Nothing, texts, integers and lists of them have a written form; the other kinds have none.
-/

namespace ParserAlgebra

/-- Texts joined by a comma and a space. -/
def Text.commaSeparated : List Text → Text
  | [] => []
  | [t] => t
  | t :: ts => t ++ Text.ofString ", " ++ commaSeparated ts

mutual

/-- The written form of a value, if its kind has one. -/
def Value.written? : Value → Option Text
  | .nothing => some "None"
  | .text t => some t.quoted
  | .int n => some (Text.ofInt n)
  | .list vs => (Value.writtenAll? vs).map fun ts =>
      Text.ofString "[" ++ Text.commaSeparated ts ++ Text.ofString "]"
  | _ => none

/-- The written forms of the items of a list, if all have one. -/
def Value.writtenAll? : List Value → Option (List Text)
  | [] => some []
  | v :: vs => do return (← Value.written? v) :: (← Value.writtenAll? vs)

end

end ParserAlgebra
