import FieldQuery.DepthLimit
import FieldQuery.Query.Position
import FieldQuery.Text.Quoted

/-!
# Causes of refused query text

Every cause names the position of the character that shows it. A brace or an argument list that
is never closed is shown by the character that opened it.
-/

set_option autoImplicit false

namespace FieldQuery.Query

inductive ParseError where
  | unterminatedBrace (opening : Position)
  | unterminatedArguments (opening : Position)
  | newlineInArguments (position : Position)
  | unexpectedClosingBrace (position : Position)
  | unexpectedCharacter (character : Char) (position : Position)
  | argumentsWithoutField (position : Position)
  /-- The position is that of the name. -/
  | argumentsWithoutSelection (name : String) (position : Position)
  | duplicateArgumentList (name : String) (position : Position)
  | missingArgumentKey (position : Position)
  | missingArgumentValue (key : String) (position : Position)
  | duplicateArgument (key : String) (position : Position)
  | invalidArgumentValue (key value : String) (position : Position)
  /-- The position is the first one inside the block that lies too deep. -/
  | depthLimitExceeded (limit : DepthLimit) (position : Position)
  deriving DecidableEq

namespace ParseError

def message : ParseError → String
  | .unterminatedBrace opening =>
      "the curly bracket opened at " ++ opening.text ++ " is not closed"
  | .unterminatedArguments opening =>
      "the argument list opened at " ++ opening.text ++ " is not closed"
  | .newlineInArguments position =>
      "argument declaration interrupted by a newline at " ++ position.text
  | .unexpectedClosingBrace position => "unexpected '\x7d' at " ++ position.text
  | .unexpectedCharacter character position =>
      "unexpected character " ++ Text.quotedChar character ++ " at " ++ position.text
  | .argumentsWithoutField position =>
      "argument list at " ++ position.text ++ " does not follow a field name"
  | .argumentsWithoutSelection name position =>
      "field '" ++ name ++ "' at " ++ position.text ++ " has arguments but no selection block"
  | .duplicateArgumentList name position =>
      "field '" ++ name ++ "' declares a second argument list at " ++ position.text
  | .missingArgumentKey position => "argument value without a key at " ++ position.text
  | .missingArgumentValue key position =>
      "argument '" ++ key ++ "' has no value at " ++ position.text
  | .duplicateArgument key position =>
      "argument '" ++ key ++ "' is declared twice at " ++ position.text
  | .invalidArgumentValue key value position =>
      "argument '" ++ key ++ "' at " ++ position.text ++ " has value " ++ Text.quotedString value
        ++ "; expected an integer or a quoted string"
  | .depthLimitExceeded limit position =>
      "maximum query depth of " ++ Text.decimal limit.maximum.toNat ++ " exceeded at "
        ++ position.text

end ParseError

end FieldQuery.Query
