import TreeGen.Text.Place

/-!
# What can be wrong with a JSON text

A fault pairs a problem with the rest of the text from the place of the problem on.  The wording
and the place in lines and columns are derived from that pair and the text.
-/

namespace TreeGen.Json

/-- The ways in which a text can fail to be JSON. -/
inductive Problem where
  | escapeInSingleQuotes
  | escapeInDoubleQuotes
  | hexDigitsExpected
  | noCharacter (digits : String)
  | unknownEscape
  | unterminatedString
  | digitAfterMinus
  | digitExpected
  /-- An exponent mark with neither a sign nor a digit behind it. -/
  | exponentExpected
  | unterminatedComment
  | unexpectedToken
  | closeBracket
  | closeBrace
  | comma
  | colon
  | word
  | keyExpected
  | colonExpected
  /-- A text that ends behind the colon of a member. -/
  | memberValueExpected
  | unterminatedObject
  | unterminatedArray
  | secondValue
deriving DecidableEq, Repr

def Problem.message : Problem → String
  | .escapeInSingleQuotes => "Invalid escape in single quote string"
  | .escapeInDoubleQuotes => "Invalid escape in double quote string"
  | .hexDigitsExpected => "Expected four hex digits"
  | .noCharacter digits =>
    "Invalid unicode escape sequence. '" ++ digits ++ "' is not a valid UTF8 character"
  | .unknownEscape => "Invalid escape"
  | .unterminatedString => "Unterminated string literal"
  | .digitAfterMinus => "Expected digit following negative sign"
  | .digitExpected => "Expected digit"
  | .exponentExpected => "Expected plus, minus, or digit in number literal"
  | .unterminatedComment => "Unterminated comment block"
  | .unexpectedToken => "Unexpected token"
  | .closeBracket => "Unexpected close bracket"
  | .closeBrace => "Unexpected close brace"
  | .comma => "Unexpected comma"
  | .colon => "Unexpected colon"
  | .word => "Unexpected word"
  | .keyExpected => "Unexpected token in object"
  | .colonExpected => "Expected colon after the string or word in object property"
  | .memberValueExpected => "Expected value after colon in object property"
  | .unterminatedObject => "Unterminated object"
  | .unterminatedArray => "Unterminated array"
  | .secondValue => "Text cannot contain more than one JSON value"

/-- A problem and the place where it was met. -/
structure Fault where
  problem : Problem
  rest : List Char
deriving DecidableEq, Repr

def Fault.message (fault : Fault) (text : List Char) : String :=
  let position := Text.Position.ofRest text fault.rest
  fault.problem.message ++ " on line " ++ toString position.line
    ++ " column " ++ toString position.column

end TreeGen.Json
