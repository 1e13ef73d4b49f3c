import Spreadsheet.Address

namespace Spreadsheet

/-- Positions count tokens from zero. -/
inductive SyntaxError
  | empty
  | unexpectedChar (c : Char)
  | invalidNumber (text : String)
  | unterminatedText
  | unknownName (name : String)
  | unexpectedToken (position : Nat)
  | unexpectedEnd
  | tooDeep
  | tooManyOperators
  deriving DecidableEq

def SyntaxError.message : SyntaxError → String
  | .empty => "Empty formula"
  | .unexpectedChar c => "Unexpected character: " ++ c.toString
  | .invalidNumber text => "Invalid number: " ++ text
  | .unterminatedText => "Unterminated string literal"
  | .unknownName name => "Unknown name: " ++ name
  | .unexpectedToken position => "Unexpected token at position " ++ position.repr
  | .unexpectedEnd => "Unexpected end of expression"
  | .tooDeep => "Formula nested too deeply"
  | .tooManyOperators => "Formula has too many operators"

inductive EvalError
  | unknownFunction (name : String)
  | badArguments (function : String) (problem : String)
  | bareRange (range : Range)
  | notANumber (text : String)
  | rangeMismatch
  deriving DecidableEq

def EvalError.message : EvalError → String
  | .unknownFunction name => "Unknown function: " ++ name
  | .badArguments function problem => function ++ ": " ++ problem
  | .bareRange range => "Range " ++ range.toText ++ " used outside a function argument"
  | .notANumber text => "Value is not a number: " ++ text
  | .rangeMismatch => "Condition range and sum range have different shapes"

end Spreadsheet
