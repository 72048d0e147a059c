/-!
What can be wrong with a source. A parse error names its cause by a code, the span it concerns,
what was expected there and what was found; the report shows the source with a caret below the
position.
-/

namespace DerivativeEngine

inductive ErrorCode where
  | ok | emptyExpr | tooLong | tooDeep | syntaxError | unknownFunc | wrongArgs
  | divisionByZero | domain | unexpectedToken | unmatchedParen | unknownVar
  deriving DecidableEq, Repr

namespace ErrorCode

def all : List ErrorCode :=
  [ok, emptyExpr, tooLong, tooDeep, syntaxError, unknownFunc, wrongArgs, divisionByZero, domain,
    unexpectedToken, unmatchedParen, unknownVar]

def name : ErrorCode → String
  | ok => "OK"
  | emptyExpr => "EMPTY_EXPR"
  | tooLong => "TOO_LONG"
  | tooDeep => "TOO_DEEP"
  | syntaxError => "SYNTAX"
  | unknownFunc => "UNKNOWN_FUNC"
  | wrongArgs => "WRONG_ARGS"
  | divisionByZero => "DIVISION_BY_ZERO"
  | domain => "DOMAIN"
  | unexpectedToken => "UNEXPECTED_TOKEN"
  | unmatchedParen => "UNMATCHED_PAREN"
  | unknownVar => "UNKNOWN_VAR"

def description : ErrorCode → String
  | ok => "No error"
  | emptyExpr => "Empty expression"
  | tooLong => "Expression too long"
  | tooDeep => "Expression too deeply nested"
  | syntaxError => "Syntax error"
  | unknownFunc => "Unknown function"
  | wrongArgs => "Wrong number of arguments"
  | divisionByZero => "Division by zero"
  | domain => "Math domain error"
  | unexpectedToken => "Unexpected token"
  | unmatchedParen => "Unmatched parenthesis"
  | unknownVar => "Unknown variable"

def ofName? (name : String) : Option ErrorCode := all.find? fun c => c.name == name

end ErrorCode

/-- The short form of an error: where it is, and what. -/
structure ErrorInfo where
  code : ErrorCode
  position : Int
  message : String
  stop : Option Int
  deriving DecidableEq, Repr

namespace ErrorInfo

def none : ErrorInfo := ⟨.ok, 0, "", .none⟩

/-- A caret beyond the end of the source stands right after it. -/
def report (source : Option String) (e : ErrorInfo) : String :=
  let head := ["Parse error: " ++ e.message, "Position: " ++ toString e.position]
  let lines := match source with
    | some s =>
      if 0 ≤ e.position then
        head ++ ["", s, String.ofList (List.replicate (min e.position.toNat s.length) ' ') ++ "^"]
      else head
    | .none => head
  "\n".intercalate lines

end ErrorInfo

structure ParseError where
  message : String
  start : Int
  stop : Int
  expected : List String := []
  found : Option String := none
  code : ErrorCode := .syntaxError
  deriving DecidableEq, Repr

namespace ParseError

def info (e : ParseError) : ErrorInfo := ⟨e.code, e.start, e.message, some e.stop⟩

def ofInfo (e : ErrorInfo) : ParseError :=
  ⟨e.message, 0, 0, [], none, e.code⟩

def text (e : ParseError) : String :=
  let expected := if e.expected.isEmpty then "" else "; expected " ++ ", ".intercalate e.expected
  let found := match e.found with
    | some t => "; found " ++ t
    | none => ""
  e.message ++ " at span [" ++ toString e.start ++ ", " ++ toString e.stop ++ ")" ++ expected
    ++ found

/-- The text led by the code, as the wrappers from source to source report it. -/
def codedText (e : ParseError) : String := e.code.name ++ ": " ++ e.text

end ParseError

end DerivativeEngine
