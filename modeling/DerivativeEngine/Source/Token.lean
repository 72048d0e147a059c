import DerivativeEngine.Expr.Basic
import DerivativeEngine.Scalar.Basic
import DerivativeEngine.Text.Character
import DerivativeEngine.Text.Quoted

/-!
Source text as tokens. Every position takes the longest literal, identifier or operator that
starts there, and what starts none becomes an error token that holds its own diagnostic. Spans
count characters. The row of tokens is closed by one end token at the length of the source.
-/

namespace DerivativeEngine

inductive TokenKind where
  | number | ident | plus | minus | star | slash | caret | bang
  | leftParen | rightParen | comma
  | gt | lt | ge | le | eq | ne | and | or
  | error | eof
  deriving DecidableEq, Repr

def TokenKind.name : TokenKind → String
  | number => "NUMBER" | ident => "IDENT" | plus => "PLUS" | minus => "MINUS" | star => "STAR"
  | slash => "SLASH" | caret => "CARET" | bang => "NOT"
  | leftParen => "LPAREN" | rightParen => "RPAREN" | comma => "COMMA"
  | gt => "GT" | lt => "LT" | ge => "GE" | le => "LE" | eq => "EQ" | ne => "NE"
  | and => "AND" | or => "OR" | error => "ERROR" | eof => "EOF"

structure Token where
  kind : TokenKind
  text : String
  start : Nat
  stop : Nat
  deriving DecidableEq, Repr

namespace Token

def isIdentStart (c : Char) : Bool := ('a' ≤ c && c ≤ 'z') || ('A' ≤ c && c ≤ 'Z')

def isIdentPart (c : Char) : Bool := isIdentStart c || ('0' ≤ c && c ≤ '9')

def pairKind? : Char → Char → Option TokenKind
  | '&', '&' => some .and
  | '|', '|' => some .or
  | '>', '=' => some .ge
  | '<', '=' => some .le
  | '=', '=' => some .eq
  | '!', '=' => some .ne
  | _, _ => none

def singleKind? : Char → Option TokenKind
  | '+' => some .plus
  | '-' => some .minus
  | '*' => some .star
  | '/' => some .slash
  | '^' => some .caret
  | '!' => some .bang
  | '(' => some .leftParen
  | ')' => some .rightParen
  | ',' => some .comma
  | '>' => some .gt
  | '<' => some .lt
  | _ => none

/-- A character that stands only in an operator of two. -/
def isHalfOperator (c : Char) : Bool := c == '&' || c == '|' || c == '='

def badCharacter (c : Char) : String :=
  if isHalfOperator c then
    "Expected '" ++ String.ofList [c, c] ++ "' but got '" ++ String.ofList [c] ++ "'"
  else "Unexpected character " ++ Text.quoted (String.ofList [c])

/-- What starts with `c`: the kind and text of a token, or none for a blank, and how many
characters it takes. -/
def scan (c : Char) (rest : List Char) : Option (TokenKind × String) × Nat :=
  if Text.isBlank c then (none, 1)
  else if Text.isDigit c || c == '.' then
    match Numeral.scanLiteral (c :: rest) with
    | some (_, after) =>
      let n := (c :: rest).length - after.length
      (some (.number, String.ofList ((c :: rest).take n)), n)
    | none => (some (.error, "Invalid numeric literal " ++ Text.quoted (String.ofList [c])), 1)
  else if isIdentStart c then
    let name := c :: rest.takeWhile isIdentPart
    (some (.ident, String.ofList (name.take maxNameLength)), name.length)
  else
    match rest.head?.bind (pairKind? c) with
    | some kind => (some (kind, String.ofList ((c :: rest).take 2)), 2)
    | none =>
      match singleKind? c with
      | some kind => (some (kind, String.ofList [c]), 1)
      | none => (some (.error, badCharacter c), 1)

/-- The tokens of the text from position `pos` on, after `skip` characters that belong to the
token before. -/
def ofChars (pos skip : Nat) : List Char → List Token
  | [] => []
  | c :: rest =>
    match skip with
    | k + 1 => ofChars (pos + 1) k rest
    | 0 =>
      match scan c rest with
      | (none, n) => ofChars (pos + 1) (n - 1) rest
      | (some (kind, text), n) => ⟨kind, text, pos, pos + n⟩ :: ofChars (pos + 1) (n - 1) rest

/-- The end token of a source of `n` characters. -/
def endAt (n : Nat) : Token := ⟨.eof, "", n, n⟩

/-- All tokens but the end. -/
def lexemes (source : String) : List Token := ofChars 0 0 source.toList

def tokenize (source : String) : List Token := lexemes source ++ [endAt source.length]

/-- The value of a number token; none when it is too large. -/
def numberValue? {α : Type} [Scalar α] (t : Token) : Option α :=
  match Numeral.scanLiteral t.text.toList with
  | some (literal, _) => Scalar.ofLiteral? literal
  | none => none

end Token

end DerivativeEngine
