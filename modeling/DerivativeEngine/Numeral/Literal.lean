import DerivativeEngine.Numeral.Binary64

/-!
Numeric literals. A literal is decimal, or hexadecimal with an optional binary exponent; it is
read exactly and rounded once. A decimal beyond the doubles is an infinity, a hexadecimal
literal beyond them has no value.
-/

namespace DerivativeEngine.Numeral

/-- Digits before and after the point, and the exponent, all as they were written. -/
structure Literal where
  hex : Bool
  whole : List Char
  frac : List Char
  exponent : Int
  deriving Repr, DecidableEq

def isDecimalDigit (c : Char) : Bool := '0' ≤ c && c ≤ '9'

def isHexDigit (c : Char) : Bool :=
  isDecimalDigit c || ('a' ≤ c && c ≤ 'f') || ('A' ≤ c && c ≤ 'F')

def digitValue (c : Char) : Nat :=
  if isDecimalDigit c then c.toNat - '0'.toNat
  else if 'a' ≤ c && c ≤ 'f' then c.toNat - 'a'.toNat + 10
  else c.toNat - 'A'.toNat + 10

def natOfDigits (base : Nat) (cs : List Char) : Nat :=
  cs.foldl (fun n c => n * base + digitValue c) 0

/-- Digits, a point and digits, of which the point and one side may be missing but not both
sides. -/
def scanMantissa (digit : Char → Bool) (cs : List Char) :
    Option (List Char × List Char × List Char) :=
  let whole := cs.takeWhile digit
  match cs.dropWhile digit with
  | '.' :: rest =>
    let frac := rest.takeWhile digit
    if whole.isEmpty && frac.isEmpty then none else some (whole, frac, rest.dropWhile digit)
  | rest => if whole.isEmpty then none else some (whole, [], rest)

/-- An exponent is taken only whole: a mark without digits is left to the text that follows. -/
def scanExponent (mark : Char → Bool) (cs : List Char) : Int × List Char :=
  match cs with
  | c :: rest =>
    if mark c then
      let (negative, rest') := match rest with
        | '+' :: r => (false, r)
        | '-' :: r => (true, r)
        | r => (false, r)
      let ds := rest'.takeWhile isDecimalDigit
      if ds.isEmpty then (0, cs)
      else
        let n : Int := natOfDigits 10 ds
        (if negative then -n else n, rest'.dropWhile isDecimalDigit)
    else (0, cs)
  | [] => (0, cs)

def scanHex (cs : List Char) : Option (Literal × List Char) :=
  match cs with
  | '0' :: x :: rest =>
    if x == 'x' || x == 'X' then do
      let (whole, frac, rest) ← scanMantissa isHexDigit rest
      let (e, rest) := scanExponent (fun c => c == 'p' || c == 'P') rest
      some (⟨true, whole, frac, e⟩, rest)
    else none
  | _ => none

def scanDecimal (cs : List Char) : Option (Literal × List Char) := do
  let (whole, frac, rest) ← scanMantissa isDecimalDigit cs
  let (e, rest) := scanExponent (fun c => c == 'e' || c == 'E') rest
  some (⟨false, whole, frac, e⟩, rest)

/-- The longest literal at the start of the text, with what follows it. -/
def scanLiteral (cs : List Char) : Option (Literal × List Char) :=
  (scanHex cs).orElse fun _ => scanDecimal cs

/-- Decimal exponents this far out decide the result whatever the digits say. -/
def decimalOf (m : Nat) (digits : Nat) (e : Int) : Float :=
  if m == 0 then 0.0
  else if 310 ≤ e then 1.0 / 0.0
  else if e + digits < -330 then 0.0
  else if 0 ≤ e then Float.ofScientific m false e.toNat
  else Float.ofScientific m true (-e).toNat

/-- None when a hexadecimal literal is too large for a double. -/
def Literal.toFloat? (l : Literal) : Option Float :=
  let digits := l.whole ++ l.frac
  if l.hex then
    (nearestWord? (natOfDigits 16 digits) (l.exponent - 4 * l.frac.length)).map (ofWord false)
  else some (decimalOf (natOfDigits 10 digits) digits.length (l.exponent - l.frac.length))

end DerivativeEngine.Numeral
