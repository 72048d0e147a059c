import DerivativeEngine.Numeral.Binary64

/-!
Decimal text of doubles. A number is first reduced to a digit string with a decimal exponent,
either the shortest that reads back or one of a fixed length; a layout then places the point.
-/

namespace DerivativeEngine.Numeral

/-- The first digit stands before the point: the value is `d.ddd * 10 ^ exponent`. -/
structure Digits where
  digits : List Char
  exponent : Int
  deriving Repr, DecidableEq

def digitCount (n : Nat) : Nat := (Nat.toDigits 10 n).length

/-- `num * 10 ^ k / den` as a fraction of naturals. -/
def scaleTen (num den : Nat) (k : Int) : Nat × Nat :=
  if 0 ≤ k then (num * Nat.pow 10 k.toNat, den) else (num, den * Nat.pow 10 (-k).toNat)

/-- The greatest `k` with `10 ^ k ≤ num / den`, for a positive fraction. -/
def decimalExponent (num den : Nat) : Int :=
  let k : Int := digitCount num - digitCount den
  let (a, b) := scaleTen num den (-k)
  if b ≤ a then k else k - 1

def padLeft (width : Nat) (c : Char) (cs : List Char) : List Char :=
  List.replicate (width - cs.length) c ++ cs

def stripTrailing (c : Char) (cs : List Char) : List Char :=
  (cs.reverse.dropWhile (· == c)).reverse

/-- The digits of `n`, which has `count` of them unless rounding carried into one more. -/
def Digits.ofNat (n count : Nat) (exponent : Int) : Digits :=
  if n == Nat.pow 10 count then ⟨Nat.toDigits 10 (n / 10), exponent + 1⟩
  else ⟨Nat.toDigits 10 n, exponent⟩

/-- A positive fraction rounded to `count` significant digits, a half going to the even one. -/
def Digits.rounded (count num den : Nat) : Digits :=
  let k := decimalExponent num den
  let (a, b) := scaleTen num den (count - 1 - k)
  .ofNat (roundDiv a b) count k

/-- The reals that round to `m * 2 ^ e`, in quarters of the unit `2 ^ e`; the ends belong to
them when `m` is even. Below a power of two the doubles lie twice as dense. -/
structure Neighbourhood where
  low : Nat
  mid : Nat
  high : Nat
  closed : Bool

def neighbourhood (m : Nat) (e : Int) : Neighbourhood where
  low := if m == hiddenBit && minExponent < e then 4 * m - 1 else 4 * m - 2
  mid := 4 * m
  high := 4 * m + 2
  closed := m % 2 == 0

/-- Does the natural `n` lie in the neighbourhood, whose quarter unit is `num / den`? -/
def Neighbourhood.contains (w : Neighbourhood) (num den n : Nat) : Bool :=
  let x := n * den
  if w.closed then w.low * num ≤ x && x ≤ w.high * num
  else w.low * num < x && x < w.high * num

/-- The decimal of `count` digits in the neighbourhood that is nearest to its middle. Only
the two next to the middle can be. -/
def Neighbourhood.digits? (w : Neighbourhood) (e k : Int) (count : Nat) : Option Digits :=
  let (p, q) := fraction 1 (e - 2)
  let (num, den) := scaleTen p q (count - 1 - k)
  let down := w.mid * num / den
  match w.contains num den down, w.contains num den (down + 1) with
  | true, true => some (.ofNat (roundDiv (w.mid * num) den) count k)
  | true, false => some (.ofNat down count k)
  | false, true => some (.ofNat (down + 1) count k)
  | false, false => none

/-- The fewest digits that read back as the positive double `m * 2 ^ e`; 17 always do. -/
def Digits.shortest (m : Nat) (e : Int) : Digits :=
  let (num, den) := fraction m e
  let k := decimalExponent num den
  let w := neighbourhood m e
  let found := ((List.range 17).findSome? fun n => w.digits? e k (n + 1)).getD
    (.rounded 17 num den)
  ⟨stripTrailing '0' found.digits, found.exponent⟩

/-- Exponents carry a sign and at least two digits. -/
def exponentText (k : Int) : List Char :=
  (if k < 0 then '-' else '+') :: padLeft 2 '0' (Nat.toDigits 10 k.natAbs)

def withPoint (whole frac : List Char) : List Char :=
  if frac.isEmpty then whole else whole ++ '.' :: frac

def Digits.scientific (d : Digits) : List Char :=
  withPoint (d.digits.take 1) (d.digits.drop 1) ++ 'e' :: exponentText d.exponent

/-- Whole part and fraction of the digits written without an exponent. -/
def Digits.positional (d : Digits) : List Char × List Char :=
  if d.exponent < 0 then
    (['0'], List.replicate (-d.exponent - 1).toNat '0' ++ d.digits)
  else
    let n := d.exponent.toNat + 1
    (d.digits.take n ++ List.replicate (n - d.digits.length) '0', d.digits.drop n)

/-- A non-finite double is written in words; a nan has no sign. -/
def signedText (x : Float) (zero : List Char) (finite : Nat → Int → List Char) : String :=
  match datum x with
  | .nan => "nan"
  | .infinity negative => if negative then "-inf" else "inf"
  | .finite negative m e =>
    let body := if m == 0 then zero else finite m e
    String.ofList (if negative then '-' :: body else body)

/-- The shortest text that reads back: positional from `1e-4` up to `1e16`, always with a
fraction, and with an exponent outside. -/
def shortest (x : Float) : String :=
  signedText x ['0', '.', '0'] fun m e =>
    let d := Digits.shortest m e
    if -4 ≤ d.exponent && d.exponent < 16 then
      let (whole, frac) := d.positional
      whole ++ '.' :: (if frac.isEmpty then ['0'] else frac)
    else d.scientific

/-- At most `count` significant digits without trailing zeros; an exponent is written below
`1e-4` and where the digits would not reach the point. -/
def general (count : Nat) (x : Float) : String :=
  signedText x ['0'] fun m e =>
    let (num, den) := fraction m e
    let rounded := Digits.rounded count num den
    let d : Digits := ⟨stripTrailing '0' rounded.digits, rounded.exponent⟩
    if -4 ≤ d.exponent && d.exponent < count then
      let (whole, frac) := d.positional
      withPoint whole frac
    else d.scientific

/-- One digit, `places` decimals and an exponent. -/
def scientific (places : Nat) (x : Float) : String :=
  signedText x (withPoint ['0'] (List.replicate places '0') ++ ['e', '+', '0', '0'])
    fun m e =>
      let (num, den) := fraction m e
      (Digits.rounded (places + 1) num den).scientific

/-- `places` decimals and no exponent. -/
def fixedPoint (places : Nat) (x : Float) : String :=
  signedText x (withPoint ['0'] (List.replicate places '0')) fun m e =>
    let (num, den) := fraction m e
    let n := roundDiv (num * Nat.pow 10 places) den
    let ds := padLeft (places + 1) '0' (Nat.toDigits 10 n)
    withPoint (ds.take (ds.length - places)) (ds.drop (ds.length - places))

end DerivativeEngine.Numeral
