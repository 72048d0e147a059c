/-!
Doubles as exact numbers. A finite double is a signed multiple of a power of two; everything
that has to be exact (decimal text, remainders, rounding of a literal) works on that pair in
natural-number arithmetic and meets the floating-point type only at its bit pattern.
-/

namespace DerivativeEngine.Numeral

/-- The magnitude of a finite double is `significand * 2 ^ exponent`. -/
inductive Datum where
  | finite (negative : Bool) (significand : Nat) (exponent : Int)
  | infinity (negative : Bool)
  | nan
  deriving Repr, DecidableEq

def minExponent : Int := -1074

/-- The leading bit of a significand, which a word leaves out. -/
def hiddenBit : Nat := Nat.pow 2 52

/-- The lowest word that is no magnitude of a finite double. -/
def infinityWord : Nat := 2047 * hiddenBit

def signBit : Nat := Nat.pow 2 63

def Datum.ofWord (w : Nat) : Datum :=
  let negative := w / signBit % 2 == 1
  let field : Nat := w / hiddenBit % 2048
  let low : Nat := w % hiddenBit
  if field == 2047 then if low == 0 then .infinity negative else .nan
  else if field == 0 then .finite negative low minExponent
  else .finite negative (hiddenBit + low) (field + minExponent - 1)

def datum (x : Float) : Datum := .ofWord x.toBits.toNat

/-- The quotient of two naturals to the nearest natural, a half going to the even one. -/
def roundDiv (num den : Nat) : Nat :=
  let q := num / den
  let r := num % den
  if 2 * r < den then q
  else if den < 2 * r then q + 1
  else if q % 2 == 0 then q else q + 1

/-- A magnitude `m * 2 ^ e` as a fraction of naturals. -/
def fraction (m : Nat) (e : Int) : Nat × Nat :=
  if 0 ≤ e then (m * Nat.pow 2 e.toNat, 1) else (m, Nat.pow 2 (-e).toNat)

/-- The word of the double nearest to `m * 2 ^ e`, or none above the range of doubles.
The word of a magnitude counts the doubles below it, so a carry out of the significand moves
on to the next exponent by itself. -/
def nearestWord? (m : Nat) (e : Int) : Option Nat :=
  if m == 0 then some 0
  else
    let top : Int := m.log2 + e
    if 1024 ≤ top then none
    else if top < minExponent - 2 then some 0
    else
      let unit := max (top - 52) minExponent
      let (num, den) := fraction m (e - unit)
      let word := (unit - minExponent).toNat * hiddenBit + roundDiv num den
      if word < infinityWord then some word else none

def ofWord (negative : Bool) (w : Nat) : Float :=
  .ofBits (UInt64.ofNat (if negative then signBit + w else w))

/-- The double nearest to `m * 2 ^ e`; exact when it fits. -/
def ofDyadic (negative : Bool) (m : Nat) (e : Int) : Float :=
  ofWord negative ((nearestWord? m e).getD infinityWord)

/-- The remainder of a truncating division, with the sign of the dividend. It is exact: both
operands are multiples of the smaller of the two units. -/
def remainder (x y : Float) : Float :=
  match datum x, datum y with
  | .finite sx mx ex, .finite _ my ey =>
    if my == 0 then 0.0 / 0.0
    else
      let unit := min ex ey
      let r := (mx * Nat.pow 2 (ex - unit).toNat) % (my * Nat.pow 2 (ey - unit).toNat)
      ofDyadic sx r unit
  | .finite .., .infinity _ => x
  | _, _ => 0.0 / 0.0

/-- The integer nearest to a finite double, a half going to the even one. -/
def roundToInt? (x : Float) : Option Int :=
  match datum x with
  | .finite negative m e =>
    let (num, den) := fraction m e
    let n : Int := roundDiv num den
    some (if negative then -n else n)
  | _ => none

end DerivativeEngine.Numeral
