import Crossing.Decimal.Shortest

/-!
# How numbers are written

Integers are written plainly. A double is written by its shortest decimal: positionally when the
exponent of its leading digit is at least -4 and below 16, always with a fractional part, and
otherwise with a signed exponent of two digits or more.
-/

namespace Crossing.Decimal

/-- The digits of a natural number. -/
def digitsOf (n : Nat) : List Char := Nat.toDigits 10 n

/-- The digits without the zeros at their end. -/
def trimZeros (ds : List Char) : List Char := (ds.reverse.dropWhile (· == '0')).reverse

/-- The leading exponents that are written positionally. -/
def isPositional (exponent : Int) : Bool := decide (-4 ≤ exponent) && decide (exponent < 16)

/-- Digits around a decimal point, which stands behind the digit of exponent zero. -/
def positional (ds : List Char) (exponent : Int) : List Char :=
  if exponent < 0 then '0' :: '.' :: List.replicate (-exponent - 1).toNat '0' ++ ds
  else
    let whole := exponent.toNat + 1
    let padded := ds ++ List.replicate (whole - ds.length) '0'
    let fraction := padded.drop whole
    padded.take whole ++ '.' :: (if fraction.isEmpty then ['0'] else fraction)

/-- A mark, a sign and an exponent of at least two digits. -/
def exponentMark (exponent : Int) : List Char :=
  let ds := digitsOf exponent.natAbs
  'e' :: (if exponent < 0 then '-' else '+') :: (if ds.length < 2 then '0' :: ds else ds)

/-- One digit before the point, the others behind it, and an exponent. -/
def scientific (ds : List Char) (exponent : Int) : List Char :=
  match ds with
  | [] => exponentMark exponent
  | [d] => d :: exponentMark exponent
  | d :: rest => d :: '.' :: rest ++ exponentMark exponent

/-- The text of a decimal. -/
def Scaled.write (d : Scaled) : List Char :=
  if d.digits = 0 then ['0', '.', '0']
  else
    let all := digitsOf d.digits
    let exponent := d.exponent + all.length - 1
    let ds := trimZeros all
    if isPositional exponent then positional ds exponent else scientific ds exponent

/-- What stands for the values that have no decimal. -/
structure Names where
  infinite : String
  undefined : String

/-- The text of a double. -/
def writeFloat (names : Names) (x : Float) : String :=
  let bits := x.toBits.toNat
  let sign := if bits / Nat.pow 2 63 = 1 then "-" else ""
  match magnitudeOfBits bits with
  | .finite b => sign ++ String.ofList (shortest b).write
  | .infinite => sign ++ names.infinite
  | .undefined => names.undefined

/-- The double nearest to `mantissa · 10 ^ exponent`. Exponents far out of range are cut short, as
the result no longer depends on them. -/
def readFloat (negative : Bool) (mantissa : Nat) (exponent : Int) : Float :=
  let lead := (digitCount mantissa : Int) + exponent
  let magnitude :=
    if mantissa = 0 ∨ lead < -400 then 0
    else if lead > 400 then 1 / 0
    else if exponent < 0 then Float.ofScientific mantissa true exponent.natAbs
    else Float.ofScientific mantissa false exponent.natAbs
  if negative then -magnitude else magnitude

end Crossing.Decimal
