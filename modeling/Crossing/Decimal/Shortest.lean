/-!
# The shortest decimal of a binary number

A finite double is `m · 2 ^ q` for natural `m`, and the reals that round to it form an interval
around it, whose ends belong to it when `m` is even. Of all decimals with at most seventeen digits
in the interval `shortest` takes one with the fewest digits, and of these the nearest. A grid that
meets the interval at all meets it in one of the two grid points next to the number, so only these
are tried.
-/

namespace Crossing.Decimal

/-- The number `mantissa · 2 ^ exponent`. -/
structure Binary where
  mantissa : Nat
  exponent : Int
  deriving DecidableEq

/-- The number `digits · 10 ^ exponent`. -/
structure Scaled where
  digits : Nat
  exponent : Int
  deriving DecidableEq

/-- A double without its sign. -/
inductive Magnitude where
  | finite (value : Binary)
  | infinite
  | undefined

/-- The bit above the 52 bits of a mantissa, which normal doubles have without writing it. -/
def hiddenBit : Nat := Nat.pow 2 52

/-- The parts of a double: the sign bit, eleven bits of exponent and 52 of mantissa. -/
def magnitudeOfBits (bits : Nat) : Magnitude :=
  let exponent : Nat := bits / hiddenBit % 2048
  let fraction : Nat := bits % hiddenBit
  if exponent = 2047 then if fraction = 0 then .infinite else .undefined
  else if exponent = 0 then .finite ⟨fraction, -1074⟩
  else .finite ⟨fraction + hiddenBit, (exponent : Int) - 1075⟩

/-- `base ^ exponent` as a fraction. -/
def power (base : Nat) : Int → Nat × Nat
  | .ofNat n => (base.pow n, 1)
  | .negSucc n => (1, base.pow (n + 1))

/-- Four times the lower end of the interval of a number, in units of the last place of its
mantissa. The lower half of the interval is half as wide at the bottom of a binade. -/
def lowerEnd (b : Binary) : Nat :=
  if b.mantissa = hiddenBit ∧ b.exponent ≠ -1074 then 4 * b.mantissa - 1 else 4 * b.mantissa - 2

def upperEnd (b : Binary) : Nat := 4 * b.mantissa + 2

/-- Whether a decimal rounds to the number. -/
def readsBack (b : Binary) (d : Scaled) : Bool :=
  let (num, den) := power 2 b.exponent
  let (top, bottom) := power 10 d.exponent
  let point := 4 * d.digits * top * den
  let low := lowerEnd b * num * bottom
  let high := upperEnd b * num * bottom
  if b.mantissa % 2 = 0 then decide (low ≤ point) && decide (point ≤ high)
  else decide (low < point) && decide (point < high)

/-- The number of decimal digits of a natural number. -/
def digitCount (n : Nat) : Nat := (Nat.toDigits 10 n).length

/-- The exponent of the leading decimal digit of a positive number. -/
def leadingExponent (b : Binary) : Int :=
  let (num, den) := power 2 b.exponent
  let whole := b.mantissa * num / den
  if whole ≠ 0 then (digitCount whole : Int) - 1
  else
    -- scaled by a power of ten that makes every double at least one
    (digitCount (b.mantissa * num * Nat.pow 10 330 / den) : Int) - 1 - 330

/-- The grid points next to a number on the grid of `10 ^ exponent`: the one below or at it, and
the distances to it and to the next one as numbers to compare. -/
def neighbours (b : Binary) (exponent : Int) : Nat × Nat × Nat :=
  let (num, den) := power 2 b.exponent
  let (top, bottom) := power 10 exponent
  let value := b.mantissa * num * bottom
  let unit := den * top
  let below := value / unit
  (below, value - below * unit, (below + 1) * unit - value)

/-- The decimal with `count` leading digits next to a number, if one reads back; the nearer of
two, and the even one of two that are equally near. -/
def withDigits (b : Binary) (count : Nat) : Option Scaled :=
  let exponent := leadingExponent b - (count - 1)
  let (below, down, up) := neighbours b exponent
  let lower : Scaled := ⟨below, exponent⟩
  let higher : Scaled := ⟨below + 1, exponent⟩
  match readsBack b lower, readsBack b higher with
  | true, false => some lower
  | false, true => some higher
  | true, true =>
    if down < up ∨ (down = up ∧ below % 2 = 0) then some lower else some higher
  | false, false => none

/-- The shortest decimal that reads back as a number; zero for zero. -/
def shortest (b : Binary) : Scaled :=
  if b.mantissa = 0 then ⟨0, 0⟩
  else ((List.range 17).findSome? fun n => withDigits b (n + 1)).getD ⟨0, 0⟩

end Crossing.Decimal
