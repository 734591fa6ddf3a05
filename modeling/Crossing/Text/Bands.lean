/-!
# Tables of characters

Three compact forms of a table over code points: bands, the ascending list of points at which
membership changes; runs, spaced evenly; and shifts, runs whose members all map to a point at
the same distance.
-/

namespace Crossing.Text

/-- Membership in the bands between every other pair of bounds: outside before the first bound,
inside from the first, outside again from the second. -/
def inBands : List Nat → Nat → Bool
  | [], _ => false
  | [start], n => decide (start ≤ n)
  | start :: stop :: rest, n => (decide (start ≤ n) && decide (n < stop)) || inBands rest n

/-- The points `first`, `first + step`, … up to `last`. -/
structure Run where
  first : Nat
  last : Nat
  step : Nat

def Run.contains (r : Run) (n : Nat) : Bool :=
  decide (r.first ≤ n) && decide (n ≤ r.last) && (n - r.first) % r.step == 0

/-- A run of points that map to the point `distance` further on. -/
structure Shift where
  first : Nat
  last : Nat
  step : Nat
  distance : Int

def Shift.contains (s : Shift) (n : Nat) : Bool :=
  decide (s.first ≤ n) && decide (n ≤ s.last) && (n - s.first) % s.step == 0

/-- Where a character goes under the first shift that covers it; itself when none does. -/
def shifted (table : List Shift) (c : Char) : Char :=
  match table.find? (·.contains c.toNat) with
  | some s => Char.ofNat (c.toNat + s.distance).toNat
  | none => c

end Crossing.Text
