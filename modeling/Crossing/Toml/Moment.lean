import Crossing.Toml.Quoted

/-!
# Dates and times in TOML

A date, a time of day, or both with a `T` or a blank between them, and then perhaps the distance
of the zone. A date is one of the calendar: its day lies in its month, and no year is zero.
Seconds may be left out. A moment is read as the numbers that it is made of, from the year or the
hour down to the second; a fraction of the second and the zone do not count.
-/

namespace Crossing.Toml

open Json.Parser (isDigit natOf)

/-- Two digits that spell a number between two others. -/
def twoDigits? (low high : Nat) : Input → Option (Nat × Input)
  | a :: b :: s =>
    let n := natOf [a, b]
    if isDigit a && isDigit b && decide (low ≤ n) && decide (n ≤ high) then some (n, s) else none
  | _ => none

/-- The text behind a character, if it starts with that. -/
def mark? (c : Char) : Input → Option Input
  | d :: s => if d = c then some s else none
  | [] => none

def isLeapYear (year : Nat) : Bool := (year % 4 == 0 && year % 100 != 0) || year % 400 == 0

/-- The number of days of a month. -/
def daysOf (year month : Nat) : Nat :=
  if month = 2 then if isLeapYear year then 29 else 28
  else if [4, 6, 9, 11].contains month then 30
  else 31

/-- A date of the calendar. -/
def date? : Input → Option (List Nat × Input)
  | a :: b :: c :: d :: s => do
    let year := natOf [a, b, c, d]
    if [a, b, c, d].all isDigit && year != 0 then
      let s ← mark? '-' s
      let (month, s) ← twoDigits? 1 12 s
      let s ← mark? '-' s
      let (day, s) ← twoDigits? 1 (daysOf year month) s
      pure ([year, month, day], s)
    else none
  | _ => none

/-- Hours and minutes with a colon between them. -/
def hourMinute? (s : Input) : Option (List Nat × Input) := do
  let (hour, s) ← twoDigits? 0 23 s
  let s ← mark? ':' s
  let (minute, s) ← twoDigits? 0 59 s
  pure ([hour, minute], s)

/-- The text behind a fraction, if it starts with one. -/
def skipFraction (s : Input) : Input :=
  match mark? '.' s with
  | none => s
  | some rest => if rest.head?.any isDigit then rest.dropWhile isDigit else s

/-- A time of day. The second is zero where it is left out. -/
def time? (s : Input) : Option (List Nat × Input) := do
  let (start, s) ← hourMinute? s
  match (mark? ':' s).bind (twoDigits? 0 59) with
  | none => pure (start ++ [0], s)
  | some (second, s) => pure (start ++ [second], skipFraction s)

/-- The text behind the distance of a zone, if it starts with one. -/
def skipZone : Input → Input
  | [] => []
  | c :: s =>
    if c = 'Z' ∨ c = 'z' then s
    else if c = '+' ∨ c = '-' then
      match hourMinute? s with
      | some (_, rest) => rest
      | none => c :: s
    else c :: s

/-- The time behind a date. -/
def timeOfDate? : Input → Option (List Nat × Input)
  | [] => none
  | c :: s =>
    if c = 'T' ∨ c = 't' ∨ c = ' ' then (time? s).map fun (time, s) => (time, skipZone s) else none

/-- A date, a time, or both. -/
def moment? (s : Input) : Option (List Nat × Input) :=
  match date? s with
  | none => time? s
  | some (date, s) =>
    match timeOfDate? s with
    | none => some (date, s)
    | some (time, s) => some (date ++ time, s)

end Crossing.Toml
