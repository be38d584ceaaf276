import SynthControl.Toml.Layout

/-!
# Dates and times of TOML

* `twoDigits?` — a number of two digits in a range;
* `daysIn` — the days of a month;
* `date?`, `time?`, `skipOffset` — a date, a time of day, and a distance from universal time;
* `moment?` — a date, a time of day, or both with a distance; its text and the rest.

A date that no time of day follows stands for itself.
-/

namespace SynthControl.Toml

/-- A number of `n` decimal digits. -/
def digits? (n : Nat) (s : List Char) : Option (Nat × List Char) :=
  let ds := s.take n
  if ds.length = n ∧ ds.all Char.isDigit then
    some (ds.foldl (fun v c => 10 * v + (c.toNat - '0'.toNat)) 0, s.drop n)
  else none

/-- A number of two digits in a range. -/
def twoDigits? (low high : Nat) (s : List Char) : Option (Nat × List Char) :=
  (digits? 2 s).filter fun p => low ≤ p.1 && p.1 ≤ high

/-- What follows a mark. -/
def mark? (c : Char) : List Char → Option (List Char)
  | a :: r => if a = c then some r else none
  | [] => none

/-- The days of a month. -/
def daysIn (year month : Nat) : Nat :=
  if month = 2 then
    if year % 4 = 0 ∧ (year % 100 ≠ 0 ∨ year % 400 = 0) then 29 else 28
  else if month = 4 ∨ month = 6 ∨ month = 9 ∨ month = 11 then 30
  else 31

/-- What follows a date. -/
def date? (s : List Char) : Option (List Char) := do
  let (year, r) ← digits? 4 s
  let (month, r) ← twoDigits? 1 12 (← mark? '-' r)
  let (_, r) ← twoDigits? 1 (daysIn year month) (← mark? '-' r)
  return r

/-- What follows a fraction of a second, if there is one. -/
def skipFraction : List Char → List Char
  | '.' :: c :: r => if c.isDigit then r.dropWhile Char.isDigit else '.' :: c :: r
  | s => s

/-- What follows hours and minutes. -/
def hoursMinutes? (s : List Char) : Option (List Char) := do
  let (_, r) ← twoDigits? 0 23 s
  let (_, r) ← twoDigits? 0 59 (← mark? ':' r)
  return r

/-- What follows a time of day. -/
def time? (s : List Char) : Option (List Char) := do
  let r ← hoursMinutes? s
  let (_, r) ← twoDigits? 0 60 (← mark? ':' r)
  return skipFraction r

/-- What follows a distance from universal time, if there is one. -/
def skipOffset (s : List Char) : List Char :=
  match s with
  | c :: r =>
    if c = 'Z' ∨ c = 'z' then r
    else if c = '+' ∨ c = '-' then (hoursMinutes? r).getD s
    else s
  | [] => s

/-- What follows a time of day behind a date, if there is one. -/
def skipTime (s : List Char) : List Char :=
  match s with
  | c :: r =>
    if c = 'T' ∨ c = 't' ∨ c = ' ' then ((time? r).map skipOffset).getD s else s
  | [] => s

/-- What follows a date, a time of day, or both. -/
def skipMoment? (s : List Char) : Option (List Char) := ((date? s).map skipTime).or (time? s)

/-- A date, a time of day, or both, as it is written. -/
def moment? (s : List Char) : Option (String × List Char) :=
  (skipMoment? s).map fun r => (String.ofList (s.take (s.length - r.length)), r)

end SynthControl.Toml
