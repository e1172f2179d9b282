import SymbolAtlas.Decimal.Reader

/-!
# Dates and times

The dates and times of TOML, and their standard spelling: a date and a time are joined by `T`, a
fraction of a second has at most nine digits and does not end in zero, and an offset from universal
time is `Z` or a sign with hours and minutes.
-/

namespace SymbolAtlas.Toml.Moment

/-- A number of exactly so many digits within bounds, and what follows it. -/
def readNumber (digits low high : Nat) (cs : List Char) : Option (List Char × List Char) := do
  let ds := cs.take digits
  if ds.length < digits then none
  let n ← Decimal.readNat? ds
  if low ≤ n && n ≤ high then some (ds, cs.drop digits) else none

/-- Reads one given character. -/
def readChar (c : Char) : List Char → Option (List Char)
  | d :: rest => if c = d then some rest else none
  | [] => none

def daysOfMonth (year month : Nat) : Nat :=
  if month = 2 then
    if year % 4 = 0 && (year % 100 ≠ 0 || year % 400 = 0) then 29 else 28
  else if month = 4 || month = 6 || month = 9 || month = 11 then 30
  else 31

/-- Reads a date. -/
def readDate (cs : List Char) : Option (List Char × List Char) := do
  let (year, rest) ← readNumber 4 0 9999 cs
  let (month, rest) ← readNumber 2 1 12 (← readChar '-' rest)
  let days := daysOfMonth (Text.natOfDigits year) (Text.natOfDigits month)
  let (day, rest) ← readNumber 2 1 days (← readChar '-' rest)
  some (year ++ '-' :: month ++ '-' :: day, rest)

/-- A fraction of a second in its standard spelling. -/
def standardFraction (digits : List Char) : List Char :=
  match (digits.take 9).reverse.dropWhile (· = '0') with
  | [] => []
  | kept => '.' :: kept.reverse

/-- Reads a time of day. The last second of a day may be a leap second. -/
def readTime (cs : List Char) : Option (List Char × List Char) := do
  let (hour, rest) ← readNumber 2 0 23 cs
  let (minute, rest) ← readNumber 2 0 59 (← readChar ':' rest)
  let (second, rest) ← readNumber 2 0 60 (← readChar ':' rest)
  let whole := hour ++ ':' :: minute ++ ':' :: second
  match rest with
  | '.' :: rest =>
    let digits := rest.takeWhile Char.isDigit
    if digits.isEmpty then none
    else some (whole ++ standardFraction digits, rest.dropWhile Char.isDigit)
  | _ => some (whole, rest)

/-- Reads an offset from universal time, or nothing. No offset is spelled with a minus if it is
zero. -/
def readOffset (cs : List Char) : Option (List Char × List Char) :=
  match cs with
  | [] => some ([], [])
  | c :: rest =>
    if c = 'Z' || c = 'z' then some (['Z'], rest)
    else if c = '+' || c = '-' then do
      let (hours, rest) ← readNumber 2 0 23 rest
      let (minutes, rest) ← readNumber 2 0 59 (← readChar ':' rest)
      let zero := Text.natOfDigits (hours ++ minutes) = 0
      some ((if zero then '+' else c) :: hours ++ ':' :: minutes, rest)
    else some ([], cs)

/-- The standard spelling of a time of day that comes after a date. -/
def clock? (cs : List Char) : Option (List Char) := do
  let (time, rest) ← readTime cs
  let (offset, rest) ← readOffset rest
  if rest.isEmpty then some (time ++ offset) else none

/-- The standard spelling of a date, a time or both. -/
def standard? (cs : List Char) : Option (List Char) :=
  match readDate cs with
  | some (date, []) => some date
  | some (date, c :: rest) =>
    if c = 'T' || c = 't' || c = ' ' then (clock? rest).map fun time => date ++ 'T' :: time
    else none
  | none =>
    match readTime cs with
    | some (time, []) => some time
    | _ => none

end SymbolAtlas.Toml.Moment
