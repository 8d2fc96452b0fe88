/-!
Points in time, counted in seconds since the first moment of 1970, and the texts that stamp rows.
-/
namespace Inventory.Clock

/-- The year, month and day of a day counted from 1970-01-01. Years are taken to start in March,
so that a leap day is the last day of its year. -/
def civil (day : Nat) : Nat × Nat × Nat :=
  let shifted := day + 719468
  let era := shifted / 146097
  let dayOfEra := shifted % 146097
  let yearOfEra := (dayOfEra - dayOfEra / 1460 + dayOfEra / 36524 - dayOfEra / 146096) / 365
  let dayOfYear := dayOfEra - (365 * yearOfEra + yearOfEra / 4 - yearOfEra / 100)
  let shiftedMonth := (5 * dayOfYear + 2) / 153
  let month := if shiftedMonth < 10 then shiftedMonth + 3 else shiftedMonth - 9
  let year := yearOfEra + era * 400 + (if month ≤ 2 then 1 else 0)
  (year, month, dayOfYear - (153 * shiftedMonth + 2) / 5 + 1)

/-- The decimal digits of `n`, filled with zeros on the left. -/
def padded (width n : Nat) : String :=
  let digits := Nat.toDigits 10 n
  String.ofList (List.replicate (width - digits.length) '0' ++ digits)

/-- The stamp `YYYY-MM-DD HH:MM:SS` of a point in time. -/
def stamp (seconds : Nat) : String :=
  let (year, month, day) := civil (seconds / 86400)
  let rest := seconds % 86400
  padded 4 year ++ "-" ++ padded 2 month ++ "-" ++ padded 2 day ++ " " ++ padded 2 (rest / 3600) ++
    ":" ++ padded 2 (rest % 3600 / 60) ++ ":" ++ padded 2 (rest % 60)

end Inventory.Clock
