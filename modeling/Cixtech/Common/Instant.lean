/-! The text of an instant. Instants are milliseconds since the epoch, and a date's text is
its civil calendar date and time of day in UTC.
-/

namespace Cixtech.Common

/-- The largest time value of a `Date`. -/
def maxTime : Int := 8640000000000000

/-- `new Date(ms)`; beyond the range of a date it is an invalid one, none here. -/
def dateOf (ms : Int) : Option Int := if -maxTime ≤ ms ∧ ms ≤ maxTime then some ms else none

theorem dateOf_eq_some_iff {ms date : Int}
    : dateOf ms = some date ↔ (-maxTime ≤ ms ∧ ms ≤ maxTime) ∧ ms = date := by
  simp [dateOf]

/-- The decimal text of a number, filled up with zeros on the left. -/
def padded (width : Nat) (value : Int) : String :=
  let digits := toString value
  String.ofList (List.replicate (width - digits.length) '0') ++ digits

/-- Year, month and day of a day number counted from the epoch. -/
def civilDate (day : Int) : Int × Int × Int :=
  let shifted := day + 719468
  let era := shifted / 146097
  let dayOfEra := shifted - era * 146097
  let yearOfEra := (dayOfEra - dayOfEra / 1460 + dayOfEra / 36524 - dayOfEra / 146096) / 365
  let dayOfYear := dayOfEra - (365 * yearOfEra + yearOfEra / 4 - yearOfEra / 100)
  -- Months are counted from March, so that a leap day ends its year.
  let monthFromMarch := (5 * dayOfYear + 2) / 153
  let month := if monthFromMarch < 10 then monthFromMarch + 3 else monthFromMarch - 9
  let year := yearOfEra + era * 400 + if month ≤ 2 then 1 else 0
  (year, month, dayOfYear - (153 * monthFromMarch + 2) / 5 + 1)

/-- `Date.prototype.toISOString`. -/
def toISOString (ms : Int) : String :=
  let day := ms / 86400000
  let ofDay := ms - day * 86400000
  let (year, month, dayOfMonth) := civilDate day
  let yearText :=
    if 0 ≤ year ∧ year ≤ 9999 then padded 4 year
    else if year < 0 then "-" ++ padded 6 (-year)
    else "+" ++ padded 6 year
  yearText ++ "-" ++ padded 2 month ++ "-" ++ padded 2 dayOfMonth ++ "T"
    ++ padded 2 (ofDay / 3600000) ++ ":" ++ padded 2 (ofDay / 60000 % 60) ++ ":"
    ++ padded 2 (ofDay / 1000 % 60) ++ "." ++ padded 3 (ofDay % 1000) ++ "Z"

example : toISOString 951827696789 = "2000-02-29T12:34:56.789Z" := by decide

end Cixtech.Common
