import SpecAtlas.Text.Decimal

/-!
Dates of the proleptic Gregorian calendar, and the text of a time stamp.
-/

namespace SpecAtlas.Calendar

structure Date where
  year : Int
  month : Nat
  day : Nat
deriving DecidableEq, Repr

def Date.toDays (d : Date) : Int :=
  -- years start in March here, so that the leap day is the last of its year
  let y := if d.month ≤ 2 then d.year - 1 else d.year
  let era := y.fdiv 400
  let yearOfEra := y - era * 400
  let month : Int := if d.month ≤ 2 then d.month + 9 else d.month - 3
  let dayOfYear := (153 * month + 2) / 5 + d.day - 1
  era * 146097 + (yearOfEra * 365 + yearOfEra / 4 - yearOfEra / 100 + dayOfYear) - 719468

def Date.ofDays (days : Int) : Date :=
  let z := days + 719468
  let era := z.fdiv 146097
  let dayOfEra := z - era * 146097
  let yearOfEra := (dayOfEra - dayOfEra / 1460 + dayOfEra / 36524 - dayOfEra / 146096) / 365
  let dayOfYear := dayOfEra - (365 * yearOfEra + yearOfEra / 4 - yearOfEra / 100)
  let month := (5 * dayOfYear + 2) / 153
  let day := dayOfYear - (153 * month + 2) / 5 + 1
  let month := if month < 10 then month + 3 else month - 9
  let year := yearOfEra + era * 400 + if month ≤ 2 then 1 else 0
  { year, month := month.toNat, day := day.toNat }

def padded (width n : Nat) : String :=
  let ds := Text.digits n
  String.ofList (List.replicate (width - ds.length) '0' ++ ds)

def earliest : Int := Date.toDays ⟨-9999, 1, 1⟩ * 86400

def latest : Int := (Date.toDays ⟨9999, 12, 31⟩ + 1) * 86400 - 1

/-- The text of a moment given in seconds since 1970-01-01, if it lies in the years -9999 to
9999. -/
def stampText? (seconds : Int) : Option String :=
  if seconds < earliest || latest < seconds then none
  else
    let date := Date.ofDays (seconds.fdiv 86400)
    let second := (seconds.fmod 86400).toNat
    let minuteSecond :=
      ":" ++ padded 2 (second / 60 % 60) ++ ":" ++ padded 2 (second % 60)
    let monthDay := "-" ++ padded 2 date.month ++ "-" ++ padded 2 date.day
    if 0 ≤ date.year then
      some (padded 4 date.year.toNat ++ monthDay ++ "T" ++ padded 2 (second / 3600)
        ++ minuteSecond ++ "Z")
    else
      -- years before year 0 have no standard form and are written out in full
      some ("-" ++ padded 4 date.year.natAbs ++ monthDay ++ " " ++ padded 1 (second / 3600)
        ++ minuteSecond ++ ".0 +00:00:00")

def stampOfWord? (seconds : UInt64) : Option String := stampText? seconds.toInt64.toInt

end SpecAtlas.Calendar
