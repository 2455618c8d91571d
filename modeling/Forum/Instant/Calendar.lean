import Forum.Instant
namespace Forum

-- A civil date; years before 1 count down through 0.
structure Date where
  year : Int
  month : Nat
  day : Nat
deriving DecidableEq, Repr

namespace Date

def isLeap (year : Int) : Bool := year % 4 == 0 && (year % 100 != 0 || year % 400 == 0)

def daysInMonth (year : Int) : Nat → Nat
  | 2 => if isLeap year then 29 else 28
  | 4 | 6 | 9 | 11 => 30
  | _ => 31

def IsReal (d : Date) : Prop := 1 ≤ d.month ∧ d.month ≤ 12 ∧ 1 ≤ d.day ∧ d.day ≤ daysInMonth d.year d.month

instance (d : Date) : Decidable d.IsReal := inferInstanceAs (Decidable (_ ∧ _ ∧ _ ∧ _))

def toDay (d : Date) : Int :=
  let year := if d.month ≤ 2 then d.year - 1 else d.year
  let era := year / 400
  let yearOfEra := year % 400
  let monthFromMarch : Int := if d.month ≤ 2 then d.month + 9 else d.month - 3
  let dayOfYear := (153 * monthFromMarch + 2) / 5 + d.day - 1
  let dayOfEra := yearOfEra * 365 + yearOfEra / 4 - yearOfEra / 100 + dayOfYear
  era * 146097 + dayOfEra - 719468

def ofDay (day : Int) : Date :=
  let shifted := day + 719468
  let era := shifted / 146097
  let dayOfEra := shifted % 146097
  let yearOfEra := (dayOfEra - dayOfEra / 1460 + dayOfEra / 36524 - dayOfEra / 146096) / 365
  let dayOfYear := dayOfEra - (365 * yearOfEra + yearOfEra / 4 - yearOfEra / 100)
  let monthFromMarch := (5 * dayOfYear + 2) / 153
  let month := if monthFromMarch < 10 then monthFromMarch + 3 else monthFromMarch - 9
  let year := yearOfEra + era * 400
  ⟨if month ≤ 2 then year + 1 else year, month.toNat, (dayOfYear - (153 * monthFromMarch + 2) / 5 + 1).toNat⟩

def weekdayName (day : Int) : String :=
  match (day % 7).toNat with
  | 0 => "Thu" | 1 => "Fri" | 2 => "Sat" | 3 => "Sun" | 4 => "Mon" | 5 => "Tue" | _ => "Wed"

def monthName : Nat → String
  | 1 => "Jan" | 2 => "Feb" | 3 => "Mar" | 4 => "Apr" | 5 => "May" | 6 => "Jun"
  | 7 => "Jul" | 8 => "Aug" | 9 => "Sep" | 10 => "Oct" | 11 => "Nov" | _ => "Dec"

end Date

structure Civil where
  date : Date
  hour : Nat
  minute : Nat
  second : Nat
  nanos : Nat
deriving DecidableEq, Repr

def Instant.day (t : Instant) : Int := t.seconds / 86400

def Instant.civil (t : Instant) : Civil :=
  let ofDay := (t.seconds % 86400).toNat
  ⟨.ofDay t.day, ofDay / 3600, ofDay / 60 % 60, ofDay % 60, t.subsecond⟩

def Civil.seconds (c : Civil) : Int := c.date.toDay * 86400 + c.hour * 3600 + c.minute * 60 + c.second

end Forum
