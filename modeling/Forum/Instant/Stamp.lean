import Forum.Instant.Calendar
import Forum.Text.Blank
import Forum.Text.Numeral
namespace Forum

def yearText (year : Int) : String :=
  if 0 ≤ year ∧ year ≤ 9999 then Text.padded 4 year.toNat
  else (if year < 0 then "-" else "+") ++ Text.padded 4 year.natAbs

def fractionText (nanos : Nat) : String :=
  if nanos = 0 then ""
  else if nanos % 1000000 = 0 then "." ++ Text.padded 3 (nanos / 1000000)
  else if nanos % 1000 = 0 then "." ++ Text.padded 6 (nanos / 1000)
  else "." ++ Text.padded 9 nanos

-- A written instant. `leap` marks the sixty-first second of its minute, which is stored as the
-- instant one second earlier.
structure Stamp where
  instant : Instant
  leap : Bool := false
deriving DecidableEq

namespace Stamp

def text (s : Stamp) : String :=
  let c := s.instant.civil
  let two := Text.padded 2
  let second := if s.leap then c.second + 1 else c.second
  yearText c.date.year ++ "-" ++ two c.date.month ++ "-" ++ two c.date.day ++ "T" ++ two c.hour ++ ":" ++
    two c.minute ++ ":" ++ two second ++ fractionText c.nanos ++ "Z"

-- One to `most` digits. Like all readers here it returns what is left to read.
def number (most : Nat) (cs : List Char) : Option (Nat × List Char) := do
  let taken := (cs.take most).takeWhile Char.isDigit
  return (← Text.natural? taken, cs.drop taken.length)

def spaced (most : Nat) (cs : List Char) : Option (Nat × List Char) := number most (Text.trimLeft cs)

def year (cs : List Char) : Option (Int × List Char) :=
  match Text.trimLeft cs with
  | '-' :: rest => (number rest.length rest).map fun (n, r) => (-(Int.ofNat n), r)
  | '+' :: rest => (number rest.length rest).map fun (n, r) => (Int.ofNat n, r)
  | rest => (number 4 rest).map fun (n, r) => (Int.ofNat n, r)

def sign (expected : Char) : List Char → Option (Unit × List Char)
  | c :: rest => if c = expected then some ((), rest) else none
  | [] => none

-- An optional point with digits, of which the first nine count.
def fraction : List Char → Option (Nat × List Char)
  | '.' :: rest => do
    let (n, after) ← number 9 rest
    return (n * Nat.pow 10 (9 - (rest.length - after.length)), after.dropWhile Char.isDigit)
  | cs => some (0, cs)

def twoDigits : List Char → Option (Nat × List Char)
  | a :: b :: rest => if a.isDigit && b.isDigit then (Text.natural? [a, b]).map (·, rest) else none
  | _ => none

def offset (cs : List Char) : Option (Int × List Char) :=
  match Text.trimLeft cs with
  | 'Z' :: rest | 'z' :: rest => some (0, rest)
  | a :: b :: c :: rest =>
    if [a, b, c].map Char.toUpper = ['U', 'T', 'C'] then some (0, rest)
    else if a = '+' ∨ a = '-' ∨ a = '−' then do
      let (hours, afterHours) ← twoDigits (b :: c :: rest)
      let (minutes, after) ← twoDigits (afterHours.dropWhile fun x => x = ':' || Text.isBlank x)
      if minutes ≤ 59 then
        let seconds : Int := hours * 3600 + minutes * 60
        some (if a = '+' then seconds else -seconds, after)
      else none
    else none
  | _ => none

def ofChars? (cs : List Char) : Option Stamp := do
  let (y, cs) ← year cs
  let ((), cs) ← sign '-' (Text.trimLeft cs)
  let (month, cs) ← spaced 2 cs
  let ((), cs) ← sign '-' (Text.trimLeft cs)
  let (day, cs) ← spaced 2 cs
  let cs ← match cs with
    | c :: rest => if c = 'T' ∨ c = 't' ∨ c = ' ' then some rest else none
    | [] => none
  let (hour, cs) ← spaced 2 cs
  let ((), cs) ← sign ':' (Text.trimLeft cs)
  let (minute, cs) ← spaced 2 cs
  let ((), cs) ← sign ':' (Text.trimLeft cs)
  let (second, cs) ← spaced 2 cs
  let (nanos, cs) ← fraction cs
  let (ahead, cs) ← offset cs
  if Text.trimLeft cs ≠ [] then none
  else
    let date : Date := ⟨y, month, day⟩
    if ¬date.IsReal ∨ hour > 23 ∨ minute > 59 ∨ second > 60 ∨ ahead.natAbs ≥ 86400 then none
    else
      let leap := second = 60
      let civil : Civil := ⟨date, hour, minute, if leap then 59 else second, nanos⟩
      let instant ← Instant.ofNanos? ((civil.seconds - ahead) * 1000000000 + nanos)
      if ahead = 0 ∨ (Instant.ofNanos? (civil.seconds * 1000000000)).isSome then some ⟨instant, leap⟩ else none

end Stamp

namespace Instant

def text (t : Instant) : String := Stamp.text ⟨t, false⟩

def cookieDate (t : Instant) : String :=
  let c := t.civil
  let two := Text.padded 2
  Date.weekdayName t.day ++ ", " ++ two c.date.day ++ " " ++ Date.monthName c.date.month ++ " " ++
    yearText c.date.year ++ " " ++ two c.hour ++ ":" ++ two c.minute ++ ":" ++ two c.second ++ " GMT"

end Instant
end Forum
