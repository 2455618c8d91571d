import Forum.Instant.Calendar
import Forum.Text.Numeral
-- Settings files in TOML. Reading gives the keys of the file with their values, or nothing if the
-- text is no TOML: a key may be set once, a table may be opened once, and dotted keys may add only
-- to tables that dotted keys made. Fractions and dates are checked but their values are not kept,
-- because no setting has one.
namespace Forum.Toml

-- How a table came about, which decides what may still be added to it.
inductive Origin
  | header
  | implied
  | dotted
deriving DecidableEq, Repr

inductive Item
  | text (value : String)
  | integer (value : Int)
  | truth (value : Bool)
  | fraction
  | moment
  | list (items : List Item)
  | inlined (entries : List (String × Item))
  | table (origin : Origin) (entries : List (String × Item))
  | tables (latestFirst : List (List (String × Item)))

abbrev Entries := List (String × Item)

namespace Entries

def put (key : String) (item : Item) : Entries → Entries
  | [] => [(key, item)]
  | (k, i) :: rest => if k = key then (key, item) :: rest else (k, i) :: put key item rest

-- Changes the table at the end of a path. Missing tables on the way are made. The path of a dotted
-- key cannot pass through a table that has a header of its own.
def alter (dotted : Bool) (change : Origin → Entries → Option Entries) :
    List String → Origin → Entries → Option Entries
  | [], origin, entries => change origin entries
  | key :: path, _, entries =>
    match entries.lookup key with
    | none => do
      let origin := if dotted then .dotted else .implied
      let inner ← alter dotted change path origin []
      return put key (.table origin inner) entries
    | some (.table origin inner) =>
      if dotted && origin == .header then none
      else do return put key (.table origin (← alter dotted change path origin inner)) entries
    | some (.tables (latest :: earlier)) => do
      return put key (.tables ((← alter dotted change path .header latest) :: earlier)) entries
    | some _ => none

def define (path : List String) (key : String) (item : Item) (entries : Entries) : Option Entries :=
  alter true (fun origin inner =>
    if (origin == .dotted) == path.isEmpty || (inner.lookup key).isSome then none
    else some (put key item inner)) path .header entries

def openTable (path : List String) (key : String) (entries : Entries) : Option Entries :=
  alter false (fun _ inner =>
    match inner.lookup key with
    | none => some (put key (.table .header []) inner)
    | some (.table .implied known) => some (put key (.table .header known) inner)
    | some _ => none) path .header entries

def openRepeated (path : List String) (key : String) (entries : Entries) : Option Entries :=
  alter false (fun _ inner =>
    match inner.lookup key with
    | none => some (put key (.tables [[]]) inner)
    | some (.tables known) => some (put key (.tables ([] :: known)) inner)
    | some _ => none) path .header entries

end Entries

def depthLimit : Nat := 80

def expect (c : Char) : List Char → Option (List Char)
  | d :: rest => if d = c then some rest else none
  | [] => none

def skipBlank (cs : List Char) : List Char := cs.dropWhile fun c => c = ' ' ∨ c = '\t'

def isPlain (c : Char) : Bool := c = '\t' || (' ' ≤ c && c ≠ '\x7f')

def endOfLine (cs : List Char) : Option (List Char) :=
  let cs := skipBlank cs
  let cs := match cs with
    | '#' :: rest => rest.dropWhile isPlain
    | cs => cs
  match cs with
  | [] => some []
  | '\n' :: rest => some rest
  | '\r' :: '\n' :: rest => some rest
  | _ => none

def skipLines : Nat → List Char → Option (List Char)
  | 0, cs => some cs
  | fuel + 1, cs =>
    match skipBlank cs with
    | '#' :: rest => do skipLines fuel (← endOfLine ('#' :: rest))
    | '\n' :: rest => skipLines fuel rest
    | '\r' :: '\n' :: rest => skipLines fuel rest
    | rest => some rest

namespace Quoted

def hexValue? (c : Char) : Option Nat :=
  if c.isDigit then some (c.toNat - 48)
  else if 'a' ≤ c ∧ c ≤ 'f' then some (c.toNat - 87)
  else if 'A' ≤ c ∧ c ≤ 'F' then some (c.toNat - 55)
  else none

def ofHex? (digits : List Char) : Option Char := do
  let n := (← digits.mapM hexValue?).foldl (fun n d => n * 16 + d) 0
  if n.isValidChar then some (.ofNat n) else none

def escape? : List Char → Option (Char × List Char)
  | 'b' :: rest => some ('\x08', rest)
  | 't' :: rest => some ('\t', rest)
  | 'n' :: rest => some ('\n', rest)
  | 'f' :: rest => some ('\x0c', rest)
  | 'r' :: rest => some ('\r', rest)
  | '"' :: rest => some ('"', rest)
  | '\\' :: rest => some ('\\', rest)
  | 'u' :: rest => if rest.length < 4 then none else do some (← ofHex? (rest.take 4), rest.drop 4)
  | 'U' :: rest => if rest.length < 8 then none else do some (← ofHex? (rest.take 8), rest.drop 8)
  | _ => none

def basic : Nat → List Char → List Char → Option (String × List Char)
  | 0, _, _ => none
  | fuel + 1, done, cs =>
    match cs with
    | '"' :: rest => some (.ofList done.reverse, rest)
    | '\\' :: rest => do
      let (c, rest) ← escape? rest
      basic fuel (c :: done) rest
    | c :: rest => if isPlain c then basic fuel (c :: done) rest else none
    | [] => none

def literal (cs : List Char) : Option (String × List Char) :=
  let inside := fun c : Char => isPlain c && c ≠ '\''
  match cs.dropWhile inside with
  | '\'' :: rest => some (.ofList (cs.takeWhile inside), rest)
  | _ => none

-- Up to two more quotes may stand before the three that end a long string.
def closing? (quote : Char) : List Char → Option (List Char × List Char)
  | a :: b :: c :: rest =>
    if a = quote ∧ b = quote ∧ c = quote then
      let extra := (rest.take 2).takeWhile (· = quote)
      some (extra, rest.drop extra.length)
    else none
  | _ => none

def skipFold (cs : List Char) : Option (List Char) :=
  let isGap := fun c : Char => c = ' ' || c = '\t' || c = '\n' || c = '\r'
  match skipBlank cs with
  | '\n' :: rest => some (rest.dropWhile isGap)
  | '\r' :: '\n' :: rest => some (rest.dropWhile isGap)
  | _ => none

def long (quote : Char) : Nat → List Char → List Char → Option (String × List Char)
  | 0, _, _ => none
  | fuel + 1, done, cs =>
    match closing? quote cs with
    | some (extra, rest) => some (.ofList (done.reverse ++ extra), rest)
    | none =>
      match cs with
      | '\n' :: rest => long quote fuel ('\n' :: done) rest
      | '\r' :: '\n' :: rest => long quote fuel ('\n' :: done) rest
      | '\\' :: rest =>
        if quote = '"' then
          match skipFold rest with
          | some rest => long quote fuel done rest
          | none => do
            let (c, rest) ← escape? rest
            long quote fuel (c :: done) rest
        else long quote fuel ('\\' :: done) rest
      | c :: rest => if isPlain c then long quote fuel (c :: done) rest else none
      | [] => none

-- An end of line right after the opening quotes is no part of a long string.
def dropFirstEnd : List Char → List Char
  | '\n' :: rest => rest
  | '\r' :: '\n' :: rest => rest
  | cs => cs

def any (cs : List Char) : Option (String × List Char) :=
  match cs with
  | '"' :: '"' :: '"' :: rest => long '"' (cs.length + 1) [] (dropFirstEnd rest)
  | '\'' :: '\'' :: '\'' :: rest => long '\'' (cs.length + 1) [] (dropFirstEnd rest)
  | '"' :: rest => basic (cs.length + 1) [] rest
  | '\'' :: rest => literal rest
  | _ => none

end Quoted

namespace Key

def isBare (c : Char) : Bool := c.isAlphanum || c = '-' || c = '_'

def part (cs : List Char) : Option (String × List Char) :=
  match cs with
  | '"' :: rest => Quoted.basic (cs.length + 1) [] rest
  | '\'' :: rest => Quoted.literal rest
  | _ => if cs.takeWhile isBare = [] then none else some (.ofList (cs.takeWhile isBare), cs.dropWhile isBare)

def parts : Nat → List Char → Option (List String × List Char)
  | 0, _ => none
  | fuel + 1, cs => do
    let (first, rest) ← part (skipBlank cs)
    match skipBlank rest with
    | '.' :: rest =>
      let (more, rest) ← parts fuel rest
      return (first :: more, rest)
    | rest => return ([first], rest)

def path (cs : List Char) : Option ((List String × String) × List Char) := do
  let (found, rest) ← parts (cs.length + 1) cs
  if depthLimit ≤ found.length then none
  else return ((found.dropLast, ← found.getLast?), rest)

end Key

namespace Number

def grouped (isDigit : Char → Bool) : List Char → List Char × List Char
  | '_' :: c :: rest => if isDigit c then let (ds, r) := grouped isDigit rest; (c :: ds, r) else ([], '_' :: c :: rest)
  | c :: rest => if isDigit c then let (ds, r) := grouped isDigit rest; (c :: ds, r) else ([], c :: rest)
  | [] => ([], [])

def digits (isDigit : Char → Bool) (cs : List Char) : Option (List Char × List Char) :=
  match cs with
  | c :: _ => if isDigit c then some (grouped isDigit cs) else none
  | [] => none

def decimal : List Char → Option (List Char × List Char)
  | '0' :: rest => some (['0'], rest)
  | cs => digits Char.isDigit cs

def signed (cs : List Char) : Bool × List Char :=
  match cs with
  | '-' :: rest => (true, rest)
  | '+' :: rest => (false, rest)
  | _ => (false, cs)

def ofDigits (base : Nat) (ds : List Char) : Nat :=
  ds.foldl (fun n c => n * base + (Quoted.hexValue? c).getD 0) 0

def inRange (n : Int) : Option Int :=
  if -9223372036854775808 ≤ n ∧ n ≤ 9223372036854775807 then some n else none

def based (base : Nat) (cs : List Char) : Option (Item × List Char) := do
  let (ds, rest) ← digits (fun c => (Quoted.hexValue? c).any (· < base)) cs
  return (.integer (← inRange (ofDigits base ds)), rest)

def integer (cs : List Char) : Option (Item × List Char) :=
  match cs with
  | '0' :: 'x' :: rest => based 16 rest
  | '0' :: 'o' :: rest => based 8 rest
  | '0' :: 'b' :: rest => based 2 rest
  | _ => do
    let (negative, cs) := signed cs
    let (ds, rest) ← decimal cs
    let n : Int := ofDigits 10 ds
    return (.integer (← inRange (if negative then -n else n)), rest)

def exponent (cs : List Char) : Option (Option Int × List Char) :=
  match cs with
  | c :: rest =>
    if c = 'e' ∨ c = 'E' then do
      let (negative, rest) := signed rest
      let (ds, rest) ← digits Char.isDigit rest
      let n : Int := ofDigits 10 ds
      return (some (if negative then -n else n), rest)
    else some (none, cs)
  | [] => some (none, [])

-- A number with a point, an exponent or both. Too large positive ones are refused.
def pointed (cs : List Char) : Option (Item × List Char) := do
  let (negative, cs) := signed cs
  let (whole, rest) ← decimal cs
  let (places, rest) ← match rest with
    | '.' :: rest => (digits Char.isDigit rest).map fun (ds, r) => (some ds, r)
    | _ => some (none, rest)
  let (power, rest) ← exponent rest
  if places.isNone && power.isNone then none
  else
    let decimals := places.getD []
    let significand := ofDigits 10 (whole ++ decimals)
    if !negative && Text.isHuge significand (power.getD 0 - decimals.length) then none
    else return (.fraction, rest)

def special (cs : List Char) : Option (Item × List Char) :=
  match (signed cs).2 with
  | 'i' :: 'n' :: 'f' :: rest => some (.fraction, rest)
  | 'n' :: 'a' :: 'n' :: rest => some (.fraction, rest)
  | _ => none

end Number

namespace Moment

def fixed (count : Nat) (cs : List Char) : Option (Nat × List Char) := do
  let ds := cs.take count
  if ds.length = count then return (← Text.natural? ds, cs.drop count) else none

def date (cs : List Char) : Option (List Char) := do
  let (year, cs) ← fixed 4 cs
  let (month, cs) ← fixed 2 (← expect '-' cs)
  let (day, cs) ← fixed 2 (← expect '-' cs)
  if (Date.mk year month day).IsReal then some cs else none

def time (cs : List Char) : Option (List Char) := do
  let (hour, cs) ← fixed 2 cs
  let (minute, cs) ← fixed 2 (← expect ':' cs)
  let (second, cs) ← fixed 2 (← expect ':' cs)
  if hour > 23 ∨ minute > 59 ∨ second > 60 then none
  else match cs with
    | '.' :: c :: rest => if c.isDigit then some (rest.dropWhile Char.isDigit) else none
    | ['.'] => none
    | _ => some cs

def offset (cs : List Char) : Option (List Char) :=
  match cs with
  | 'Z' :: rest | 'z' :: rest => some rest
  | c :: rest =>
    if c = '+' ∨ c = '-' then do
      let (hour, rest) ← fixed 2 rest
      let (minute, rest) ← fixed 2 (← expect ':' rest)
      if hour > 23 ∨ minute > 59 then none else some rest
    else some cs
  | [] => some []

def read (cs : List Char) : Option (Item × List Char) :=
  match date cs with
  | some rest =>
    let joined := match rest with
      | c :: after => if c = 'T' ∨ c = 't' ∨ c = ' ' then time after else none
      | [] => none
    match joined with
    | some after => (offset after).map (.moment, ·)
    | none => some (.moment, rest)
  | none => (time cs).map (.moment, ·)

end Moment

def word (expected : String) (cs : List Char) : Option (List Char) :=
  if expected.toList.isPrefixOf cs then some (cs.drop expected.length) else none

mutual
def value : Nat → (depth : Nat) → List Char → Option (Item × List Char)
  | 0, _, _ => none
  | fuel + 1, depth, cs =>
    match cs with
    | '"' :: _ | '\'' :: _ => do
      let (s, rest) ← Quoted.any cs
      return (.text s, rest)
    | '[' :: rest => do
      if depthLimit ≤ depth + 1 then none
      else
        let (items, rest) ← listItems fuel (depth + 1) rest
        return (.list items, rest)
    | '\x7b' :: rest => do
      if depthLimit ≤ depth + 1 then none
      else match skipBlank rest with
        | '\x7d' :: rest => return (.inlined [], rest)
        | rest =>
          let (entries, rest) ← pairs fuel (depth + 1) [] rest
          return (.inlined entries, rest)
    | 't' :: _ => (word "true" cs).map (.truth true, ·)
    | 'f' :: _ => (word "false" cs).map (.truth false, ·)
    | _ => (Moment.read cs).or ((Number.special cs).or ((Number.pointed cs).or (Number.integer cs)))

def listItems : Nat → (depth : Nat) → List Char → Option (List Item × List Char)
  | 0, _, _ => none
  | fuel + 1, depth, cs => do
    match ← skipLines (cs.length + 1) cs with
    | ']' :: rest => return ([], rest)
    | rest =>
      let (item, rest) ← value fuel depth rest
      match ← skipLines (rest.length + 1) rest with
      | ',' :: rest =>
        let (items, rest) ← listItems fuel depth rest
        return (item :: items, rest)
      | ']' :: rest => return ([item], rest)
      | _ => none

def pairs : Nat → (depth : Nat) → Entries → List Char → Option (Entries × List Char)
  | 0, _, _, _ => none
  | fuel + 1, depth, entries, cs => do
    let ((path, key), rest) ← Key.path cs
    let rest ← expect '=' rest
    let (item, rest) ← value fuel depth (skipBlank rest)
    let entries ← entries.define path key item
    match skipBlank rest with
    | ',' :: rest => pairs fuel depth entries rest
    | '\x7d' :: rest => return (entries, rest)
    | _ => none
end

structure Draft where
  entries : Entries := []
  current : List String := []

def Draft.define (d : Draft) (path : List String) (key : String) (item : Item) : Option Draft := do
  let entries ← d.entries.alter false (fun _ inner => inner.define path key item) d.current .header
  return { d with entries }

def lines : Nat → Draft → List Char → Option Draft
  | 0, _, _ => none
  | fuel + 1, draft, cs => do
    match ← skipLines (cs.length + 1) cs with
    | [] => return draft
    | '[' :: '[' :: rest =>
      let ((path, key), rest) ← Key.path rest
      let rest ← expect ']' rest
      let rest ← endOfLine (← expect ']' rest)
      lines fuel ⟨← draft.entries.openRepeated path key, path ++ [key]⟩ rest
    | '[' :: rest =>
      let ((path, key), rest) ← Key.path rest
      let rest ← endOfLine (← expect ']' rest)
      lines fuel ⟨← draft.entries.openTable path key, path ++ [key]⟩ rest
    | rest =>
      let ((path, key), rest) ← Key.path rest
      let rest ← expect '=' rest
      let (item, rest) ← value (2 * rest.length + 2) 0 (skipBlank rest)
      lines fuel (← draft.define path key item) (← endOfLine rest)

def ofText? (text : String) : Option Entries :=
  let cs := match text.toList with
    | '\uFEFF' :: rest => rest
    | cs => cs
  (lines (cs.length + 1) {} cs).map (·.entries)

end Forum.Toml
