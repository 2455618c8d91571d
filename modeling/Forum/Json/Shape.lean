import Forum.Json
import Forum.Text.Percent
-- Reading JSON of a known shape. The bytes are read once from left to right and the first thing
-- that is wrong decides: the text ends too early, it is no JSON, or it is JSON of another shape. A
-- record may be given as a list of its fields in order. Unknown fields are skipped and need only be
-- JSON in form: their strings are not decoded and their numbers may have any size.
namespace Forum.Json

inductive Shape
  | integer
  | text
  | truth
  | stamp
  | optional (inner : Shape)
  | record (fields : List (String × Shape))

inductive Fault
  | malformed
  | cutShort
  | mistyped
deriving DecidableEq, Repr

def skipBlank (bytes : List UInt8) : List UInt8 :=
  bytes.dropWhile fun b => b == 0x20 || b == 0x0A || b == 0x09 || b == 0x0D

def unexpected : List UInt8 → Fault
  | [] => .cutShort
  | _ => .malformed

def word : List UInt8 → List UInt8 → Except Fault (Unit × List UInt8)
  | [], rest => .ok ((), rest)
  | e :: es, b :: rest => if b = e then word es rest else .error .malformed
  | _ :: _, [] => .error .cutShort

def isDigit (b : UInt8) : Bool := 0x30 ≤ b && b ≤ 0x39

namespace Number

def gather (significand count : Nat) : List UInt8 → Nat × Nat
  | d :: rest =>
    let longer := significand * 10 + (d.toNat - 48)
    if longer ≤ Text.maxUnsigned64 then gather longer (count + 1) rest else (significand, count)
  | [] => (significand, count)

def checked (significand : Nat) (exponent : Int) (rest : List UInt8) : Except Fault (Unit × List UInt8) :=
  if Text.isHuge significand exponent then .error .malformed else .ok ((), rest)

def exponentPart (significand : Nat) (start : Int) (bytes : List UInt8) : Except Fault (Unit × List UInt8) :=
  let (negative, bytes) := match bytes with
    | 0x2B :: rest => (false, rest)
    | 0x2D :: rest => (true, rest)
    | rest => (false, rest)
  match bytes.takeWhile isDigit with
  | [] => .error (unexpected bytes)
  | digits =>
    let size : Int := digits.foldl (fun n d => n * 10 + (d.toNat - 48)) 0
    checked significand (if negative then start - size else start + size) (bytes.dropWhile isDigit)

def tail (significand : Nat) (exponent : Int) : List UInt8 → Except Fault (Unit × List UInt8)
  | 0x65 :: rest | 0x45 :: rest => exponentPart significand exponent rest
  | rest => checked significand exponent rest

-- Reads a number after its sign. The value is there if it is written as an integer of 64 bits;
-- minus zero counts as a fraction.
def read (negative : Bool) (bytes : List UInt8) : Except Fault (Option Int × List UInt8) := do
  let digits := bytes.takeWhile isDigit
  let rest := bytes.dropWhile isDigit
  match digits with
  | [] => .error (unexpected bytes)
  | first :: more =>
    if first = 0x30 ∧ more ≠ [] then .error .malformed
    let (significand, count) := gather 0 0 digits
    let exponent : Int := digits.length - count
    match rest with
    | 0x2E :: places =>
      let decimals := places.takeWhile isDigit
      if decimals = [] then .error (unexpected places)
      let (longer, used) := gather significand 0 decimals
      let ((), after) ← tail longer (exponent - used) (places.dropWhile isDigit)
      return (none, after)
    | 0x65 :: places | 0x45 :: places =>
      let ((), after) ← exponentPart significand exponent places
      return (none, after)
    | _ =>
      if exponent ≠ 0 then
        let ((), after) ← checked significand exponent rest
        return (none, after)
      let value : Int := if negative then -(significand : Int) else significand
      if (negative && significand == 0) || value < -9223372036854775808 || value > 9223372036854775807 then
        return (none, rest)
      return (some value, rest)

def skipExponent (bytes : List UInt8) : Except Fault (Unit × List UInt8) :=
  let bytes := match bytes with
    | 0x2B :: rest | 0x2D :: rest => rest
    | rest => rest
  if bytes.takeWhile isDigit = [] then .error .malformed else .ok ((), bytes.dropWhile isDigit)

def skip (bytes : List UInt8) : Except Fault (Unit × List UInt8) :=
  let rest := bytes.dropWhile isDigit
  match bytes.takeWhile isDigit with
  | [] => .error .malformed
  | first :: more =>
    if first = 0x30 ∧ more ≠ [] then .error .malformed
    else match rest with
      | 0x2E :: places =>
        if places.takeWhile isDigit = [] then .error .malformed
        else match places.dropWhile isDigit with
          | 0x65 :: after | 0x45 :: after => skipExponent after
          | after => .ok ((), after)
      | 0x65 :: after | 0x45 :: after => skipExponent after
      | _ => .ok ((), rest)

end Number

namespace Quoted

def escape? (b : UInt8) : Option UInt8 :=
  if b = 0x22 ∨ b = 0x5C ∨ b = 0x2F then some b
  else if b = 0x62 then some 8
  else if b = 0x66 then some 12
  else if b = 0x6E then some 10
  else if b = 0x72 then some 13
  else if b = 0x74 then some 9
  else none

def unit : List UInt8 → Except Fault (Nat × List UInt8)
  | a :: b :: c :: d :: rest =>
    match [a, b, c, d].mapM Text.hexDigit? with
    | some digits => .ok (digits.foldl (fun n x => n * 16 + x.toNat) 0, rest)
    | none => .error .malformed
  | _ => .error .cutShort

def pair (bytes : List UInt8) : Except Fault (Char × List UInt8) := do
  let (first, rest) ← unit bytes
  if 0xDC00 ≤ first ∧ first ≤ 0xDFFF then .error .malformed
  if first < 0xD800 ∨ 0xDFFF < first then return (.ofNat first, rest)
  match rest with
  | 0x5C :: 0x75 :: more =>
    let (second, rest) ← unit more
    if second < 0xDC00 ∨ 0xDFFF < second then .error .malformed
    return (.ofNat (0x10000 + (first - 0xD800) * 1024 + (second - 0xDC00)), rest)
  | [] | [0x5C] => .error .cutShort
  | _ => .error .malformed

def scan : Nat → List UInt8 → List UInt8 → Except Fault (List UInt8 × List UInt8)
  | 0, _, _ => .error .cutShort
  | fuel + 1, done, bytes =>
    match bytes with
    | [] => .error .cutShort
    | 0x22 :: rest => .ok (done, rest)
    | 0x5C :: 0x75 :: rest => do
      let (c, rest) ← pair rest
      scan fuel ((Text.Utf8.encode c.toString).reverse ++ done) rest
    | [0x5C] => .error .cutShort
    | 0x5C :: b :: rest =>
      match escape? b with
      | some plain => scan fuel (plain :: done) rest
      | none => .error .malformed
    | b :: rest => if b < 0x20 then .error .malformed else scan fuel (b :: done) rest

def read (bytes : List UInt8) : Except Fault (String × List UInt8) := do
  let (found, rest) ← scan (bytes.length + 1) [] bytes
  match Text.Utf8.decode? found.reverse with
  | some s => return (s, rest)
  | none => .error .malformed

def skip : Nat → List UInt8 → Except Fault (Unit × List UInt8)
  | 0, _ => .error .cutShort
  | fuel + 1, bytes =>
    match bytes with
    | [] => .error .cutShort
    | 0x22 :: rest => .ok ((), rest)
    | 0x5C :: 0x75 :: rest => do
      let (_, rest) ← unit rest
      skip fuel rest
    | [0x5C] => .error .cutShort
    | 0x5C :: b :: rest => if (escape? b).isSome then skip fuel rest else .error .malformed
    | b :: rest => if b < 0x20 then .error .malformed else skip fuel rest

end Quoted

def skipKey (bytes : List UInt8) : Except Fault (Unit × List UInt8) := do
  match skipBlank bytes with
  | 0x22 :: rest =>
    let ((), rest) ← Quoted.skip (rest.length + 1) rest
    match skipBlank rest with
    | 0x3A :: rest => return ((), rest)
    | rest => .error (unexpected rest)
  | rest => .error (unexpected rest)

-- Skips a value that nothing is known about. `brackets` holds the brackets still open, innermost
-- first and true for records; `full` tells that the innermost one has a value already. Each step
-- takes a value, a bracket or a comma.
def skipValue : Nat → (brackets : List Bool) → (full : Bool) → List UInt8 → Except Fault (Unit × List UInt8)
  | 0, _, _, _ => .error .cutShort
  | fuel + 1, [], true, bytes => let _ := fuel; .ok ((), bytes)
  | fuel + 1, brackets, full, bytes =>
    let bytes := skipBlank bytes
    let closes : Bool := match brackets, bytes with
      | false :: _, 0x5D :: _ => true
      | true :: _, 0x7D :: _ => true
      | _, _ => false
    if closes then skipValue fuel brackets.tail true (bytes.drop 1)
    else if full then
      match bytes with
      | 0x2C :: rest => do
        if brackets.head? = some true then
          let ((), rest) ← skipKey rest
          value fuel brackets rest
        else value fuel brackets rest
      | rest => .error (unexpected rest)
    else if brackets.head? = some true then do
      let ((), rest) ← skipKey bytes
      value fuel brackets rest
    else value fuel brackets bytes
where
  value (fuel : Nat) (brackets : List Bool) (bytes : List UInt8) : Except Fault (Unit × List UInt8) := do
    match skipBlank bytes with
    | 0x6E :: rest =>
      let ((), rest) ← word [0x75, 0x6C, 0x6C] rest
      skipValue fuel brackets true rest
    | 0x74 :: rest =>
      let ((), rest) ← word [0x72, 0x75, 0x65] rest
      skipValue fuel brackets true rest
    | 0x66 :: rest =>
      let ((), rest) ← word [0x61, 0x6C, 0x73, 0x65] rest
      skipValue fuel brackets true rest
    | 0x22 :: rest =>
      let ((), rest) ← Quoted.skip (rest.length + 1) rest
      skipValue fuel brackets true rest
    | 0x5B :: rest => skipValue fuel (false :: brackets) false rest
    | 0x7B :: rest => skipValue fuel (true :: brackets) false rest
    | 0x2D :: rest =>
      let ((), rest) ← Number.skip rest
      skipValue fuel brackets true rest
    | b :: rest =>
      if isDigit b then
        let ((), rest) ← Number.skip (b :: rest)
        skipValue fuel brackets true rest
      else .error .malformed
    | [] => .error .cutShort

def skipAny (bytes : List UInt8) : Except Fault (Unit × List UInt8) := skipValue (2 * bytes.length + 2) [] false bytes

-- The fault of a value of the wrong type. A literal, number or string is read to its end first and
-- may turn out to be no JSON.
def mismatch (bytes : List UInt8) : Fault :=
  let faultOf {α : Type} : Except Fault (α × List UInt8) → Fault
    | .error fault => fault
    | .ok _ => .mistyped
  match bytes with
  | 0x6E :: rest => faultOf (word [0x75, 0x6C, 0x6C] rest)
  | 0x74 :: rest => faultOf (word [0x72, 0x75, 0x65] rest)
  | 0x66 :: rest => faultOf (word [0x61, 0x6C, 0x73, 0x65] rest)
  | 0x2D :: rest => faultOf (Number.read true rest)
  | 0x22 :: rest => faultOf (Quoted.read rest)
  | 0x5B :: _ | 0x7B :: _ => .mistyped
  | b :: _ => if isDigit b then faultOf (Number.read false bytes) else .malformed
  | [] => .cutShort

def integral (reading : Except Fault (Option Int × List UInt8)) : Except Fault (Json × List UInt8) := do
  match ← reading with
  | (some n, rest) => return (.integer n, rest)
  | (none, _) => .error .mistyped

-- The fields of a record in order, from those that were given. Only optional ones may be missing.
def complete (given : List (String × Json)) : List (String × Shape) → Except Fault (List (String × Json))
  | [] => .ok []
  | (name, shape) :: fields =>
    match given.lookup name, shape with
    | some j, _ => (complete given fields).map ((name, j) :: ·)
    | none, .optional _ => (complete given fields).map ((name, .null) :: ·)
    | none, _ => .error .mistyped

mutual
def readShape : Nat → Shape → List UInt8 → Except Fault (Json × List UInt8)
  | 0, _, _ => .error .cutShort
  | fuel + 1, shape, bytes =>
    let bytes := skipBlank bytes
    match bytes with
    | [] => .error .cutShort
    | b :: rest =>
      match shape with
      | .integer =>
        if b = 0x2D then integral (Number.read true rest)
        else if isDigit b then integral (Number.read false bytes)
        else .error (mismatch bytes)
      | .text => do
        if b = 0x22 then
          let (s, rest) ← Quoted.read rest
          return (.text s, rest)
        else .error (mismatch bytes)
      | .stamp => do
        if b = 0x22 then
          let (s, rest) ← Quoted.read rest
          match Stamp.ofChars? s.toList with
          | some stamp => return (.text stamp.text, rest)
          | none => .error .mistyped
        else .error (mismatch bytes)
      | .truth => do
        if b = 0x74 then
          let ((), rest) ← word [0x72, 0x75, 0x65] rest
          return (.truth true, rest)
        else if b = 0x66 then
          let ((), rest) ← word [0x61, 0x6C, 0x73, 0x65] rest
          return (.truth false, rest)
        else .error (mismatch bytes)
      | .optional inner => do
        if b = 0x6E then
          let ((), rest) ← word [0x75, 0x6C, 0x6C] rest
          return (.null, rest)
        else readShape fuel inner bytes
      | .record fields =>
        if b = 0x5B then readListed fuel fields true [] rest
        else if b = 0x7B then readNamed fuel fields true [] rest
        else .error (mismatch bytes)

def readListed : Nat → List (String × Shape) → (first : Bool) → List (String × Json) → List UInt8 → Except Fault (Json × List UInt8)
  | 0, _, _, _, _ => .error .cutShort
  | fuel + 1, fields, first, done, bytes =>
    match fields, skipBlank bytes with
    | _, [] => .error .cutShort
    | [], 0x5D :: rest => .ok (.record done.reverse, rest)
    | [], _ => .error .malformed
    | _ :: _, 0x5D :: _ => .error .mistyped
    | (name, shape) :: more, bytes => do
      let bytes ← match first, bytes with
        | false, 0x2C :: rest =>
          match skipBlank rest with
          | 0x5D :: _ => .error .malformed
          | rest => .ok rest
        | false, _ => .error .malformed
        | true, bytes => .ok bytes
      let (j, rest) ← readShape fuel shape bytes
      readListed fuel more false ((name, j) :: done) rest

def readNamed : Nat → List (String × Shape) → (first : Bool) → List (String × Json) → List UInt8 → Except Fault (Json × List UInt8)
  | 0, _, _, _, _ => .error .cutShort
  | fuel + 1, fields, first, given, bytes =>
    match first, skipBlank bytes with
    | _, [] => .error .cutShort
    | _, 0x7D :: rest => do return (.record (← complete given fields), rest)
    | false, 0x2C :: rest =>
      match skipBlank rest with
      | 0x22 :: rest => readField fuel fields given rest
      | rest => .error (unexpected rest)
    | true, 0x22 :: rest => readField fuel fields given rest
    | _, _ => .error .malformed

def readField : Nat → List (String × Shape) → List (String × Json) → List UInt8 → Except Fault (Json × List UInt8)
  | 0, _, _, _ => .error .cutShort
  | fuel + 1, fields, given, bytes => do
    let (name, rest) ← Quoted.read bytes
    if (given.lookup name).isSome then .error .mistyped
    match skipBlank rest with
    | 0x3A :: rest =>
      match fields.lookup name with
      | some shape =>
        let (j, rest) ← readShape fuel shape rest
        readNamed fuel fields false ((name, j) :: given) rest
      | none =>
        let ((), rest) ← skipAny rest
        readNamed fuel fields false given rest
    | rest => .error (unexpected rest)
end

def ofBytes? (shape : Shape) (bytes : List UInt8) : Except Fault Json := do
  let (j, rest) ← readShape (4 * bytes.length + 16) shape bytes
  if skipBlank rest = [] then return j else .error .malformed

end Forum.Json

namespace Forum
open Json (Shape)

def Identity.shape : Shape := .record [("id", .integer), ("name", .text), ("avatar_url", .text)]

def Author.shape : Shape := .record [("session_id", .integer), ("name", .text), ("avatar_url", .text)]

def Post.shape : Shape :=
  .record [("id", .integer), ("author", Author.shape), ("title", .text), ("content", .text),
    ("image_path", .optional .text), ("created_at", .stamp), ("expires_at", .stamp), ("is_archived", .truth)]

def Comment.shape : Shape :=
  .record [("id", .integer), ("post_id", .integer), ("parent_comment_id", .optional .integer),
    ("author", Author.shape), ("content", .text), ("image_path", .optional .text), ("created_at", .stamp)]

end Forum
