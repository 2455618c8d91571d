namespace Forum.Text.Utf8

def replacement : Char := '\uFFFD'

def within (low high b : UInt8) : Bool := low ≤ b && b ≤ high

def continues (b : UInt8) : Bool := within 0x80 0xBF b

def bits (b : UInt8) (mask : Nat) : Nat := b.toNat % mask

-- The character that starts at a lead byte and the number of further bytes it takes. None stands
-- for an ill-formed sequence, which takes the longest part that could have begun a character.
def next (lead : UInt8) (rest : List UInt8) : Option Char × Nat :=
  if lead < 0x80 then (some (Char.ofNat lead.toNat), 0)
  else if within 0xC2 0xDF lead then
    match rest with
    | b :: _ => if continues b then (some (.ofNat (bits lead 32 * 64 + bits b 64)), 1) else (none, 0)
    | [] => (none, 0)
  else if within 0xE0 0xEF lead then
    let low : UInt8 := if lead = 0xE0 then 0xA0 else 0x80
    let high : UInt8 := if lead = 0xED then 0x9F else 0xBF
    match rest with
    | b :: tail =>
      if within low high b then
        match tail with
        | c :: _ => if continues c then (some (.ofNat ((bits lead 16 * 64 + bits b 64) * 64 + bits c 64)), 2) else (none, 1)
        | [] => (none, 1)
      else (none, 0)
    | [] => (none, 0)
  else if within 0xF0 0xF4 lead then
    let low : UInt8 := if lead = 0xF0 then 0x90 else 0x80
    let high : UInt8 := if lead = 0xF4 then 0x8F else 0xBF
    match rest with
    | b :: tail =>
      if within low high b then
        match tail with
        | c :: last =>
          if continues c then
            match last with
            | d :: _ =>
              if continues d then
                (some (.ofNat (((bits lead 8 * 64 + bits b 64) * 64 + bits c 64) * 64 + bits d 64)), 3)
              else (none, 2)
            | [] => (none, 2)
          else (none, 1)
        | [] => (none, 1)
      else (none, 0)
    | [] => (none, 0)
  else (none, 0)

def scan (done : List (Option Char)) : List UInt8 → List (Option Char)
  | [] => done
  | lead :: rest => scan ((next lead rest).1 :: done) (rest.drop (next lead rest).2)
termination_by bytes => bytes.length
decreasing_by simp only [List.length_drop, List.length_cons]; omega

def characters (bytes : List UInt8) : List (Option Char) := (scan [] bytes).reverse

def decode (bytes : List UInt8) : String := .ofList ((characters bytes).map (·.getD replacement))

def decode? (bytes : List UInt8) : Option String :=
  let found := characters bytes
  if found.all Option.isSome then some (.ofList (found.map (·.getD replacement))) else none

def encode (s : String) : List UInt8 := s.toUTF8.toList

end Forum.Text.Utf8
