import Forum.Text.Split
import Forum.Text.Utf8
namespace Forum.Text

def hexDigit? (b : UInt8) : Option UInt8 :=
  if 48 ≤ b && b ≤ 57 then some (b - 48)
  else if 65 ≤ b && b ≤ 70 then some (b - 55)
  else if 97 ≤ b && b ≤ 102 then some (b - 87)
  else none

namespace Percent

def scan (done : List UInt8) : List UInt8 → List UInt8
  | 0x25 :: a :: b :: rest =>
    match hexDigit? a, hexDigit? b with
    | some high, some low => scan ((high * 16 + low) :: done) rest
    | _, _ => scan (0x25 :: done) (a :: b :: rest)
  | b :: rest => scan (b :: done) rest
  | [] => done

def decode (bytes : List UInt8) : List UInt8 := (scan [] bytes).reverse

end Percent

namespace Form

def decodePart (bytes : List UInt8) : String :=
  Utf8.decode (Percent.decode (bytes.map fun b => if b = 0x2B then 0x20 else b))

def decodePair (bytes : List UInt8) : String × String :=
  let isName := fun b : UInt8 => b != 0x3D
  (decodePart (bytes.takeWhile isName), decodePart ((bytes.dropWhile isName).drop 1))

def pairs (bytes : List UInt8) : List (String × String) :=
  ((splitAll 0x26 bytes).filter (· ≠ [])).map decodePair

def single? (name : String) (form : List (String × String)) : Option String :=
  match form.filter (·.1 = name) with
  | [(_, value)] => some value
  | _ => none

end Form
end Forum.Text
