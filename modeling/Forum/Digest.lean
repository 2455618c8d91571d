import Forum.Text.Utf8
namespace Forum.Digest

-- First 32 bits of the fractional parts of the cube roots of the first 64 primes.
def roundConstants : Array UInt32 := #[
  0x428a2f98, 0x71374491, 0xb5c0fbcf, 0xe9b5dba5, 0x3956c25b, 0x59f111f1, 0x923f82a4, 0xab1c5ed5,
  0xd807aa98, 0x12835b01, 0x243185be, 0x550c7dc3, 0x72be5d74, 0x80deb1fe, 0x9bdc06a7, 0xc19bf174,
  0xe49b69c1, 0xefbe4786, 0x0fc19dc6, 0x240ca1cc, 0x2de92c6f, 0x4a7484aa, 0x5cb0a9dc, 0x76f988da,
  0x983e5152, 0xa831c66d, 0xb00327c8, 0xbf597fc7, 0xc6e00bf3, 0xd5a79147, 0x06ca6351, 0x14292967,
  0x27b70a85, 0x2e1b2138, 0x4d2c6dfc, 0x53380d13, 0x650a7354, 0x766a0abb, 0x81c2c92e, 0x92722c85,
  0xa2bfe8a1, 0xa81a664b, 0xc24b8b70, 0xc76c51a3, 0xd192e819, 0xd6990624, 0xf40e3585, 0x106aa070,
  0x19a4c116, 0x1e376c08, 0x2748774c, 0x34b0bcb5, 0x391c0cb3, 0x4ed8aa4a, 0x5b9cca4f, 0x682e6ff3,
  0x748f82ee, 0x78a5636f, 0x84c87814, 0x8cc70208, 0x90befffa, 0xa4506ceb, 0xbef9a3f7, 0xc67178f2]

structure Words where
  a : UInt32
  b : UInt32
  c : UInt32
  d : UInt32
  e : UInt32
  f : UInt32
  g : UInt32
  h : UInt32
deriving DecidableEq

namespace Words

-- First 32 bits of the fractional parts of the square roots of the first eight primes.
def start : Words :=
  ⟨0x6a09e667, 0xbb67ae85, 0x3c6ef372, 0xa54ff53a, 0x510e527f, 0x9b05688c, 0x1f83d9ab, 0x5be0cd19⟩

def add (x y : Words) : Words :=
  ⟨x.a + y.a, x.b + y.b, x.c + y.c, x.d + y.d, x.e + y.e, x.f + y.f, x.g + y.g, x.h + y.h⟩

def toList (x : Words) : List UInt32 := [x.a, x.b, x.c, x.d, x.e, x.f, x.g, x.h]

end Words

def rotate (x : UInt32) (count : UInt32) : UInt32 := (x >>> count) ||| (x <<< (32 - count))

def round (x : Words) (word constant : UInt32) : Words :=
  let mixE := rotate x.e 6 ^^^ rotate x.e 11 ^^^ rotate x.e 25
  let choice := (x.e &&& x.f) ^^^ ((~~~x.e) &&& x.g)
  let first := x.h + mixE + choice + constant + word
  let mixA := rotate x.a 2 ^^^ rotate x.a 13 ^^^ rotate x.a 22
  let majority := (x.a &&& x.b) ^^^ (x.a &&& x.c) ^^^ (x.b &&& x.c)
  ⟨first + (mixA + majority), x.a, x.b, x.c, x.d + first, x.e, x.f, x.g⟩

def schedule (block : Array UInt32) : Array UInt32 :=
  (List.range 48).foldl (fun words i =>
    let far := words.getD (i + 1) 0
    let near := words.getD (i + 14) 0
    let low := rotate far 7 ^^^ rotate far 18 ^^^ (far >>> 3)
    let high := rotate near 17 ^^^ rotate near 19 ^^^ (near >>> 10)
    words.push (words.getD i 0 + low + words.getD (i + 9) 0 + high)) block

def compress (state : Words) (block : Array UInt32) : Words :=
  let words := schedule block
  state.add ((List.range 64).foldl (fun x i => round x (words.getD i 0) (roundConstants.getD i 0)) state)

def bigEndian (count n : Nat) : List UInt8 :=
  (List.range count).reverse.map fun i => UInt8.ofNat (n >>> (8 * i))

def pad (message : List UInt8) : List UInt8 :=
  let zeros := (119 - message.length % 64) % 64
  message ++ 0x80 :: List.replicate zeros 0 ++ bigEndian 8 (message.length * 8)

def toWords (words : Array UInt32) : List UInt8 → Array UInt32
  | a :: b :: c :: d :: rest =>
    toWords (words.push ((a.toUInt32 <<< 24) ||| (b.toUInt32 <<< 16) ||| (c.toUInt32 <<< 8) ||| d.toUInt32)) rest
  | _ => words

def absorb (words : Array UInt32) (state : Words) : Nat → Words
  | 0 => state
  | blocks + 1 =>
    let before := words.size / 16 - (blocks + 1)
    absorb words (compress state (words.extract (before * 16) (before * 16 + 16))) blocks

def sha256 (message : List UInt8) : List UInt8 :=
  let words := toWords #[] (pad message)
  (absorb words .start (words.size / 16)).toList.flatMap fun w => bigEndian 4 w.toNat

def hexChar (n : Nat) : Char := if n < 10 then .ofNat (48 + n) else .ofNat (87 + n)

def hex (bytes : List UInt8) : String :=
  .ofList (bytes.flatMap fun b => [hexChar (b.toNat / 16), hexChar (b.toNat % 16)])

end Forum.Digest
