namespace Forum.Text

-- Value of a digit string, read onto `value`. None if a character is no ASCII digit.
def digits? (value : Nat) : List Char → Option Nat
  | [] => some value
  | c :: rest => if c.isDigit then digits? (value * 10 + (c.toNat - 48)) rest else none

def natural? : List Char → Option Nat
  | [] => none
  | cs => digits? 0 cs

def unsigned? (limit : Nat) (cs : List Char) : Option Nat :=
  (match cs with | '+' :: rest => natural? rest | _ => natural? cs).filter (· ≤ limit)

def integer? (cs : List Char) : Option Int :=
  (match cs with
    | '+' :: rest => (natural? rest).map Int.ofNat
    | '-' :: rest => (natural? rest).map fun n => -(Int.ofNat n)
    | _ => (natural? cs).map Int.ofNat).filter fun n => -9223372036854775808 ≤ n && n ≤ 9223372036854775807

def truth? (cs : List Char) : Option Bool :=
  if cs = "true".toList then some true else if cs = "false".toList then some false else none

def maxUnsigned64 : Nat := 18446744073709551615

def maxUnsigned32 : Nat := 4294967295

-- Whether `significand * 10 ^ exponent` rounds to infinity as a floating-point number: at or above
-- the middle between the largest one and the next power of two.
def isHuge (significand : Nat) (exponent : Int) : Bool :=
  let size : Int := (Nat.toDigits 10 significand).length + exponent
  if significand = 0 ∨ size < 300 then false
  else if size > 320 then true
  else
    let bound := (1 <<< 1024) - (1 <<< 970)
    if 0 ≤ exponent then bound ≤ significand * Nat.pow 10 exponent.toNat
    else bound * Nat.pow 10 (-exponent).toNat ≤ significand

def padded (width n : Nat) : String :=
  let plain := Nat.toDigits 10 n
  .ofList (List.replicate (width - plain.length) '0' ++ plain)

end Forum.Text
