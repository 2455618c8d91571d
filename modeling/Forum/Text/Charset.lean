import Forum.Text.Blank
import Forum.Text.CodePage
namespace Forum.Text

inductive Charset
  | utf8
  | utf16 (bigEndian : Bool)
  | page (p : CodePage)
  | userDefined
  | unreadable
deriving DecidableEq, Repr

namespace Charset

def littleEndianLabels : List String :=
  ["csunicode", "iso-10646-ucs-2", "ucs-2", "unicode", "unicodefeff", "utf-16", "utf-16le"]

def bigEndianLabels : List String := ["unicodefffe", "utf-16be"]

def unreadableLabels : List String :=
  ["csiso2022kr", "hz-gb-2312", "iso-2022-cn", "iso-2022-cn-ext", "iso-2022-kr", "replacement"]

def ofLabel (label : String) : Charset :=
  let plain := String.ofList ((trimChars label.toList).map Char.toLower)
  if littleEndianLabels.contains plain then .utf16 false
  else if bigEndianLabels.contains plain then .utf16 true
  else if unreadableLabels.contains plain then .unreadable
  else if plain = "x-user-defined" then .userDefined
  else ((CodePage.ofLabel? plain).map page).getD .utf8

def userChar (b : UInt8) : Char := if b < 0x80 then .ofNat b.toNat else .ofNat (0xF780 + (b.toNat - 0x80))

def units (bigEndian : Bool) (done : List Nat) : List UInt8 → List Nat × Bool
  | a :: b :: rest => units bigEndian ((if bigEndian then a.toNat * 256 + b.toNat else b.toNat * 256 + a.toNat) :: done) rest
  | [] => (done.reverse, false)
  | [_] => (done.reverse, true)

def isHighSurrogate (n : Nat) : Bool := 0xD800 ≤ n && n < 0xDC00
def isLowSurrogate (n : Nat) : Bool := 0xDC00 ≤ n && n < 0xE000

-- Joins surrogate pairs, backwards onto `done`; a lone surrogate is replaced.
def joinPairs (done : List Char) : List Nat → List Char
  | high :: low :: rest =>
    if isHighSurrogate high then
      if isLowSurrogate low then joinPairs (.ofNat (0x10000 + (high - 0xD800) * 1024 + (low - 0xDC00)) :: done) rest
      else joinPairs (Utf8.replacement :: done) (low :: rest)
    else if isLowSurrogate high then joinPairs (Utf8.replacement :: done) (low :: rest)
    else joinPairs (.ofNat high :: done) (low :: rest)
  | [n] => (if isHighSurrogate n || isLowSurrogate n then Utf8.replacement else .ofNat n) :: done
  | [] => done

def decodeUtf16 (bigEndian : Bool) (bytes : List UInt8) : String :=
  let (found, odd) := units bigEndian [] bytes
  -- A byte left over ends the text like a broken pair; a high surrogate before it breaks with it.
  let broken := odd && !(found.getLast?.any isHighSurrogate)
  .ofList ((joinPairs [] found).reverse ++ if broken then [Utf8.replacement] else [])

def decodePlain : Charset → List UInt8 → String
  | .utf8, bytes => Utf8.decode bytes
  | .utf16 bigEndian, bytes => decodeUtf16 bigEndian bytes
  | .page p, bytes => p.decode bytes
  | .userDefined, bytes => .ofList (bytes.map userChar)
  | .unreadable, bytes => if bytes = [] then "" else .ofList [Utf8.replacement]

def decode (charset : Charset) : List UInt8 → String
  | 0xEF :: 0xBB :: 0xBF :: rest => decodePlain .utf8 rest
  | 0xFF :: 0xFE :: rest => decodePlain (.utf16 false) rest
  | 0xFE :: 0xFF :: rest => decodePlain (.utf16 true) rest
  | bytes => decodePlain charset bytes

end Charset
end Forum.Text
