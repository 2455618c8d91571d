import Forum.Http.MediaType
import Forum.Http.Message
import Forum.Text.Charset
namespace Forum.Http.Multipart

def continuesAs (pattern bytes : ByteArray) (i j : Nat) : Bool :=
  if h : j < pattern.size then
    if g : i < bytes.size then
      if bytes[i] = pattern[j] then continuesAs pattern bytes (i + 1) (j + 1) else false
    else false
  else true
termination_by pattern.size - j

def find? (pattern bytes : ByteArray) (i : Nat) : Option Nat :=
  if bytes.size < i then none
  else if continuesAs pattern bytes i 0 then some i
  else find? pattern bytes (i + 1)
termination_by bytes.size + 1 - i

def skipPadding (bytes : ByteArray) (i : Nat) : Nat :=
  if h : i < bytes.size then
    if bytes[i] = 0x20 || bytes[i] = 0x09 then skipPadding bytes (i + 1) else i
  else i
termination_by bytes.size - i

def lineEnd : ByteArray := "\r\n".toUTF8
def headersEnd : ByteArray := "\r\n\r\n".toUTF8
def dashes : ByteArray := "--".toUTF8

def delimiter (boundary : String) : ByteArray := dashes ++ boundary.toUTF8

namespace Headers

def isNameByte (b : UInt8) : Bool := b < 128 && MediaType.isToken (.ofNat b.toNat)
def isValueByte (b : UInt8) : Bool := b = 9 || (32 ≤ b && b ≠ 127)
def isPadding (b : UInt8) : Bool := b = 0x20 || b = 0x09

def afterLine : List UInt8 → Option (List UInt8)
  | 0x0D :: 0x0A :: rest => some rest
  | 0x0A :: rest => some rest
  | _ => none

def value (bytes : List UInt8) : Option (List UInt8 × List UInt8) := do
  let start := bytes.dropWhile isPadding
  let found := start.takeWhile isValueByte
  return ((found.reverse.dropWhile isPadding).reverse, ← afterLine (start.drop found.length))

def limit : Nat := 32

def read : Nat → List UInt8 → Option (List (String × List UInt8))
  | room, bytes =>
    match afterLine bytes with
    | some _ => some []
    | none =>
      match room, bytes.takeWhile isNameByte with
      | room + 1, first :: rest =>
        let name := first :: rest
        match bytes.drop name.length with
        | 0x3A :: after => do
          let (value, lines) ← value after
          return (MediaType.lower (name.map fun b => .ofNat b.toNat), value) :: (← read room lines)
        | _ => none
      | _, _ => none

def last? (headers : List (String × List UInt8)) (name : String) : Option (List UInt8) :=
  headers.reverse.lookup name

end Headers

namespace Disposition

def isBlank (b : UInt8) : Bool := b = 0x20 || b = 0x09 || b = 0x0A || b = 0x0C || b = 0x0D

def after (expected : UInt8) (bytes : List UInt8) : Option (List UInt8) :=
  match bytes.dropWhile isBlank with
  | b :: rest => if b = expected then some rest else none
  | [] => none

-- The bytes up to the closing quote; a quote after a backslash belongs to them, and the backslash
-- is dropped.
def quoted : List UInt8 → Option (List UInt8)
  | 0x5C :: 0x22 :: rest => (quoted rest).map (0x22 :: ·)
  | 0x22 :: _ => some []
  | b :: rest => (quoted rest).map (b :: ·)
  | [] => none

def valueOf (rest : List UInt8) : Option String := do
  let rest ← after 0x3D rest
  match after 0x22 rest with
  | some inside => Text.Utf8.decode? (← quoted inside)
  | none => Text.Utf8.decode? ((rest.dropWhile isBlank).takeWhile fun b => b ≠ 0x3B && b ≠ 0x20)

-- The value of `name` in a disposition, from the first place where the word stands after a
-- semicolon, after white space or in front.
def name? (atStart : Bool) : List UInt8 → Option String
  | 0x6E :: 0x61 :: 0x6D :: 0x65 :: rest => if atStart then valueOf rest else name? true rest
  | b :: rest => name? (b = 0x3B || isBlank b) rest
  | [] => none

end Disposition

structure Head where
  name : String
  charset : Text.Charset

def Head.ofHeaders (headers : List (String × List UInt8)) : Head :=
  let name := (Headers.last? headers "content-disposition").bind (Disposition.name? true)
  let media := ((Headers.last? headers "content-type").bind Header.text?).bind MediaType.ofChars?
  let label := media.bind fun m => m.parameter? "charset"
  ⟨name.getD "", (label.map Text.Charset.ofLabel).getD .utf8⟩

inductive Next
  | finished
  | malformed
  | part (head : Head) (start : Nat)

def next (delimiter body : ByteArray) (i : Nat) : Next :=
  let after := i + delimiter.size
  if ¬continuesAs delimiter body i 0 ∨ body.size < after + 2 then .malformed
  else if continuesAs dashes body after 0 then .finished
  else
    let line := skipPadding body after
    if ¬continuesAs lineEnd body line 0 then .malformed
    else
      match find? headersEnd body (line + 2) with
      | none => .malformed
      | some stop =>
        match Headers.read Headers.limit (body.extract (line + 2) (stop + 4)).toList with
        | none => .malformed
        | some headers => .part (.ofHeaders headers) (stop + 4)

def dataEnd? (delimiter body : ByteArray) (start : Nat) : Option Nat :=
  if body.size ≤ start then none else find? (lineEnd ++ delimiter) body start

end Forum.Http.Multipart
