import Forum.Http.Multipart
import Forum.Text.Blank
import Forum.Text.Numeral
namespace Forum.Http

structure Form where
  -- Fields by name, the latest first.
  fields : List (String × String) := []
  image : ByteArray := .empty

namespace Form

def imageField : String := "image"

inductive Fault
  | malformed
  | unreadableImage
  | unreadableField (name : String)
deriving DecidableEq, Repr

def Fault.message : Fault → String
  | malformed => "malformed form: the body does not follow its boundary"
  | unreadableImage => "unreadable image: the part has no end"
  | unreadableField name => "unreadable field " ++ name ++ ": the part has no end"

def add (form : Form) (head : Multipart.Head) (data : ByteArray) : Form :=
  if head.name = imageField then { form with image := data }
  else { form with fields := (head.name, head.charset.decode data.toList) :: form.fields }

def readFrom (delimiter body : ByteArray) : Nat → Form → (position : Nat) → Except Fault Form
  | 0, _, _ => .error .malformed
  | fuel + 1, form, position =>
    match Multipart.next delimiter body position with
    | .finished => .ok form
    | .malformed => .error .malformed
    | .part head start =>
      match Multipart.dataEnd? delimiter body start with
      | none => .error (if head.name = imageField then .unreadableImage else .unreadableField head.name)
      | some stop => readFrom delimiter body fuel (form.add head (body.extract start stop)) (stop + 2)

def read (boundary : String) (body : ByteArray) : Except Fault Form :=
  let delimiter := Multipart.delimiter boundary
  match Multipart.find? delimiter body 0 with
  | none => .error .malformed
  | some first => readFrom delimiter body (body.size + 1) {} first

def text (form : Form) (name : String) : String := (form.fields.lookup name).getD ""

def integer? (form : Form) (name : String) : Except Error (Option Int) :=
  match (form.fields.lookup name).map fun raw => Text.trimChars raw.toList with
  | none | some [] => .ok none
  | some raw =>
    match Text.integer? raw with
    | some n => .ok (some n)
    | none => .error (.invalidInput (name ++ " must be an integer"))

end Form
end Forum.Http
