import Forum.Error
import Forum.Json
namespace Forum.Http

structure Target where
  path : List Char
  query : List Char
deriving DecidableEq, Repr

namespace Target

def afterAuthority (cs : List Char) : List Char :=
  match cs.dropWhile fun c => c ≠ '/' ∧ c ≠ '?' with
  | '/' :: rest => '/' :: rest
  | rest => '/' :: rest

def dropScheme : List Char → List Char
  | ':' :: '/' :: '/' :: rest => afterAuthority rest
  | _ :: rest => dropScheme rest
  | [] => []

def ofText (text : String) : Target :=
  let cs := text.toList.takeWhile (· ≠ '#')
  let whole := match cs with
    | '/' :: _ => cs
    | _ => if dropScheme cs = [] then cs else dropScheme cs
  ⟨whole.takeWhile (· ≠ '?'), (whole.dropWhile (· ≠ '?')).drop 1⟩

end Target

structure Request where
  method : String
  target : Target
  headers : List (String × List UInt8)
  body : ByteArray

namespace Header

-- What a header may hold: printable ASCII and tabs.
def Allows (c : Char) : Prop := c = '\t' ∨ 32 ≤ c.toNat ∧ c.toNat < 127

instance (c : Char) : Decidable (Allows c) := inferInstanceAs (Decidable (_ ∨ _))

def IsValue (s : String) : Prop := ∀ c ∈ s.toList, Allows c

instance (s : String) : Decidable (IsValue s) := List.decidableBAll Allows s.toList

-- A header value as text, if all of it is printable ASCII or tabs.
def text? (value : List UInt8) : Option (List Char) :=
  if value.all fun b => b = 9 || (32 ≤ b && b < 127) then some (value.map fun b => .ofNat b.toNat) else none

end Header

namespace Request

def values (r : Request) (name : String) : List (List UInt8) := (r.headers.filter (·.1 = name)).map (·.2)

def contentType? (r : Request) : Option (List Char) := (r.values "content-type").head?.bind Header.text?

end Request

inductive Body
  | empty
  | json (value : Json)
  | text (value : String)

structure Response where
  status : Nat
  body : Body := .empty
  contentType : Option String := none
  setCookies : List String := []
  allow : List String := []

namespace Response

def bare (status : Nat) : Response := { status }

def json (status : Nat) (value : Json) : Response :=
  { status, body := .json value, contentType := some "application/json" }

def text (status : Nat) (value : String) : Response :=
  { status, body := .text value, contentType := some "text/plain; charset=utf-8" }

def addCookie (r : Response) (cookie : String) : Response := { r with setCookies := r.setCookies ++ [cookie] }

end Response

structure Refusal where
  status : Nat
  message : String
  code : String
deriving DecidableEq, Repr

namespace Refusal

def badRequest (message : String) : Refusal := ⟨400, message, "INVALID_INPUT"⟩

def unauthorized : Refusal := ⟨401, "unauthorized", "UNAUTHORIZED"⟩

def internal : Refusal := ⟨500, "internal server error", "INTERNAL"⟩

def ofError (e : Error) : Refusal :=
  match e.kind with
  | .invalidInput => badRequest e.message
  | .notFound => ⟨404, e.message, "NOT_FOUND"⟩
  | .expired | .notAuthorized => unauthorized
  | .conflict => ⟨409, e.message, "CONFLICT"⟩
  | .internal => internal

def body (r : Refusal) : Json := .record [("error", .text r.message), ("code", .text r.code)]

def response (r : Refusal) : Response := .json r.status r.body

end Refusal
end Forum.Http
