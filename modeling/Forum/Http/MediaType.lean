import Forum.Text.Split
namespace Forum.Http

structure MediaType where
  kind : String
  subtype : String
  suffix : Option String
  parameters : List (String × String)
deriving DecidableEq, Repr

namespace MediaType

def isToken (c : Char) : Bool := c.isAlphanum || "!#$%&'*+-.^_`|~".toList.contains c

def isQuoted (c : Char) : Bool := 31 < c.toNat && c.toNat ≠ 127

def lower (cs : List Char) : String := .ofList (cs.map Char.toLower)

-- A quoted value after its opening quote, and what follows the next semicolon. A quote right at the
-- start does not end it.
def quotedValue : List Char → Option (List Char × List Char)
  | [] => none
  | first :: rest =>
    let more := rest.takeWhile fun c => isQuoted c && c ≠ '"'
    match isQuoted first, rest.drop more.length with
    | true, '"' :: after =>
      match after.dropWhile (· = ' ') with
      | [] => some (first :: more, [])
      | ';' :: next => some (first :: more, next)
      | _ => none
    | _, _ => none

def plainValue (cs : List Char) : Option (List Char × List Char) :=
  let value := cs.takeWhile isToken
  match cs.drop value.length with
  | [] => some (value, [])
  | ';' :: next => if value = [] then none else some (value, next)
  | _ => none

def parameters? : Nat → List Char → Option (List (String × String))
  | 0, _ => none
  | fuel + 1, cs =>
    match cs.dropWhile (· = ' ') with
    | [] => some []
    | cs =>
      let name := cs.takeWhile isToken
      match name, cs.drop name.length with
      | _ :: _, '=' :: rest => do
        let (value, next) ← match rest with
          | '"' :: rest => quotedValue rest
          | rest => plainValue rest
        return (lower name, .ofList value) :: (← parameters? fuel next)
      | _, _ => none

-- Subtype and suffix. A plus sign in front is part of the subtype.
def splitSuffix (cs : List Char) : List Char × Option (List Char) :=
  match (Text.splitAll '+' (cs.drop 1)).getLast?, (cs.drop 1).contains '+' with
  | some suffix, true => (cs.take (cs.length - suffix.length - 1), some suffix)
  | _, _ => (cs, none)

def ofChars? (cs : List Char) : Option MediaType := do
  let kind := cs.takeWhile isToken
  match kind, cs.drop kind.length with
  | _ :: _, '/' :: rest =>
    let whole := rest.takeWhile isToken
    let (subtype, suffix) := splitSuffix whole
    let parameters ← match whole, rest.drop whole.length with
      | _, [] => some []
      | _ :: _, ';' :: more => parameters? (more.length + 1) more
      | _, _ => none
    return ⟨lower kind, lower subtype, suffix.map lower, parameters⟩
  | _, _ => none

def parameter? (m : MediaType) (name : String) : Option String := m.parameters.lookup name

def isJson (m : MediaType) : Bool := m.kind = "application" && (m.subtype = "json" || m.suffix = some "json")

def isUrlencoded (m : MediaType) : Bool :=
  m.kind = "application" && m.subtype = "x-www-form-urlencoded" && m.suffix.isNone

def formBoundary? (m : MediaType) : Option String :=
  if m.kind = "multipart" && m.subtype = "form-data" then m.parameter? "boundary" else none

end MediaType
end Forum.Http
