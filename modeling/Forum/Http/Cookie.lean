import Forum.Instant.Stamp
import Forum.Text.Split
import Forum.Http.Message
import Forum.Token
namespace Forum.Http.Cookie

def name : String := "session_token"

def splitPair (cs : List Char) : Option (List Char × List Char) :=
  match cs.dropWhile (· ≠ '=') with
  | _ :: value => some (cs.takeWhile (· ≠ '='), value)
  | [] => none

def pairs (header : List Char) : List (List Char × List Char) :=
  (Text.splitAll ';' header).filterMap fun pair => splitPair (Text.trimChars pair)

-- The token of the first pair with the cookie's name, if its value is not empty. Headers that are
-- no text are passed over.
def token? (headers : List (List UInt8)) : Option Token :=
  let found := ((headers.filterMap Header.text?).flatMap pairs).find? (·.1 = name.toList)
  (found.map fun (_, value) => Text.trimChars value).bind fun value =>
    if value = [] then none else some ⟨.ofList value⟩

def issue (token : Token) (expires : Instant) (secure : Bool) : String :=
  name ++ "=" ++ token.plain ++ "; Path=/; Expires=" ++ expires.cookieDate ++ "; HttpOnly;" ++
    (if secure then " Secure;" else "") ++ " SameSite=Lax"

-- The cookie as the value of a header, if it can be one.
def issue? (token : Token) (expires : Instant) (secure : Bool) : Option String :=
  let cookie := issue token expires secure
  if Header.IsValue cookie then some cookie else none

def clear (secure : Bool) : String :=
  name ++ "=; Path=/; Max-Age=-1; HttpOnly;" ++ (if secure then " Secure;" else "") ++ " SameSite=Lax"

end Forum.Http.Cookie
