import Forum.Http.Cookie
import Forum.Service.Sessions
namespace Forum.Http.Gate
open Service (Operation SessionRules)

structure Visitor where
  token : Token
  session : Session

def answering (operation : Operation Response) : Operation Response := do
  match ← operation.attempt with
  | .ok response => return response
  | .error e => return (Refusal.ofError e).response

def requireSession (secure : Bool) (token : Token) (go : Visitor → Operation Response) : Operation Response := do
  match ← (Service.Sessions.find token).attempt with
  | .ok session => answering (go ⟨token, session⟩)
  | .error .expired => return Refusal.unauthorized.response.addCookie (Cookie.clear secure)
  | .error _ => return Refusal.unauthorized.response

-- The outer layer: it sees to it that a request comes with a token. The cookie of a session that it has issued
-- goes out with whatever response comes back, and a session whose cookie fits no header is of no use.
def ensureToken (rules : SessionRules) (secure : Bool) (cookies : List (List UInt8)) (next : Token → Operation Response) :
    Operation Response :=
  match Cookie.token? cookies with
  | some token => next token
  | none => do
    let issued ← Service.Sessions.issue rules
    match Cookie.issue? issued.token issued.expiresAt secure with
    | some cookie =>
      let response ← next issued.token
      return response.addCookie cookie
    | none => return Refusal.internal.response

-- The inner layer. It reads the cookies itself, before it turns to the token that came with the request.
def requireValidSession (secure : Bool) (cookies : List (List UInt8)) (attached : Option Token)
    (next : Session → Operation Response) : Operation Response :=
  match (Cookie.token? cookies).or attached with
  | some token => requireSession secure token fun visitor => next visitor.session
  | none => return Refusal.unauthorized.response

-- The token is as the outer layer found it, and the session as the inner one did.
def pass (rules : SessionRules) (secure : Bool) (cookies : List (List UInt8)) (go : Visitor → Operation Response) :
    Operation Response :=
  ensureToken rules secure cookies fun token =>
    requireValidSession secure cookies (some token) fun session => go ⟨token, session⟩

end Forum.Http.Gate
