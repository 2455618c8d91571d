import Forum.Service.Question
namespace Forum.Service

structure SessionRules where
  ttl : Span := .ofSeconds (7 * 24 * 60 * 60)
  minName : Nat := 3
  maxName : Nat := 16
deriving DecidableEq, Repr

structure Issued where
  token : Token
  expiresAt : Instant

namespace Sessions

-- An identity provider that fails in any way is unavailable.
def unavailable : Error → Error
  | .identityUnavailable text => .identityUnavailable text
  | other => .identityUnavailable other.message

def provideIdentity (hold : Span) : Operation Identity := do
  match ← (ask (.provideIdentity hold)).attempt with
  | .ok identity => return identity
  | .error e => .fail (unavailable e)

def issue (rules : SessionRules) : Operation Issued := do
  if rules.ttl.nanos < 0 then .fail (.invalidInput "session ttl must be positive")
  else
    let identity ← provideIdentity rules.ttl
    let token := Token.ofEntropy (← ask .drawEntropy)
    let now : Instant ← ask .now
    let expiresAt ← .orCrash (now.add? rules.ttl)
    let _ ← (ask (.storeSession ⟨token.hash, identity, now, expiresAt⟩)).during "store session"
    return ⟨token, expiresAt⟩

-- The live session behind a token. Rows of expired sessions stay where they are.
def find (token : Token) : Operation Session := do
  if token.isEmpty then .fail (.notFound "session")
  else
    match ← (ask (.findSession token.hash)).during "get session" with
    | none => .fail (.notFound "session")
    | some session =>
      let now : Instant ← ask .now
      if session.IsLiveAt now then return session else .fail .expired

def nameLengthText (rules : SessionRules) : String :=
  "name must be between " ++ toString rules.minName ++ " and " ++ toString rules.maxName ++ " characters"

def renameEdit (now : Instant) (name : String) : Store.SessionEdit := fun session =>
  if ¬session.IsLiveAt now then .error .expired
  else if session.identity.name = name then .error (.invalidInput "no fields changed")
  else .ok (some { session with identity := { session.identity with name } })

def rename (rules : SessionRules) (token : Token) (name : String) : Operation Unit := do
  if name.length < rules.minName ∨ rules.maxName < name.length then .fail (.invalidInput (nameLengthText rules))
  else
    let now : Instant ← ask .now
    (ask (.updateSession token.hash (renameEdit now name))).during "update identity"

end Sessions
end Forum.Service
