import Forum.Instant
import Forum.Token
namespace Forum

structure Identity where
  id : Int
  name : String
  avatarUrl : String
deriving DecidableEq, Repr

-- Copy of a visitor's identity on a post or comment. Later renames do not reach it.
structure Author where
  sessionId : Int
  name : String
  avatarUrl : String
deriving DecidableEq, Repr

structure Session where
  id : Int
  tokenHash : TokenHash
  identity : Identity
  createdAt : Instant
  expiresAt : Instant
deriving DecidableEq

structure NewSession where
  tokenHash : TokenHash
  identity : Identity
  createdAt : Instant
  expiresAt : Instant
deriving DecidableEq

namespace Session

def IsLiveAt (s : Session) (now : Instant) : Prop := now < s.expiresAt

instance (s : Session) (now : Instant) : Decidable (s.IsLiveAt now) :=
  inferInstanceAs (Decidable (now < s.expiresAt))

def author (s : Session) : Author := ⟨s.id, s.identity.name, s.identity.avatarUrl⟩

end Session
end Forum
