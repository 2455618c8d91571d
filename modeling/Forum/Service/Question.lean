import Forum.Store.Transaction
namespace Forum.Service

inductive Question
  | now
  | drawEntropy
  | provideIdentity (hold : Span)
  | upload (owner : Int) (image : ByteArray)
  | storeSession (new : NewSession)
  | findSession (hash : TokenHash)
  | updateSession (hash : TokenHash) (edit : Store.SessionEdit)
  | savePost (new : NewPost)
  | findPost (id : Int)
  | listPosts (archived : Bool) (page : Page)
  | archiveExpired (cutoff : Instant)
  | listComments (post : Int)
  | transact (work : Work Int)
  | ping
  | uptime

def Question.Value : Question → Type
  | now => Instant
  | drawEntropy => Token.Entropy
  | provideIdentity _ => Identity
  | upload _ _ => String
  | storeSession _ => Int
  | findSession _ => Option Session
  | updateSession _ _ => Unit
  | savePost _ => Int
  | findPost _ => Option Post
  | listPosts _ _ => List Post
  | archiveExpired _ => Nat
  | listComments _ => List Comment
  | transact _ => Int
  | ping => Unit
  | uptime => Nat

abbrev ports : Interface := ⟨Question, Question.Value⟩

abbrev Operation (α : Type) := Procedure ports α

def ask (q : Question) : Operation q.Value := Procedure.call (I := ports) q

end Forum.Service
