-- Errors of the forum, by cause. Rejections of what a visitor asked for carry their own kind; every
-- failure of a collaborator is internal. `during` adds the operation that met a failure and leaves
-- rejections and failures already wrapped as they are, so an error is wrapped at most once.
namespace Forum

-- What a database can fail with. `other` is everything that the forum itself never brings about, such as a
-- full disk, by its text.
inductive DatabaseFault
  | noRow
  | duplicateToken
  | expiryOrder
  | unknownPost
  | outOfRange (column : Nat) (value : Int)
  | noTable (name : String)
  | nested
  | cannotOpen
  | notADatabase
  | other (text : String)
deriving DecidableEq, Repr

def DatabaseFault.message : DatabaseFault → String
  | noRow => "Query returned no rows"
  | duplicateToken => "UNIQUE constraint failed: forum_session.token_hash"
  | expiryOrder => "CHECK constraint failed: expires_at > created_at"
  | unknownPost => "FOREIGN KEY constraint failed"
  | outOfRange column value => "Integer " ++ toString value ++ " out of range at index " ++ toString column
  | noTable name => "no such table: " ++ name
  | nested => "cannot start a transaction within a transaction"
  | cannotOpen => "unable to open database file"
  | notADatabase => "file is not a database"
  | other text => text

inductive ErrorKind
  | invalidInput
  | notFound
  | expired
  | notAuthorized
  | conflict
  | internal
deriving DecidableEq, Repr

inductive Error
  | invalidInput (text : String)
  | notFound (entity : String)
  | expired
  | notAuthorized
  | conflict (text : String)
  | internal (operation : String) (source : Error)
  | identityUnavailable (text : String)
  | imageStorage (text : String)
  | entropy (text : String)
  | database (fault : DatabaseFault)
  | lockPoisoned
  | transport (text : String)
  | serialization (text : String)
  | transactionAborted (text : String)
deriving DecidableEq, Repr

namespace Error

def kind : Error → ErrorKind
  | invalidInput _ => .invalidInput
  | notFound _ => .notFound
  | expired => .expired
  | notAuthorized => .notAuthorized
  | conflict _ => .conflict
  | _ => .internal

def message : Error → String
  | invalidInput text => text
  | notFound entity => entity ++ " not found"
  | expired => "session expired"
  | notAuthorized => "not authorized"
  | conflict text => text
  | internal operation source => operation ++ ": " ++ source.message
  | identityUnavailable text => "identity provider unavailable: " ++ text
  | imageStorage text => "image storage error: " ++ text
  | entropy text => "entropy source failure: " ++ text
  | database fault => "Database error: " ++ fault.message
  | lockPoisoned => "Database lock poisoned"
  | transport text => "HTTP error: " ++ text
  | serialization text => "Serialization error: " ++ text
  | transactionAborted text => "transaction aborted: " ++ text

def during (operation : String) : Error → Error
  | invalidInput text => invalidInput text
  | notFound entity => notFound entity
  | expired => expired
  | notAuthorized => notAuthorized
  | conflict text => conflict text
  | internal inner source => internal inner source
  | failure => internal operation failure

def sources : Error → List Error
  | internal _ source => source :: source.sources
  | _ => []

def isNotFound (e : Error) : Bool := e.kind == .notFound
def isExpired (e : Error) : Bool := e == expired

theorem kind_during (operation : String) (e : Error) : (e.during operation).kind = e.kind := by
  cases e <;> rfl

theorem during_during (first second : String) (e : Error) : (e.during first).during second = e.during first := by
  cases e <;> rfl

end Error
end Forum
