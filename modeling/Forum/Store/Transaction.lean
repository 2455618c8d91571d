import Forum.Procedure
import Forum.Store
-- Transactions. The work of a transaction adds comments and moves expiries, choosing each step by
-- the results before it, and ends with a value, an error or by giving up. Its writes are kept only
-- if it ends with a value and the commit goes through; otherwise the store is the one before.
namespace Forum

inductive Work (α : Type)
  | done (value : α)
  | fail (error : Error)
  | panic (text : Option String)
  | insert (comment : NewComment) (next : Except Error Int → Work α)
  | setExpiry (post : Int) (expiry : Instant) (next : Except Error Unit → Work α)

inductive Mishap
  | error (error : Error)
  | panic (text : String)
deriving DecidableEq, Repr

-- The one connection to the database. Its store is what statements see, the writes of an open
-- transaction included; `undo` is what a rollback goes back to, and is there only while one is open.
structure Connection where
  store : Store := .empty
  undo : Option Store := none

-- An open transaction has the connection to itself until it is dropped.
structure Transaction where
  connection : Connection
  finished : Bool := false

-- Transactions do not nest.
def Connection.begin (c : Connection) : Except DatabaseFault Transaction :=
  match c.undo with
  | some _ => .error .nested
  | none => .ok { connection := { c with undo := some c.store } }

-- A rollback outside of a transaction is refused, which changes nothing.
def Connection.rollback (c : Connection) : Connection :=
  match c.undo with
  | some before => { store := before }
  | none => c

namespace Transaction

structure Mishaps where
  begins : Option Mishap := none
  insert : Option Mishap := none
  expiry : Option Mishap := none
  commit : Option Mishap := none

def noMishaps : Mishaps := {}

def write (t : Transaction) (store : Store) : Transaction :=
  { t with connection := { t.connection with store } }

def commit (t : Transaction) : Transaction :=
  { connection := { t.connection with undo := none }, finished := true }

-- Gives the connection back. Whatever was not committed is rolled back.
def drop (t : Transaction) : Connection :=
  if t.finished then t.connection else t.connection.rollback

inductive Ending (α : Type)
  | done (value : α)
  | failed (error : Error)
  | gaveUp (text : Option String)

def perform (mishaps : Mishaps) (t : Transaction) : Work α → Ending α × Transaction
  | .done a => (.done a, t)
  | .fail e => (.failed e, t)
  | .panic text => (.gaveUp text, t)
  | .insert comment next =>
    match mishaps.insert with
    | some (.error e) => perform mishaps t (next (.error e))
    | some (.panic text) => (.gaveUp (some text), t)
    | none =>
      match t.connection.store.addComment comment with
      | .ok (id, after) => perform mishaps (t.write after) (next (.ok id))
      | .error fault => perform mishaps t (next (.error (.database fault)))
  | .setExpiry post expiry next =>
    match mishaps.expiry with
    | some (.error e) => perform mishaps t (next (.error e))
    | some (.panic text) => (.gaveUp (some text), t)
    | none =>
      match t.connection.store.setPostExpiry post expiry with
      | some after => perform mishaps (t.write after) (next (.ok ()))
      | none => perform mishaps t (next (.error (.notFound "post")))

-- Opens a transaction, does the work and commits. On every other way out the transaction is dropped
-- as it is. Work that gives up is an error here.
def within (mishaps : Mishaps) (work : Work α) (c : Connection) : Outcome α × Connection :=
  match mishaps.begins with
  | some (.error e) => (.failed e, c)
  | some (.panic _) => (.crashed, c)
  | none =>
    match c.begin with
    | .error fault => (.failed (.database fault), c)
    | .ok opened =>
      match perform mishaps opened work with
      | (.failed e, t) => (.failed e, t.drop)
      | (.gaveUp text, t) => (.failed (.transactionAborted (text.getD "panic")), t.drop)
      | (.done a, t) =>
        match mishaps.commit with
        | some (.error e) => (.failed e, t.drop)
        | some (.panic _) => (.crashed, t.drop)
        | none => (.done a, t.commit.drop)

-- A transaction over a store that nobody else is in.
def transact (mishaps : Mishaps) (work : Work α) (s : Store) : Outcome α × Store :=
  let (outcome, connection) := within mishaps work { store := s }
  (outcome, connection.store)

def abandon (mishaps : Mishaps) (work : Work α) (s : Store) : Outcome α :=
  match perform mishaps { connection := { store := s, undo := some s } } work with
  | (.done a, _) => .done a
  | (.failed e, _) => .failed e
  | (.gaveUp _, _) => .crashed

end Transaction

-- Reads a session, edits it and writes its identity back, in a transaction of its own. It is committed
-- if something was written; on every other way out it is dropped as it is. The edited copy's id tells
-- which row is written.
def Connection.updateSession (c : Connection) (hash : TokenHash) (edit : Store.SessionEdit) : Except Error Unit × Connection :=
  match c.begin with
  | .error fault => (.error (.database fault), c)
  | .ok opened =>
    match opened.connection.store.findSession hash with
    | .error fault => (.error (.database fault), opened.drop)
    | .ok none => (.error (.notFound "session"), opened.drop)
    | .ok (some session) =>
      match edit session with
      | .error e => (.error e, opened.drop)
      | .ok none => (.ok (), opened.drop)
      | .ok (some edited) =>
        (.ok (), (opened.write (opened.connection.store.identify edited.id edited.identity)).commit.drop)

-- An update on a store that nobody else is in.
def Store.updateSession (s : Store) (hash : TokenHash) (edit : SessionEdit) : Except Error Store :=
  match Connection.updateSession { store := s } hash edit with
  | (.ok (), connection) => .ok connection.store
  | (.error e, _) => .error e

end Forum
