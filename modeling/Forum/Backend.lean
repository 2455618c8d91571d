import Forum.Sweeper
import Forum.Service.Comments
import Forum.Service.Sessions
import Forum.Store.Outside
namespace Forum

inductive Port
  | identity
  | images
  | entropy
  | storeSession
  | findSession
  | updateSession
  | savePost
  | findPost
  | listActive
  | listArchived
  | archiveExpired
  | listComments
  | begins
  | insert
  | expiry
  | commit
  | ping
deriving DecidableEq, Repr

abbrev Script := Port → Option Mishap

namespace Script

def none : Script := fun _ => .none

def transaction (script : Script) : Transaction.Mishaps :=
  ⟨script .begins, script .insert, script .expiry, script .commit⟩

def orElse (first second : Script) : Script := fun port => (first port).or (second port)

-- The first of some tables that is gone, as a fault. A comment also needs the table of its post.
def needing (gone : List Store.TableName) (tables : List Store.TableName) : Option Mishap :=
  (tables.find? gone.contains).map fun t => .error (.database (.noTable t.text))

def without (gone : List Store.TableName) : Script
  | .storeSession | .findSession | .updateSession => needing gone [.sessions]
  | .savePost | .findPost | .listActive | .listArchived | .archiveExpired | .expiry => needing gone [.posts]
  | .listComments => needing gone [.comments]
  | .insert =>
    (needing gone [.comments]).or
      (if gone.contains .posts then some (.error (.database (.noTable ("main." ++ Store.TableName.posts.text)))) else .none)
  | _ => .none

end Script

structure Calls where
  holds : List Span := []
  uploads : List (Int × Nat) := []
  begins : Nat := 0
  sweeps : Nat := 0
  draws : Nat := 0

structure Backend extends Connection where
  clock : Instant
  timer : Nat := 0
  sweeper : Option Sweeper.Schedule := none
  script : Script := .none
  gone : List Store.TableName := []
  -- A sweep that gets in just before a transaction opens, up to some instant.
  sweepFirst : Option Instant := none
  identityDelay : Nat := 0
  imageDelay : Nat := 0
  entropy : Nat → Token.Entropy
  provide : Nat → Identity
  place : Nat → Int → String
  calls : Calls := {}

namespace Backend
open Service (Question)

def meeting (mishap : Option Mishap) (part : Outcome α × Backend) (b : Backend) : Outcome α × Backend :=
  match mishap with
  | some (.error e) => (.failed e, b)
  | some (.panic _) => (.crashed, b)
  | none => part

def mishap (b : Backend) : Script := b.script.orElse (.without b.gone)

def reading (b : Backend) (found : Except DatabaseFault α) : Outcome α × Backend :=
  (match found with
    | .ok a => .done a
    | .error fault => .failed (.database fault), b)

def writing (b : Backend) : Except Error (α × Store) → Outcome α × Backend
  | .ok (a, store) => (.done a, { b with store })
  | .error e => (.failed e, b)

def provideIdentity (b : Backend) (hold : Span) : Outcome Identity × Backend :=
  let b := { b with calls := { b.calls with holds := b.calls.holds ++ [hold] } }
  meeting (b.mishap .identity) (.done (b.provide b.calls.holds.length), b) b

def upload (b : Backend) (owner : Int) (image : ByteArray) : Outcome String × Backend :=
  let url := b.place b.calls.uploads.length owner
  let b := { b with calls := { b.calls with uploads := b.calls.uploads ++ [(owner, image.size)] } }
  meeting (b.mishap .images) (.done url, b) b

-- The sweep that gets in first, if there is one.
def sweptFirst (b : Backend) : Backend :=
  match b.sweepFirst with
  | some cutoff => { b with store := (b.store.archiveExpired cutoff).2 }
  | none => b

-- A transaction on the connection, with the mishaps that meet its parts.
def withinTransaction (b : Backend) (work : Work α) : Outcome α × Backend :=
  let (outcome, connection) := Transaction.within b.mishap.transaction work b.toConnection
  (outcome, { b with toConnection := connection })

-- Opens a transaction, counting it also if it cannot be opened, and performs its work.
def transact (b : Backend) (work : Work α) : Outcome α × Backend :=
  let b := { b with calls := { b.calls with begins := b.calls.begins + 1 } }
  meeting (b.mishap .begins) (b.sweptFirst.withinTransaction work) b

def answerNow (b : Backend) : (q : Question) → Outcome q.Value × Backend
  | .now => (.done b.clock, b)
  | .drawEntropy =>
    let drawn := b.entropy b.calls.draws
    let b := { b with calls := { b.calls with draws := b.calls.draws + 1 } }
    meeting (b.mishap .entropy) (.done drawn, b) b
  | .provideIdentity hold => b.provideIdentity hold
  | .upload owner image => b.upload owner image
  | .storeSession new =>
    meeting (b.mishap .storeSession) (b.writing ((b.store.addSession new).mapError .database)) b
  | .findSession hash => meeting (b.mishap .findSession) (b.reading (b.store.findSession hash)) b
  | .updateSession hash edit =>
    meeting (b.mishap .updateSession) (b.writing ((b.store.updateSession hash edit).map ((), ·))) b
  | .savePost new => meeting (b.mishap .savePost) (b.writing (.ok (b.store.addPost new))) b
  | .findPost id => meeting (b.mishap .findPost) (b.reading (b.store.findPost id)) b
  | .listPosts archived page =>
    meeting (b.mishap (if archived then .listArchived else .listActive))
      (b.reading (b.store.listPosts archived page)) b
  | .archiveExpired cutoff =>
    let b := { b with calls := { b.calls with sweeps := b.calls.sweeps + 1 } }
    meeting (b.mishap .archiveExpired) (b.writing (.ok (b.store.archiveExpired cutoff))) b
  | .listComments post => meeting (b.mishap .listComments) (b.reading (b.store.listComments post)) b
  | .transact work => b.transact work
  | .ping => meeting (b.mishap .ping) (.done (), b) b
  | .uptime => (.done (b.timer / 1000), b)

def direct (b : Backend) (q : Question) : Outcome q.Value × Backend :=
  let (outcome, after) := { b with script := .none }.answerNow q
  (outcome, { after with script := b.script, calls := b.calls })

def reopen (b : Backend) (inFile : Bool) : Backend :=
  let store := if inFile then b.gone.foldl Store.emptied b.store else .empty
  { b with store, undo := none, gone := [], sweeper := none, script := .none, sweepFirst := none, identityDelay := 0, imageDelay := 0,
           calls := { draws := b.calls.draws } }

def sweepTimes (b : Backend) : Nat → Backend
  | 0 => b
  | count + 1 => sweepTimes (Procedure.run answerNow b Service.Posts.sweep).2 count

def pass (b : Backend) (millis : Nat) : Backend :=
  let b := { b with timer := b.timer + millis }
  match b.sweeper with
  | none => b
  | some schedule =>
    let (due, schedule) := schedule.pass millis
    { b with sweeper := some schedule }.sweepTimes due

def delay (b : Backend) : Question → Nat
  | .provideIdentity _ => b.identityDelay
  | .upload _ _ => b.imageDelay
  | _ => 0

-- Answers a question. What it does is done at once; the reply comes when the delay is over.
def answer (b : Backend) (q : Question) : Outcome q.Value × Backend :=
  let (outcome, after) := b.answerNow q
  (outcome, after.pass (b.delay q))

def run (b : Backend) (operation : Service.Operation α) : Outcome α × Backend :=
  Procedure.run answer b operation

def runWithin (b : Backend) (limit : Nat) (operation : Service.Operation α) : Option (Outcome α) × Backend :=
  Procedure.runUntil (fun now : Backend => b.timer + limit ≤ now.timer) answer b operation

end Backend
end Forum
