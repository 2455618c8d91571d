import Forum.Identity.Pool
import Forum.Json.Shape
import Forum.Procedure
import Forum.Remote
-- The identity provider: it takes an id out of the pool, fetches the character of that id from
-- another server and hands it out as an identity. If the fetch fails, the allocation is undone. The
-- pool is not held during the fetch, so other calls may change it in between.
namespace Forum.Identity

inductive Question
  | allocate (hold : Span)
  | fetch (id : Nat)
  | release (reservation : Reservation)

def Question.Value : Question → Type
  | allocate _ => Reservation
  | fetch _ => Identity
  | release _ => Unit

abbrev ports : Interface := ⟨Question, Question.Value⟩

def provide (hold : Span) : Procedure ports Identity := do
  let reservation : Reservation ← .call (I := ports) (.allocate hold)
  match ← (Procedure.call (I := ports) (.fetch reservation.id)).attempt with
  | .ok identity => return identity
  | .error e =>
    let () ← Procedure.call (I := ports) (.release reservation)
    .fail e

def longestHold : Span := .ofMillis 9223372036854775807

def characterShape : Json.Shape := .record [("id", .integer), ("name", .text), ("image", .text)]

def ofReply (id : Nat) (reply : Remote.Reply) : Except Error Identity :=
  if ¬Remote.IsSuccess reply.status then
    .error (.identityUnavailable ("character " ++ toString id ++ " returned " ++ Remote.statusText reply.status))
  else
    match Json.ofBytes? characterShape reply.body with
    | .ok (.record [(_, .integer id), (_, .text name), (_, .text image)]) => .ok ⟨id, name, image⟩
    | _ => .error (.serialization "the character is not in its expected form")

abbrev Server := String → Except String Remote.Reply

structure Desk where
  root : String
  pool : Pool
  clock : Instant
  draws : Nat → Draws
  allocations : Nat := 0
  server : Server

namespace Desk

def open? (root : String) (size : Int) (order : List Nat) (clock : Instant) (draws : Nat → Draws) (server : Server) :
    Except Error Desk :=
  if size < 1 then .error (.invalidInput "identity pool must not be empty")
  else .ok { root := Remote.trimRoot root, pool := .fresh order, clock, draws, server }

def allocate (d : Desk) (hold : Span) : Outcome Reservation × Desk :=
  if longestHold.nanos < hold.nanos then (.failed (.invalidInput "reservation ttl out of range"), d)
  else
    match d.clock.add? hold with
    | none => (.crashed, d)
    | some expiry =>
      let (reservation, pool) := d.pool.allocate d.clock expiry (d.draws d.allocations)
      (.done reservation, { d with pool, allocations := d.allocations + 1 })

def address (d : Desk) (id : Nat) : String := d.root ++ "/character/" ++ toString id

def fetch (d : Desk) (id : Nat) : Except Error Identity :=
  match d.server (d.address id) with
  | .error text => .error (.identityUnavailable text)
  | .ok reply => ofReply id reply

def answer (d : Desk) : (q : Question) → Outcome q.Value × Desk
  | .allocate hold => d.allocate hold
  | .fetch id => (.ofExcept (d.fetch id), d)
  | .release reservation => (.done (), { d with pool := d.pool.release reservation })

def reclaim (d : Desk) : Nat × Desk :=
  let (count, pool) := d.pool.reclaim d.clock
  (count, { d with pool })

def provide (d : Desk) (hold : Span) : Outcome Identity × Desk :=
  Procedure.run (I := ports) answer d (Identity.provide hold)

end Desk
end Forum.Identity
