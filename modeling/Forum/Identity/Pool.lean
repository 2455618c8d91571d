import Forum.Session
-- The pool of identities. An id handed out is reserved until some instant. Ids without a
-- reservation wait on a free list and are handed out first; once it is empty, ids are picked at
-- random, and a few picks are spent on looking for one whose reservation has lapsed before any id
-- is taken over.
namespace Forum.Identity

structure Pool where
  size : Nat
  free : List Nat
  reserved : List (Nat × Instant)

-- An id that was handed out, with the reservation that it replaced.
structure Reservation where
  id : Nat
  previous : Option Instant
deriving DecidableEq

def attempts : Nat := 5

-- Randomness of one allocation: the picks in order, and one more for taking an id over.
structure Draws where
  picks : Vector Nat attempts
  last : Nat

namespace Pool

def ids (size : Nat) : List Nat := List.range' 1 size

def fresh (order : List Nat) : Pool := ⟨order.length, order, []⟩

def pick (p : Pool) (random : Nat) : Nat := random % p.size + 1

def holder? (p : Pool) (id : Nat) : Option Instant := p.reserved.lookup id

def put (reserved : List (Nat × Instant)) (id : Nat) (expiry : Instant) : List (Nat × Instant) :=
  (id, expiry) :: reserved.filter (·.1 ≠ id)

def IsLapsed (p : Pool) (now : Instant) (id : Nat) : Prop := ∀ expiry, p.holder? id = some expiry → expiry ≤ now

instance (p : Pool) (now : Instant) (id : Nat) : Decidable (p.IsLapsed now id) :=
  match h : p.holder? id with
  | none => isTrue fun _ some => by rw [h] at some; cases some
  | some expiry =>
    if lapsed : expiry ≤ now then isTrue fun _ same => by rw [h] at same; cases same; exact lapsed
    else isFalse fun all => lapsed (all expiry h)

def takeOver (p : Pool) (now : Instant) (draws : Draws) : Nat :=
  ((draws.picks.toList.map p.pick).find? fun id => p.IsLapsed now id).getD (p.pick draws.last)

def allocate (p : Pool) (now expiry : Instant) (draws : Draws) : Reservation × Pool :=
  match p.free with
  | id :: free => (⟨id, p.holder? id⟩, { p with free, reserved := put p.reserved id expiry })
  | [] =>
    let id := p.takeOver now draws
    (⟨id, p.holder? id⟩, { p with reserved := put p.reserved id expiry })

-- Undoes an allocation: the id gets back the reservation that it had, or is free again.
def release (p : Pool) (r : Reservation) : Pool :=
  match r.previous with
  | some expiry => { p with reserved := put p.reserved r.id expiry }
  | none =>
    if (p.holder? r.id).isSome then
      { p with free := r.id :: p.free, reserved := p.reserved.filter (·.1 ≠ r.id) }
    else p

def reclaim (p : Pool) (now : Instant) : Nat × Pool :=
  let lapsed := p.reserved.filter (·.2 ≤ now)
  (lapsed.length,
    { p with free := (lapsed.map (·.1)).reverse ++ p.free, reserved := p.reserved.filter fun r => ¬r.2 ≤ now })

-- Reservations stand in no order of their own, so who goes through them may meet them in any.
def relist (p : Pool) (listing : List (Nat × Instant)) : Pool :=
  if listing.Perm p.reserved then { p with reserved := listing } else p

end Pool
end Forum.Identity
