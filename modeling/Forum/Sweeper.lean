import Forum.Service.Posts
-- The sweeper: a background task that runs one sweep per interval. The timer fires at the start,
-- which is passed over, and then after each full interval. The task is stopped between sweeps only;
-- one that has begun runs to its end.
namespace Forum.Sweeper

-- A running sweeper: its interval and the timer's time since the start, both in milliseconds.
structure Schedule where
  interval : Nat
  elapsed : Nat := 0
deriving DecidableEq, Repr

namespace Schedule

def fired (s : Schedule) : Nat := s.elapsed / s.interval

def pass (s : Schedule) (millis : Nat) : Nat × Schedule :=
  let after := { s with elapsed := s.elapsed + millis }
  (after.fired - s.fired, after)

end Schedule

inductive Phase
  | waiting
  | sweeping
  | stopped
deriving DecidableEq, Repr

-- The task together with what has happened around it: whether it was cancelled, and how many
-- firings of the timer it has not taken up.
structure Task where
  phase : Phase := .waiting
  cancelled : Bool := false
  due : Nat := 0
deriving DecidableEq, Repr

inductive Event
  | fire
  | cancel
  | poll
  | finish
deriving DecidableEq, Repr

def Task.step? (t : Task) : Event → Option Task
  | .fire => some { t with due := t.due + 1 }
  | .cancel => some { t with cancelled := true }
  | .poll =>
    if t.phase ≠ .waiting then none
    else if t.cancelled then some { t with phase := .stopped }
    else if t.due = 0 then some t
    else some { t with phase := .sweeping, due := t.due - 1 }
  | .finish => if t.phase = .sweeping then some { t with phase := .waiting } else none

end Forum.Sweeper
