import Forum.Error
-- Procedures: what an operation of the forum does, as a tree of the questions it asks its
-- collaborators. A procedure asks one question at a time and goes on by the reply, so between two
-- questions anything may happen, and a caller that leaves drops what was not asked yet. `run`
-- answers all questions in turn; `runUntil` stops at a deadline.
namespace Forum

-- How something ended: with a value, with an error, or by giving up in the middle.
inductive Outcome (α : Type)
  | done (value : α)
  | failed (error : Error)
  | crashed
deriving DecidableEq

namespace Outcome

def map (f : α → β) : Outcome α → Outcome β
  | done a => done (f a)
  | failed e => failed e
  | crashed => crashed

def ofExcept : Except Error α → Outcome α
  | .ok a => done a
  | .error e => failed e

def during (operation : String) : Outcome α → Outcome α
  | done a => done a
  | failed e => failed (e.during operation)
  | crashed => crashed

def attempt : Outcome α → Outcome (Except Error α)
  | done a => done (.ok a)
  | failed e => done (.error e)
  | crashed => crashed

end Outcome

structure Interface where
  Question : Type
  Value : Question → Type

inductive Procedure (I : Interface) (α : Type)
  | done (value : α)
  | fail (error : Error)
  | crash
  | ask (question : I.Question) (next : Outcome (I.Value question) → Procedure I α)

namespace Procedure
variable {I : Interface} {α β σ : Type}

def ofOutcome : Outcome α → Procedure I α
  | .done a => done a
  | .failed e => fail e
  | .crashed => crash

def call (question : I.Question) : Procedure I (I.Value question) := ask question ofOutcome

def bind : Procedure I α → (α → Procedure I β) → Procedure I β
  | done a, f => f a
  | fail e, _ => fail e
  | crash, _ => crash
  | ask q next, f => ask q fun reply => (next reply).bind f

instance : Monad (Procedure I) where
  pure := done
  bind := bind

def during (operation : String) : Procedure I α → Procedure I α
  | done a => done a
  | fail e => fail (e.during operation)
  | crash => crash
  | ask q next => ask q fun reply => (next reply).during operation

def attempt : Procedure I α → Procedure I (Except Error α)
  | done a => done (.ok a)
  | fail e => done (.error e)
  | crash => crash
  | ask q next => ask q fun reply => (next reply).attempt

def orCrash : Option α → Procedure I α
  | some a => done a
  | none => crash

-- Goes on from however a procedure ended.
def settle : Procedure I α → (Outcome α → Procedure I β) → Procedure I β
  | done a, f => f (.done a)
  | fail e, f => f (.failed e)
  | crash, f => f .crashed
  | ask q next, f => ask q fun reply => (next reply).settle f

-- A procedure each of whose questions is seen to by a procedure of its own, which asks somebody else.
def through {J : Interface} (how : (q : I.Question) → Procedure J (I.Value q)) : Procedure I α → Procedure J α
  | done a => done a
  | fail e => fail e
  | crash => crash
  | ask q next => (how q).settle fun reply => (next reply).through how

abbrev Answering (I : Interface) (σ : Type) := σ → (q : I.Question) → Outcome (I.Value q) × σ

def run (answer : Answering I σ) (s : σ) : Procedure I α → Outcome α × σ
  | done a => (.done a, s)
  | fail e => (.failed e, s)
  | crash => (.crashed, s)
  | ask q next => run answer (answer s q).2 (next (answer s q).1)

-- Answers questions until the state says that the time is up, which is looked at before each step,
-- the last one included. What was not asked by then is never asked.
def runUntil (isUp : σ → Bool) (answer : Answering I σ) (s : σ) : Procedure I α → Option (Outcome α) × σ
  | done a => (if isUp s then none else some (.done a), s)
  | fail e => (if isUp s then none else some (.failed e), s)
  | crash => (if isUp s then none else some .crashed, s)
  | ask q next => if isUp s then (none, s) else runUntil isUp answer (answer s q).2 (next (answer s q).1)

theorem ofOutcome_ne_ask (outcome : Outcome α) {q : I.Question} {next : Outcome (I.Value q) → Procedure I α} :
    ofOutcome outcome ≠ ask q next := by
  cases outcome <;> simp [ofOutcome]

theorem ofOutcome_inj {one two : Outcome α} (same : (ofOutcome one : Procedure I α) = ofOutcome two) : one = two := by
  cases one <;> cases two <;> cases same <;> rfl

-- The states in which a procedure waits to ask its next question, everything before having been
-- answered. A caller that leaves, at whatever moment, leaves the state as one of these.
inductive Waits (answer : Answering I σ) : σ → Procedure I α → σ → Prop
  | here : Waits answer s (ask q next) s
  | later : Waits answer (answer s q).2 (next (answer s q).1) t → Waits answer s (ask q next) t

-- How a procedure can come to an end: given up while it waits, or with what it returns.
inductive Exits (answer : Answering I σ) (s : σ) (p : Procedure I α) : Option (Outcome α) → σ → Prop
  | abandoned (waits : Waits answer s p t) : Exits answer s p none t
  | returned (ran : run answer s p = (outcome, t)) : Exits answer s p (some outcome) t

theorem bind_done (p : Procedure I α) : p.bind done = p := by
  induction p with
  | done a => rfl
  | fail e => rfl
  | crash => rfl
  | ask q next ih => simp only [bind]; exact congrArg _ (funext ih)

theorem bind_assoc {γ : Type} (p : Procedure I α) (f : α → Procedure I β) (g : β → Procedure I γ) :
    (p.bind f).bind g = p.bind fun a => (f a).bind g := by
  induction p with
  | done a => rfl
  | fail e => rfl
  | crash => rfl
  | ask q next ih => simp only [bind]; exact congrArg _ (funext ih)

instance : LawfulMonad (Procedure I) :=
  LawfulMonad.mk' _ (fun p => bind_done p) (fun _ _ => rfl) (fun p f g => bind_assoc p f g)

theorem run_bind (answer : Answering I σ) (s : σ) (p : Procedure I α) (f : α → Procedure I β) :
    run answer s (p.bind f) =
      match run answer s p with
      | (.done a, t) => run answer t (f a)
      | (.failed e, t) => (.failed e, t)
      | (.crashed, t) => (.crashed, t) := by
  induction p generalizing s with
  | done a => rfl
  | fail e => rfl
  | crash => rfl
  | ask q next ih => simp only [bind, run]; exact ih _ _

-- What has ended exits as it did, and cannot be given up any more.
theorem exits_ofOutcome (answer : Answering I σ) (outcome : Outcome α) :
    Exits answer s (ofOutcome outcome) ending t ↔ ending = some outcome ∧ t = s := by
  constructor
  · intro exits
    cases exits with
    | abandoned waits => cases outcome <;> cases waits
    | returned ran => cases outcome <;> cases ran <;> exact ⟨rfl, rfl⟩
  · intro same
    obtain ⟨rfl, rfl⟩ := same
    cases outcome <;> exact .returned rfl

-- A procedure that asks is given up there, or exits as what follows on the reply does.
theorem exits_ask (answer : Answering I σ) {next : Outcome (I.Value q) → Procedure I α} :
    Exits answer s (ask q next) ending t ↔
      (ending = none ∧ t = s) ∨ Exits answer (answer s q).2 (next (answer s q).1) ending t := by
  constructor
  · intro exits
    cases exits with
    | abandoned waits =>
      cases waits with
      | here => exact .inl ⟨rfl, rfl⟩
      | later rest => exact .inr (.abandoned rest)
    | returned ran => exact .inr (.returned ran)
  · intro ways
    obtain ⟨rfl, rfl⟩ | exits := ways
    · exact .abandoned .here
    · cases exits with
      | abandoned rest => exact .abandoned (.later rest)
      | returned ran => exact .returned ran

-- A deadline cuts a procedure off where it waits to ask.
theorem runUntil_ask {isUp : σ → Bool} {answer : Answering I σ}
    {next : Outcome (I.Value q) → Procedure I α} (cut : runUntil isUp answer s (ask q next) = (none, t)) :
    (isUp s = true ∧ t = s) ∨
      (isUp s = false ∧ runUntil isUp answer (answer s q).2 (next (answer s q).1) = (none, t)) := by
  unfold runUntil at cut
  split at cut
  · rename_i up
    cases cut
    exact .inl ⟨up, rfl⟩
  · rename_i notUp
    exact .inr ⟨by simpa using notUp, cut⟩

theorem runUntil_ofOutcome {isUp : σ → Bool} {answer : Answering I σ} (outcome : Outcome α)
    (cut : runUntil isUp answer s (ofOutcome outcome) = (none, t)) :
    isUp s = true ∧ t = s := by
  cases outcome
  all_goals
    unfold ofOutcome runUntil at cut
    split at cut
    · rename_i up
      cases cut
      exact ⟨up, rfl⟩
    · cases cut

theorem run_ofOutcome (answer : Answering I σ) (s : σ) (outcome : Outcome α) : run answer s (ofOutcome outcome) = (outcome, s) := by
  cases outcome <;> rfl

theorem run_call (answer : Answering I σ) (s : σ) (q : I.Question) : run answer s (call q) = answer s q :=
  run_ofOutcome answer _ _

-- A sequence that ran: its first part was done and the rest ran from there, or neither got done.
theorem run_bind_cases {answer : Answering I σ} {s t : σ} {p : Procedure I α} {f : α → Procedure I β} {outcome : Outcome β}
    (ran : run answer s (p >>= f) = (outcome, t)) :
    (∃ a u, run answer s p = (.done a, u) ∧ run answer u (f a) = (outcome, t)) ∨
      ∃ stopped, run answer s p = (stopped, t) ∧ (∀ a, stopped ≠ .done a) ∧ ∀ b, outcome ≠ .done b := by
  change run answer s (p.bind f) = _ at ran
  rw [run_bind] at ran
  generalize first : run answer s p = part at ran
  obtain ⟨stopped, u⟩ := part
  cases stopped with
  | done a => exact .inl ⟨a, u, rfl, ran⟩
  | failed e =>
    cases ran
    exact .inr ⟨_, rfl, by simp, by simp⟩
  | crashed =>
    cases ran
    exact .inr ⟨_, rfl, by simp, by simp⟩

theorem run_map (answer : Answering I σ) (s : σ) (p : Procedure I α) (f : α → β) :
    run answer s (p >>= fun a => pure (f a)) = ((run answer s p).1.map f, (run answer s p).2) := by
  change run answer s (p.bind fun a => .done (f a)) = _
  rw [run_bind]
  obtain ⟨outcome, t⟩ := run answer s p
  cases outcome <;> rfl

theorem run_during (answer : Answering I σ) (s : σ) (operation : String) (p : Procedure I α) :
    run answer s (p.during operation) = ((run answer s p).1.during operation, (run answer s p).2) := by
  induction p generalizing s with
  | ask q next ih => exact ih _ _
  | _ => rfl

theorem run_orCrash {answer : Answering I σ} {s t : σ} {found : Option α} {outcome : Outcome α}
    (ran : run answer s (orCrash found) = (outcome, t)) : t = s ∧ ∀ a, outcome = .done a ↔ found = some a := by
  cases found <;> cases ran <;> simp

theorem run_call_during {answer : Answering I σ} {s t : σ} {q : I.Question} {outcome : Outcome (I.Value q)}
    (ran : run answer s ((call q).during operation) = (outcome, t)) :
    t = (answer s q).2 ∧ ∀ a, outcome = .done a ↔ (answer s q).1 = .done a := by
  rw [run_during, run_call] at ran
  cases ran
  refine ⟨rfl, fun a => ?_⟩
  cases (answer s q).1 <;> simp [Outcome.during]

theorem run_attempt (answer : Answering I σ) (s : σ) (p : Procedure I α) :
    run answer s p.attempt = ((run answer s p).1.attempt, (run answer s p).2) := by
  induction p generalizing s with
  | ask q next ih => exact ih _ _
  | _ => rfl

-- A deadline that did not pass changed nothing.
theorem runUntil_some {isUp : σ → Bool} {answer : Answering I σ} {s : σ} {p : Procedure I α}
    (ended : runUntil isUp answer s p = (some outcome, t)) : run answer s p = (outcome, t) := by
  induction p generalizing s with
  | ask q next ih =>
    unfold runUntil at ended
    split at ended
    · cases ended
    · exact ih _ ended
  | _ =>
    unfold runUntil at ended
    split at ended
    · cases ended
    · cases ended; rfl

theorem runUntil_never (answer : Answering I σ) (s : σ) (p : Procedure I α) :
    runUntil (fun _ => false) answer s p = (some (run answer s p).1, (run answer s p).2) := by
  induction p generalizing s with
  | ask q next ih => exact ih _ _
  | _ => rfl

-- Whatever the replies are, all questions of a procedure are of some kind.
inductive Asks (P : I.Question → Prop) : Procedure I α → Prop
  | done (value : α) : Asks P (done value)
  | fail (error : Error) : Asks P (fail error)
  | crash : Asks P crash
  | ask (allowed : P q) (rest : ∀ reply, Asks P (next reply)) : Asks P (ask q next)

-- Whatever the replies are, what a procedure returns is of some kind.
inductive Returns (R : α → Prop) : Procedure I α → Prop
  | done (returned : R value) : Returns R (done value)
  | fail (error : Error) : Returns R (fail error)
  | crash : Returns R crash
  | ask {next : Outcome (I.Value q) → Procedure I α} (rest : ∀ reply, Returns R (next reply)) : Returns R (ask q next)

section
variable {P Q : I.Question → Prop} {p : Procedure I α} {q : I.Question}

theorem Asks.allowed {next : Outcome (I.Value q) → Procedure I α} (asks : (Procedure.ask q next).Asks P) : P q := by
  cases asks with
  | ask allowed _ => exact allowed

theorem Asks.rest {next : Outcome (I.Value q) → Procedure I α} (asks : (Procedure.ask q next).Asks P) (reply : Outcome (I.Value q)) :
    (next reply).Asks P := by
  cases asks with
  | ask _ rest => exact rest reply

theorem asks_ofOutcome (outcome : Outcome α) : (ofOutcome outcome : Procedure I α).Asks P := by
  cases outcome with
  | done a => exact .done a
  | failed e => exact .fail e
  | crashed => exact .crash

theorem asks_orCrash (found : Option α) : (orCrash found : Procedure I α).Asks P := by
  cases found with
  | none => exact .crash
  | some a => exact .done a

theorem asks_call (allowed : P q) : (call q).Asks P := .ask allowed asks_ofOutcome

theorem Asks.mono (weaker : ∀ q, P q → Q q) (asks : p.Asks P) : p.Asks Q := by
  induction asks with
  | done a => exact .done a
  | fail e => exact .fail e
  | crash => exact .crash
  | ask allowed _ ih => exact .ask (weaker _ allowed) ih

theorem Asks.bind {f : α → Procedure I β} (first : p.Asks P) (rest : ∀ a, (f a).Asks P) : (p >>= f).Asks P := by
  change (p.bind f).Asks P
  induction first with
  | done a => exact rest a
  | fail e => exact .fail e
  | crash => exact .crash
  | ask allowed _ ih => exact .ask allowed ih

theorem Asks.during (operation : String) (asks : p.Asks P) : (p.during operation).Asks P := by
  induction asks with
  | done a => exact .done a
  | fail e => exact .fail _
  | crash => exact .crash
  | ask allowed _ ih => exact .ask allowed ih

theorem Asks.attempt (asks : p.Asks P) : p.attempt.Asks P := by
  induction asks with
  | done a => exact .done _
  | fail e => exact .done _
  | crash => exact .crash
  | ask allowed _ ih => exact .ask allowed ih

theorem Returns.bind {R : β → Prop} (p : Procedure I α) {f : α → Procedure I β} (rest : ∀ a, (f a).Returns R) : (p >>= f).Returns R := by
  change (p.bind f).Returns R
  induction p with
  | done a => exact rest a
  | fail e => exact .fail e
  | crash => exact .crash
  | ask q next ih => exact .ask ih

theorem Returns.bind_congr {R : α → Prop} {f g : α → Procedure I β} (returns : p.Returns R) (same : ∀ a, R a → f a = g a) :
    p >>= f = p >>= g := by
  change p.bind f = p.bind g
  induction returns with
  | done returned => exact same _ returned
  | fail e => rfl
  | crash => rfl
  | ask _ ih => exact congrArg (Procedure.ask _) (funext ih)

-- What every question of a procedure keeps is kept by running it.
theorem Asks.run_keeps {answer : Answering I σ} {K : σ → Prop} (kept : ∀ s q, P q → K s → K (answer s q).2)
    (asks : p.Asks P) {s : σ} (holds : K s) : K (run answer s p).2 := by
  induction asks generalizing s with
  | ask allowed _ ih => exact ih _ (kept s _ allowed holds)
  | _ => exact holds

-- Nor does a deadline leave anything else behind.
theorem Asks.runUntil_keeps {isUp : σ → Bool} {answer : Answering I σ} {K : σ → Prop}
    (kept : ∀ s q, P q → K s → K (answer s q).2) (asks : p.Asks P) {s : σ} (holds : K s) : K (runUntil isUp answer s p).2 := by
  induction asks generalizing s with
  | ask allowed _ ih =>
    unfold runUntil
    split
    · exact holds
    · exact ih _ (kept s _ allowed holds)
  | _ => exact holds

end

end Procedure
end Forum
