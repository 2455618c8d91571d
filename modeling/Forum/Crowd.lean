import Forum.Procedure

-- Crowds: any number of calls around one shared state. Whoever moves next asks one question and has
-- it answered; in between, others move and the state may change by itself. Who moves is up to
-- nobody, so what holds after every list of moves holds under every schedule. A call that is given
-- up while it waits is one that moves no more.
namespace Forum

-- What calls there are, what each of them does, who answers them, and how else the state changes.
structure Venue (I : Interface) (σ : Type) where
  Call : Type
  Result : Call → Type
  body : (call : Call) → Procedure I (Result call)
  answer : Procedure.Answering I σ
  Change : Type
  change : Change → σ → σ

-- A question that was asked by one of the calls, and the state that it was asked in.
structure Asked (I : Interface) (σ : Type) where
  call : Nat
  question : I.Question
  before : σ

namespace Venue
variable {I : Interface} {σ : Type} {V : Venue I σ}

-- A call and what is left of it.
structure Flight (V : Venue I σ) where
  call : V.Call
  rest : Procedure I (V.Result call)

-- Calls are numbered as they began, and the log grows at its end.
structure Crowd (V : Venue I σ) where
  shared : σ
  flights : List V.Flight := []
  log : List (Asked I σ) := []

inductive Move (V : Venue I σ)
  | start (call : V.Call)
  | step (number : Nat)
  | change (change : V.Change)

def start (c : V.Crowd) (call : V.Call) : V.Crowd := { c with flights := c.flights ++ [⟨call, V.body call⟩] }

-- A call asks its next question and goes on by the reply.
def ask (c : V.Crowd) (i : Nat) (call : V.Call) (q : I.Question) (next : Outcome (I.Value q) → Procedure I (V.Result call)) :
    V.Crowd where
  shared := (V.answer c.shared q).2
  flights := c.flights.set i ⟨call, next (V.answer c.shared q).1⟩
  log := c.log ++ [⟨i, q, c.shared⟩]

def elapse (c : V.Crowd) (change : V.Change) : V.Crowd := { c with shared := V.change change c.shared }

-- A call that has ended does not move.
def move (c : V.Crowd) : V.Move → V.Crowd
  | .start call => start c call
  | .step i =>
    match c.flights[i]? with
    | some ⟨call, .ask q next⟩ => ask c i call q next
    | _ => c
  | .change x => elapse c x

def play (c : V.Crowd) (moves : List V.Move) : V.Crowd := moves.foldl move c

-- What one of the calls has asked so far.
def Crowd.asked (c : V.Crowd) (i : Nat) : List (Asked I σ) := c.log.filter (·.call = i)

-- What a move adds to the log.
def logged (c : V.Crowd) : V.Move → List (Asked I σ)
  | .step i =>
    match c.flights[i]? with
    | some ⟨_, .ask q _⟩ => [⟨i, q, c.shared⟩]
    | _ => []
  | _ => []

-- What some moves add to the log.
def history (c : V.Crowd) : List V.Move → List (Asked I σ)
  | [] => []
  | m :: rest => logged c m ++ history (move c m) rest

-- The ways in which a crowd moves, and what each of them logs.
theorem move_cases (c : V.Crowd) (m : V.Move) :
    (∃ call, move c m = start c call ∧ logged c m = []) ∨
    (∃ i call q next, c.flights[i]? = some ⟨call, .ask q next⟩ ∧ move c m = ask c i call q next ∧
      logged c m = [⟨i, q, c.shared⟩]) ∨
    (∃ x, move c m = elapse c x ∧ logged c m = []) ∨ (move c m = c ∧ logged c m = []) := by
  cases m with
  | start call => exact .inl ⟨call, rfl, rfl⟩
  | change x => exact .inr (.inr (.inl ⟨x, rfl, rfl⟩))
  | step i =>
    rcases waits : c.flights[i]? with _ | ⟨call, rest⟩
    · exact .inr (.inr (.inr (by simp [move, logged, waits])))
    · cases rest with
      | ask q next => exact .inr (.inl ⟨i, call, q, next, waits, by simp [move, waits], by simp [logged, waits]⟩)
      | done a => exact .inr (.inr (.inr (by simp [move, logged, waits])))
      | fail e => exact .inr (.inr (.inr (by simp [move, logged, waits])))
      | crash => exact .inr (.inr (.inr (by simp [move, logged, waits])))

section
variable {c : V.Crowd} {call : V.Call} {q : I.Question} {next : Outcome (I.Value q) → Procedure I (V.Result call)}

theorem move_step (waits : c.flights[i]? = some ⟨call, .ask q next⟩) : move c (.step i) = ask c i call q next := by
  simp only [move, waits]

theorem ask_flight (waits : c.flights[i]? = some ⟨call, .ask q next⟩) :
    (ask c i call q next).flights[i]? = some ⟨call, next (V.answer c.shared q).1⟩ :=
  List.getElem?_set_self (List.getElem?_eq_some_iff.mp waits).1

theorem ask_others {j : Nat} (other : i ≠ j) : (ask c i call q next).flights[j]? = c.flights[j]? := List.getElem?_set_ne other

end

theorem start_others {c : V.Crowd} {j : Nat} {call : V.Call} (old : j < c.flights.length) :
    (start c call).flights[j]? = c.flights[j]? := List.getElem?_append_left old

theorem move_step_cases (c : V.Crowd) (i : Nat) :
    (∃ call q next, c.flights[i]? = some ⟨call, .ask q next⟩ ∧ move c (.step i) = ask c i call q next) ∨
      move c (.step i) = c := by
  unfold move
  dsimp only
  split
  · rename_i call q next waits
    exact .inl ⟨call, q, next, waits, rfl⟩
  · exact .inr rfl

theorem length_start (c : V.Crowd) (call : V.Call) : (move c (.start call)).flights.length = c.flights.length + 1 :=
  List.length_append

theorem length_step (c : V.Crowd) (i : Nat) : (move c (.step i)).flights.length = c.flights.length := by
  rcases move_step_cases c i with ⟨call, q, next, _, same⟩ | same
  · rw [same]
    exact List.length_set
  · rw [same]

theorem play_append (c : V.Crowd) (moves more : List V.Move) : play c (moves ++ more) = play (play c moves) more :=
  List.foldl_append

-- A property that every way of moving keeps is kept for good.
theorem play_keeps {P : V.Crowd → Prop} (moves : List V.Move)
    (started : ∀ c call, P c → P (start c call))
    (asked : ∀ c i call q next, c.flights[i]? = some ⟨call, .ask q next⟩ → P c → P (ask c i call q next))
    (elapsed : ∀ c x, P c → P (elapse c x)) {c : V.Crowd} (holds : P c) : P (play c moves) := by
  induction moves generalizing c with
  | nil => exact holds
  | cons m rest ih =>
    apply ih
    rcases move_cases c m with ⟨call, same, _⟩ | ⟨i, call, q, next, waits, same, _⟩ | ⟨x, same, _⟩ | ⟨same, _⟩
    all_goals rw [same]
    · exact started c call holds
    · exact asked c i call q next waits holds
    · exact elapsed c x holds
    · exact holds

theorem mem_asked {c : V.Crowd} : e ∈ c.asked i ↔ e ∈ c.log ∧ e.call = i := by
  simp [Crowd.asked, List.mem_filter]

-- A call that has ended stays as it is.
theorem play_ended {c : V.Crowd} {j : Nat} {call : V.Call} {outcome : Outcome (V.Result call)} (moves : List V.Move)
    (ended : c.flights[j]? = some ⟨call, .ofOutcome outcome⟩) : (play c moves).flights[j]? = some ⟨call, .ofOutcome outcome⟩ := by
  refine play_keeps (P := fun d => d.flights[j]? = some ⟨call, .ofOutcome outcome⟩) moves ?_ ?_ ?_ ended
  · intro d other ended
    rw [start_others (List.getElem?_eq_some_iff.mp ended).1, ended]
  · intro d i other q next waits ended
    have others : i ≠ j := by
      intro same
      subst same
      rw [waits] at ended
      cases outcome <;> cases ended
    rw [ask_others others, ended]
  · intro d x ended
    exact ended

theorem asked_ask (c : V.Crowd) (i j : Nat) {call : V.Call} {q : I.Question}
    {next : Outcome (I.Value q) → Procedure I (V.Result call)} :
    (ask c i call q next).asked j = if i = j then c.asked j ++ [⟨i, q, c.shared⟩] else c.asked j := by
  simp only [Crowd.asked, ask, List.filter_append]
  split <;> simp_all

theorem play_log (c : V.Crowd) (moves : List V.Move) : (play c moves).log = c.log ++ history c moves := by
  induction moves generalizing c with
  | nil => exact (List.append_nil _).symm
  | cons m rest ih =>
    have first : (move c m).log = c.log ++ logged c m := by
      rcases move_cases c m with ⟨call, same, none⟩ | ⟨i, call, q, next, _, same, one⟩ | ⟨x, same, none⟩ | ⟨same, none⟩
      · rw [same, none, List.append_nil]; rfl
      · rw [same, one]; rfl
      · rw [same, none, List.append_nil]; rfl
      · rw [same, none, List.append_nil]
    rw [history, ← List.append_assoc, ← first]
    exact ih (move c m)

-- Each move of a run is as R says, in the crowd in which it is made.
def Along (R : V.Crowd → V.Move → Prop) : V.Crowd → List V.Move → Prop
  | _, [] => True
  | c, m :: rest => R c m ∧ Along R (move c m) rest

instance decidableAlong (R : V.Crowd → V.Move → Prop) [∀ c m, Decidable (R c m)] :
    (c : V.Crowd) → (moves : List V.Move) → Decidable (Along R c moves)
  | _, [] => isTrue trivial
  | c, m :: rest =>
    have := decidableAlong R (move c m) rest
    inferInstanceAs (Decidable (R c m ∧ Along R (move c m) rest))

theorem along_append {R : V.Crowd → V.Move → Prop} {c : V.Crowd} (moves more : List V.Move) :
    Along R c (moves ++ more) ↔ Along R c moves ∧ Along R (play c moves) more := by
  induction moves generalizing c with
  | nil => exact (iff_of_eq (true_and _)).symm
  | cons m rest ih =>
    simp only [List.cons_append, Along, ih, and_assoc]
    rfl

-- A property that every move of some kind keeps is kept by a run of such moves.
theorem play_keeps_along {R : V.Crowd → V.Move → Prop} {P : V.Crowd → Prop} {moves : List V.Move}
    (moved : ∀ c m, R c m → P c → P (move c m)) {c : V.Crowd} (along : Along R c moves) (holds : P c) :
    P (play c moves) := by
  induction moves generalizing c with
  | nil => exact holds
  | cons m rest ih => exact ih along.2 (moved c m along.1 holds)

-- The crowds on the way are the first one and those on the way from the second.
theorem throughout_cons {P : V.Crowd → Prop} (c : V.Crowd) (m : V.Move) (rest : List V.Move) :
    (∀ k, P (play c ((m :: rest).take k))) ↔ P c ∧ ∀ k, P (play (move c m) (rest.take k)) := by
  constructor
  · intro all
    exact ⟨all 0, fun k => all (k + 1)⟩
  · intro both k
    obtain ⟨first, later⟩ := both
    cases k with
    | zero => exact first
    | succ k => exact later k

-- Every question is asked in one of the states on the way.
theorem history_before {c : V.Crowd} {moves : List V.Move} (asked : e ∈ history c moves) :
    ∃ k, e.before = (play c (moves.take k)).shared := by
  induction moves generalizing c with
  | nil => cases asked
  | cons m rest ih =>
    rcases List.mem_append.mp asked with now | later
    · refine ⟨0, ?_⟩
      rcases move_cases c m with ⟨call, _, none⟩ | ⟨i, call, q, next, _, _, one⟩ | ⟨x, _, none⟩ | ⟨_, none⟩
      · rw [none] at now; cases now
      · rw [one] at now
        rw [List.mem_singleton.mp now]
        rfl
      · rw [none] at now; cases now
      · rw [none] at now; cases now
    · obtain ⟨k, same⟩ := ih later
      exact ⟨k + 1, same⟩

-- A property of states that changes keep, and that questions keep unless they break it, holds all
-- the way if and only if it holds at first and no question breaks it.
theorem throughout_iff {P K : σ → Prop} {Breaks : Asked I σ → Prop} {c : V.Crowd} {moves : List V.Move}
    (known : ∀ k, K (play c (moves.take k)).shared)
    (changed : ∀ x s, K s → K (V.change x s) → P s → P (V.change x s))
    (asked : ∀ e ∈ history c moves, K e.before → P e.before → (P (V.answer e.before e.question).2 ↔ ¬Breaks e)) :
    (∀ k, P (play c (moves.take k)).shared) ↔ P c.shared ∧ ∀ e ∈ history c moves, ¬Breaks e := by
  induction moves generalizing c with
  | nil =>
    simp only [List.take_nil, history, List.not_mem_nil, false_implies, implies_true, and_true]
    exact ⟨fun all => all 0, fun holds _ => holds⟩
  | cons m rest ih =>
    obtain ⟨here, there⟩ := (throughout_cons (P := fun c => K c.shared) c m rest).mp known
    have later := ih there fun e member => asked e (List.mem_append_right _ member)
    have step : P c.shared → (P (move c m).shared ↔ ∀ e ∈ logged c m, ¬Breaks e) := by
      intro holds
      rcases move_cases c m with ⟨call, same, none⟩ | ⟨i, call, q, next, _, same, one⟩ | ⟨x, same, none⟩ | ⟨same, none⟩
      · rw [same, none]
        exact ⟨fun _ e member => absurd member List.not_mem_nil, fun _ => holds⟩
      · have exactly := asked ⟨i, q, c.shared⟩ (List.mem_append_left _ (one ▸ List.mem_singleton_self _)) here holds
        rw [same, one, List.forall_mem_singleton]
        exact exactly
      · have after : K (V.change x c.shared) := by
          have next := there 0
          rw [same] at next
          exact next
        rw [same, none]
        exact ⟨fun _ e member => absurd member List.not_mem_nil, fun _ => changed x _ here after holds⟩
      · rw [same, none]
        exact ⟨fun _ e member => absurd member List.not_mem_nil, fun _ => holds⟩
    rw [throughout_cons (P := fun c => P c.shared), later]
    simp only [history, List.mem_append, or_imp, forall_and]
    constructor
    · intro all
      obtain ⟨holds, next, rest⟩ := all
      exact ⟨holds, (step holds).mp next, rest⟩
    · intro all
      obtain ⟨holds, now, rest⟩ := all
      exact ⟨holds, (step holds).mpr now, rest⟩

-- Where calls stand, by what they have asked: they begin there, and every question of theirs, in
-- whatever state it is asked, brings them on.
structure Stages (Stage : Nat → (call : V.Call) → List (Asked I σ) → Procedure I (V.Result call) → Prop) : Prop where
  opened : ∀ i call, Stage i call [] (V.body call)
  asked : ∀ i call mine q next s, Stage i call mine (.ask q next) →
    Stage i call (mine ++ [⟨i, q, s⟩]) (next (V.answer s q).1)

structure Staged (Stage : Nat → (call : V.Call) → List (Asked I σ) → Procedure I (V.Result call) → Prop)
    (c : V.Crowd) : Prop where
  known : ∀ e ∈ c.log, e.call < c.flights.length
  stands : ∀ i (f : V.Flight), c.flights[i]? = some f → Stage i f.call (c.asked i) f.rest

section
variable {Stage : Nat → (call : V.Call) → List (Asked I σ) → Procedure I (V.Result call) → Prop} {c : V.Crowd}

theorem Staged.unasked (staged : Staged Stage c) : c.asked c.flights.length = [] := by
  simp only [Crowd.asked, List.filter_eq_nil_iff, decide_eq_true_eq]
  intro e member same
  have bound := staged.known e member
  omega

theorem Staged.start (stages : Stages Stage) (staged : Staged Stage c) (call : V.Call) :
    Staged Stage (Venue.start c call) where
  known := by
    intro e member
    have bound := staged.known e member
    simp only [Venue.start, List.length_append, List.length_singleton]
    omega
  stands := by
    intro i f found
    rcases Nat.lt_trichotomy i c.flights.length with old | rfl | beyond
    · simp only [Venue.start, List.getElem?_append_left old] at found
      exact staged.stands i f found
    · simp only [Venue.start, List.getElem?_concat_length, Option.some.injEq] at found
      subst found
      change Stage _ call (c.asked _) _
      rw [staged.unasked]
      exact stages.opened _ call
    · rw [List.getElem?_eq_none (by simp only [Venue.start, List.length_append, List.length_singleton]; omega)] at found
      cases found

theorem Staged.ask (stages : Stages Stage) (staged : Staged Stage c) {call : V.Call} {q : I.Question}
    {next : Outcome (I.Value q) → Procedure I (V.Result call)} (waits : c.flights[i]? = some ⟨call, .ask q next⟩) :
    Staged Stage (Venue.ask c i call q next) := by
  have bound := (List.getElem?_eq_some_iff.mp waits).1
  refine ⟨?_, ?_⟩
  · intro e member
    simp only [Venue.ask, List.length_set]
    rcases List.mem_append.mp member with old | new
    · exact staged.known e old
    · rw [List.mem_singleton.mp new]
      exact bound
  · intro j f found
    rw [asked_ask]
    by_cases mine : i = j
    · subst mine
      simp only [Venue.ask, List.getElem?_set_self bound, Option.some.injEq] at found
      subst found
      rw [if_pos rfl]
      exact stages.asked i call _ q next c.shared (staged.stands i _ waits)
    · simp only [Venue.ask, List.getElem?_set_ne mine] at found
      rw [if_neg mine]
      exact staged.stands j f found

theorem Staged.elapse (staged : Staged Stage c) (x : V.Change) : Staged Stage (Venue.elapse c x) :=
  ⟨staged.known, staged.stands⟩

-- A call is moved by its own questions alone, so every call in a crowd stands where they brought it.
theorem play_staged (stages : Stages Stage) (moves : List V.Move) (staged : Staged Stage c) :
    Staged Stage (play c moves) :=
  play_keeps moves (fun _ call staged => staged.start stages call) (fun _ _ _ _ _ waits staged => staged.ask stages waits)
    (fun _ x staged => staged.elapse x) staged

-- A property of crowds is kept if it is by every question that a call can come to.
theorem play_keeps_staged {P : V.Crowd → Prop} (stages : Stages Stage) (moves : List V.Move)
    (started : ∀ c call, P c → P (Venue.start c call))
    (asked : ∀ c i call q next, c.flights[i]? = some ⟨call, .ask q next⟩ → Stage i call (c.asked i) (.ask q next) →
      P c → P (Venue.ask c i call q next))
    (elapsed : ∀ c x, P c → P (Venue.elapse c x)) (staged : Staged Stage c) (holds : P c) : P (play c moves) := by
  suffices both : Staged Stage (play c moves) ∧ P (play c moves) from both.2
  refine play_keeps (P := fun c => Staged Stage c ∧ P c) moves ?_ ?_ ?_ ⟨staged, holds⟩
  · intro c call both
    obtain ⟨staged, holds⟩ := both
    exact ⟨staged.start stages call, started c call holds⟩
  · intro c i call q next waits both
    obtain ⟨staged, holds⟩ := both
    exact ⟨staged.ask stages waits, asked c i call q next waits (staged.stands i _ waits) holds⟩
  · intro c x both
    obtain ⟨staged, holds⟩ := both
    exact ⟨staged.elapse x, elapsed c x holds⟩

end

end Venue
end Forum
