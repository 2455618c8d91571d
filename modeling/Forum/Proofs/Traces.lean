import Forum.Proofs.Chronology

namespace Forum

def Procedure.Asking {I : Interface} {α : Type} (p : Procedure I α) : Prop := ∃ q next, p = ask q next

namespace Venue
open Procedure (Answering ofOutcome)
variable {I : Interface} {σ α β : Type} {answer : Answering I σ} {i : Nat}

-- What a call has come to by its questions, in the states in which they were asked. What is left of a
-- call in a crowd is decided by them, whatever the others do in between.
inductive Reaches (answer : Answering I σ) (i : Nat) : Procedure I α → List (Asked I σ) → Procedure I α → Prop
  | here {p : Procedure I α} : Reaches answer i p [] p
  | asked {next : Outcome (I.Value q) → Procedure I α} :
      Reaches answer i (next (answer s q).1) mine rest → Reaches answer i (.ask q next) (⟨i, q, s⟩ :: mine) rest

namespace Reaches
variable {mine : List (Asked I σ)}

theorem ask {p : Procedure I α} {next : Outcome (I.Value q) → Procedure I α} (s : σ)
    (reaches : Reaches answer i p mine (.ask q next)) :
    Reaches answer i p (mine ++ [⟨i, q, s⟩]) (next (answer s q).1) := by
  generalize left : Procedure.ask q next = rest at reaches
  induction reaches with
  | here =>
    subst left
    exact .asked .here
  | asked _ ih => exact .asked (ih left)

theorem ended {outcome : Outcome α} (reaches : Reaches answer i (ofOutcome outcome) mine rest) :
    mine = [] ∧ rest = ofOutcome outcome := by
  generalize begun : ofOutcome outcome = p at reaches
  cases reaches with
  | here => exact ⟨rfl, rfl⟩
  | asked => exact absurd begun (Procedure.ofOutcome_ne_ask _)

theorem call_done {q : I.Question} {a : I.Value q} (reaches : Reaches answer i (Procedure.call q) mine (.done a)) :
    ∃ s, mine = [⟨i, q, s⟩] ∧ (answer s q).1 = .done a := by
  cases reaches with
  | asked reaches =>
    rename_i s mine
    obtain ⟨rfl, returned⟩ := reaches.ended
    have same : (ofOutcome (.done a) : Procedure I (I.Value q)) = ofOutcome (answer s q).1 := returned
    exact ⟨s, rfl, (Procedure.ofOutcome_inj same).symm⟩

theorem bind_done {p : Procedure I α} {f : α → Procedure I β} {b : β} (reaches : Reaches answer i (p >>= f) mine (.done b)) :
    ∃ early late a, mine = early ++ late ∧ Reaches answer i p early (.done a) ∧ Reaches answer i (f a) late (.done b) := by
  change Reaches answer i (p.bind f) mine _ at reaches
  induction p generalizing mine with
  | done a => exact ⟨[], mine, a, rfl, .here, reaches⟩
  | fail e => cases reaches
  | crash => cases reaches
  | ask q next ih =>
    cases reaches with
    | asked reaches =>
      obtain ⟨early, late, a, rfl, first, rest⟩ := ih _ reaches
      exact ⟨_ :: early, late, a, rfl, .asked first, rest⟩

theorem during_done {p : Procedure I α} {a : α} (reaches : Reaches answer i (p.during operation) mine (.done a)) :
    Reaches answer i p mine (.done a) := by
  induction p generalizing mine with
  | done a => exact reaches
  | fail e => cases reaches
  | crash => cases reaches
  | ask q next ih =>
    cases reaches with
    | asked reaches => exact .asked (ih _ reaches)

theorem attempt_done {p : Procedure I α} {a : α} (reaches : Reaches answer i p.attempt mine (.done (.ok a))) :
    Reaches answer i p mine (.done a) := by
  induction p generalizing mine with
  | done a =>
    cases reaches
    exact .here
  | fail e => cases reaches
  | crash => cases reaches
  | ask q next ih =>
    cases reaches with
    | asked reaches => exact .asked (ih _ reaches)

theorem orCrash_done {found : Option α} {a : α} (reaches : Reaches answer i (Procedure.orCrash found) mine (.done a)) :
    mine = [] ∧ found = some a := by
  cases found with
  | none => cases reaches
  | some b =>
    cases reaches
    exact ⟨rfl, rfl⟩

end Reaches

theorem reaches_stages (V : Venue I σ) :
    Stages (V := V) fun i call mine rest => Reaches V.answer i (V.body call) mine rest where
  opened _ _ := .here
  asked _ _ _ _ _ s reaches := reaches.ask s

section
variable {V : Venue I σ} {c : V.Crowd}

theorem staged_reaches (unstarted : c.flights = []) (unasked : c.log = []) (moves : List V.Move) :
    Staged (fun i call mine rest => Reaches V.answer i (V.body call) mine rest) (play c moves) := by
  refine play_staged (reaches_stages V) moves ⟨?_, ?_⟩
  · simp [unasked]
  · simp [unstarted]

theorem asked_later {Stage : Nat → (call : V.Call) → List (Asked I σ) → Procedure I (V.Result call) → Prop}
    (staged : Staged Stage c) (moves : List V.Move) (later : c.flights.length ≤ j) (asked : e ∈ (play c moves).asked j) :
    e ∈ history c moves := by
  obtain ⟨logged, mine⟩ := mem_asked.mp asked
  rw [play_log] at logged
  rcases List.mem_append.mp logged with old | new
  · have bound := staged.known e old
    omega
  · exact new

theorem play_call {j : Nat} (moves : List V.Move) {f : V.Flight} (known : c.flights[j]? = some f) :
    ∃ rest, (play c moves).flights[j]? = some ⟨f.call, rest⟩ := by
  refine play_keeps (P := fun d => ∃ rest, d.flights[j]? = some ⟨f.call, rest⟩) moves ?_ ?_ ?_ ⟨f.rest, known⟩
  · intro d other flight
    obtain ⟨rest, flight⟩ := flight
    exact ⟨rest, by rw [start_others (List.getElem?_eq_some_iff.mp flight).1, flight]⟩
  · intro d i other q next waits flight
    obtain ⟨rest, flight⟩ := flight
    by_cases same : i = j
    · subst same
      cases waits.symm.trans flight
      exact ⟨_, ask_flight waits⟩
    · exact ⟨rest, by rw [ask_others same, flight]⟩
  · intro d x flight
    exact flight

theorem asked_play (c : V.Crowd) (moves : List V.Move) (j : Nat) :
    (play c moves).asked j = c.asked j ++ (history c moves).filter (·.call = j) := by
  rw [Crowd.asked, play_log, List.filter_append]
  rfl

theorem play_idle {moves : List V.Move} (bound : j < c.flights.length) (idle : (history c moves).filter (·.call = j) = []) :
    (play c moves).flights[j]? = c.flights[j]? := by
  induction moves generalizing c with
  | nil => rfl
  | cons m rest ih =>
    rw [history, List.filter_append, List.append_eq_nil_iff] at idle
    obtain ⟨now, later⟩ := idle
    rcases move_cases c m with ⟨call, same, _⟩ | ⟨i, call, q, next, waits, same, logs⟩ | ⟨x, same, _⟩ | ⟨same, _⟩
    · rw [same] at later
      have longer : j < (start c call).flights.length := by
        simp only [start, List.length_append]
        omega
      rw [play, List.foldl_cons, same]
      exact (ih longer later).trans (start_others bound)
    · have other : i ≠ j := by
        intro own
        simp [logs, own] at now
      rw [same] at later
      have longer : j < (ask c i call q next).flights.length := by
        simp only [ask, List.length_set]
        exact bound
      rw [play, List.foldl_cons, same]
      exact (ih longer later).trans (ask_others other)
    · rw [same] at later
      rw [play, List.foldl_cons, same]
      exact ih bound later
    · rw [same] at later
      rw [play, List.foldl_cons, same]
      exact ih bound later

end

end Venue

namespace Service
variable {rules : Rules} {c : (hall rules).Crowd}

inductive Forward (c : (hall rules).Crowd) : (hall rules).Move → Prop
  | start (e : Errand) : Forward c (.start e)
  | step (i : Nat) : Forward c (.step i)
  | change (forward : c.shared.clock ≤ (Board.shift x c.shared).clock) : Forward c (.change x)

theorem clock_step (c : (hall rules).Crowd) (i : Nat) : (Venue.move c (.step i)).shared.clock = c.shared.clock := by
  rcases Venue.move_step_cases c i with ⟨e, q, next, _, same⟩ | same
  · rw [same]
    exact (Backend.answerNow_frame c.shared q).clock
  · rw [same]

theorem clock_forward {moves : List (hall rules).Move} (forward : Venue.Along Forward c moves) :
    c.shared.clock ≤ (Venue.play c moves).shared.clock := by
  refine Venue.play_keeps_along (P := fun d => c.shared.clock ≤ d.shared.clock) ?_ forward (Instant.le_refl _)
  intro d m forward later
  cases forward with
  | start e => exact later
  | step i =>
    rw [clock_step]
    exact later
  | change forward => exact Instant.le_trans later forward

theorem history_between {moves : List (hall rules).Move} (forward : Venue.Along Forward c moves)
    (asked : e ∈ Venue.history c moves) :
    c.shared.clock ≤ e.before.clock ∧ e.before.clock ≤ (Venue.play c moves).shared.clock := by
  obtain ⟨k, before⟩ := Venue.history_before asked
  rw [← List.take_append_drop k moves] at forward
  obtain ⟨early, late⟩ := (Venue.along_append _ _).mp forward
  have last := clock_forward late
  rw [← Venue.play_append, List.take_append_drop] at last
  rw [before]
  exact ⟨clock_forward early, last⟩

theorem history_extends (staged : Venue.Staged (Stage rules) c) (keyed : SessionsKeyed c.shared.store.sessions)
    {moves : List (hall rules).Move} (asked : e ∈ Venue.history c moves) :
    SessionsKeyed e.before.store.sessions ∧ c.shared.store.Extends e.before.store := by
  obtain ⟨k, before⟩ := Venue.history_before asked
  have continues := continues_play staged keyed (moves.take k)
  rw [before]
  exact ⟨continues.keyed, continues.grown⟩

end Service
end Forum
