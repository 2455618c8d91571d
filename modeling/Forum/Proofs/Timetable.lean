import Mathlib
import Forum.Proofs.Protection
import Forum.Proofs.Ticking

namespace Forum
open Service (Errand Operation Question Rules hall opened)
open Board (Entry)

namespace Board

theorem swept_cases (reply : Outcome Nat) : swept reply = .done () ∨ swept reply = .crash := by
  cases reply with
  | crashed => exact .inr rfl
  | _ => exact .inl rfl

theorem keeps_grown {s t : Store} (grown : Grown PostRow.Becomes s.posts.rows t.posts.rows) : Keeps s t := by
  intro p archived
  obtain ⟨row, found, marked⟩ := archived
  obtain ⟨later, there, became⟩ := grown.find? (fun _ _ became => by rw [became.id]) found
  refine ⟨later, there, ?_⟩
  rcases became.archived with same | ⟨active, _⟩
  · rwa [same]
  · exact absurd active marked

end Board

namespace Backend

theorem run_sweep (b : Backend) :
    (Procedure.run answerNow b Service.Posts.sweep).2 = (b.answerNow (.archiveExpired b.clock)).2 := by
  rw [Board.sweep_eq]
  change (Procedure.run answerNow (b.answerNow (.archiveExpired b.clock)).2 (Board.swept (b.answerNow (.archiveExpired b.clock)).1)).2 = _
  obtain ⟨outcome, ended⟩ := Board.swept_ended (b.answerNow (.archiveExpired b.clock)).1
  rw [ended]
  cases outcome <;> rfl

theorem sweepTimes_counted (count : Nat) (b : Backend) :
    (b.sweepTimes count).calls.sweeps = b.calls.sweeps + count ∧ (b.sweepTimes count).sweeper = b.sweeper := by
  induction count generalizing b with
  | zero => exact ⟨rfl, rfl⟩
  | succ count ih =>
    obtain ⟨store, noted⟩ := b.archiveExpired_noted b.clock
    obtain ⟨later, same⟩ := ih (b.answerNow (.archiveExpired b.clock)).2
    rw [sweepTimes, run_sweep, later, same, noted]
    exact ⟨Nat.add_right_comm _ 1 count, rfl⟩

theorem pass_counted {b : Backend} {schedule : Sweeper.Schedule} (running : b.sweeper = some schedule) (millis : Nat) :
    (b.pass millis).calls.sweeps = b.calls.sweeps + (schedule.pass millis).1 ∧
      (b.pass millis).sweeper = some (schedule.pass millis).2 := by
  unfold pass
  simp only [running]
  exact sweepTimes_counted _ _

def sleep (b : Backend) (sleeps : List (Script × Nat)) : Backend :=
  sleeps.foldl (fun b piece => Backend.pass { b with script := piece.1 } piece.2) b

theorem sleep_counted {b : Backend} {schedule : Sweeper.Schedule} (running : b.sweeper = some schedule) (sleeps : List (Script × Nat)) :
    (b.sleep sleeps).calls.sweeps + schedule.fired =
      b.calls.sweeps + (schedule.elapsed + (sleeps.map (·.2)).sum) / schedule.interval := by
  induction sleeps generalizing b schedule with
  | nil => rfl
  | cons piece rest ih =>
    let passed : Backend := Backend.pass { b with script := piece.1 } piece.2
    let ahead := (schedule.pass piece.2).2
    obtain ⟨counted, later⟩ := pass_counted (b := { b with script := piece.1 }) running piece.2
    have counted : passed.calls.sweeps = b.calls.sweeps + (ahead.fired - schedule.fired) := counted
    have grown : schedule.fired ≤ ahead.fired := Nat.div_le_div_right (Nat.le_add_right _ _)
    have whole : (passed.sleep rest).calls.sweeps + ahead.fired =
        passed.calls.sweeps + (ahead.elapsed + (rest.map (·.2)).sum) / schedule.interval := ih later
    have sum : ahead.elapsed + (rest.map (·.2)).sum = schedule.elapsed + ((piece :: rest).map (·.2)).sum := by
      simp only [ahead, Sweeper.Schedule.pass, List.map_cons, List.sum_cons]
      omega
    rw [sum] at whole
    change (passed.sleep rest).calls.sweeps + schedule.fired = _
    omega

end Backend

namespace Sweeper

theorem Task.poll_cases {t t' : Task} (turns : t.step? .poll = some t') :
    t.phase = .waiting ∧ ((t.cancelled = true ∧ t' = { t with phase := .stopped }) ∨
      (t.cancelled = false ∧ t.due = 0 ∧ t' = t) ∨
      (t.cancelled = false ∧ t.due ≠ 0 ∧ t' = { t with phase := .sweeping, due := t.due - 1 })) := by
  unfold Task.step? at turns
  dsimp only at turns
  split at turns
  · cases turns
  · rename_i waiting
    refine ⟨by simpa using waiting, ?_⟩
    split at turns
    · rename_i cancelled
      exact .inl ⟨cancelled, (Option.some.inj turns).symm⟩
    · rename_i uncancelled
      have uncancelled : t.cancelled = false := by simpa using uncancelled
      split at turns
      · rename_i none
        exact .inr (.inl ⟨uncancelled, none, (Option.some.inj turns).symm⟩)
      · rename_i some
        exact .inr (.inr ⟨uncancelled, some, (Option.some.inj turns).symm⟩)

theorem Task.finish_iff {t t' : Task} : t.step? .finish = some t' ↔ t.phase = .sweeping ∧ t' = { t with phase := .waiting } := by
  simp only [Task.step?]
  split <;> simp_all [eq_comm]

-- The sweeper's loop around a backend that others use too: the task, its timer, and its sweeps by the
-- numbers that they have among all calls. The `n`-th firing is due after `n` intervals.
structure Loop (rules : Rules) where
  interval : Nat
  now : Nat := 0
  fired : Nat
  task : Task := {}
  crowd : (hall rules).Crowd
  begun : List Nat := []

inductive Happening (rules : Rules)
  | elapse (millis : Nat)
  | event (event : Event)
  | move (move : (hall rules).Move)

namespace Loop
variable {rules : Rules}

-- The firing at the start is passed over.
def start (interval : Nat) (b : Backend) : Loop rules := { interval, fired := 1, crowd := opened rules b }

def Ended (c : (hall rules).Crowd) (i : Nat) : Prop := c.flights[i]? = some ⟨.sweep, .done ()⟩

-- A sweep is begun where the task turns to one, and is finished when it has ended. A sweep that panics
-- is never finished.
inductive Step (l : Loop rules) : Happening rules → Loop rules → Prop
  | elapse (millis : Nat) : Step l (.elapse millis) { l with now := l.now + millis }
  | move (m : (hall rules).Move) : Step l (.move m) { l with crowd := Venue.move l.crowd m }
  | fire (turns : l.task.step? .fire = some t) : Step l (.event .fire) { l with task := t, fired := l.fired + 1 }
  | cancel (turns : l.task.step? .cancel = some t) : Step l (.event .cancel) { l with task := t }
  | idle (turns : l.task.step? .poll = some t) (idles : t.phase ≠ .sweeping) : Step l (.event .poll) { l with task := t }
  | begin (turns : l.task.step? .poll = some t) (begins : t.phase = .sweeping) :
      Step l (.event .poll)
        { l with task := t, crowd := Venue.start l.crowd .sweep, begun := l.begun ++ [l.crowd.flights.length] }
  | finish {i : Nat} (turns : l.task.step? .finish = some t) (last : l.begun.getLast? = some i) (ended : Ended l.crowd i) :
      Step l (.event .finish) { l with task := t }

inductive Runs (Allowed : Loop rules → Happening rules → Prop) : Loop rules → List (Happening rules) → Loop rules → Prop
  | nil (l : Loop rules) : Runs Allowed l [] l
  | cons (allowed : Allowed l h) (step : Step l h middle) (rest : Runs Allowed middle more last) : Runs Allowed l (h :: more) last

def Freely (_ : Loop rules) (_ : Happening rules) : Prop := True

-- The timer fires when it is due and not later, and time goes by only while the task waits with nothing
-- to do: sweeps take none.
def Timely (l : Loop rules) : Happening rules → Prop
  | .elapse millis => l.task.phase ≠ .sweeping ∧ (l.task.phase = .waiting → l.task.due = 0) ∧ l.now + millis ≤ l.fired * l.interval
  | .event .fire => l.now = l.fired * l.interval
  | _ => True

structure Quiet (l : Loop rules) : Prop where
  task : l.task = {}
  ahead : l.now < l.fired * l.interval

def slept (happenings : List (Happening rules)) : Nat :=
  (happenings.map fun | .elapse millis => millis | _ => 0).sum

namespace Runs
variable {Allowed : Loop rules → Happening rules → Prop} {l middle last : Loop rules} {early late : List (Happening rules)}

theorem append (one : Runs Allowed l early middle) (two : Runs Allowed middle late last) : Runs Allowed l (early ++ late) last := by
  induction one with
  | nil => exact two
  | cons allowed step _ ih => exact .cons allowed step (ih two)

theorem keeps {P : Loop rules → Prop} (kept : ∀ l h l', Allowed l h → Step l h l' → P l → P l') (runs : Runs Allowed l early last)
    (holds : P l) : P last := by
  induction runs with
  | nil => exact holds
  | cons allowed step _ ih => exact ih (kept _ _ _ allowed step holds)

theorem now_eq (runs : Runs Allowed l early last) : last.now = l.now + slept early ∧ last.interval = l.interval := by
  induction runs with
  | nil => exact ⟨rfl, rfl⟩
  | cons allowed step _ ih =>
    obtain ⟨now, interval⟩ := ih
    rw [now, interval]
    cases step <;> simp [slept, Nat.add_assoc]

end Runs

inductive Sweeps (i : Nat) : List Entry → Operation Unit → Prop
  | clock : Sweeps i [] (.ask .now Board.begun)
  | archive {s : Backend} : Sweeps i [⟨i, .now, s⟩] (.ask (.archiveExpired s.clock) Board.swept)
  | complete {s t : Backend} : Sweeps i [⟨i, .now, s⟩, ⟨i, .archiveExpired s.clock, t⟩]
      (Board.swept (t.answerNow (.archiveExpired s.clock)).1)

def Rounds (i : Nat) : (e : Errand) → List Entry → Operation e.Result → Prop
  | .sweep => Sweeps i
  | _ => fun _ _ => True

theorem Sweeps.asked (t : Backend) {mine : List Entry} {q : Question} {next : Outcome q.Value → Operation Unit}
    (sweeps : Sweeps i mine (.ask q next)) : Sweeps i (mine ++ [⟨i, q, t⟩]) (next (t.answerNow q).1) := by
  generalize same : (Procedure.ask q next : Operation Unit) = rest at sweeps
  cases sweeps with
  | clock =>
    cases same
    exact .archive
  | archive =>
    cases same
    exact .complete
  | complete =>
    obtain ⟨outcome, ended⟩ := Board.swept_ended (Backend.answerNow _ (.archiveExpired _)).1
    rw [ended] at same
    exact absurd same.symm (Procedure.ofOutcome_ne_ask _)

theorem Sweeps.ended {mine : List Entry} (sweeps : Sweeps i mine (.done ())) :
    ∃ s t, mine = [⟨i, .now, s⟩, ⟨i, .archiveExpired s.clock, t⟩] := by
  generalize same : (Procedure.done () : Operation Unit) = rest at sweeps
  cases sweeps with
  | clock => cases same
  | archive => cases same
  | complete => exact ⟨_, _, rfl⟩

theorem rounds (rules : Rules) : Venue.Stages (V := hall rules) Rounds where
  opened := by
    intro i e
    cases e with
    | sweep =>
      change Sweeps i [] Service.Posts.sweep
      rw [Board.sweep_eq]
      exact .clock
    | _ => exact trivial
  asked := by
    intro i e mine q next s stage
    cases e with
    | sweep => exact Sweeps.asked s stage
    | _ => exact trivial

def Due (cutoff : Instant) (t : Backend) (p : Int) : Prop :=
  (∃ count, (t.answerNow (.archiveExpired cutoff)).1 = .done count) ∧
    ∃ row, t.store.post? p = some row ∧ Store.PostRow.IsDue cutoff.millis row

-- How the log of a crowd accounts for where its calls stand and for what is archived.
structure Logged (c : (hall rules).Crowd) : Prop where
  rounds : Venue.Staged (V := hall rules) Rounds c
  stands : Venue.Staged (V := hall rules) (Service.Stage rules) c
  swept : ∀ i cutoff t, ⟨i, .archiveExpired cutoff, t⟩ ∈ c.log → ∀ p, Due cutoff t p → Board.Archived c.shared.store p

theorem Logged.move {c : (hall rules).Crowd} (logged : Logged c) (m : (hall rules).Move) : Logged (Venue.move c m) := by
  refine ⟨Venue.play_staged (Loop.rounds rules) [m] logged.rounds, Venue.play_staged (Service.stages rules) [m] logged.stands, ?_⟩
  rcases Venue.move_cases c m with ⟨call, same, _⟩ | ⟨j, call, q, next, waits, same, _⟩ | ⟨x, same, _⟩ | ⟨same, _⟩
  all_goals rw [same]
  · exact logged.swept
  · have lawful := (logged.stands.stands j _ waits).lawful
    have effect := Backend.answerNow_effect c.shared lawful
    have keeps := Board.keeps_grown ((effect.turns lawful).mono fun _ _ => Backend.Turns.becomes)
    intro i cutoff t member p due
    rcases List.mem_append.mp member with old | new
    · exact keeps p (logged.swept i cutoff t old p due)
    · cases List.mem_singleton.mp new
      obtain ⟨⟨count, done⟩, row, found, due⟩ := due
      exact Service.archives_due done found due
  · intro i cutoff t member p due
    change Board.Archived (Board.shift x c.shared).store p
    rw [Board.shift_store]
    exact logged.swept i cutoff t member p due
  · exact logged.swept

-- Of the sweeps that were begun, each has ended or is the last and under way.
structure Kept (l : Loop rules) : Prop where
  counted : l.fired = l.begun.length + l.task.due + 1
  ascending : l.begun.Pairwise (· < ·)
  sweeps : ∀ i ∈ l.begun, ∃ rest, l.crowd.flights[i]? = some ⟨.sweep, rest⟩
  ended : ∀ i ∈ l.begun, Ended l.crowd i ∨ (l.task.phase = .sweeping ∧ l.begun.getLast? = some i)
  turned : l.task.phase = .sweeping → l.begun ≠ []
  logged : Logged l.crowd

theorem kept_start (interval : Nat) (b : Backend) : Kept (start interval b : Loop rules) where
  counted := rfl
  ascending := .nil
  sweeps := by simp [start]
  ended := by simp [start]
  turned := nofun
  logged := ⟨⟨by simp [start, opened], by simp [start, opened]⟩, Service.staged_opened rules b, by simp [start, opened]⟩

theorem move_flight {c : (hall rules).Crowd} (m : (hall rules).Move) {i : Nat} {e : Errand} {rest : Operation e.Result}
    (found : c.flights[i]? = some ⟨e, rest⟩) : ∃ rest', (Venue.move c m).flights[i]? = some ⟨e, rest'⟩ := by
  rcases Venue.move_cases c m with ⟨call, same, _⟩ | ⟨j, call, q, next, waits, same, _⟩ | ⟨x, same, _⟩ | ⟨same, _⟩
  all_goals rw [same]
  · exact ⟨rest, (Venue.start_others (List.getElem?_eq_some_iff.mp found).1).trans found⟩
  · by_cases mine : j = i
    · subst mine
      cases waits.symm.trans found
      exact ⟨_, Venue.ask_flight waits⟩
    · exact ⟨rest, (Venue.ask_others mine).trans found⟩
  · exact ⟨rest, found⟩
  · exact ⟨rest, found⟩

theorem Ended.move {c : (hall rules).Crowd} (ended : Ended c i) (m : (hall rules).Move) : Ended (Venue.move c m) i := by
  have outcome : c.flights[i]? = some ⟨.sweep, Procedure.ofOutcome (.done ())⟩ := ended
  exact Venue.play_ended [m] outcome

theorem Ended.start {c : (hall rules).Crowd} (ended : Ended c i) (e : Errand) : Ended (Venue.start c e) i :=
  (Venue.start_others (List.getElem?_eq_some_iff.mp ended).1).trans ended

theorem Kept.below {l : Loop rules} (kept : Kept l) : ∀ i ∈ l.begun, i < l.crowd.flights.length := by
  intro i member
  obtain ⟨rest, found⟩ := kept.sweeps i member
  exact (List.getElem?_eq_some_iff.mp found).1

theorem Kept.all {l : Loop rules} (kept : Kept l) (idles : l.task.phase ≠ .sweeping) : ∀ i ∈ l.begun, Ended l.crowd i := by
  intro i member
  rcases kept.ended i member with ended | ⟨sweeping, _⟩
  · exact ended
  · exact absurd sweeping idles

theorem Kept.step {l l' : Loop rules} {h : Happening rules} (kept : Kept l) (step : Step l h l') : Kept l' := by
  cases step with
  | elapse millis => exact ⟨kept.counted, kept.ascending, kept.sweeps, kept.ended, kept.turned, kept.logged⟩
  | move m =>
    refine ⟨kept.counted, kept.ascending, ?_, ?_, kept.turned, kept.logged.move m⟩
    · intro i member
      obtain ⟨rest, found⟩ := kept.sweeps i member
      exact move_flight m found
    · intro i member
      exact (kept.ended i member).imp (fun ended => ended.move m) id
  | fire turns =>
    cases turns
    refine ⟨?_, kept.ascending, kept.sweeps, kept.ended, kept.turned, kept.logged⟩
    change l.fired + 1 = l.begun.length + (l.task.due + 1) + 1
    rw [kept.counted]
    rfl
  | cancel turns =>
    cases turns
    exact ⟨kept.counted, kept.ascending, kept.sweeps, kept.ended, kept.turned, kept.logged⟩
  | idle turns idles =>
    -- A poll stops the task, leaves it waiting or turns it to a sweep, and the last of these is no idling.
    obtain ⟨waiting, ⟨_, same⟩ | ⟨_, _, same⟩ | ⟨_, _, same⟩⟩ := Task.poll_cases turns
    · subst same
      have all := kept.all (by rw [waiting]; nofun)
      exact ⟨kept.counted, kept.ascending, kept.sweeps, fun i member => .inl (all i member), nofun, kept.logged⟩
    · subst same
      exact kept
    · subst same
      exact absurd rfl idles
  | begin turns begins =>
    obtain ⟨waiting, ⟨_, same⟩ | ⟨_, _, same⟩ | ⟨_, due, same⟩⟩ := Task.poll_cases turns
    · subst same
      cases begins
    · subst same
      rw [waiting] at begins
      cases begins
    · subst same
      have all := kept.all (by rw [waiting]; nofun)
      -- All sweeps before it have ended, so the new one is the only one that may be under way.
      refine ⟨?_, ?_, ?_, ?_, fun _ => List.append_ne_nil_of_right_ne_nil _ nofun, kept.logged.move (.start .sweep)⟩
      · have counted := kept.counted
        simp only [List.length_append, List.length_singleton]
        omega
      · rw [List.pairwise_append]
        refine ⟨kept.ascending, List.pairwise_singleton _ _, ?_⟩
        intro i member j new
        rw [List.mem_singleton.mp new]
        exact kept.below i member
      · intro i member
        rcases List.mem_append.mp member with old | new
        · obtain ⟨rest, found⟩ := kept.sweeps i old
          exact ⟨rest, (Venue.start_others (kept.below i old)).trans found⟩
        · rw [List.mem_singleton.mp new]
          exact ⟨_, List.getElem?_concat_length⟩
      · intro i member
        rcases List.mem_append.mp member with old | new
        · exact .inl ((all i old).start .sweep)
        · rw [List.mem_singleton.mp new]
          exact .inr ⟨rfl, List.getLast?_concat⟩
  | finish turns last ended =>
    obtain ⟨sweeping, same⟩ := Task.finish_iff.mp turns
    subst same
    refine ⟨kept.counted, kept.ascending, kept.sweeps, ?_, nofun, kept.logged⟩
    intro i member
    rcases kept.ended i member with ended | ⟨_, newest⟩
    · exact .inl ended
    · cases last.symm.trans newest
      exact .inl ended

theorem Kept.runs {Allowed : Loop rules → Happening rules → Prop} {l l' : Loop rules} {happenings : List (Happening rules)}
    (kept : Kept l) (runs : Runs Allowed l happenings l') : Kept l' :=
  runs.keeps (fun _ _ _ _ step kept => kept.step step) kept

theorem Runs.cancelled {Allowed : Loop rules → Happening rules → Prop} {l l' : Loop rules} {happenings : List (Happening rules)}
    (runs : Runs Allowed l happenings l') (cancelled : l.task.cancelled = true) :
    l'.task.cancelled = true ∧ l'.begun = l.begun := by
  refine runs.keeps (P := fun m => m.task.cancelled = true ∧ m.begun = l.begun) ?_ ⟨cancelled, rfl⟩
  rintro m h m' _ step ⟨cancelled, same⟩
  cases step with
  | elapse millis => exact ⟨cancelled, same⟩
  | move move => exact ⟨cancelled, same⟩
  | fire turns =>
    cases turns
    exact ⟨cancelled, same⟩
  | cancel turns =>
    cases turns
    exact ⟨rfl, same⟩
  | idle turns idles =>
    obtain ⟨_, ⟨_, rfl⟩ | ⟨uncancelled, _⟩ | ⟨uncancelled, _⟩⟩ := Task.poll_cases turns
    · exact ⟨cancelled, same⟩
    · rw [cancelled] at uncancelled
      cases uncancelled
    · rw [cancelled] at uncancelled
      cases uncancelled
  | begin turns begins =>
    obtain ⟨_, ⟨_, rfl⟩ | ⟨uncancelled, _⟩ | ⟨uncancelled, _⟩⟩ := Task.poll_cases turns
    · cases begins
    · rw [cancelled] at uncancelled
      cases uncancelled
    · rw [cancelled] at uncancelled
      cases uncancelled
  | finish turns last ended =>
    obtain ⟨_, rfl⟩ := Task.finish_iff.mp turns
    exact ⟨cancelled, same⟩

def InTime (l : Loop rules) : Prop := l.fired * l.interval ≤ l.now + l.interval

theorem InTime.runs {l l' : Loop rules} {happenings : List (Happening rules)} (inTime : InTime l)
    (runs : Runs Timely l happenings l') : InTime l' := by
  refine runs.keeps (P := InTime) ?_ inTime
  intro m h m' timely step inTime
  unfold InTime at inTime ⊢
  cases step with
  | elapse millis =>
    change m.fired * m.interval ≤ m.now + millis + m.interval
    omega
  | fire turns =>
    have due : m.now = m.fired * m.interval := timely
    have next : (m.fired + 1) * m.interval = m.now + m.interval := by rw [due, Nat.succ_mul]
    exact Nat.le_of_eq next
  | _ => exact inTime

theorem Quiet.positive {l : Loop rules} (quiet : Quiet l) : 0 < l.interval := by
  have ahead := quiet.ahead
  rcases Nat.eq_zero_or_pos l.interval with none | positive
  · rw [none] at ahead
    omega
  · exact positive

theorem Quiet.fired_eq {l : Loop rules} (quiet : Quiet l) (inTime : InTime l) : l.now / l.interval + 1 = l.fired := by
  have positive := quiet.positive
  have above : l.now / l.interval < l.fired := (Nat.div_lt_iff_lt_mul positive).mpr quiet.ahead
  have below : l.fired ≤ l.now / l.interval + 1 := by
    rw [← Nat.add_div_right _ positive]
    exact (Nat.le_div_iff_mul_le positive).mpr inTime
  omega

theorem Quiet.begun_length {l : Loop rules} (quiet : Quiet l) (inTime : InTime l) (kept : Kept l) :
    l.begun.length = l.now / l.interval := by
  have counted := kept.counted
  have none : l.task.due = 0 := by rw [quiet.task]
  have fired := quiet.fired_eq inTime
  omega

-- A backend on which archiving does not panic.
def Unbroken (b : Backend) : Prop := ∀ text, b.mishap .archiveExpired ≠ some (.panic text)

theorem Unbroken.swept {b : Backend} (unbroken : Unbroken b) (cutoff : Instant) :
    Board.swept (b.answerNow (.archiveExpired cutoff)).1 = .done () := by
  have met : b.mishap .archiveExpired = Backend.mishap { b with calls := { b.calls with sweeps := b.calls.sweeps + 1 } } .archiveExpired := rfl
  unfold Unbroken at unbroken
  simp only [Backend.answerNow]
  rw [met] at unbroken
  generalize Backend.mishap { b with calls := { b.calls with sweeps := b.calls.sweeps + 1 } } .archiveExpired = mishap at unbroken
  rcases mishap with _ | e | text
  · rfl
  · rfl
  · exact absurd rfl (unbroken text)

section
variable {c : (hall rules).Crowd} {i : Nat}

theorem step_archive {cutoff : Instant} (unbroken : Unbroken c.shared)
    (waits : c.flights[i]? = some ⟨.sweep, .ask (.archiveExpired cutoff) Board.swept⟩) :
    Ended (Venue.play c [.step i]) i ∧ (Venue.play c [.step i]).shared = (c.shared.answerNow (.archiveExpired cutoff)).2 := by
  change Ended (Venue.move c (.step i)) i ∧ (Venue.move c (.step i)).shared = _
  rw [Venue.move_step waits]
  refine ⟨(Venue.ask_flight waits).trans ?_, rfl⟩
  exact congrArg (fun rest : Operation Unit => some (⟨.sweep, rest⟩ : (hall rules).Flight)) (unbroken.swept cutoff)

theorem step_clock (unbroken : Unbroken c.shared) (waits : c.flights[i]? = some ⟨.sweep, .ask .now Board.begun⟩) :
    Ended (Venue.play c [.step i, .step i]) i ∧
      (Venue.play c [.step i, .step i]).shared = (Procedure.run Backend.answerNow c.shared Service.Posts.sweep).2 := by
  have reads : Venue.move c (.step i) = _ := Venue.move_step waits
  have later : (Venue.move c (.step i)).flights[i]? = some ⟨.sweep, .ask (.archiveExpired c.shared.clock) Board.swept⟩ := by
    rw [reads]
    exact Venue.ask_flight waits
  have same : (Venue.move c (.step i)).shared = c.shared := by
    rw [reads]
    rfl
  obtain ⟨ended, swept⟩ := step_archive (same ▸ unbroken) later
  refine ⟨ended, swept.trans ?_⟩
  rw [same, Backend.run_sweep]

end

def Takes (l : Loop rules) (millis : Nat) (last : Loop rules) : Prop :=
  ∃ happenings, Runs Timely l happenings last ∧ slept happenings = millis

namespace Takes
variable {l middle last : Loop rules}

theorem trans {first second : Nat} (one : Takes l first middle) (two : Takes middle second last) : Takes l (first + second) last := by
  obtain ⟨early, runs, early_takes⟩ := one
  obtain ⟨late, more, late_takes⟩ := two
  refine ⟨early ++ late, runs.append more, ?_⟩
  unfold slept at early_takes late_takes ⊢
  rw [List.map_append, List.sum_append, early_takes, late_takes]

theorem once (h : Happening rules) (timely : Timely l h) (step : Step l h last) : Takes l (slept [h]) last :=
  ⟨[h], .cons timely step (.nil last), rfl⟩

theorem moves (l : Loop rules) (moves : List (hall rules).Move) : Takes l 0 { l with crowd := Venue.play l.crowd moves } := by
  induction moves generalizing l with
  | nil => exact ⟨[], .nil l, rfl⟩
  | cons m rest ih => exact (once (.move m) trivial (.move m)).trans (ih _)

theorem finishing {i : Nat} {moves : List (hall rules).Move} (sweeping : l.task.phase = .sweeping) (newest : l.begun.getLast? = some i)
    (ended : Ended (Venue.play l.crowd moves) i) :
    Takes l 0 { l with task := { l.task with phase := .waiting }, crowd := Venue.play l.crowd moves } :=
  (Takes.moves l moves).trans (once (.event .finish) trivial (.finish (Task.finish_iff.mpr ⟨sweeping, rfl⟩) newest ended))

end Takes

theorem sweep_once {l : Loop rules} (idle : l.task = {}) (due : l.now = l.fired * l.interval) (unbroken : Unbroken l.crowd.shared) :
    ∃ after, Takes l 0 after ∧ after.task = {} ∧ after.interval = l.interval ∧ after.now = l.now ∧ after.fired = l.fired + 1 ∧
      after.crowd.shared = (Procedure.run Backend.answerNow l.crowd.shared Service.Posts.sweep).2 := by
  have waits : (Venue.start l.crowd .sweep).flights[l.crowd.flights.length]? = some ⟨.sweep, .ask .now Board.begun⟩ := by
    rw [← Board.sweep_eq]
    exact List.getElem?_concat_length
  obtain ⟨ended, swept⟩ := step_clock (c := Venue.start l.crowd .sweep) unbroken waits
  have fires := Takes.once (l := l) (.event .fire) due (.fire rfl)
  have begins := fires.trans (.once (.event .poll) trivial (.begin (t := { phase := .sweeping }) (by rw [idle]; rfl) rfl))
  exact ⟨_, begins.trans (.finishing rfl List.getLast?_concat ended), rfl, rfl, rfl, rfl, swept⟩

theorem Unbroken.sweep {b : Backend} (unbroken : Unbroken b) :
    Unbroken (Procedure.run Backend.answerNow b Service.Posts.sweep).2 := by
  rw [Backend.run_sweep]
  intro text
  rw [(Backend.answerNow_frame b (.archiveExpired b.clock)).mishap]
  exact unbroken text

theorem Quiet.elapse {l : Loop rules} {millis : Nat} (quiet : Quiet l) (inTime : InTime l)
    (within : l.now + millis ≤ l.fired * l.interval) :
    Takes l millis { l with now := l.now + millis } ∧ InTime { l with now := l.now + millis } := by
  have timely : Timely l (.elapse millis) := by
    refine ⟨?_, ?_, within⟩ <;> rw [quiet.task]
    · nofun
    · exact fun _ => rfl
  have takes : Takes l millis { l with now := l.now + millis } := .once (.elapse millis) timely (.elapse millis)
  have ⟨_, runs, _⟩ := takes
  exact ⟨takes, inTime.runs runs⟩

theorem Quiet.sweeps {l : Loop rules} {millis : Nat} (quiet : Quiet l) (inTime : InTime l) (unbroken : Unbroken l.crowd.shared)
    (due : l.now + millis = l.fired * l.interval) :
    ∃ after, Takes l millis after ∧ Quiet after ∧ InTime after ∧ after.interval = l.interval ∧ after.now = l.now + millis ∧
      after.crowd.shared = (Procedure.run Backend.answerNow l.crowd.shared Service.Posts.sweep).2 := by
  obtain ⟨waits, waiting⟩ := quiet.elapse inTime (Nat.le_of_eq due)
  obtain ⟨after, once, idle, interval, now, fired, swept⟩ :=
    sweep_once (l := { l with now := l.now + millis }) quiet.task due unbroken
  have ⟨_, runs, _⟩ := once
  refine ⟨after, waits.trans once, ⟨idle, ?_⟩, waiting.runs runs, interval, now, swept⟩
  rw [now, fired, interval, Nat.succ_mul]
  have positive := quiet.positive
  change l.now + millis < l.fired * l.interval + l.interval
  omega

theorem Quiet.sleeps {l : Loop rules} (millis : Nat) (quiet : Quiet l) (inTime : InTime l) (unbroken : Unbroken l.crowd.shared) :
    ∃ after, Takes l millis after ∧ Quiet after ∧
      after.crowd.shared = l.crowd.shared.sweepTimes (({ interval := l.interval, elapsed := l.now } : Schedule).pass millis).1 := by
  change ∃ after, Takes l millis after ∧ Quiet after ∧
    after.crowd.shared = l.crowd.shared.sweepTimes ((l.now + millis) / l.interval - l.now / l.interval)
  -- By the time that is left: each round goes on to the next firing and through its sweep.
  induction millis using Nat.strongRecOn generalizing l with
  | ind millis ih =>
    have before := quiet.fired_eq inTime
    have ahead := quiet.ahead
    by_cases soon : l.now + millis < l.fired * l.interval
    · obtain ⟨waits, waiting⟩ := quiet.elapse inTime (Nat.le_of_lt soon)
      have later : Quiet { l with now := l.now + millis } := ⟨quiet.task, soon⟩
      have fired : (l.now + millis) / l.interval + 1 = l.fired := later.fired_eq waiting
      have none : (l.now + millis) / l.interval - l.now / l.interval = 0 := by omega
      refine ⟨_, waits, later, ?_⟩
      rw [none]
      rfl
    · obtain ⟨first, reaches⟩ : ∃ first, l.now + first = l.fired * l.interval := ⟨_, Nat.add_sub_of_le (Nat.le_of_lt ahead)⟩
      obtain ⟨rest, rfl⟩ : ∃ rest, millis = first + rest := Nat.exists_eq_add_of_le (by omega)
      obtain ⟨middle, takes, again, punctual, interval, now, swept⟩ := quiet.sweeps inTime unbroken reaches
      have unbroken : Unbroken middle.crowd.shared := swept ▸ unbroken.sweep
      obtain ⟨after, more, later, shared⟩ := ih rest (by omega) again punctual unbroken
      refine ⟨after, takes.trans more, later, ?_⟩
      have passed : middle.now / l.interval = l.now / l.interval + 1 := by
        rw [now, reaches, Nat.mul_div_cancel _ quiet.positive, before]
      have grown : middle.now / l.interval ≤ (l.now + (first + rest)) / l.interval := by
        apply Nat.div_le_div_right
        omega
      rw [shared, swept, interval, passed, now, Nat.add_assoc]
      rw [passed] at grown
      have count : (l.now + (first + rest)) / l.interval - l.now / l.interval =
          (l.now + (first + rest)) / l.interval - (l.now / l.interval + 1) + 1 := by omega
      rw [count]
      rfl

-- A sweep that has done all that it does: it has read the clock and has archived by it, and what it found
-- due is archived if it did not fail.
structure Whole (c : (hall rules).Crowd) (i : Nat) : Prop where
  ended : Ended c i
  effect : ∃ s t, c.asked i = [⟨i, .now, s⟩, ⟨i, .archiveExpired s.clock, t⟩] ∧
    ∀ p, Due s.clock t p → Board.Archived c.shared.store p

theorem Kept.whole {l : Loop rules} {i : Nat} (kept : Kept l) (ended : Ended l.crowd i) : Whole l.crowd i := by
  obtain ⟨s, t, asked⟩ := Sweeps.ended (kept.logged.rounds.stands i _ ended)
  have member : ⟨i, .archiveExpired s.clock, t⟩ ∈ l.crowd.asked i := by simp [asked]
  exact ⟨ended, s, t, asked, kept.logged.swept i s.clock t (Venue.mem_asked.mp member).1⟩

theorem Kept.stops {l : Loop rules} (kept : Kept l) (cancelled : l.task.cancelled = true) (unbroken : Unbroken l.crowd.shared)
    (sane : ∀ i ∈ l.begun, l.crowd.flights[i]? ≠ some ⟨.sweep, .crash⟩) :
    ∃ after, Takes l 0 after ∧ after.task.phase = .stopped := by
  have polled : ∀ l : Loop rules, l.task.phase = .waiting → l.task.cancelled = true →
      Takes l 0 { l with task := { l.task with phase := .stopped } } := by
    intro l waiting cancelled
    refine .once (.event .poll) trivial (.idle ?_ nofun)
    simp [Task.step?, waiting, cancelled]
  cases phase : l.task.phase with
  | waiting => exact ⟨_, polled l phase cancelled, rfl⟩
  | stopped => exact ⟨l, .moves l [], phase⟩
  | sweeping =>
    obtain ⟨i, newest⟩ := Option.isSome_iff_exists.mp (List.getLast?_isSome.mpr (kept.turned phase))
    have member := List.mem_of_getLast? newest
    obtain ⟨rest, found⟩ := kept.sweeps i member
    obtain ⟨moves, ended⟩ : ∃ moves, Ended (Venue.play l.crowd moves) i := by
      have stage : Sweeps i (l.crowd.asked i) rest := kept.logged.rounds.stands i _ found
      generalize l.crowd.asked i = mine at stage
      cases stage with
      | clock => exact ⟨_, (step_clock unbroken found).1⟩
      | archive => exact ⟨_, (step_archive unbroken found).1⟩
      | complete =>
        rename_i read met
        rcases Board.swept_cases (met.answerNow (.archiveExpired read.clock)).1 with same | same
        · rw [same] at found
          exact ⟨[], found⟩
        · rw [same] at found
          exact absurd found (sane i member)
    have finishes := Takes.finishing phase newest ended
    exact ⟨_, finishes.trans (polled _ rfl cancelled), rfl⟩

-- A sweep is begun at every full interval, whatever becomes of the sweeps. No two of them overlap: each
-- that was begun is whole, or is the last and under way. From the moment that the task is cancelled none
-- is begun, and the one under way is whole before the task stops.
theorem sweeps_on_schedule {interval : Nat} (positive : 0 < interval) (b : Backend) :
    (Quiet (start interval b : Loop rules) ∧
      ∀ happenings l, Runs Timely (start interval b : Loop rules) happenings l → Quiet l →
        l.begun.length = slept happenings / interval ∧ (∀ i ∈ l.begun, Whole l.crowd i) ∧
        (Unbroken l.crowd.shared → ∀ millis, ∃ after, Takes l millis after ∧ Quiet after ∧ after.crowd.shared =
          l.crowd.shared.sweepTimes (({ interval, elapsed := slept happenings } : Schedule).pass millis).1)) ∧
    (b.sweeper = some { interval } → ∀ sleeps,
      (b.sleep sleeps).calls.sweeps = b.calls.sweeps + (sleeps.map (·.2)).sum / interval) ∧
    (∀ happenings l, Runs Freely (start interval b : Loop rules) happenings l →
      l.begun.Pairwise (· < ·) ∧
      (∀ i ∈ l.begun, Whole l.crowd i ∨ (l.task.phase = .sweeping ∧ l.begun.getLast? = some i)) ∧
      (l.task.cancelled = true →
        (∀ more after, Runs Freely l more after → after.begun = l.begun ∧
          (after.task.phase = .stopped → ∀ i ∈ l.begun, Whole after.crowd i)) ∧
        (Unbroken l.crowd.shared → (∀ i ∈ l.begun, l.crowd.flights[i]? ≠ some ⟨.sweep, .crash⟩) →
          ∃ after, Takes l 0 after ∧ after.task.phase = .stopped))) := by
  have begins : Kept (start interval b : Loop rules) := kept_start interval b
  refine ⟨⟨⟨rfl, ?_⟩, ?_⟩, ?_, ?_⟩
  · change 0 < 1 * interval
    rwa [Nat.one_mul]
  · intro happenings l runs quiet
    have punctual : InTime l := InTime.runs (by simp [InTime, start]) runs
    have kept := begins.runs runs
    obtain ⟨now, same⟩ := runs.now_eq
    have now : l.now = slept happenings := now.trans (Nat.zero_add _)
    have same : l.interval = interval := same
    have idle : l.task.phase ≠ .sweeping := by
      rw [quiet.task]
      nofun
    refine ⟨?_, fun i member => kept.whole (kept.all idle i member), fun unbroken millis => ?_⟩
    · rw [quiet.begun_length punctual kept, now, same]
    · rw [← now, ← same]
      exact quiet.sleeps millis punctual unbroken
  · intro running sleeps
    have counted := Backend.sleep_counted running sleeps
    simpa [Schedule.fired] using counted
  · intro happenings l runs
    have kept := begins.runs runs
    refine ⟨kept.ascending, fun i member => (kept.ended i member).imp kept.whole id, fun cancelled => ⟨?_, kept.stops cancelled⟩⟩
    intro more after later
    have same := (later.cancelled cancelled).2
    refine ⟨same, fun stopped i member => ?_⟩
    have kept := kept.runs later
    exact kept.whole (kept.all (by rw [stopped]; nofun) i (same ▸ member))

theorem sweeps_on_schedule_full_disk :
    let b : Backend := { Service.Comments.onePost with sweeper := some { interval := 60000 } }
    let full : Script := fun _ => some (.error (.imageStorage "disk full"))
    0 < 60000 ∧ (b.sleep [(full, 61000), (full, 30000), (.none, 30000)]).calls.sweeps = 2 := by
  intro b full
  obtain ⟨_, counted, _⟩ := @sweeps_on_schedule ⟨{}, .ofMillis 1000, .ofMillis 2000⟩ 60000 (by decide) b
  refine ⟨by decide, (counted rfl _).trans ?_⟩
  simp [b, Service.Comments.onePost]

end Loop
end Sweeper
end Forum
