import Forum.Backend

namespace Forum

theorem Sweeper.Schedule.pass_zero (schedule : Sweeper.Schedule) : schedule.pass 0 = (0, schedule) := by
  simp [Sweeper.Schedule.pass]

namespace Backend
open Service (Question)

-- No sweep gets in while a call is under way: none is scripted, and the timer's wait for an upload
-- ends before the next one is due.
def Quiet (b : Backend) : Prop :=
  b.sweepFirst = none ∧ ∀ schedule, b.sweeper = some schedule → (schedule.pass b.imageDelay).1 = 0

theorem pass_zero (b : Backend) : b.pass 0 = b := by
  obtain ⟨connection, clock, timer, sweeper, script, gone, sweepFirst, identityDelay, imageDelay, entropy, provide,
    place, calls⟩ := b
  cases sweeper with
  | none => rfl
  | some schedule => simp [pass, Sweeper.Schedule.pass_zero, sweepTimes]

theorem answer_prompt {b : Backend} {q : Question} (prompt : b.delay q = 0) : b.answer q = b.answerNow q := by
  simp only [answer, prompt, pass_zero]

theorem answer_findPost (b : Backend) (id : Int) : (b.answer (.findPost id)).2 = b := by
  rw [answer_prompt rfl]
  simp only [answerNow, meeting, reading]
  split <;> rfl

theorem answer_now (b : Backend) : b.answer .now = (.done b.clock, b) := answer_prompt rfl

structure Stays (b after : Backend) : Prop where
  connection : after.toConnection = b.toConnection
  clock : after.clock = b.clock
  sweepFirst : after.sweepFirst = b.sweepFirst

theorem Stays.refl (b : Backend) : Stays b b := ⟨rfl, rfl, rfl⟩

theorem pass_quiet {b : Backend} (millis : Nat)
   (quiet : ∀ schedule, b.sweeper = some schedule → (schedule.pass millis).1 = 0) : Stays b (b.pass millis) := by
  cases running : b.sweeper with
  | none => simp only [pass, running]; exact ⟨rfl, rfl, rfl⟩
  | some schedule =>
    simp only [pass, running, quiet schedule running, sweepTimes]
    exact ⟨rfl, rfl, rfl⟩

theorem meeting_cases (mishap : Option Mishap) (part : Outcome α × Backend) (b : Backend) :
    (mishap = none ∧ meeting mishap part b = part) ∨
      ((meeting mishap part b).2 = b ∧ ∀ a, (meeting mishap part b).1 ≠ .done a) := by
  cases mishap with
  | none => exact .inl ⟨rfl, rfl⟩
  | some mishap => cases mishap <;> exact .inr ⟨rfl, by intro a same; cases same⟩

theorem upload_noted (b : Backend) (owner : Int) (image : ByteArray) :
    (∃ calls, (b.upload owner image).2 = { b with calls }) ∧
      ∀ url, (b.upload owner image).1 = .done url → url = b.place b.calls.uploads.length owner := by
  unfold upload
  dsimp only
  generalize { b.calls with uploads := b.calls.uploads ++ [(owner, image.size)] } = calls
  rcases meeting_cases (Backend.mishap { b with calls } .images) (.done (b.place b.calls.uploads.length owner), { b with calls })
    { b with calls } with ⟨_, met⟩ | ⟨same, failed⟩
  · rw [met]
    refine ⟨⟨calls, rfl⟩, ?_⟩
    intro url found
    cases found
    rfl
  · refine ⟨⟨calls, same⟩, ?_⟩
    intro url found
    exact absurd found (failed url)

theorem answer_upload {b : Backend} (quiet : b.Quiet) (owner : Int) (image : ByteArray) :
    Stays b (b.answer (.upload owner image)).2 ∧
      ∀ url : String, (b.answer (.upload owner image)).1 = .done url → url = b.place b.calls.uploads.length owner := by
  obtain ⟨⟨calls, noted⟩, placed⟩ := upload_noted b owner image
  refine ⟨?_, placed⟩
  change Stays b ((b.upload owner image).2.pass b.imageDelay)
  rw [noted]
  obtain ⟨connection, clock, sweepFirst⟩ := pass_quiet (b := { b with calls }) b.imageDelay quiet.2
  exact ⟨connection, clock, sweepFirst⟩

theorem meeting_withinTransaction (b : Backend) (work : Work α) :
    meeting (b.mishap .begins) (b.withinTransaction work) b = b.withinTransaction work := by
  have begins : b.mishap.transaction.begins = b.mishap .begins := rfl
  unfold withinTransaction Transaction.within
  rw [begins]
  cases b.mishap .begins with
  | none => rfl
  | some mishap => cases mishap <;> rfl

theorem answer_transact {b : Backend} (quiet : b.sweepFirst = none) (work : Work Int) :
    (b.answer (.transact work)).1 = (Transaction.within b.mishap.transaction work b.toConnection).1 ∧
      (b.answer (.transact work)).2.toConnection = (Transaction.within b.mishap.transaction work b.toConnection).2 := by
  rw [answer_prompt rfl]
  change (b.transact work).1 = _ ∧ (b.transact work).2.toConnection = _
  have first : ∀ calls, (Backend.sweptFirst { b with calls }) = { b with calls } := by
    intro calls
    simp only [sweptFirst, quiet]
  unfold transact
  dsimp only
  rw [first, meeting_withinTransaction]
  exact ⟨rfl, rfl⟩

theorem transact_cases (b : Backend) (work : Work α) :
    ∃ calls, b.transact work = (Backend.sweptFirst { b with calls }).withinTransaction work ∨
      ((b.transact work).2 = { b with calls } ∧ ∀ a, (b.transact work).1 ≠ .done a) := by
  refine ⟨{ b.calls with begins := b.calls.begins + 1 }, ?_⟩
  unfold transact
  dsimp only
  generalize { b.calls with begins := b.calls.begins + 1 } = calls
  rcases meeting_cases (Backend.mishap { b with calls } .begins)
    ((Backend.sweptFirst { b with calls }).withinTransaction work) { b with calls } with ⟨_, met⟩ | failed
  · exact .inl met
  · exact .inr failed

theorem answer_transact_timer (b : Backend) (work : Work Int) : (b.answer (.transact work)).2.timer = b.timer := by
  rw [answer_prompt rfl]
  change (b.transact work).2.timer = b.timer
  obtain ⟨calls, ran | ⟨same, _⟩⟩ := transact_cases b work
  · rw [ran]
    unfold withinTransaction sweptFirst
    dsimp only
    split <;> rfl
  · rw [same]

end Backend
end Forum
