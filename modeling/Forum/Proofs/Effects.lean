import Forum.Proofs.Submission

namespace Forum

namespace Service
open Comments (saving)

def Question.writes : Question → Bool
  | .storeSession _ | .updateSession _ _ | .savePost _ | .archiveExpired _ | .transact _ => true
  | _ => false

-- The questions of the services. Sessions are only ever renamed, and transactions only save comments.
def Question.Lawful : Question → Prop
  | .updateSession _ edit => ∃ now name, edit = Sessions.renameEdit now name
  | .transact work => ∃ new expiry, work = saving new expiry
  | _ => True

def Question.Aside : Question → Prop
  | .storeSession _ | .updateSession _ _ => False
  | .transact work => ∃ new expiry, work = saving new expiry
  | _ => True

theorem Question.Aside.lawful {q : Question} (aside : q.Aside) : q.Lawful := by
  cases q with
  | updateSession hash edit => exact aside.elim
  | transact work => exact aside
  | _ => exact trivial

end Service

namespace Backend
open Service (Question)
open Service.Comments (saving)

-- Everything that a question can do to the store, with the reply that goes with it. What holds after
-- every question is proved by its cases and does not look at the backend again.
inductive Effect (b : Backend) : (q : Question) → Outcome q.Value → Store → Prop
  | read {q : Question} {reply : Outcome q.Value} (calm : q.writes = false) : Effect b q reply b.store
  | refused {q : Question} {reply : Outcome q.Value} (without : ∀ a, reply ≠ .done a) : Effect b q reply b.store
  | issued {id : Int} (added : b.store.addSession new = .ok (id, after)) : Effect b (.storeSession new) (.done id) after
  | edited {hash : TokenHash} (written : b.store.updateSession hash edit = .ok after) : Effect b (.updateSession hash edit) (.done ()) after
  | posted : Effect b (.savePost new) (.done (b.store.addPost new).1) (b.store.addPost new).2
  | archived : Effect b (.archiveExpired cutoff) (.done (b.store.archiveExpired cutoff).1) (b.store.archiveExpired cutoff).2
  -- A sweep got in before a transaction that then did not commit.
  | undone {reply : Outcome Int} (first : b.sweepFirst = some cutoff) (without : ∀ id, reply ≠ .done id) :
      Effect b (.transact work) reply (b.store.archiveExpired cutoff).2
  | commented (saves : work = saving new expiry) (known : ∃ row ∈ b.sweptFirst.store.posts.rows, row.id = new.postId) :
      Effect b (.transact work) (.done (b.sweptFirst.store.comments.lastId + 1))
        (b.sweptFirst.store.commented new expiry)

theorem effect_meeting {b : Backend} {q : Question} (mishap : Option Mishap) {part : Outcome q.Value × Backend} {c : Backend}
    (same : c.store = b.store) (met : Effect b q part.1 part.2.store) :
    Effect b q (meeting mishap part c).1 (meeting mishap part c).2.store := by
  rcases meeting_cases mishap part c with ⟨_, through⟩ | ⟨left, without⟩
  · rw [through]
    exact met
  · rw [left, same]
    exact .refused without

theorem effect_writing {b : Backend} {q : Question} {written : Except Error (q.Value × Store)}
    (done : ∀ a store, written = .ok (a, store) → Effect b q (.done a) store) :
    Effect b q (b.writing written).1 (b.writing written).2.store := by
  cases written with
  | error e => exact .refused (by simp [writing])
  | ok both => exact done both.1 both.2 rfl

theorem sweptFirst_store (b : Backend) (calls : Calls) :
    (Backend.sweptFirst { b with calls }).store = b.sweptFirst.store ∧
      (Backend.sweptFirst { b with calls }).undo = b.undo := by
  unfold sweptFirst
  dsimp only
  split <;> exact ⟨rfl, rfl⟩

theorem sweptFirst_cases (b : Backend) :
    b.sweptFirst.store = b.store ∨ ∃ cutoff, b.sweepFirst = some cutoff ∧ b.sweptFirst.store = (b.store.archiveExpired cutoff).2 := by
  unfold sweptFirst
  split
  · rename_i cutoff first
    exact .inr ⟨cutoff, first, rfl⟩
  · exact .inl rfl

theorem sweptFirst_sessions (b : Backend) : b.sweptFirst.store.sessions = b.store.sessions := by
  unfold sweptFirst
  split <;> rfl

theorem effect_transact (b : Backend) (new : NewComment) (expiry : Instant) :
    Effect b (.transact (saving new expiry)) (b.transact (saving new expiry)).1 (b.transact (saving new expiry)).2.store := by
  obtain ⟨calls, ran | ⟨left, without⟩⟩ := transact_cases b (saving new expiry)
  · obtain ⟨store, _⟩ := sweptFirst_store b calls
    generalize opening : Backend.sweptFirst { b with calls } = c at ran store
    rw [ran]
    rcases Transaction.within_cases c.mishap.transaction (saving new expiry) c.toConnection with
      ⟨id, _, _, _, _, done⟩ | ⟨without, same⟩
    · obtain ⟨_, known, fresh, written⟩ := Transaction.within_saving (done.trans (Prod.ext rfl rfl))
      rw [store] at known fresh written
      have returned : (c.withinTransaction (saving new expiry)).1 = .done id := congrArg Prod.fst done
      have after : (c.withinTransaction (saving new expiry)).2.toConnection = { store := b.sweptFirst.store.commented new expiry } :=
        (congrArg Prod.snd done).trans written
      rw [returned, congrArg Connection.store after, fresh]
      exact .commented rfl known
    · have after : (c.withinTransaction (saving new expiry)).2.store = b.sweptFirst.store :=
        (congrArg Connection.store same).trans store
      rw [after]
      rcases sweptFirst_cases b with same | ⟨cutoff, first, same⟩
      · rw [same]
        exact .refused without
      · rw [same]
        exact .undone first without
  · rw [left]
    exact .refused without

theorem answerNow_effect (b : Backend) {q : Question} (lawful : q.Lawful) :
    Effect b q (b.answerNow q).1 (b.answerNow q).2.store := by
  cases q with
  | now => exact .read rfl
  | uptime => exact .read rfl
  | drawEntropy => exact effect_meeting _ rfl (.read rfl)
  | provideIdentity hold => exact effect_meeting _ rfl (.read rfl)
  | upload owner image => exact effect_meeting _ rfl (.read rfl)
  | findSession hash => exact effect_meeting _ rfl (.read rfl)
  | findPost id => exact effect_meeting _ rfl (.read rfl)
  | listPosts archived page => exact effect_meeting _ rfl (.read rfl)
  | listComments post => exact effect_meeting _ rfl (.read rfl)
  | ping => exact effect_meeting _ rfl (.read rfl)
  | storeSession new =>
    refine effect_meeting _ rfl (effect_writing ?_)
    intro id after added
    cases found : b.store.addSession new with
    | error fault =>
      rw [found] at added
      cases added
    | ok both =>
      rw [found] at added
      cases added
      exact .issued found
  | updateSession hash edit =>
    refine effect_meeting _ rfl (effect_writing ?_)
    intro _ after written
    cases found : b.store.updateSession hash edit with
    | error e =>
      rw [found] at written
      cases written
    | ok store =>
      rw [found] at written
      cases written
      exact .edited found
  | savePost new =>
    refine effect_meeting _ rfl (effect_writing ?_)
    intro id after added
    cases added
    exact .posted
  | archiveExpired cutoff =>
    refine effect_meeting _ rfl ?_
    exact .archived
  | transact work =>
    obtain ⟨new, expiry, rfl⟩ := lawful
    exact effect_transact b new expiry

theorem Effect.sessions {b : Backend} {q : Question} {reply : Outcome q.Value} {after : Store} (aside : q.Aside)
    (effect : b.Effect q reply after) : after.sessions = b.store.sessions := by
  cases effect with
  | issued => exact aside.elim
  | edited => exact aside.elim
  | commented => exact b.sweptFirst_sessions
  | _ => rfl

structure Frame (b after : Backend) : Prop where
  clock : after.clock = b.clock
  script : after.script = b.script
  gone : after.gone = b.gone
  sweepFirst : after.sweepFirst = b.sweepFirst

theorem Frame.refl (b : Backend) : Frame b b := ⟨rfl, rfl, rfl, rfl⟩

theorem Frame.trans {b c d : Backend} (first : Frame b c) (second : Frame c d) : Frame b d :=
  ⟨second.clock.trans first.clock, second.script.trans first.script, second.gone.trans first.gone,
    second.sweepFirst.trans first.sweepFirst⟩

theorem Frame.mishap {b after : Backend} (frame : Frame b after) : after.mishap = b.mishap := by
  rw [Backend.mishap, Backend.mishap, frame.script, frame.gone]

theorem frame_meeting {b c : Backend} (mishap : Option Mishap) {part : Outcome α × Backend} (met : Frame b part.2)
    (left : Frame b c) : Frame b (meeting mishap part c).2 := by
  rcases meeting_cases mishap part c with ⟨_, through⟩ | ⟨same, _⟩
  · rw [through]
    exact met
  · rw [same]
    exact left

theorem frame_writing (b : Backend) (written : Except Error (α × Store)) : Frame b (b.writing written).2 := by
  cases written <;> exact ⟨rfl, rfl, rfl, rfl⟩

theorem frame_transact (b : Backend) (work : Work α) : Frame b (b.transact work).2 := by
  obtain ⟨calls, ran | ⟨left, _⟩⟩ := transact_cases b work
  · rw [ran]
    unfold sweptFirst withinTransaction
    dsimp only
    split <;> exact ⟨rfl, rfl, rfl, rfl⟩
  · rw [left]
    exact ⟨rfl, rfl, rfl, rfl⟩

theorem answerNow_frame (b : Backend) (q : Question) : Frame b (b.answerNow q).2 := by
  cases q with
  | now => exact .refl b
  | uptime => exact .refl b
  | transact work => exact frame_transact b work
  | storeSession new => exact frame_meeting _ (frame_writing b _) (.refl b)
  | updateSession hash edit => exact frame_meeting _ (frame_writing b _) (.refl b)
  | _ => exact frame_meeting _ ⟨rfl, rfl, rfl, rfl⟩ ⟨rfl, rfl, rfl, rfl⟩

end Backend
end Forum
