import Forum.Proofs.Errands
import Forum.Proofs.Races
import Forum.Proofs.Sessions

namespace Forum

-- Rows keep their place, and what is in a place later is what the row there may become.
def Grown (R : ρ → ρ → Prop) (before after : List ρ) : Prop :=
  ∀ (k : Nat) (row : ρ), before[k]? = some row → ∃ later, after[k]? = some later ∧ R row later

namespace Grown
variable {R S T : ρ → ρ → Prop} {first second third rows : List ρ}

theorem refl (self : ∀ row, R row row) (rows : List ρ) : Grown R rows rows := fun _ row found => ⟨row, found, self row⟩

theorem trans (compose : ∀ a b c, R a b → S b c → T a c) (early : Grown R first second) (late : Grown S second third) :
    Grown T first third := by
  intro k row found
  obtain ⟨later, there, became⟩ := early k row found
  obtain ⟨last, still, became'⟩ := late k later there
  exact ⟨last, still, compose row later last became became'⟩

theorem mono (weaken : ∀ row later, R row later → S row later) (grown : Grown R first second) : Grown S first second := by
  intro k row found
  obtain ⟨later, there, became⟩ := grown k row found
  exact ⟨later, there, weaken row later became⟩

theorem append (self : ∀ row, R row row) (rows more : List ρ) : Grown R rows (rows ++ more) := by
  intro k row found
  have bound := (List.getElem?_eq_some_iff.mp found).1
  exact ⟨row, by rw [List.getElem?_append_left bound, found], self row⟩

theorem map {f : ρ → ρ} (each : ∀ row ∈ rows, R row (f row)) : Grown R rows (rows.map f) := by
  intro k row found
  exact ⟨f row, by rw [List.getElem?_map, found]; rfl, each row (List.mem_of_getElem? found)⟩

theorem find? {p : ρ → Bool} (grown : Grown R first second) (kept : ∀ row later, R row later → p later = p row)
    (found : first.find? p = some row) : ∃ later, second.find? p = some later ∧ R row later := by
  obtain ⟨holds, k, bound, here, before⟩ := List.find?_eq_some_iff_getElem.mp found
  obtain ⟨later, there, became⟩ := grown k row (by rw [List.getElem?_eq_getElem bound, here])
  obtain ⟨bound', here'⟩ := List.getElem?_eq_some_iff.mp there
  refine ⟨later, List.find?_eq_some_iff_getElem.mpr ⟨by rw [kept row later became, holds], k, bound', here', ?_⟩, became⟩
  intro j early
  obtain ⟨other, place, became'⟩ := grown j first[j] (List.getElem?_eq_getElem (Nat.lt_trans early bound))
  obtain ⟨_, rfl⟩ := List.getElem?_eq_some_iff.mp place
  rw [kept _ _ became']
  exact before j early

end Grown

-- All that can become of a post: its expiry moves, and it is archived for good.
structure PostRow.Becomes (row later : PostRow) : Prop where
  rest : later = { row with expiresAt := later.expiresAt, archived := later.archived }
  archived : later.archived = row.archived ∨ row.archived = 0 ∧ later.archived = 1

def SessionRow.Becomes (row later : SessionRow) : Prop :=
  later = { row with identity := { row.identity with name := later.identity.name } }

structure Store.Extends (before after : Store) : Prop where
  sessions : Grown SessionRow.Becomes before.sessions.rows after.sessions.rows
  posts : Grown PostRow.Becomes before.posts.rows after.posts.rows
  comments : Grown Eq before.comments.rows after.comments.rows

namespace PostRow

theorem Becomes.refl (row : PostRow) : Becomes row row := ⟨rfl, .inl rfl⟩

theorem Becomes.trans (a b c : PostRow) (first : Becomes a b) (second : Becomes b c) : Becomes a c where
  rest := by rw [second.rest, first.rest]
  archived := by
    rcases first.archived with same | ⟨active, marked⟩
    · rw [← same]
      exact second.archived
    · rcases second.archived with same | ⟨active', _⟩
      · exact .inr ⟨active, same.trans marked⟩
      · rw [marked] at active'
        cases active'

theorem Becomes.id {row later : PostRow} (became : Becomes row later) : later.id = row.id := by rw [became.rest]

end PostRow

namespace SessionRow

theorem Becomes.refl (row : SessionRow) : Becomes row row := rfl

theorem Becomes.trans (a b c : SessionRow) (first : Becomes a b) (second : Becomes b c) : Becomes a c := by
  unfold Becomes at *
  rw [second, first]

theorem becomes_rename (hash : TokenHash) (name : String) (row : SessionRow) : Becomes row (row.rename hash name) := by
  unfold rename
  split <;> rfl

end SessionRow

namespace Store

theorem Extends.refl (s : Store) : Extends s s := ⟨.refl .refl _, .refl .refl _, .refl Eq.refl _⟩

theorem Extends.trans {s t u : Store} (first : Extends s t) (second : Extends t u) : Extends s u where
  sessions := first.sessions.trans SessionRow.Becomes.trans second.sessions
  posts := first.posts.trans PostRow.Becomes.trans second.posts
  comments := first.comments.trans (S := Eq) (fun _ _ _ same also => same.trans also) second.comments

def post? (s : Store) (p : Int) : Option PostRow := s.posts.rows.find? (·.id = p)

end Store

namespace Backend
open Service (Question)
open Service.Comments (saving)

inductive TurnsFirst (b : Backend) (row : PostRow) : PostRow → Prop
  | stays : TurnsFirst b row row
  | due (first : b.sweepFirst = some cutoff) (due : Store.PostRow.IsDue cutoff.millis row) :
      TurnsFirst b row { row with archived := 1 }

inductive Turns (b : Backend) : (q : Question) → Outcome q.Value → PostRow → PostRow → Prop
  | stays {q : Question} {reply : Outcome q.Value} : Turns b q reply row row
  | archived (due : Store.PostRow.IsDue cutoff.millis row) :
      Turns b (.archiveExpired cutoff) (.done count) row { row with archived := 1 }
  | sweptFirst {reply : Outcome Int} (turned : TurnsFirst b row later) : Turns b (.transact work) reply row later
  | commented {id : Int} (saves : work = saving new expiry) (turned : TurnsFirst b row later) (on : row.id = new.postId) :
      Turns b (.transact work) (.done id) row { later with expiresAt := expiry.millis }

theorem TurnsFirst.becomes {b : Backend} (turned : TurnsFirst b row later) : row.Becomes later := by
  cases turned with
  | stays => exact .refl row
  | due _ due => exact ⟨rfl, .inr ⟨due.1, rfl⟩⟩

theorem Turns.becomes {b : Backend} {q : Question} {reply : Outcome q.Value} (turns : b.Turns q reply row later) :
    row.Becomes later := by
  cases turns with
  | stays => exact .refl row
  | archived due => exact ⟨rfl, .inr ⟨due.1, rfl⟩⟩
  | sweptFirst turned => exact turned.becomes
  | commented _ turned => exact turned.becomes.trans _ _ _ ⟨rfl, .inl rfl⟩

theorem turned_archiveExpired {R : PostRow → PostRow → Prop} (s : Store) (cutoff : Instant) (self : ∀ row, R row row)
    (due : ∀ row, Store.PostRow.IsDue cutoff.millis row → R row { row with archived := 1 }) :
    Grown R s.posts.rows (s.archiveExpired cutoff).2.posts.rows := by
  refine .map fun row _ => ?_
  split
  · rename_i isDue
    exact due row isDue
  · exact self row

theorem turned_sweptFirst (b : Backend) : Grown (TurnsFirst b) b.store.posts.rows b.sweptFirst.store.posts.rows := by
  rcases sweptFirst_cases b with same | ⟨cutoff, first, same⟩
  · rw [same]
    exact .refl (fun _ => .stays) _
  · rw [same]
    exact turned_archiveExpired _ _ (fun _ => .stays) (fun _ => .due first)

theorem sweptFirst_comments (b : Backend) : b.sweptFirst.store.comments = b.store.comments := by
  unfold sweptFirst
  split <;> rfl

theorem Effect.turns {b : Backend} {q : Question} {reply : Outcome q.Value} {after : Store} (lawful : q.Lawful)
    (effect : b.Effect q reply after) : Grown (b.Turns q reply) b.store.posts.rows after.posts.rows := by
  cases effect with
  | read => exact .refl (fun _ => .stays) _
  | refused => exact .refl (fun _ => .stays) _
  | issued added =>
    obtain ⟨_, _, _, rfl⟩ := Store.addSession_ok added
    exact .refl (fun _ => .stays) _
  | edited written =>
    obtain ⟨now, name, rfl⟩ := lawful
    obtain ⟨_, _, _, _, _, rfl⟩ := Store.updateSession_renameEdit written
    exact .refl (fun _ => .stays) _
  | posted => exact .append (fun _ => .stays) _ _
  | archived => exact turned_archiveExpired _ _ (fun _ => .stays) (fun _ => .archived)
  | undone first without => exact turned_archiveExpired _ _ (fun _ => .stays) (fun _ due => .sweptFirst (.due first due))
  | commented saves known =>
    rename_i new expiry
    have moved : Grown (fun row later => later = row.moveExpiry new.postId expiry) b.sweptFirst.store.posts.rows
        (b.sweptFirst.store.commented new expiry).posts.rows := .map fun _ _ => rfl
    refine (turned_sweptFirst b).trans ?_ moved
    intro row later last turned moved
    have sameId := turned.becomes.id
    subst moved
    unfold PostRow.moveExpiry
    split
    · rename_i on
      exact .commented saves turned (sameId.symm.trans on)
    · exact .sweptFirst turned

theorem Effect.extends {b : Backend} {q : Question} {reply : Outcome q.Value} {after : Store} (lawful : q.Lawful)
    (keyed : SessionsKeyed b.store.sessions) (effect : b.Effect q reply after) : b.store.Extends after where
  posts := (effect.turns lawful).mono fun _ _ => Turns.becomes
  sessions := by
    cases effect with
    | issued added =>
      obtain ⟨_, _, _, rfl⟩ := Store.addSession_ok added
      exact .append .refl _ _
    | edited written =>
      obtain ⟨now, name, rfl⟩ := lawful
      obtain ⟨_, _, _, _, _, _, rfl⟩ := keyed.rename written
      exact .map fun row _ => row.becomes_rename _ name
    | commented =>
      rw [Store.commented, sweptFirst_sessions]
      exact .refl .refl _
    | _ => exact .refl .refl _
  comments := by
    cases effect with
    | issued added =>
      obtain ⟨_, _, _, rfl⟩ := Store.addSession_ok added
      exact .refl Eq.refl _
    | edited written =>
      obtain ⟨now, name, rfl⟩ := lawful
      obtain ⟨_, _, _, _, _, rfl⟩ := Store.updateSession_renameEdit written
      exact .refl Eq.refl _
    | commented =>
      rw [Store.commented, sweptFirst_comments]
      exact .append Eq.refl _ _
    | _ => exact .refl Eq.refl _

theorem Effect.transacts {b : Backend} {reply : Outcome Int} {after : Store}
    (effect : b.Effect (.transact (saving new expiry)) reply after) :
    ((∀ id, reply ≠ .done id) ∧ (after = b.store ∨ after = b.sweptFirst.store)) ∨
    (reply = .done (b.store.comments.lastId + 1) ∧ (∃ row ∈ b.sweptFirst.store.posts.rows, row.id = new.postId) ∧
      after = b.sweptFirst.store.commented new expiry) := by
  cases effect with
  | read calm => cases calm
  | refused without => exact .inl ⟨without, .inl rfl⟩
  | undone first without => exact .inl ⟨without, .inr (by simp only [sweptFirst, first])⟩
  | commented saves known =>
    obtain ⟨rfl, rfl⟩ := Board.saving_inj saves
    rw [sweptFirst_comments]
    exact .inr ⟨rfl, known, rfl⟩

end Backend

namespace Service
open Comments (comment written saving)
open Board (Entry Prepared Saving)

structure Continues (s : Store) (c : (hall rules).Crowd) : Prop where
  keyed : SessionsKeyed c.shared.store.sessions
  grown : s.Extends c.shared.store

theorem continues_play {rules : Rules} {c : (hall rules).Crowd} (staged : Venue.Staged (Stage rules) c)
    (keyed : SessionsKeyed c.shared.store.sessions) (moves : List (hall rules).Move) :
    Continues c.shared.store (Venue.play c moves) := by
  refine Venue.play_keeps_staged (P := fun d => Continues c.shared.store d) (stages rules) moves ?_ ?_ ?_ staged
    ⟨keyed, .refl _⟩
  · intro d e continues
    exact ⟨continues.keyed, continues.grown⟩
  · intro d i e q next waits stage continues
    have effect := Backend.answerNow_effect d.shared stage.lawful
    exact ⟨effect.keyed stage.lawful continues.keyed, continues.grown.trans (effect.extends stage.lawful continues.keyed)⟩
  · intro d x continues
    have same : (Venue.elapse d x).shared.store = d.shared.store := Board.shift_store x d.shared
    exact ⟨same ▸ continues.keyed, same ▸ continues.grown⟩

structure Submitting (c : (hall rules).Crowd) (i : Nat) (draft : CommentDraft) (image : ByteArray) (reading : Backend)
    (new : NewComment) (expiry : Instant) : Prop where
  waits : c.flights[i]? = some ⟨.save draft image, .ask (.transact (saving new expiry)) written⟩
  asked : ∃ earlier imagePath, Prepared draft image i earlier imagePath ∧ c.asked i = earlier ++ [⟨i, .now, reading⟩] ∧
    new = comment draft draft.postId imagePath reading.clock
  sum : reading.clock.add? rules.commentGrace = some expiry

theorem submitting {rules : Rules} {c : (hall rules).Crowd} {e : Errand} {next : Outcome Int → Operation e.Result}
    (waits : c.flights[i]? = some ⟨e, .ask (.transact work) next⟩)
    (stage : Stage rules i e (c.asked i) (.ask (.transact work) next)) :
    ∃ draft image reading new expiry, work = saving new expiry ∧ Submitting c i draft image reading new expiry := by
  cases e with
  | save draft image =>
    obtain ⟨earlier, imagePath, reading, expiry, asked, ready, sum, rfl, rfl⟩ := (Saving.waits stage).transacts
    exact ⟨draft, image, reading, _, expiry, rfl, waits, ⟨earlier, imagePath, ready, asked, rfl⟩, sum⟩
  | create draft image =>
    generalize c.asked i = mine at stage
    cases stage with
    | complete _ ended => exact absurd ended.symm (Procedure.ofOutcome_ne_ask _)
  | _ => exact stage.allowed.elim

-- The submission of a comment commits between two crowds: it waits for its transaction in the first,
-- and in the second it has returned the id of the row that is added.
inductive Commits {rules : Rules} (c d : (hall rules).Crowd) : Int → Prop
  | save {i : Nat} {draft : CommentDraft} {image : ByteArray} {next : Outcome Int → Operation Int} {row : CommentRow}
      (waits : c.flights[i]? = some ⟨.save draft image, .ask (.transact work) next⟩)
      (returns : d.flights[i]? = some ⟨.save draft image, .done row.id⟩)
      (added : d.shared.store.comments.rows = c.shared.store.comments.rows ++ [row]) (on : row.postId = draft.postId) :
      Commits c d draft.postId

namespace Submitting
variable {rules : Rules} {c : (hall rules).Crowd} {i : Nat} {draft : CommentDraft} {image : ByteArray} {reading : Backend}
  {new : NewComment} {expiry : Instant} {id : Int}

theorem on (submitting : Submitting c i draft image reading new expiry) : new.postId = draft.postId := by
  obtain ⟨_, _, _, _, rfl⟩ := submitting.asked
  rfl

theorem read_logged (submitting : Submitting c i draft image reading new expiry) : ⟨i, .now, reading⟩ ∈ c.log := by
  obtain ⟨_, _, _, asked, _⟩ := submitting.asked
  have member : ⟨i, .now, reading⟩ ∈ c.asked i := by
    rw [asked]
    exact List.mem_append_right _ (List.mem_singleton_self _)
  exact (Venue.mem_asked.mp member).1

end Submitting

inductive Lands (c : (hall rules).Crowd) (i : Nat) (p : Int) (reading : Backend) (expiry : Instant) : Question → Prop
  | commit {id : Int} (submitting : Submitting c i draft image reading new expiry)
      (replied : (c.shared.answerNow (.transact (saving new expiry))).1 = .done id) (on : draft.postId = p) :
      Lands c i p reading expiry (.transact (saving new expiry))

theorem Lands.returns {rules : Rules} {c : (hall rules).Crowd} (lands : Lands c i p reading expiry q) :
    ∃ draft image new, draft.postId = p ∧ new.postId = p ∧
      c.flights[i]? = some ⟨.save draft image, .ask (.transact (saving new expiry)) written⟩ ∧
      (Venue.move c (.step i)).flights[i]? = some ⟨.save draft image, .done (c.shared.store.comments.lastId + 1)⟩ ∧
      (∃ row ∈ c.shared.sweptFirst.store.posts.rows, row.id = p) ∧
      (Venue.move c (.step i)).shared.store = c.shared.sweptFirst.store.commented new expiry := by
  cases lands with
  | commit submitting replied on =>
    rename_i draft image new id
    have effect := Backend.answerNow_effect c.shared (q := .transact (saving new expiry)) ⟨new, expiry, rfl⟩
    rcases effect.transacts with ⟨without, _⟩ | ⟨returned, known, stored⟩
    · exact absurd replied (without id)
    · have ended : written (c.shared.answerNow (.transact (saving new expiry))).1 =
          .done (c.shared.store.comments.lastId + 1) := by
        rw [returned]
        rfl
      have same : new.postId = p := submitting.on.trans on
      refine ⟨draft, image, new, on, same, submitting.waits, ?_, same ▸ known, ?_⟩
      · rw [Venue.move_step submitting.waits, Venue.ask_flight submitting.waits]
        exact congrArg (fun rest => some (Venue.Flight.mk (V := hall rules) (.save draft image) rest)) ended
      · rw [Venue.move_step submitting.waits]
        exact stored

theorem Lands.commits {rules : Rules} {c : (hall rules).Crowd} (lands : Lands c i p reading expiry q) :
    Commits c (Venue.move c (.step i)) p := by
  obtain ⟨draft, image, new, rfl, same, waits, returned, _, stored⟩ := lands.returns
  have added : (Venue.move c (.step i)).shared.store.comments.rows =
      c.shared.store.comments.rows ++ [new.row (c.shared.store.comments.lastId + 1)] := by
    rw [stored, ← Backend.sweptFirst_comments]
    rfl
  exact .save waits returned added same

theorem moves_expiry {rules : Rules} {c : (hall rules).Crowd} {e : Errand} {next : Outcome q.Value → Operation e.Result}
    {row later : PostRow} (waits : c.flights[i]? = some ⟨e, .ask q next⟩)
    (stage : Stage rules i e (c.asked i) (.ask q next)) (turns : c.shared.Turns q (c.shared.answerNow q).1 row later)
    (moved : later.expiresAt ≠ row.expiresAt) : ∃ reading expiry, Lands c i row.id reading expiry q := by
  generalize replied : (c.shared.answerNow q).1 = reply at turns
  have still (turned : c.shared.TurnsFirst row later) : later.expiresAt = row.expiresAt := by cases turned <;> rfl
  cases turns with
  | stays => exact absurd rfl moved
  | archived => exact absurd rfl moved
  | sweptFirst turned => exact absurd (still turned) moved
  | commented saves _ on =>
    obtain ⟨draft, image, reading, new, expiry, same, submitting⟩ := submitting waits stage
    subst same
    obtain ⟨rfl, rfl⟩ := Board.saving_inj saves
    exact ⟨reading, expiry, .commit submitting replied (submitting.on.symm.trans on.symm)⟩

-- Whatever the operations are and however they interleave, fail or are given up: comments stay as
-- they were committed, posts only expire at other times and are archived for good, sessions only get
-- other names; and the expiry of a post is moved by nothing but a comment that is committed on it.
theorem history_append_only (rules : Rules) {b : Backend} (keyed : SessionsKeyed b.store.sessions)
    (moves more : List (hall rules).Move) :
    let c := Venue.play (opened rules b) moves
    c.shared.store.Extends (Venue.play c more).shared.store ∧
      ∀ (m : (hall rules).Move) (k : Nat) (row later : PostRow), c.shared.store.posts.rows[k]? = some row →
        (Venue.move c m).shared.store.posts.rows[k]? = some later → later.expiresAt ≠ row.expiresAt →
          Commits c (Venue.move c m) row.id := by
  intro c
  have staged : Venue.Staged (Stage rules) c := Venue.play_staged (stages rules) moves (staged_opened rules b)
  have continues : Continues b.store c := continues_play (staged_opened rules b) keyed moves
  refine ⟨(continues_play staged continues.keyed more).grown, ?_⟩
  intro m k row later before after moved
  have still (same : (Venue.move c m).shared.store = c.shared.store) : later.expiresAt = row.expiresAt := by
    rw [same, before] at after
    cases after
    rfl
  rcases Venue.move_cases c m with ⟨e, same, _⟩ | ⟨i, e, q, next, waits, same, _⟩ | ⟨x, same, _⟩ | ⟨same, _⟩
  · exact absurd (still (by rw [same]; rfl)) moved
  · have stage := staged.stands i _ waits
    obtain ⟨there, found, turns⟩ := (Backend.answerNow_effect c.shared stage.lawful).turns stage.lawful k row before
    rw [same] at after
    cases found.symm.trans after
    obtain ⟨reading, expiry, lands⟩ := moves_expiry waits stage turns moved
    rw [same, ← Venue.move_step waits]
    exact lands.commits
  · exact absurd (still (by rw [same]; exact Board.shift_store x c.shared)) moved
  · exact absurd (still (by rw [same])) moved

def seconds : Rules := ⟨{}, .ofMillis 1000, .ofMillis 2000⟩

def answering : List (hall seconds).Move := [.start (.save Comments.answerToOnePost ⟨#[]⟩), .step 0, .step 0]

theorem history_append_only_commented :
    let c := Venue.play (opened seconds Comments.onePost) answering
    SessionsKeyed Comments.onePost.store.sessions ∧
      c.shared.store.Extends (Venue.play c [.step 0]).shared.store ∧ Commits c (Venue.move c (.step 0)) 1 := by
  have keyed : SessionsKeyed Comments.onePost.store.sessions := ⟨.nil, .nil, by intro row member; cases member⟩
  have holds := history_append_only seconds keyed answering [.step 0]
  exact ⟨keyed, holds.1, holds.2 (.step 0) 0 _ _ rfl rfl (by decide)⟩

end Service
end Forum
