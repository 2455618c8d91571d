import Forum.Proofs.Transaction
import Forum.Proofs.Collaborators

namespace Forum.Service.Comments
open Backend (Stays Quiet)
open Procedure (Exits exits_ask ofOutcome exits_ofOutcome runUntil runUntil_ask runUntil_ofOutcome)
variable {id : Int}

def written : Outcome Int → Operation Int
  | .done id => .done id
  | .failed e => .fail (e.during "save comment")
  | .crashed => .crash

def comment (draft : CommentDraft) (post : Int) (imagePath : Option String) (now : Instant) : NewComment :=
  ⟨post, draft.parentId, draft.author, Text.trim draft.content, imagePath, now⟩

def expiring (draft : CommentDraft) (post : Int) (imagePath : Option String) (now : Instant) : Option Instant → Operation Int
  | some expiry => .ask (.transact (saving (comment draft post imagePath now) expiry)) written
  | none => .crash

def dated (grace : Span) (draft : CommentDraft) (post : Int) (imagePath : Option String) : Outcome Instant → Operation Int
  | .done now => expiring draft post imagePath now (now.add? grace)
  | .failed e => .fail e
  | .crashed => .crash

def uploaded (grace : Span) (draft : CommentDraft) (post : Int) : Outcome String → Operation Int
  | .done url => write grace draft post (some url)
  | .failed e => .fail (e.during "upload comment image")
  | .crashed => .crash

def admitted (grace : Span) (draft : CommentDraft) (image : ByteArray) (post : Post) : Operation Int :=
  if post.isArchived then .fail (.conflict "post is archived, new comments are prohibited")
  else if (Text.trim draft.content).isEmpty && image.isEmpty then .fail (.invalidInput "comment is empty")
  else if image.isEmpty then write grace draft post.id none
  else .ask (.upload draft.author.sessionId image) (uploaded grace draft post.id)

def loaded (grace : Span) (draft : CommentDraft) (image : ByteArray) : Outcome (Option Post) → Operation Int
  | .done (some post) => admitted grace draft image post
  | .done none => .fail (.notFound "post")
  | .failed e => .fail (e.during "load post")
  | .crashed => .crash

theorem write_eq (grace : Span) (draft : CommentDraft) (post : Int) (imagePath : Option String) :
    write grace draft post imagePath = .ask .now (dated grace draft post imagePath) := by
  change Procedure.ask _ _ = _
  congr 1
  funext reply
  cases reply with
  | done now =>
    change Procedure.bind (Procedure.orCrash (Instant.add? now grace)) _ = expiring draft post imagePath now (Instant.add? now grace)
    cases Instant.add? now grace with
    | none => rfl
    | some expiry =>
      change Procedure.ask _ _ = Procedure.ask _ _
      congr 1
      funext reply
      cases reply <;> rfl
  | failed e => rfl
  | crashed => rfl

theorem save_eq (grace : Span) (draft : CommentDraft) (image : ByteArray) :
    save grace draft image = .ask (.findPost draft.postId) (loaded grace draft image) := by
  change Procedure.ask _ _ = _
  congr 1
  funext reply
  cases reply with
  | done found =>
    cases found with
    | none => rfl
    | some post =>
      change (if post.isArchived then _ else _) = admitted grace draft image post
      unfold admitted
      split
      · rfl
      · split
        · rfl
        · unfold uploadUnlessEmpty
          split
          · rfl
          · change Procedure.ask _ _ = _
            congr 1
            funext reply
            cases reply <;> rfl
  | failed e => rfl
  | crashed => rfl

def Refused (ending : Option (Outcome Int)) : Prop := ∀ id, ending ≠ some (.done id)

theorem written_exits (exits : Exits Backend.answer s (written reply) ending after) :
    after = s ∧ ((∃ id, ending = some (.done id) ∧ reply = .done id) ∨ (Refused ending ∧ ∀ id, reply ≠ .done id)) := by
  cases reply with
  | done id =>
    obtain ⟨rfl, rfl⟩ := (exits_ofOutcome _ (.done _)).mp exits
    exact ⟨rfl, .inl ⟨id, rfl, rfl⟩⟩
  | failed e =>
    obtain ⟨rfl, rfl⟩ := (exits_ofOutcome _ (.failed _)).mp exits
    exact ⟨rfl, .inr ⟨by simp [Refused], by simp⟩⟩
  | crashed =>
    obtain ⟨rfl, rfl⟩ := (exits_ofOutcome _ .crashed).mp exits
    exact ⟨rfl, .inr ⟨by simp [Refused], by simp⟩⟩

theorem write_exits {s : Backend} (quiet : s.sweepFirst = none) (draft : CommentDraft)
    (exits : Exits Backend.answer s (write grace draft post imagePath) ending after) :
    (after.toConnection = s.toConnection ∧ Refused ending) ∨
      ∃ id expiry, ending = some (.done id) ∧ s.clock.add? grace = some expiry ∧ s.undo = none ∧
        id = s.store.comments.lastId + 1 ∧
        after.toConnection = { store := s.store.commented (comment draft post imagePath s.clock) expiry } := by
  rw [write_eq] at exits
  rcases (exits_ask _).mp exits with ⟨rfl, rfl⟩ | exits
  · exact .inl ⟨rfl, by simp [Refused]⟩
  · rw [Backend.answer_now] at exits
    change Exits _ s (expiring draft post imagePath s.clock (s.clock.add? grace)) _ _ at exits
    cases sum : s.clock.add? grace with
    | none =>
      rw [sum] at exits
      obtain ⟨rfl, rfl⟩ := (exits_ofOutcome _ .crashed).mp exits
      exact .inl ⟨rfl, by simp [Refused]⟩
    | some expiry =>
      rw [sum] at exits
      obtain ⟨replied, connected⟩ := Backend.answer_transact quiet (saving (comment draft post imagePath s.clock) expiry)
      rcases (exits_ask _).mp exits with ⟨rfl, rfl⟩ | exits
      · exact .inl ⟨rfl, by simp [Refused]⟩
      · obtain ⟨rfl, ⟨id, rfl, reply⟩ | ⟨refused, failed⟩⟩ := written_exits exits
        · rw [reply] at replied
          obtain ⟨free, _, fresh, written⟩ := Transaction.within_saving (Prod.ext replied.symm connected.symm)
          exact .inr ⟨id, expiry, rfl, rfl, free, fresh, written⟩
        · rw [replied] at failed
          rcases Transaction.within_cases s.mishap.transaction (saving (comment draft post imagePath s.clock) expiry)
            s.toConnection with ⟨a, _, _, _, _, ran⟩ | ⟨_, same⟩
          · exact absurd (congrArg Prod.fst ran) (failed a)
          · exact .inl ⟨connected.trans same, refused⟩

theorem reading_done {b : Backend} {found : Except DatabaseFault α} (replied : (b.reading found).1 = .done a) :
    found = .ok a := by
  cases found with
  | ok value => cases replied; rfl
  | error fault => cases replied

theorem findPost_done {b : Backend} {found : Option Post} (replied : (b.answerNow (.findPost id)).1 = .done found) :
    b.store.findPost id = .ok found := by
  rcases Backend.meeting_cases (b.mishap .findPost) (b.reading (b.store.findPost id)) b with ⟨_, met⟩ | ⟨_, failed⟩
  · exact reading_done ((congrArg Prod.fst met).symm.trans replied)
  · exact absurd replied (failed _)

theorem findPost_some {s : Store} {post : Post} (found : s.findPost id = .ok (some post)) :
    ∃ row, s.posts.rows.find? (·.id = id) = some row ∧ row.read = .ok post := by
  unfold Store.findPost at found
  split at found
  · rename_i row first
    refine ⟨row, first, ?_⟩
    cases read : row.read with
    | error fault => simp [read, Except.map] at found
    | ok post' =>
      simp only [read, Except.map, Except.ok.injEq, Option.some.injEq] at found
      rw [found]
  · cases found

theorem read_ok {row : PostRow} {post : Post} (read : row.read = .ok post) :
    post.id = row.id ∧ post.isArchived = decide (row.archived ≠ 0) := by
  unfold PostRow.read at read
  cases created : readInstant 7 row.createdAt with
  | error fault => simp [created, bind, Except.bind] at read
  | ok createdAt =>
    cases expires : readInstant 8 row.expiresAt with
    | error fault => simp [created, expires, bind, Except.bind] at read
    | ok expiresAt =>
      simp only [created, expires, bind, Except.bind, pure, Except.pure, Except.ok.injEq] at read
      subst read
      exact ⟨rfl, rfl⟩

def Accepted (grace : Span) (draft : CommentDraft) (image : ByteArray) (b after : Backend) (id : Int) : Prop :=
  ∃ imagePath expiry,
    imagePath = (if image.isEmpty then none else some (b.place b.calls.uploads.length draft.author.sessionId)) ∧
    b.clock.add? grace = some expiry ∧ b.undo = none ∧
    (∃ row, b.store.posts.rows.find? (·.id = draft.postId) = some row ∧ row.archived = 0) ∧
    id = b.store.comments.lastId + 1 ∧
    after.toConnection = { store := b.store.commented (comment draft draft.postId imagePath b.clock) expiry }

-- Either the connection is as it was, or the call returned an id and has done what goes with it.
def Settles (grace : Span) (draft : CommentDraft) (image : ByteArray) (b : Backend) (ending : Option (Outcome Int))
    (after : Backend) : Prop :=
  (after.toConnection = b.toConnection ∧ Refused ending) ∨
    ∃ id, ending = some (.done id) ∧ Accepted grace draft image b after id

theorem write_settles {b s : Backend} {grace : Span} {draft : CommentDraft} {image : ByteArray}
    (quiet : b.sweepFirst = none) (stays : Stays b s)
    (active : ∃ row, b.store.posts.rows.find? (·.id = draft.postId) = some row ∧ row.archived = 0)
    (placed : imagePath = if image.isEmpty then none else some (b.place b.calls.uploads.length draft.author.sessionId))
    (exits : Exits Backend.answer s (write grace draft draft.postId imagePath) ending after) :
    Settles grace draft image b ending after := by
  rcases write_exits (stays.sweepFirst.trans quiet) draft exits with
    ⟨kept, refused⟩ | ⟨id, expiry, returned, sum, free, fresh, written⟩
  · exact .inl ⟨kept.trans stays.connection, refused⟩
  · rw [stays.clock] at sum written
    rw [stays.connection] at free fresh written
    exact .inr ⟨id, returned, imagePath, expiry, placed, sum, free, active, fresh, written⟩

theorem admitted_cases (grace : Span) (draft : CommentDraft) (image : ByteArray) (post : Post) :
    (post.isArchived = true ∧ admitted grace draft image post =
      .fail (.conflict "post is archived, new comments are prohibited")) ∨
    (post.isArchived = false ∧
      ((∃ e, admitted grace draft image post = .fail e) ∨
        (image.isEmpty = true ∧ admitted grace draft image post = write grace draft post.id none) ∨
        (image.isEmpty = false ∧ admitted grace draft image post =
          .ask (.upload draft.author.sessionId image) (uploaded grace draft post.id)))) := by
  unfold admitted
  by_cases archived : post.isArchived = true
  · rw [if_pos archived]
    exact .inl ⟨archived, rfl⟩
  · rw [if_neg archived]
    refine .inr ⟨by simpa using archived, ?_⟩
    by_cases empty : ((Text.trim draft.content).isEmpty && image.isEmpty) = true
    · rw [if_pos empty]
      exact .inl ⟨_, rfl⟩
    · rw [if_neg empty]
      by_cases plain : image.isEmpty = true
      · rw [if_pos plain]
        exact .inr (.inl ⟨plain, rfl⟩)
      · rw [if_neg plain]
        exact .inr (.inr ⟨by simpa using plain, rfl⟩)

theorem admitted_settles {b : Backend} (quiet : b.Quiet) (grace : Span) (draft : CommentDraft) (image : ByteArray)
    {post : Post} (found : b.store.findPost draft.postId = .ok (some post))
    (exits : Exits Backend.answer b (admitted grace draft image post) ending after) :
    Settles grace draft image b ending after := by
  obtain ⟨row, first, read⟩ := findPost_some found
  obtain ⟨sameId, archived⟩ := read_ok read
  have known : row.id = draft.postId := by simpa using List.find?_some first
  rcases admitted_cases grace draft image post with
    ⟨_, refused⟩ | ⟨active, ⟨e, refused⟩ | ⟨bare, same⟩ | ⟨attached, same⟩⟩
  · rw [refused] at exits
    obtain ⟨rfl, rfl⟩ := (exits_ofOutcome _ (.failed _)).mp exits
    exact .inl ⟨rfl, by simp [Refused]⟩
  · rw [refused] at exits
    obtain ⟨rfl, rfl⟩ := (exits_ofOutcome _ (.failed _)).mp exits
    exact .inl ⟨rfl, by simp [Refused]⟩
  · have active : row.archived = 0 := by simpa [archived] using active
    rw [same, sameId, known] at exits
    exact write_settles quiet.1 (.refl b) ⟨row, first, active⟩ (by simp [bare]) exits
  · have active : row.archived = 0 := by simpa [archived] using active
    rw [same, sameId, known] at exits
    obtain ⟨stays, placed⟩ := Backend.answer_upload quiet draft.author.sessionId image
    rcases (exits_ask _).mp exits with ⟨rfl, rfl⟩ | exits
    · exact .inl ⟨rfl, by simp [Refused]⟩
    · generalize upload : (b.answer (.upload draft.author.sessionId image)).1 = reply at exits
      cases reply with
      | failed e =>
        obtain ⟨rfl, rfl⟩ := (exits_ofOutcome _ (.failed _)).mp exits
        exact .inl ⟨stays.connection, by simp [Refused]⟩
      | crashed =>
        obtain ⟨rfl, rfl⟩ := (exits_ofOutcome _ .crashed).mp exits
        exact .inl ⟨stays.connection, by simp [Refused]⟩
      | done url =>
        exact write_settles quiet.1 stays ⟨row, first, active⟩ (by simp [attached, placed url upload]) exits

theorem save_settles {b : Backend} (quiet : b.Quiet) (grace : Span) (draft : CommentDraft) (image : ByteArray)
    (exits : Exits Backend.answer b (save grace draft image) ending after) :
    Settles grace draft image b ending after := by
  rw [save_eq] at exits
  rcases (exits_ask _).mp exits with ⟨rfl, rfl⟩ | exits
  · exact .inl ⟨rfl, by simp [Refused]⟩
  · rw [Backend.answer_findPost] at exits
    generalize replied : (b.answer (.findPost draft.postId)).1 = reply at exits
    cases reply with
    | failed e =>
      obtain ⟨rfl, rfl⟩ := (exits_ofOutcome _ (.failed _)).mp exits
      exact .inl ⟨rfl, by simp [Refused]⟩
    | crashed =>
      obtain ⟨rfl, rfl⟩ := (exits_ofOutcome _ .crashed).mp exits
      exact .inl ⟨rfl, by simp [Refused]⟩
    | done found =>
      cases found with
      | none =>
        obtain ⟨rfl, rfl⟩ := (exits_ofOutcome _ (.failed _)).mp exits
        exact .inl ⟨rfl, by simp [Refused]⟩
      | some post => exact admitted_settles quiet grace draft image (findPost_done replied) exits

theorem written_ended (reply : Outcome Int) : ∃ outcome, written reply = ofOutcome outcome := by
  cases reply with
  | done id => exact ⟨.done id, rfl⟩
  | failed e => exact ⟨.failed _, rfl⟩
  | crashed => exact ⟨.crashed, rfl⟩

-- A call that a deadline cut off is one that was given up, or one that came back without an id.
def CutOff (s : Backend) (p : Operation Int) (after : Backend) : Prop :=
  ∃ ending, Exits Backend.answer s p ending after ∧ Refused ending

theorem CutOff.later {s : Backend} {q : Question} {next : Outcome q.Value → Operation Int}
    (cut : CutOff (s.answer q).2 (next (s.answer q).1) after) : CutOff s (.ask q next) after := by
  obtain ⟨ending, exits, refused⟩ := cut
  exact ⟨ending, (exits_ask _).mpr (.inr exits), refused⟩

theorem CutOff.here (s : Backend) (q : Question) (next : Outcome q.Value → Operation Int) : CutOff s (.ask q next) s :=
  ⟨none, (exits_ask _).mpr (.inl ⟨rfl, rfl⟩), by simp [Refused]⟩

-- Nothing after the upload takes time, so a deadline that has not passed by then does not pass.
theorem write_cutOff {isUp : Backend → Bool} (timed : ∀ s t : Backend, s.timer = t.timer → isUp s = isUp t)
    (cut : runUntil isUp Backend.answer s (write grace draft post imagePath) = (none, after)) :
    CutOff s (write grace draft post imagePath) after := by
  rw [write_eq] at cut ⊢
  rcases runUntil_ask cut with ⟨_, rfl⟩ | ⟨notUp, cut⟩
  · exact .here _ _ _
  · rw [Backend.answer_now] at cut
    change runUntil isUp _ s (expiring draft post imagePath s.clock (s.clock.add? grace)) = _ at cut
    cases sum : s.clock.add? grace with
    | none =>
      rw [sum] at cut
      have up := (runUntil_ofOutcome .crashed cut).1
      simp [notUp] at up
    | some expiry =>
      rw [sum] at cut
      rcases runUntil_ask cut with ⟨up, _⟩ | ⟨_, cut⟩
      · simp [notUp] at up
      · have still := timed _ _ (Backend.answer_transact_timer s (saving (comment draft post imagePath s.clock) expiry))
        obtain ⟨outcome, ended⟩ := written_ended (s.answer (.transact (saving (comment draft post imagePath s.clock) expiry))).1
        rw [ended] at cut
        have up := (runUntil_ofOutcome _ cut).1
        simp [still, notUp] at up

theorem uploaded_cutOff {isUp : Backend → Bool} (timed : ∀ s t : Backend, s.timer = t.timer → isUp s = isUp t)
    {reply : Outcome String} (cut : runUntil isUp Backend.answer s (uploaded grace draft post reply) = (none, after)) :
    CutOff s (uploaded grace draft post reply) after := by
  cases reply with
  | done url => exact write_cutOff timed cut
  | failed e =>
    obtain ⟨_, rfl⟩ := runUntil_ofOutcome (.failed _) cut
    exact ⟨_, (exits_ofOutcome _ (.failed _)).mpr ⟨rfl, rfl⟩, by simp [Refused]⟩
  | crashed =>
    obtain ⟨_, rfl⟩ := runUntil_ofOutcome .crashed cut
    exact ⟨_, (exits_ofOutcome _ .crashed).mpr ⟨rfl, rfl⟩, by simp [Refused]⟩

theorem admitted_cutOff {isUp : Backend → Bool} (timed : ∀ s t : Backend, s.timer = t.timer → isUp s = isUp t)
    (cut : runUntil isUp Backend.answer s (admitted grace draft image post) = (none, after)) :
    CutOff s (admitted grace draft image post) after := by
  rcases admitted_cases grace draft image post with ⟨_, same⟩ | ⟨_, ⟨e, same⟩ | ⟨_, same⟩ | ⟨_, same⟩⟩
  all_goals rw [same] at cut ⊢
  · obtain ⟨_, rfl⟩ := runUntil_ofOutcome (.failed _) cut
    exact ⟨_, (exits_ofOutcome _ (.failed _)).mpr ⟨rfl, rfl⟩, by simp [Refused]⟩
  · obtain ⟨_, rfl⟩ := runUntil_ofOutcome (.failed e) cut
    exact ⟨_, (exits_ofOutcome _ (.failed e)).mpr ⟨rfl, rfl⟩, by simp [Refused]⟩
  · exact write_cutOff timed cut
  · rcases runUntil_ask cut with ⟨_, rfl⟩ | ⟨_, cut⟩
    · exact .here _ _ _
    · exact .later (uploaded_cutOff timed cut)

theorem save_cutOff {isUp : Backend → Bool} (timed : ∀ s t : Backend, s.timer = t.timer → isUp s = isUp t)
    (cut : runUntil isUp Backend.answer s (save grace draft image) = (none, after)) :
    CutOff s (save grace draft image) after := by
  rw [save_eq] at cut ⊢
  rcases runUntil_ask cut with ⟨_, rfl⟩ | ⟨_, cut⟩
  · exact .here _ _ _
  · apply CutOff.later
    generalize (s.answer (.findPost draft.postId)).2 = t at cut ⊢
    generalize (s.answer (.findPost draft.postId)).1 = reply at cut ⊢
    cases reply with
    | failed e =>
      obtain ⟨_, rfl⟩ := runUntil_ofOutcome (.failed _) cut
      exact ⟨_, (exits_ofOutcome _ (.failed _)).mpr ⟨rfl, rfl⟩, by simp [Refused]⟩
    | crashed =>
      obtain ⟨_, rfl⟩ := runUntil_ofOutcome .crashed cut
      exact ⟨_, (exits_ofOutcome _ .crashed).mpr ⟨rfl, rfl⟩, by simp [Refused]⟩
    | done found =>
      cases found with
      | none =>
        obtain ⟨_, rfl⟩ := runUntil_ofOutcome (.failed _) cut
        exact ⟨_, (exits_ofOutcome _ (.failed _)).mpr ⟨rfl, rfl⟩, by simp [Refused]⟩
      | some post => exact admitted_cutOff timed cut

theorem Settles.free {b : Backend} (settles : Settles grace draft image b ending after) (free : b.undo = none) :
    after.undo = none := by
  rcases settles with ⟨same, _⟩ | ⟨id, _, _, _, _, _, _, _, _, written⟩
  · rw [same, free]
  · rw [written]

theorem Settles.refused {b : Backend} (settles : Settles grace draft image b ending after) (refused : Refused ending) :
    after.toConnection = b.toConnection := by
  rcases settles with ⟨same, _⟩ | ⟨id, returned, _⟩
  · exact same
  · exact absurd returned (refused id)

-- However a call ends, and wherever it is given up, its comment is in the store with the new expiry
-- of its post and nothing else is, or the store is as it was. A deadline cuts off only calls of the
-- second kind. Afterwards a transaction can be opened if one could be before.
theorem save_all_or_nothing {b : Backend} (quiet : b.Quiet) (grace : Span) (draft : CommentDraft) (image : ByteArray) :
    (∀ ending after, Exits Backend.answer b (save grace draft image) ending after →
      (b.undo = none → ∃ opened, after.toConnection.begin = .ok opened) ∧
      ((∃ id imagePath expiry, ending = some (.done id) ∧
          imagePath = (if image.isEmpty then none
            else some (b.place b.calls.uploads.length draft.author.sessionId)) ∧
          b.clock.add? grace = some expiry ∧
          (∃ row, b.store.posts.rows.find? (·.id = draft.postId) = some row ∧ row.archived = 0) ∧
          after.store.sessions = b.store.sessions ∧
          after.store.posts.lastId = b.store.posts.lastId ∧
          after.store.posts.rows = b.store.posts.rows.map (fun row =>
            if row.id = draft.postId then { row with expiresAt := expiry.millis } else row) ∧
          id = b.store.comments.lastId + 1 ∧
          after.store.comments.lastId = id ∧
          after.store.comments.rows = b.store.comments.rows ++
            [⟨id, draft.postId, draft.parentId, draft.author, Text.trim draft.content, imagePath, b.clock.millis⟩]) ∨
        ((∀ id, ending ≠ some (.done id)) ∧ after.store = b.store))) ∧
    (∀ limit after, b.runWithin limit (save grace draft image) = (none, after) →
      after.store = b.store ∧ (b.undo = none → ∃ opened, after.toConnection.begin = .ok opened)) := by
  constructor
  · intro ending after exits
    have settles := save_settles quiet grace draft image exits
    refine ⟨fun free => Connection.begin_free (settles.free free), ?_⟩
    rcases settles with ⟨same, refused⟩ | ⟨id, returned, imagePath, expiry, placed, sum, _, active, fresh, written⟩
    · exact .inr ⟨refused, congrArg Connection.store same⟩
    · have stored : after.store = b.store.commented (comment draft draft.postId imagePath b.clock) expiry :=
        congrArg Connection.store written
      refine .inl ⟨id, imagePath, expiry, returned, placed, sum, active, ?_⟩
      rw [stored, fresh]
      exact ⟨rfl, rfl, rfl, rfl, rfl, rfl⟩
  · intro limit after cut
    obtain ⟨ending, exits, refused⟩ := save_cutOff (fun s t same => by simp only [same]) cut
    have settles := save_settles quiet grace draft image exits
    exact ⟨congrArg Connection.store (settles.refused refused), fun free => Connection.begin_free (settles.free free)⟩

def onePost : Backend where
  store := { posts := ⟨[⟨1, ⟨1, "ann", ""⟩, "title", "content", none, 0, 1000, 0⟩], 1⟩ }
  clock := .epoch
  entropy := fun _ => .replicate _ 0
  provide := fun number => ⟨number, "", ""⟩
  place := fun _ _ => ""

def answerToOnePost : CommentDraft := ⟨1, none, ⟨1, "ann", ""⟩, " hello "⟩

theorem save_all_or_nothing_one_post :
    onePost.Quiet ∧ ∃ after, onePost.run (save (.ofMillis 2000) answerToOnePost ⟨#[]⟩) = (.done 1, after) ∧
      after.store.comments.rows = [⟨1, 1, none, ⟨1, "ann", ""⟩, Text.trim " hello ", none, 0⟩] := by
  have quiet : onePost.Quiet := ⟨rfl, by intro schedule running; cases running⟩
  refine ⟨quiet, _, rfl, ?_⟩
  rcases ((save_all_or_nothing quiet (.ofMillis 2000) answerToOnePost ⟨#[]⟩).1 _ _ (.returned rfl)).2 with
    ⟨id, imagePath, expiry, returned, placed, _, _, _, _, _, _, _, written⟩ | ⟨refused, _⟩
  · cases returned
    rw [written, placed]
    rfl
  · exact absurd rfl (refused 1)

end Forum.Service.Comments
