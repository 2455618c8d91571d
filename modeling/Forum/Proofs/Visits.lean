import Forum.Crowd
import Forum.Proofs.Submission

namespace Forum.Board
open Service Service.Comments
open Procedure (ofOutcome)
variable {i : Nat} {id : Int} {grace : Span} {draft : CommentDraft} {image : ByteArray}

inductive Visit
  | save (draft : CommentDraft) (image : ByteArray)
  | sweep

inductive Shift
  | clock (now : Instant)
  | script (script : Script)

abbrev Visit.Result : Visit → Type
  | save _ _ => Int
  | sweep => Unit

def body (grace : Span) : (visit : Visit) → Operation visit.Result
  | .save draft image => Comments.save grace draft image
  | .sweep => Posts.sweep

def shift : Shift → Backend → Backend
  | .clock now, b => { b with clock := now }
  | .script script, b => { b with script }

abbrev board (grace : Span) : Venue ports Backend := ⟨Visit, Visit.Result, body grace, Backend.answerNow, Shift, shift⟩

abbrev Entry := Asked ports Backend

def opened (grace : Span) (b : Backend) : (board grace).Crowd := { shared := b }

def Finds (s : Backend) (p : Int) (post : Post) : Prop := (s.answerNow (.findPost p)).1 = .done (some post)

-- What a submission has asked when only the clock and the transaction are left: its post was found
-- active, and an image, if it has one, was uploaded.
inductive Prepared (draft : CommentDraft) (image : ByteArray) (i : Nat) : List Entry → Option String → Prop
  | bare (found : Finds s draft.postId post) (active : post.isArchived = false) (plain : image.isEmpty = true) :
      Prepared draft image i [⟨i, .findPost draft.postId, s⟩] none
  | attached (found : Finds s draft.postId post) (active : post.isArchived = false) (attached : image.isEmpty = false)
      (placed : (t.answerNow (.upload draft.author.sessionId image)).1 = .done url) :
      Prepared draft image i [⟨i, .findPost draft.postId, s⟩, ⟨i, .upload draft.author.sessionId image, t⟩] (some url)

-- Where a submission can wait, by what it has asked: to load its post, to upload its image, to read
-- the clock or to open its transaction.
inductive Waiting (grace : Span) (draft : CommentDraft) (image : ByteArray) (i : Nat) :
    List Entry → (q : Question) → (Outcome q.Value → Operation Int) → Prop
  | load : Waiting grace draft image i [] (.findPost draft.postId) (loaded grace draft image)
  | upload (found : Finds s draft.postId post) (active : post.isArchived = false) (attached : image.isEmpty = false) :
      Waiting grace draft image i [⟨i, .findPost draft.postId, s⟩] (.upload draft.author.sessionId image)
        (uploaded grace draft draft.postId)
  | clock (ready : Prepared draft image i mine imagePath) :
      Waiting grace draft image i mine .now (dated grace draft draft.postId imagePath)
  | transaction (ready : Prepared draft image i mine imagePath) (sum : s.clock.add? grace = some expiry) :
      Waiting grace draft image i (mine ++ [⟨i, .now, s⟩])
        (.transact (saving (comment draft draft.postId imagePath s.clock) expiry)) written

inductive Over (grace : Span) (draft : CommentDraft) (image : ByteArray) (i : Nat) : List Entry → Outcome Int → Prop
  | archived (found : Finds s draft.postId post) (archived : post.isArchived = true) :
      Over grace draft image i [⟨i, .findPost draft.postId, s⟩]
        (.failed (.conflict "post is archived, new comments are prohibited"))
  | refused (unarchived : ∀ post, Finds s draft.postId post → post.isArchived = false)
      (without : ∀ id, outcome ≠ .done id) :
      Over grace draft image i [⟨i, .findPost draft.postId, s⟩] outcome
  | unplaced (found : Finds s draft.postId post) (active : post.isArchived = false) (without : ∀ id, outcome ≠ .done id) :
      Over grace draft image i [⟨i, .findPost draft.postId, s⟩, ⟨i, .upload draft.author.sessionId image, t⟩] outcome
  | undated (ready : Prepared draft image i mine imagePath) :
      Over grace draft image i (mine ++ [⟨i, .now, s⟩]) .crashed
  | answered (ready : Prepared draft image i mine imagePath) (sum : s.clock.add? grace = some expiry)
      (ended : written (t.answerNow (.transact (saving (comment draft draft.postId imagePath s.clock) expiry))).1 =
        ofOutcome outcome) :
      Over grace draft image i
        (mine ++ [⟨i, .now, s⟩, ⟨i, .transact (saving (comment draft draft.postId imagePath s.clock) expiry), t⟩]) outcome

inductive Saving (grace : Span) (draft : CommentDraft) (image : ByteArray) (i : Nat) : List Entry → Operation Int → Prop
  | waiting (waits : Waiting grace draft image i mine q next) : Saving grace draft image i mine (.ask q next)
  | complete (outcome : Outcome Int) (past : Over grace draft image i mine outcome) (ended : rest = ofOutcome outcome) :
      Saving grace draft image i mine rest

def swept : Outcome Nat → Operation Unit
  | .done _ => .done ()
  | .failed _ => .done ()
  | .crashed => .crash

def begun : Outcome Instant → Operation Unit
  | .done now => .ask (.archiveExpired now) swept
  | .failed e => .fail e
  | .crashed => .crash

inductive Sweeping (i : Nat) : List Entry → Operation Unit → Prop
  | clock : Sweeping i [] (.ask .now begun)
  | archive : Sweeping i [⟨i, .now, s⟩] (.ask (.archiveExpired s.clock) swept)
  | complete (ended : rest = ofOutcome outcome) : Sweeping i [⟨i, .now, s⟩, ⟨i, .archiveExpired s.clock, t⟩] rest

def Stage (grace : Span) (i : Nat) : (visit : Visit) → List Entry → Operation visit.Result → Prop
  | .save draft image => Saving grace draft image i
  | .sweep => Sweeping i

theorem sweep_eq : Posts.sweep = .ask .now begun := by
  change Procedure.ask _ _ = _
  congr 1
  funext reply
  cases reply with
  | done now =>
    change Procedure.ask _ _ = Procedure.ask _ _
    congr 1
    funext reply
    cases reply <;> rfl
  | failed e => rfl
  | crashed => rfl

theorem swept_ended (reply : Outcome Nat) : ∃ outcome, swept reply = ofOutcome outcome := by
  cases reply with
  | done count => exact ⟨.done (), rfl⟩
  | failed e => exact ⟨.done (), rfl⟩
  | crashed => exact ⟨.crashed, rfl⟩

theorem Saving.waits (stage : Saving grace draft image i mine (.ask q next)) : Waiting grace draft image i mine q next := by
  cases stage with
  | waiting waits => exact waits
  | complete _ _ ended => exact absurd ended.symm (Procedure.ofOutcome_ne_ask _)

theorem Finds.post_id (found : Finds s p post) : post.id = p := by
  obtain ⟨row, first, read⟩ := findPost_some (findPost_done found)
  have known : row.id = p := by simpa using List.find?_some first
  rw [(read_ok read).1, known]

theorem Finds.unique (found : Finds s p post) (also : Finds s p other) : post = other := by
  cases found.symm.trans also
  rfl

theorem saving_admitted (found : Finds s draft.postId post) :
    Saving grace draft image i [⟨i, .findPost draft.postId, s⟩] (admitted grace draft image post) := by
  rcases admitted_cases grace draft image post with
    ⟨archived, same⟩ | ⟨active, ⟨e, same⟩ | ⟨plain, same⟩ | ⟨attached, same⟩⟩
  · rw [same]
    exact .complete (.failed _) (.archived found archived) rfl
  · rw [same]
    exact .complete (.failed e) (.refused (fun other also => found.unique also ▸ active) (by simp)) rfl
  · rw [same, found.post_id, write_eq]
    exact .waiting (.clock (.bare found active plain))
  · rw [same, found.post_id]
    exact .waiting (.upload found active attached)

theorem saving_loaded (s : Backend) :
    Saving grace draft image i [⟨i, .findPost draft.postId, s⟩] (loaded grace draft image (s.answerNow (.findPost draft.postId)).1) := by
  have unread : (∀ post, (s.answerNow (.findPost draft.postId)).1 ≠ .done (some post)) →
      ∀ post, Finds s draft.postId post → post.isArchived = false :=
    fun differs post found => absurd found (differs post)
  generalize replied : (s.answerNow (.findPost draft.postId)).1 = reply at unread
  cases reply with
  | failed e => exact .complete (.failed _) (.refused (unread (by simp)) (by simp)) rfl
  | crashed => exact .complete .crashed (.refused (unread (by simp)) (by simp)) rfl
  | done read =>
    cases read with
    | none => exact .complete (.failed _) (.refused (unread (by intro post same; cases same)) (by simp)) rfl
    | some post => exact saving_admitted replied

theorem saving_asked (s : Backend) (waits : Waiting grace draft image i mine q next) :
    Saving grace draft image i (mine ++ [⟨i, q, s⟩]) (next (s.answerNow q).1) := by
  cases waits with
  | load => exact saving_loaded s
  | upload found active attached =>
    generalize replied : (s.answerNow (.upload draft.author.sessionId image)).1 = reply
    cases reply with
    | failed e => exact .complete (.failed _) (.unplaced found active (by simp)) rfl
    | crashed => exact .complete .crashed (.unplaced found active (by simp)) rfl
    | done url =>
      change Saving grace draft image i _ (write grace draft draft.postId (some url))
      rw [write_eq]
      exact .waiting (.clock (.attached found active attached replied))
  | clock ready =>
    rename_i imagePath
    change Saving grace draft image i _ (expiring draft draft.postId imagePath s.clock (s.clock.add? grace))
    cases sum : s.clock.add? grace with
    | none => exact .complete .crashed (.undated ready) rfl
    | some expiry => exact .waiting (.transaction ready sum)
  | transaction ready sum =>
    obtain ⟨outcome, ended⟩ := written_ended (s.answerNow (.transact _)).1
    rw [List.append_assoc]
    exact .complete outcome (.answered ready sum ended) ended

theorem sweeping_asked (s : Backend) (stage : Sweeping i mine (.ask q next)) :
    Sweeping i (mine ++ [⟨i, q, s⟩]) (next (s.answerNow q).1) := by
  cases stage with
  | clock => exact .archive
  | archive =>
    obtain ⟨outcome, ended⟩ := swept_ended (s.answerNow (.archiveExpired _)).1
    exact .complete ended
  | complete ended => exact absurd ended.symm (Procedure.ofOutcome_ne_ask _)

theorem stages (grace : Span) : Venue.Stages (V := board grace) (Stage grace) where
  opened := by
    intro i visit
    cases visit with
    | save draft image =>
      change Saving grace draft image i [] (save grace draft image)
      rw [save_eq]
      exact .waiting .load
    | sweep =>
      change Sweeping i [] Posts.sweep
      rw [sweep_eq]
      exact .clock
  asked := by
    intro i visit mine q next s stage
    cases visit with
    | save draft image => exact saving_asked s (Saving.waits stage)
    | sweep => exact sweeping_asked s stage

theorem staged_opened (grace : Span) (b : Backend) : Venue.Staged (V := board grace) (Stage grace) (opened grace b) where
  known := by simp [opened]
  stands := by simp [opened]

inductive Asks : Question → Prop
  | now : Asks .now
  | findPost (p : Int) : Asks (.findPost p)
  | upload (owner : Int) (file : ByteArray) : Asks (.upload owner file)
  | archiveExpired (cutoff : Instant) : Asks (.archiveExpired cutoff)
  | transact (new : NewComment) (expiry : Instant) : Asks (.transact (saving new expiry))

theorem Waiting.asks (waits : Waiting grace draft image i mine q next) : Asks q := by
  cases waits with
  | load => exact .findPost _
  | upload => exact .upload _ _
  | clock => exact .now
  | transaction => exact .transact _ _

theorem Sweeping.asks (stage : Sweeping i mine (.ask q next)) : Asks q := by
  cases stage with
  | clock => exact .now
  | archive => exact .archiveExpired _
  | complete ended => exact absurd ended.symm (Procedure.ofOutcome_ne_ask _)

theorem Stage.asks {visit : Visit} {next : Outcome q.Value → Operation visit.Result}
    (stage : Stage grace i visit mine (.ask q next)) : Asks q := by
  cases visit with
  | save draft image => exact (Saving.waits stage).asks
  | sweep => exact Sweeping.asks stage

structure Ages (f : PostRow → PostRow) : Prop where
  id : ∀ row, (f row).id = row.id
  expiresAt : ∀ row, (f row).expiresAt = row.expiresAt
  archived : ∀ row, row.archived ≠ 0 → (f row).archived ≠ 0

def Swept (s t : Store) : Prop :=
  t.comments = s.comments ∧ ∃ f, Ages f ∧ t.posts.rows = s.posts.rows.map f

theorem Swept.refl (s : Store) : Swept s s :=
  ⟨rfl, fun row => row, ⟨fun _ => rfl, fun _ => rfl, fun _ h => h⟩, (List.map_id' _).symm⟩

theorem swept_archiveExpired (s : Store) (cutoff : Instant) : Swept s (s.archiveExpired cutoff).2 := by
  refine ⟨rfl, fun row => if Store.PostRow.IsDue cutoff.millis row then { row with archived := 1 } else row, ?_, rfl⟩
  refine ⟨?_, ?_, ?_⟩
  all_goals intro row
  · split <;> rfl
  · split <;> rfl
  · intro archived
    split
    · exact Int.one_ne_zero
    · exact archived

theorem swept_sweptFirst (b : Backend) : Swept b.store b.sweptFirst.store := by
  unfold Backend.sweptFirst
  split
  · exact swept_archiveExpired _ _
  · exact .refl _

theorem swept_meeting (mishap : Option Mishap) {part : Outcome α × Backend} {b : Backend}
    (done : Swept s part.2.store) (left : Swept s b.store) : Swept s (Backend.meeting mishap part b).2.store := by
  rcases Backend.meeting_cases mishap part b with ⟨_, met⟩ | ⟨same, _⟩
  · rw [met]
    exact done
  · rw [same]
    exact left

def commit? : Entry → Option (Nat × Int)
  | ⟨i, .transact work, s⟩ =>
    match (s.transact work).1 with
    | .done id => some (i, id)
    | _ => none
  | _ => none

theorem commit?_transact {s : Backend} : commit? ⟨i, .transact work, s⟩ = some (j, id) ↔ i = j ∧ (s.transact work).1 = .done id := by
  unfold commit?
  dsimp only
  split
  · rename_i replied
    simp [replied]
  · rename_i differs
    constructor
    · intro none
      cases none
    · intro commits
      obtain ⟨_, replied⟩ := commits
      exact absurd replied (differs id)

theorem transact_effect (s : Backend) (work : Work Int) :
    ((∀ id, (s.transact work).1 ≠ .done id) ∧ Swept s.store (s.transact work).2.store) ∨
    ∃ (id : Int) (b : Backend), (s.transact work).1 = .done id ∧ Swept s.store b.store ∧
      Transaction.within b.mishap.transaction work b.toConnection = (.done id, (s.transact work).2.toConnection) := by
  obtain ⟨calls, ran | ⟨same, failed⟩⟩ := Backend.transact_cases s work
  · have first : Swept s.store (Backend.sweptFirst { s with calls }).store := swept_sweptFirst { s with calls }
    generalize Backend.sweptFirst { s with calls } = b at ran first
    rw [ran]
    rcases Transaction.within_cases b.mishap.transaction work b.toConnection with ⟨id, _, _, _, _, done⟩ | ⟨failed, same⟩
    · have returned : (b.withinTransaction work).1 = .done id := congrArg Prod.fst done
      exact .inr ⟨id, b, returned, first, Prod.ext returned rfl⟩
    · refine .inl ⟨failed, ?_⟩
      rw [show (b.withinTransaction work).2.store = b.store from congrArg Connection.store same]
      exact first
  · refine .inl ⟨failed, ?_⟩
    rw [same]
    exact .refl _

theorem answer_effect (i : Nat) (asks : Asks q) (s : Backend) :
    (commit? ⟨i, q, s⟩ = none ∧ Swept s.store (s.answerNow q).2.store) ∨
    ∃ new expiry id before, q = .transact (saving new expiry) ∧ (s.transact (saving new expiry)).1 = .done id ∧
      Swept s.store before ∧ id = before.comments.lastId + 1 ∧ (s.answerNow q).2.store = before.commented new expiry := by
  cases asks with
  | now => exact .inl ⟨rfl, .refl _⟩
  | findPost p =>
    refine .inl ⟨rfl, ?_⟩
    rw [← Backend.answer_prompt rfl, Backend.answer_findPost]
    exact .refl _
  | upload owner image =>
    obtain ⟨⟨calls, noted⟩, _⟩ := Backend.upload_noted s owner image
    refine .inl ⟨rfl, ?_⟩
    rw [show (s.answerNow (.upload owner image)).2 = _ from noted]
    exact .refl _
  | archiveExpired cutoff =>
    refine .inl ⟨rfl, ?_⟩
    exact swept_meeting _ (swept_archiveExpired _ _) (.refl _)
  | transact new expiry =>
    rcases transact_effect s (saving new expiry) with ⟨failed, first⟩ | ⟨id, b, replied, first, ran⟩
    · refine .inl ⟨?_, first⟩
      generalize replied : (s.transact (saving new expiry)).1 = reply at failed
      cases reply with
      | done id => exact absurd rfl (failed id)
      | failed e => simp only [commit?, replied]
      | crashed => simp only [commit?, replied]
    · obtain ⟨_, _, fresh, written⟩ := Transaction.within_saving ran
      exact .inr ⟨new, expiry, id, b.store, rfl, replied, first, fresh, congrArg Connection.store written⟩

theorem saving_inj (same : saving new expiry = saving new' expiry') : new = new' ∧ expiry = expiry' := by
  injection same with comments nexts
  have step := congrFun nexts (.ok 0)
  injection step with posts expiries
  exact ⟨comments, expiries⟩

theorem Waiting.transacts (waits : Waiting grace draft image i mine (.transact work) next) :
    ∃ earlier imagePath s expiry, mine = earlier ++ [⟨i, .now, s⟩] ∧ Prepared draft image i earlier imagePath ∧
      s.clock.add? grace = some expiry ∧ work = saving (comment draft draft.postId imagePath s.clock) expiry ∧
      next = written := by
  cases waits with
  | transaction ready sum => exact ⟨_, _, _, _, rfl, ready, sum, rfl, rfl⟩

theorem Sweeping.not_transacts {next : Outcome (Question.transact work).Value → Operation Unit}
    (stage : Sweeping i mine (.ask (.transact work) next)) : False := by
  cases stage with
  | complete ended => exact absurd ended.symm (Procedure.ofOutcome_ne_ask _)

theorem Prepared.loads (ready : Prepared draft image i mine imagePath) :
    ∃ s post, ⟨i, .findPost draft.postId, s⟩ ∈ mine ∧ Finds s draft.postId post ∧ post.isArchived = false ∧
      ∀ p t, ⟨i, .findPost p, t⟩ ∈ mine → p = draft.postId ∧ t = s := by
  cases ready with
  | bare found active => exact ⟨_, _, by simp, found, active, by simp⟩
  | attached found active => exact ⟨_, _, by simp, found, active, by simp⟩

theorem Prepared.loads_active (ready : Prepared draft image i mine imagePath) (member : ⟨i, .findPost p, s⟩ ∈ mine)
    (found : Finds s p post) : post.isArchived = false := by
  obtain ⟨t, other, _, also, active, only⟩ := ready.loads
  obtain ⟨rfl, rfl⟩ := only p s member
  exact found.unique also ▸ active

theorem Waiting.loads_active {mine : List Entry} {next : Outcome q.Value → Operation Int}
    (waits : Waiting grace draft image i mine q next) (member : ⟨i, .findPost p, s⟩ ∈ mine) (found : Finds s p post) :
    post.isArchived = false := by
  cases waits with
  | load => cases member
  | upload also active =>
    cases List.mem_singleton.mp member
    exact found.unique also ▸ active
  | clock ready => exact ready.loads_active member found
  | transaction ready => exact ready.loads_active (by simpa using member) found

theorem Over.conflict {mine : List Entry} (past : Over grace draft image i mine outcome)
    (member : ⟨i, .findPost p, s⟩ ∈ mine) (found : Finds s p post) (archived : post.isArchived = true) :
    mine = [⟨i, .findPost p, s⟩] ∧ outcome = .failed (.conflict "post is archived, new comments are prohibited") := by
  have active : post.isArchived = false → False := fun active => by simp [active] at archived
  cases past with
  | archived =>
    cases List.mem_singleton.mp member
    exact ⟨rfl, rfl⟩
  | refused unarchived =>
    cases List.mem_singleton.mp member
    exact (active (unarchived post found)).elim
  | unplaced also unarchived =>
    rcases List.mem_cons.mp member with load | upload
    · cases load
      exact (active (found.unique also ▸ unarchived)).elim
    · cases List.mem_singleton.mp upload
  | undated ready => exact (active (ready.loads_active (by simpa using member) found)).elim
  | answered ready => exact (active (ready.loads_active (by simpa using member) found)).elim

theorem Prepared.begins (ready : Prepared draft image i mine imagePath) :
    ∃ s more, mine = ⟨i, .findPost draft.postId, s⟩ :: more := by
  cases ready with
  | bare => exact ⟨_, _, rfl⟩
  | attached => exact ⟨_, _, rfl⟩

theorem Over.begins {mine : List Entry} (past : Over grace draft image i mine outcome) :
    ∃ s more, mine = ⟨i, .findPost draft.postId, s⟩ :: more := by
  cases past with
  | archived => exact ⟨_, _, rfl⟩
  | refused => exact ⟨_, _, rfl⟩
  | unplaced => exact ⟨_, _, rfl⟩
  | undated ready =>
    obtain ⟨_, _, rfl⟩ := ready.begins
    exact ⟨_, _, rfl⟩
  | answered ready =>
    obtain ⟨_, _, rfl⟩ := ready.begins
    exact ⟨_, _, rfl⟩

theorem Saving.begins {mine : List Entry} (stage : Saving grace draft image i mine rest) :
    (mine = [] ∧ ∃ next, rest = .ask (.findPost draft.postId) next) ∨
      ∃ s more, mine = ⟨i, .findPost draft.postId, s⟩ :: more := by
  cases stage with
  | waiting waits =>
    cases waits with
    | load => exact .inl ⟨rfl, _, rfl⟩
    | upload => exact .inr ⟨_, _, rfl⟩
    | clock ready => exact .inr ready.begins
    | transaction ready =>
      obtain ⟨_, _, rfl⟩ := ready.begins
      exact .inr ⟨_, _, rfl⟩
  | complete _ past _ => exact .inr past.begins

theorem Saving.conflict {mine : List Entry} (stage : Saving grace draft image i mine rest)
    (member : ⟨i, .findPost p, s⟩ ∈ mine) (found : Finds s p post) (archived : post.isArchived = true) :
    mine = [⟨i, .findPost p, s⟩] ∧ rest = .fail (.conflict "post is archived, new comments are prohibited") := by
  cases stage with
  | waiting waits => simp [waits.loads_active member found] at archived
  | complete _ past ended =>
    obtain ⟨alone, conflict⟩ := past.conflict member found archived
    exact ⟨alone, by rw [ended, conflict]; rfl⟩

theorem Sweeping.loads_nothing (stage : Sweeping i mine rest) : ⟨i, .findPost p, s⟩ ∉ mine := by
  cases stage with
  | clock => simp
  | archive => simp
  | complete => simp

theorem Over.returns {mine : List Entry} (past : Over grace draft image i mine (.done id)) :
    ∃ work s, ⟨i, .transact work, s⟩ ∈ mine ∧ (s.transact work).1 = .done id := by
  cases past with
  | refused _ without => exact absurd rfl (without id)
  | unplaced _ _ without => exact absurd rfl (without id)
  | answered ready sum ended =>
    rename_i earlier imagePath expiry s t
    refine ⟨saving (comment draft draft.postId imagePath s.clock) expiry, t, by simp, ?_⟩
    change (t.answerNow (.transact _)).1 = _
    generalize (t.answerNow (.transact (saving (comment draft draft.postId imagePath s.clock) expiry))).1 = reply at ended
    cases reply with
    | done other => cases ended; rfl
    | failed e => cases ended
    | crashed => cases ended

theorem Saving.returns {mine : List Entry} (stage : Saving grace draft image i mine (.done id)) :
    ∃ work s, ⟨i, .transact work, s⟩ ∈ mine ∧ (s.transact work).1 = .done id := by
  generalize returned : (Procedure.done id : Operation Int) = rest at stage
  cases stage with
  | waiting waits => cases returned
  | complete outcome past ended =>
    have same : (ofOutcome (.done id) : Operation Int) = ofOutcome outcome := returned.trans ended
    cases Procedure.ofOutcome_inj same
    exact past.returns

theorem Waiting.commits {mine : List Entry} {next : Outcome q.Value → Operation Int} {s : Backend}
    (waits : Waiting grace draft image i mine q next) (returned : next (s.answerNow q).1 = .done id) :
    ∃ work, q = .transact work ∧ (s.transact work).1 = .done id := by
  have stage := saving_asked s waits
  rw [returned] at stage
  obtain ⟨work, t, member, replied⟩ := stage.returns
  cases waits with
  | load => simp at member
  | upload => simp at member
  | clock ready => cases ready <;> simp at member
  | transaction ready =>
    rcases List.mem_append.mp member with early | last
    · cases ready <;> simp at early
    · cases List.mem_singleton.mp last
      exact ⟨_, rfl, replied⟩

theorem Prepared.reads_nothing (ready : Prepared draft image i mine imagePath) : ⟨i, .now, s⟩ ∉ mine := by
  cases ready <;> simp

theorem Saving.reads_once {mine : List Entry} (stage : Saving grace draft image i mine rest) (read : ⟨i, .now, s⟩ ∈ mine)
    (also : ⟨i, .now, t⟩ ∈ mine) : s = t := by
  cases stage with
  | waiting waits =>
    cases waits with
    | load => cases read
    | upload => simp at read
    | clock ready => exact absurd read ready.reads_nothing
    | transaction ready =>
      simp only [List.mem_append, ready.reads_nothing, List.mem_singleton, Asked.mk.injEq, true_and, false_or] at read also
      exact read.trans also.symm
  | complete _ past _ =>
    cases past with
    | archived => simp at read
    | refused => simp at read
    | unplaced => simp at read
    | undated ready =>
      simp only [List.mem_append, ready.reads_nothing, List.mem_singleton, Asked.mk.injEq, true_and, false_or] at read also
      exact read.trans also.symm
    | answered ready =>
      simp [ready.reads_nothing] at read also
      exact read.trans also.symm

end Forum.Board
