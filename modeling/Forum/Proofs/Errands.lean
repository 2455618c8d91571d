import Forum.Proofs.Effects
import Forum.Proofs.Visits

namespace Forum.Service
open Board (Entry Saving Shift)
open Procedure (Asks ofOutcome)

structure Rules where
  session : SessionRules
  postGrace : Span
  commentGrace : Span

inductive Errand
  | issue
  | find (token : Token)
  | rename (token : Token) (name : String)
  | create (draft : PostDraft) (image : ByteArray)
  | load (post : Int)
  | list (archived : Bool) (page : Page)
  | upload (owner : Int) (image : ByteArray)
  | archive (cutoff : Instant)
  | save (draft : CommentDraft) (image : ByteArray)
  | comments (post : Int)
  | thread (post : Int)
  | sweep

namespace Errand

abbrev Result : Errand → Type
  | issue => Issued
  | find _ => Session
  | rename _ _ => Unit
  | create _ _ => Int
  | load _ => Post
  | list _ _ => List Post
  | upload _ _ => String
  | archive _ => Nat
  | save _ _ => Int
  | comments _ => List Comment
  | thread _ => List Node
  | sweep => Unit

def body (rules : Rules) : (e : Errand) → Operation e.Result
  | issue => Sessions.issue rules.session
  | find token => Sessions.find token
  | rename token name => Sessions.rename rules.session token name
  | create draft image => Posts.create rules.postGrace draft image
  | load post => Posts.find post
  | list archived page => Posts.list archived page
  | upload owner image => Posts.uploadImage owner image
  | archive cutoff => Posts.archiveExpired cutoff
  | save draft image => Comments.save rules.commentGrace draft image
  | comments post => Comments.list post
  | thread post => Comments.thread post
  | sweep => Posts.sweep

end Errand

-- Any number of operations around one backend. Between two questions the clock may be set and the
-- mishaps may change, as in the venue of submissions and sweeps alone.
abbrev hall (rules : Rules) : Venue ports Backend :=
  ⟨Errand, Errand.Result, Errand.body rules, Backend.answerNow, Shift, Board.shift⟩

def opened (rules : Rules) (b : Backend) : (hall rules).Crowd := { shared := b }

def Question.Ordinary : Question → Prop
  | .savePost _ | .transact _ => False
  | .updateSession _ edit => ∃ now name, edit = Sessions.renameEdit now name
  | _ => True

def Question.Plain : Question → Prop
  | .storeSession _ | .updateSession _ _ | .savePost _ | .transact _ => False
  | _ => True

def Question.Housekeeping : Question → Prop
  | .now | .archiveExpired _ => True
  | _ => False

theorem Question.Housekeeping.plain (q : Question) (housekeeping : q.Housekeeping) : q.Plain := by
  cases q with
  | now => exact trivial
  | archiveExpired cutoff => exact trivial
  | _ => exact housekeeping.elim

theorem Question.Plain.ordinary (q : Question) (plain : q.Plain) : q.Ordinary := by
  cases q with
  | updateSession hash edit => exact plain.elim
  | savePost new => exact plain
  | transact work => exact plain
  | _ => exact trivial

theorem Question.Plain.aside (q : Question) (plain : q.Plain) : q.Aside := by
  cases q with
  | storeSession new => exact plain
  | updateSession hash edit => exact plain
  | transact work => exact plain.elim
  | _ => exact trivial

namespace Posts

def posted : Outcome Int → Operation Int
  | .done id => .done id
  | .failed e => .fail (e.during "save post")
  | .crashed => .crash

def post (draft : PostDraft) (imagePath : Option String) (now expiresAt : Instant) : NewPost :=
  ⟨draft.author, Text.trim draft.title, Text.trim draft.content, imagePath, now, expiresAt⟩

def stamped (draft : PostDraft) (imagePath : Option String) (now : Instant) : Option Instant → Operation Int
  | some expiresAt => .ask (.savePost (post draft imagePath now expiresAt)) posted
  | none => .crash

def timed (grace : Span) (draft : PostDraft) (imagePath : Option String) : Outcome Instant → Operation Int
  | .done now => stamped draft imagePath now (now.add? grace)
  | .failed e => .fail e
  | .crashed => .crash

def placed (grace : Span) (draft : PostDraft) : Outcome String → Operation Int
  | .done url => .ask .now (timed grace draft (some url))
  | .failed e => .fail (e.during "upload post image")
  | .crashed => .crash

inductive Creating (grace : Span) (draft : PostDraft) (i : Nat) : List Entry → Operation Int → Prop
  | upload (image : ByteArray) : Creating grace draft i [] (.ask (.upload draft.author.sessionId image) (placed grace draft))
  | clock (imagePath : Option String) : Creating grace draft i mine (.ask .now (timed grace draft imagePath))
  | save (sum : s.clock.add? grace = some expiresAt) :
      Creating grace draft i (mine ++ [⟨i, .now, s⟩]) (.ask (.savePost (post draft imagePath s.clock expiresAt)) posted)
  | complete (outcome : Outcome Int) (ended : rest = ofOutcome outcome) : Creating grace draft i mine rest

def submitted (grace : Span) (draft : PostDraft) (image : ByteArray) : Operation Int :=
  if (Text.trim draft.title).isEmpty || (Text.trim draft.content).isEmpty then .fail (.invalidInput "title and content are required")
  else if image.isEmpty then .ask .now (timed grace draft none)
  else .ask (.upload draft.author.sessionId image) (placed grace draft)

theorem create_eq (grace : Span) (draft : PostDraft) (image : ByteArray) :
    create grace draft image = submitted grace draft image := by
  have timing : ∀ imagePath, (do
      let now : Instant ← ask .now
      let expiresAt ← .orCrash (now.add? grace)
      (ask (.savePost ⟨draft.author, Text.trim draft.title, Text.trim draft.content, imagePath, now, expiresAt⟩)).during
        "save post" : Operation Int) = .ask .now (timed grace draft imagePath) := by
    intro imagePath
    change Procedure.ask _ _ = _
    congr 1
    funext reply
    cases reply with
    | done now =>
      change Procedure.bind (Procedure.orCrash (Instant.add? now grace)) _ = stamped draft imagePath now (Instant.add? now grace)
      cases Instant.add? now grace with
      | none => rfl
      | some expiresAt =>
        change Procedure.ask _ _ = Procedure.ask _ _
        congr 1
        funext reply
        cases reply <;> rfl
    | failed e => rfl
    | crashed => rfl
  unfold create submitted
  dsimp only
  split
  · rfl
  · unfold uploadUnlessEmpty
    split
    · exact timing none
    · change Procedure.ask _ _ = _
      congr 1
      funext reply
      cases reply with
      | done url => exact timing (some url)
      | failed e => rfl
      | crashed => rfl

theorem creating_submitted (grace : Span) (draft : PostDraft) (image : ByteArray) (i : Nat) :
    Creating grace draft i [] (submitted grace draft image) := by
  unfold submitted
  split
  · exact .complete (.failed _) rfl
  · split
    · exact .clock none
    · exact .upload image

theorem creating_asked (s : Backend) {q : Question} {mine : List Entry} {next : Outcome q.Value → Operation Int}
    (stage : Creating grace draft i mine (.ask q next)) :
    Creating grace draft i (mine ++ [⟨i, q, s⟩]) (next (s.answerNow q).1) := by
  cases stage with
  | upload image =>
    cases (s.answerNow (.upload draft.author.sessionId image)).1 with
    | done url => exact .clock (some url)
    | failed e => exact .complete (.failed _) rfl
    | crashed => exact .complete .crashed rfl
  | clock imagePath =>
    change Creating grace draft i _ (stamped draft imagePath s.clock (s.clock.add? grace))
    cases sum : s.clock.add? grace with
    | none => exact .complete .crashed rfl
    | some expiresAt => exact .save sum
  | save sum =>
    cases (s.answerNow (.savePost _)).1 with
    | done id => exact .complete (.done id) rfl
    | failed e => exact .complete (.failed _) rfl
    | crashed => exact .complete .crashed rfl
  | complete _ ended => exact absurd ended.symm (Procedure.ofOutcome_ne_ask _)

end Posts

def Stage (rules : Rules) (i : Nat) : (e : Errand) → List Entry → Operation e.Result → Prop
  | .save draft image => Saving rules.commentGrace draft image i
  | .create draft _ => Posts.Creating rules.postGrace draft i
  | _ => fun _ rest => rest.Asks Question.Ordinary

theorem asks_issue (rules : SessionRules) : (Sessions.issue rules).Asks Question.Ordinary := by
  unfold Sessions.issue Sessions.provideIdentity
  split
  · exact .fail _
  · refine Asks.bind (Asks.bind (Asks.attempt (Procedure.asks_call trivial)) ?_) ?_
    · intro provided
      cases provided with
      | ok identity => exact .done _
      | error e => exact .fail _
    · intro identity
      refine Asks.bind (Procedure.asks_call trivial) fun entropy => ?_
      refine Asks.bind (Procedure.asks_call trivial) fun now => ?_
      refine Asks.bind (Procedure.asks_orCrash _) fun expiresAt => ?_
      exact Asks.bind (Asks.during _ (Procedure.asks_call trivial)) fun _ => .done _

theorem asks_find (token : Token) : (Sessions.find token).Asks Question.Plain := by
  unfold Sessions.find
  split
  · exact .fail _
  · refine Asks.bind (Asks.during _ (Procedure.asks_call trivial)) ?_
    intro found
    cases found with
    | none => exact .fail _
    | some session =>
      refine Asks.bind (Procedure.asks_call trivial) fun now => ?_
      split
      · exact .done _
      · exact .fail _

theorem asks_rename (rules : SessionRules) (token : Token) (name : String) :
    (Sessions.rename rules token name).Asks Question.Ordinary := by
  unfold Sessions.rename
  split
  · exact .fail _
  · refine Asks.bind (Procedure.asks_call trivial) fun now => ?_
    exact Asks.during _ (Procedure.asks_call ⟨now, name, rfl⟩)

theorem asks_load (post : Int) : (Posts.find post).Asks Question.Plain := by
  refine Asks.bind (Asks.during _ (Procedure.asks_call trivial)) ?_
  intro found
  cases found with
  | none => exact .fail _
  | some post => exact .done _

theorem asks_upload (owner : Int) (image : ByteArray) : (Posts.uploadImage owner image).Asks Question.Plain := by
  unfold Posts.uploadImage
  split
  · exact .fail _
  · exact Asks.during _ (Procedure.asks_call trivial)

theorem asks_thread (post : Int) : (Comments.thread post).Asks Question.Plain :=
  Asks.bind (Asks.during _ (Procedure.asks_call trivial)) fun _ => .done _

theorem housekeeping_sweep : Posts.sweep.Asks Question.Housekeeping := by
  refine Asks.bind (Procedure.asks_call trivial) fun now => ?_
  exact Asks.bind (Asks.attempt (Asks.during _ (Procedure.asks_call trivial))) fun _ => .done _

theorem asks_sweep : Posts.sweep.Asks Question.Plain := housekeeping_sweep.mono Question.Housekeeping.plain

theorem stages (rules : Rules) : Venue.Stages (V := hall rules) (Stage rules) where
  opened := by
    intro i e
    cases e with
    | issue => exact asks_issue rules.session
    | find token => exact (asks_find token).mono Question.Plain.ordinary
    | rename token name => exact asks_rename rules.session token name
    | create draft image =>
      dsimp only [Stage, Errand.body]
      rw [Posts.create_eq]
      exact Posts.creating_submitted _ draft image i
    | load post => exact (asks_load post).mono Question.Plain.ordinary
    | list archived page => exact Asks.during _ (Procedure.asks_call trivial)
    | upload owner image => exact (asks_upload owner image).mono Question.Plain.ordinary
    | archive cutoff => exact Asks.during _ (Procedure.asks_call trivial)
    | save draft image => exact (Board.stages rules.commentGrace).opened i (.save draft image)
    | comments post => exact Asks.during _ (Procedure.asks_call trivial)
    | thread post => exact (asks_thread post).mono Question.Plain.ordinary
    | sweep => exact asks_sweep.mono Question.Plain.ordinary
  asked := by
    intro i e mine q next s stage
    cases e with
    | save draft image => exact Board.saving_asked s (Saving.waits stage)
    | create draft image => exact Posts.creating_asked s stage
    | _ => exact stage.rest _

theorem staged_opened (rules : Rules) (b : Backend) : Venue.Staged (V := hall rules) (Stage rules) (opened rules b) where
  known := by simp [opened]
  stands := by simp [opened]

theorem Stage.lawful {rules : Rules} {e : Errand} {q : Question} {next : Outcome q.Value → Operation e.Result}
    (stage : Stage rules i e mine (.ask q next)) : q.Lawful := by
  have ordinary : q.Ordinary → q.Lawful := by
    intro ordinary
    cases q with
    | updateSession hash edit => exact ordinary
    | transact work => exact ordinary.elim
    | _ => exact trivial
  cases e with
  | save draft image =>
    cases (Saving.waits stage).asks with
    | transact new expiry => exact ⟨new, expiry, rfl⟩
    | _ => exact trivial
  | create draft image =>
    cases stage with
    | complete _ ended => exact absurd ended.symm (Procedure.ofOutcome_ne_ask _)
    | _ => exact trivial
  | _ => exact ordinary stage.allowed

end Forum.Service
