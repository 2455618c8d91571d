import Forum.Proofs.Integrity
import Forum.Proofs.Ticking

namespace Forum
open Service (Operation Question)

-- A call of a collaborator. A question to a port is one call, except that a transaction is opened,
-- written in and committed by calls of their own.
inductive Contact
  | port (question : Question)
  | begin
  | insert (comment : NewComment)
  | setExpiry (post : Int) (expiry : Instant)
  | commit

def Contact.Value : Contact → Type
  | port q => q.Value
  | insert _ => Int
  | begin | setExpiry _ _ | commit => Unit

structure Told where
  contact : Contact
  reply : Outcome contact.Value

namespace Told

def Succeeded (told : Told) : Prop := ∃ a, told.reply = .done a

def url? : Told → Option String
  | ⟨.port (.upload _ _), .done url⟩ => some url
  | _ => none

end Told

def address (told : List Told) : Option String := told.findSome? Told.url?

namespace Transaction

def noting (told : Told) (rest : β × List Told) : β × List Told := (rest.1, told :: rest.2)

-- Performs work and takes down its statements. One that panics is the last.
def observe (mishaps : Mishaps) (t : Transaction) : Work α → (Ending α × Transaction) × List Told
  | .done a => ((.done a, t), [])
  | .fail e => ((.failed e, t), [])
  | .panic text => ((.gaveUp text, t), [])
  | .insert comment next =>
    match mishaps.insert with
    | some (.error e) => noting ⟨.insert comment, .failed e⟩ (observe mishaps t (next (.error e)))
    | some (.panic text) => ((.gaveUp (some text), t), [⟨.insert comment, .crashed⟩])
    | none =>
      match t.connection.store.addComment comment with
      | .ok (id, after) => noting ⟨.insert comment, .done id⟩ (observe mishaps (t.write after) (next (.ok id)))
      | .error fault =>
        noting ⟨.insert comment, .failed (.database fault)⟩ (observe mishaps t (next (.error (.database fault))))
  | .setExpiry post expiry next =>
    match mishaps.expiry with
    | some (.error e) => noting ⟨.setExpiry post expiry, .failed e⟩ (observe mishaps t (next (.error e)))
    | some (.panic text) => ((.gaveUp (some text), t), [⟨.setExpiry post expiry, .crashed⟩])
    | none =>
      match t.connection.store.setPostExpiry post expiry with
      | some after => noting ⟨.setExpiry post expiry, .done ()⟩ (observe mishaps (t.write after) (next (.ok ())))
      | none => noting ⟨.setExpiry post expiry, .failed (.notFound "post")⟩ (observe mishaps t (next (.error (.notFound "post"))))

theorem observe_eq (mishaps : Mishaps) (work : Work α) (t : Transaction) :
    (observe mishaps t work).1 = perform mishaps t work := by
  induction work generalizing t with
  | done a => rfl
  | fail e => rfl
  | panic text => rfl
  | insert comment next ih =>
    cases mishap : mishaps.insert with
    | some fault => cases fault <;> simp [observe, perform, noting, mishap, ih]
    | none => cases added : t.connection.store.addComment comment <;> simp [observe, perform, noting, mishap, added, ih]
  | setExpiry post expiry next ih =>
    cases mishap : mishaps.expiry with
    | some fault => cases fault <;> simp [observe, perform, noting, mishap, ih]
    | none => cases moved : t.connection.store.setPostExpiry post expiry <;> simp [observe, perform, noting, mishap, moved, ih]

def replied (value : α) : Option Mishap → Outcome α
  | some (.error e) => .failed e
  | some (.panic _) => .crashed
  | none => .done value

def contacts (mishaps : Mishaps) (work : Work α) (c : Connection) : List Told :=
  match mishaps.begins, c.begin with
  | some mishap, _ => [⟨.begin, replied () (some mishap)⟩]
  | none, .error fault => [⟨.begin, .failed (.database fault)⟩]
  | none, .ok opened =>
    let (performed, statements) := observe mishaps opened work
    ⟨.begin, .done ()⟩ :: (statements ++
      match performed.1 with
      | .done _ => [⟨.commit, replied () mishaps.commit⟩]
      | _ => [])

end Transaction

namespace Backend

-- The calls that a question comes to. Reading the clock is none.
def contacts (b : Backend) : Question → List Told
  | .now => []
  | .transact work => Transaction.contacts b.mishap.transaction work b.sweptFirst.toConnection
  | q => [⟨.port q, (b.answer q).1⟩]

def transcript (b : Backend) : Operation α → List Told
  | .ask q next => b.contacts q ++ transcript (b.answer q).2 (next (b.answer q).1)
  | _ => []

end Backend

-- How calls go along a plan: in its order, each only after the one before it has gone through. All of
-- the plan is gone through exactly if the operation returns a value, and it ends before that on a call
-- that fails, or because it halts.
structure Conducted (plan : List Contact) (told : List Told) (returns halts : Prop) : Prop where
  inOrder : told.map Told.contact <+: plan
  each : ∀ call ∈ told.dropLast, call.Succeeded
  returns_iff : returns ↔ told.map Told.contact = plan ∧ ∀ call ∈ told, call.Succeeded
  through : (∀ call ∈ told, call.Succeeded) → returns ∨ halts

namespace Conducted
variable {plan : List Contact} {told : List Told} {returns halts : Prop}

theorem whole (returned : returns) : Conducted [] [] returns halts := by
  refine ⟨List.prefix_rfl, by simp, by simpa using returned, fun _ => .inl returned⟩

theorem halted (stopped : halts) (without : ¬returns) (more : plan ≠ []) : Conducted plan [] returns halts := by
  refine ⟨List.nil_prefix, by simp, ?_, fun _ => .inr stopped⟩
  simp [without, Ne.symm more]

theorem failed {contact : Contact} {reply : Outcome contact.Value} (failing : ∀ a, reply ≠ .done a) (without : ¬returns) :
    Conducted (contact :: plan) [⟨contact, reply⟩] returns halts := by
  have unsuccessful : ¬Told.Succeeded ⟨contact, reply⟩ := by
    intro succeeded
    obtain ⟨a, same⟩ := succeeded
    exact failing a same
  refine ⟨by simp, by simp, ?_, ?_⟩
  · simp [without, unsuccessful]
  · simp [unsuccessful]

theorem next {contact : Contact} {a : contact.Value} (rest : Conducted plan told returns halts) :
    Conducted (contact :: plan) (⟨contact, .done a⟩ :: told) returns halts := by
  have succeeded : Told.Succeeded ⟨contact, .done a⟩ := ⟨a, rfl⟩
  refine ⟨?_, ?_, ?_, ?_⟩
  · simpa using rest.inOrder
  · cases told with
    | nil => simp
    | cons call told =>
      rw [List.dropLast_cons_cons, List.forall_mem_cons]
      exact ⟨succeeded, rest.each⟩
  · simp [rest.returns_iff, succeeded]
  · intro all
    exact rest.through (List.forall_mem_cons.mp all).2

theorem mono {returns' halts' : Prop} (rest : Conducted plan told returns halts) (same : returns' ↔ returns)
    (weaker : halts → halts') : Conducted plan told returns' halts' :=
  ⟨rest.inOrder, rest.each, same.trans rest.returns_iff, fun all => (rest.through all).imp same.mpr weaker⟩

end Conducted

structure Obeys (plan : List Contact) (halts : Prop) (rows : Store → List ρ) (row : Int → ρ) (b : Backend)
    (told : List Told) (ran : Outcome Int × Backend) : Prop where
  conducted : Conducted plan told (∃ id, ran.1 = .done id) halts
  added : ∀ id, ran.1 = .done id → rows ran.2.store = rows b.store ++ [row id]
  kept : (∀ id, ran.1 ≠ .done id) → rows ran.2.store = rows b.store

namespace Obeys
variable {plan : List Contact} {halts halts' : Prop} {rows : Store → List ρ} {row : Int → ρ} {b : Backend}
  {told : List Told} {ran : Outcome Int × Backend}

theorem halted (stopped : halts) (without : ∀ id, ran.1 ≠ .done id) (same : ran.2 = b) (more : plan ≠ []) :
    Obeys plan halts rows row b [] ran where
  conducted := .halted stopped (fun ⟨id, returned⟩ => without id returned) more
  added := fun id returned => absurd returned (without id)
  kept := fun _ => by rw [same]

theorem failed {contact : Contact} {reply : Outcome contact.Value} {rest : List Told} (failing : ∀ a, reply ≠ .done a)
    (silent : rest = []) (without : ∀ id, ran.1 ≠ .done id) (same : ran.2 = b) :
    Obeys (contact :: plan) halts rows row b (⟨contact, reply⟩ :: rest) ran where
  conducted := by
    subst silent
    exact .failed failing fun ⟨id, returned⟩ => without id returned
  added := fun id returned => absurd returned (without id)
  kept := fun _ => by rw [same]

theorem next {contact : Contact} {a : contact.Value} (rest : Obeys plan halts rows row b told ran) :
    Obeys (contact :: plan) halts rows row b (⟨contact, .done a⟩ :: told) ran :=
  ⟨rest.conducted.next, rest.added, rest.kept⟩

theorem mono (rest : Obeys plan halts rows row b told ran) (weaker : halts → halts') :
    Obeys plan halts' rows row b told ran :=
  ⟨rest.conducted.mono Iff.rfl weaker, rest.added, rest.kept⟩

end Obeys

def writing (comment : NewComment) (expiry : Instant) : List Contact :=
  [.begin, .insert comment, .setExpiry comment.postId expiry, .commit]

namespace Transaction
open Service.Comments (saving)

theorem conducted_saving (mishaps : Mishaps) (comment : NewComment) (expiry : Instant) (c : Connection) :
    Conducted (writing comment expiry) (contacts mishaps (saving comment expiry) c)
      (∃ id, (within mishaps (saving comment expiry) c).1 = .done id) False := by
  unfold contacts within writing
  cases begins : mishaps.begins with
  | some fault => cases fault <;> exact .failed (by simp [replied]) (by simp)
  | none =>
    cases begun : c.begin with
    | error fault => exact .failed (by simp) (by simp)
    | ok opened =>
      dsimp only
      refine .next ?_
      rw [← observe_eq]
      unfold saving
      cases insert : mishaps.insert with
      | some fault =>
        cases fault with
        | error e =>
          simp only [observe, noting, insert, List.singleton_append]
          exact .failed (by simp) (by simp)
        | panic text =>
          simp only [observe, insert, List.append_nil]
          exact .failed (by simp) (by simp)
      | none =>
        cases added : opened.connection.store.addComment comment with
        | error fault =>
          simp only [observe, noting, insert, added, List.singleton_append]
          exact .failed (by simp) (by simp)
        | ok both =>
          obtain ⟨id, after⟩ := both
          simp only [observe, noting, insert, added, List.cons_append]
          refine .next ?_
          cases moves : mishaps.expiry with
          | some fault =>
            cases fault with
            | error e => exact .failed (by simp) (by simp)
            | panic text => exact .failed (by simp) (by simp)
          | none =>
            cases moved : (opened.write after).connection.store.setPostExpiry comment.postId expiry with
            | none => exact .failed (by simp) (by simp)
            | some last =>
              refine .next ?_
              cases commits : mishaps.commit with
              | some fault => cases fault <;> exact .failed (by simp [replied]) (by simp)
              | none => exact .next (.whole ⟨id, rfl⟩)

end Transaction

def Store.unarchived (s : Store) : List PostRow := s.posts.rows.map fun row => { row with archived := 0 }

theorem Store.unarchived_archiveExpired (s : Store) (cutoff : Instant) : (s.archiveExpired cutoff).2.unarchived = s.unarchived := by
  simp only [Store.unarchived, Store.archiveExpired, List.map_map]
  apply List.map_congr_left
  intro row _
  simp only [Function.comp_apply]
  split <;> rfl

theorem Store.unarchived_addPost (s : Store) (new : NewPost) :
    (s.addPost new).2.unarchived = s.unarchived ++ [new.row (s.addPost new).1] := by
  simp [Store.unarchived, Store.addPost, Table.insert, NewPost.row]

namespace Backend
open Service.Comments (saving)

theorem answer_transact_outcome (b : Backend) (work : Work Int) :
    (b.answer (.transact work)).1 = (Transaction.within b.mishap.transaction work b.sweptFirst.toConnection).1 := by
  have same : ∀ calls, (Backend.sweptFirst { b with calls }).mishap = b.mishap ∧
      (Backend.sweptFirst { b with calls }).toConnection = b.sweptFirst.toConnection := by
    intro calls
    unfold sweptFirst
    dsimp only
    split <;> exact ⟨rfl, rfl⟩
  rw [answer_prompt rfl]
  change (meeting (b.mishap .begins) ((Backend.sweptFirst { b with calls := _ }).withinTransaction work) _).1 = _
  cases begins : b.mishap .begins with
  | some fault =>
    have met : b.mishap.transaction.begins = some fault := begins
    cases fault <;> simp [meeting, Transaction.within, met]
  | none =>
    simp only [meeting, withinTransaction, (same _).1, (same _).2]

theorem Effect.swept {b : Backend} {q : Question} {reply : Outcome q.Value} {after : Store} (plain : q.Plain)
    (effect : b.Effect q reply after) : after = b.store ∨ ∃ cutoff, after = (b.store.archiveExpired cutoff).2 := by
  cases effect with
  | issued => exact plain.elim
  | edited => exact plain.elim
  | posted => exact plain.elim
  | undone => exact plain.elim
  | commented => exact plain.elim
  | archived => exact .inr ⟨_, rfl⟩
  | _ => exact .inl rfl

theorem Effect.posts {b : Backend} {reply : Outcome Int} {after : Store} (effect : b.Effect (.savePost new) reply after) :
    ((∀ id, reply ≠ .done id) ∧ after = b.store) ∨
      (reply = .done (b.store.addPost new).1 ∧ after = (b.store.addPost new).2) := by
  cases effect with
  | read calm => cases calm
  | refused without => exact .inl ⟨without, rfl⟩
  | posted => exact .inr ⟨rfl, rfl⟩

theorem answer_unswept {f : Store → β} (unswept : ∀ (s : Store) cutoff, f (s.archiveExpired cutoff).2 = f s)
    (b : Backend) (plain : q.Plain) : f (b.answer q).2.store = f b.store := by
  have kept : ∀ (c : Backend) (q : Question), q.Plain → f (c.answerNow q).2.store = f c.store := by
    intro c q plain
    rcases (answerNow_effect c (plain.aside q).lawful).swept plain with same | ⟨cutoff, same⟩
    · rw [same]
    · rw [same, unswept]
  refine pass_keeps (K := fun c => f c.store = f b.store) ?_ ?_ _ (kept b q plain)
  · exact fun c q plain same => (kept c q plain).trans same
  · exact fun _ _ _ same => same

theorem asking (b : Backend) {p : Operation α} {q : Question} {next : Outcome q.Value → Operation α} (asks : p = .ask q next) :
    b.run p = (b.answer q).2.run (next (b.answer q).1) ∧
      b.transcript p = b.contacts q ++ (b.answer q).2.transcript (next (b.answer q).1) := by
  subst asks
  exact ⟨rfl, rfl⟩

structure Resumes (on : α → Operation β) (handler : Outcome α → Operation β) : Prop where
  done : ∀ a, handler (.done a) = on a
  failed : ∀ e, ∃ e', handler (.failed e) = .fail e'
  crashed : handler .crashed = .crash

namespace Resumes
variable {on : α → Operation β} {handler : Outcome α → Operation β} {reply : Outcome α}

theorem stops (resumes : Resumes on handler) (b : Backend) (without : ∀ a, reply ≠ .done a) :
    b.transcript (handler reply) = [] ∧ (b.run (handler reply)).2 = b ∧ ∀ a, (b.run (handler reply)).1 ≠ .done a := by
  cases reply with
  | done a => exact absurd rfl (without a)
  | failed e =>
    obtain ⟨e', same⟩ := resumes.failed e
    rw [same]
    exact ⟨rfl, rfl, by simp [run, Procedure.run]⟩
  | crashed =>
    rw [resumes.crashed]
    exact ⟨rfl, rfl, by simp [run, Procedure.run]⟩

theorem ends {handler : Outcome α → Operation α} (resumes : Resumes .done handler) (b : Backend) (reply : Outcome α) :
    b.transcript (handler reply) = [] ∧ (b.run (handler reply)).2 = b ∧
      ∀ a, (b.run (handler reply)).1 = .done a ↔ reply = .done a := by
  by_cases returned : ∃ a, reply = .done a
  · obtain ⟨a, rfl⟩ := returned
    rw [resumes.done]
    exact ⟨rfl, rfl, fun _ => Iff.rfl⟩
  · have without : ∀ a, reply ≠ .done a := fun a same => returned ⟨a, same⟩
    obtain ⟨silent, kept, failed⟩ := resumes.stops b without
    exact ⟨silent, kept, fun a => ⟨fun same => absurd same (failed a), fun same => absurd same (without a)⟩⟩

end Resumes

end Backend

namespace Service

def uploads (owner : Int) (image : ByteArray) : List Contact :=
  if image.isEmpty then [] else [.port (.upload owner image)]

open Backend (Resumes)

-- What comes after the upload of an image, if there is one: calls in the order of a plan that may name
-- the address of the image, and rows that may hold it.
structure Placing (ρ : Type) where
  rest : Option String → Operation Int
  plan : Option String → Instant → List Contact
  halts : Instant → Prop
  rows : Store → List ρ
  row : Option String → Instant → Int → ρ

structure Placing.Sound (placing : Placing ρ) : Prop where
  obeys : ∀ (b : Backend) (url : Option String),
    Obeys (placing.plan url b.clock) (placing.halts b.clock) placing.rows (placing.row url b.clock) b
      (b.transcript (placing.rest url)) (b.run (placing.rest url))
  unswept : ∀ (s : Store) (cutoff : Instant), placing.rows (s.archiveExpired cutoff).2 = placing.rows s
  apart : ∀ url now owner image, .port (.upload owner image) ∉ placing.plan url now

theorem address_apart {plan : List Contact} {told : List Told} (apart : ∀ owner image, .port (.upload owner image) ∉ plan)
    (inOrder : told.map Told.contact <+: plan) : address told = none := by
  unfold address
  rw [List.findSome?_eq_none_iff]
  intro call member
  have among := inOrder.subset (List.mem_map_of_mem member)
  unfold Told.url?
  split
  · exact absurd among (apart _ _)
  · rfl

namespace Placing.Sound
variable {placing : Placing ρ} {handler : Outcome String → Operation Int}

theorem uploaded (sound : placing.Sound) (resumes : Resumes (fun url => placing.rest (some url)) handler) (b : Backend)
    (owner : Int) (image : ByteArray) (reply : Outcome String) :
    let told : List Told := ⟨.port (.upload owner image), reply⟩ :: b.transcript (handler reply)
    Obeys (.port (.upload owner image) :: placing.plan (address told) b.clock) (placing.halts b.clock) placing.rows
      (placing.row (address told) b.clock) b told (b.run (handler reply)) := by
  intro told
  by_cases returned : ∃ url, reply = .done url
  · obtain ⟨url, rfl⟩ := returned
    have here : address told = some url := rfl
    rw [here]
    simp only [told, resumes.done]
    exact (sound.obeys b (some url)).next
  · have without : ∀ url, reply ≠ .done url := fun url same => returned ⟨url, same⟩
    obtain ⟨silent, kept, failed⟩ := resumes.stops b without
    exact .failed without silent failed kept

theorem attached (sound : placing.Sound) (resumes : Resumes (fun url => placing.rest (some url)) handler) (b : Backend)
    (owner : Int) (image : ByteArray) :
    let p : Operation Int := if image.isEmpty then placing.rest none else .ask (.upload owner image) handler
    let url := address (b.transcript p)
    Obeys (uploads owner image ++ placing.plan url b.clock) (placing.halts b.clock) placing.rows (placing.row url b.clock) b
      (b.transcript p) (b.run p) := by
  intro p url
  by_cases bare : image.isEmpty = true
  · have obeys := sound.obeys b none
    have none : url = none := by
      simp only [url, p, if_pos bare]
      exact address_apart (sound.apart none b.clock) obeys.conducted.inOrder
    rw [none]
    simp only [p, uploads, if_pos bare]
    exact obeys
  · obtain ⟨ran, told⟩ := b.asking (p := p) (if_neg bare)
    have clock := (b.answer_frame (.upload owner image)).clock
    have same := Backend.answer_unswept sound.unswept b (q := .upload owner image) trivial
    change b.transcript p = [⟨.port (.upload owner image), (b.answer (.upload owner image)).1⟩] ++ _ at told
    simp only [url, uploads, if_neg bare]
    rw [ran, told]
    generalize (b.answer (.upload owner image)).1 = reply
    generalize (b.answer (.upload owner image)).2 = t at clock same
    have obeys := sound.uploaded resumes t owner image reply
    rw [clock] at obeys
    refine ⟨obeys.conducted, ?_, ?_⟩
    · rw [← same]
      exact obeys.added
    · rw [← same]
      exact obeys.kept

end Placing.Sound

namespace Comments

-- The calls that saving a comment makes if nothing fails. An expiry that is past the last instant is
-- never asked for.
def plan (grace : Span) (draft : CommentDraft) (image : ByteArray) (url : Option String) (now : Instant) : List Contact :=
  .port (.findPost draft.postId) :: uploads draft.author.sessionId image ++
    writing (comment draft draft.postId url now) ((now.add? grace).getD now)

-- What a submission is refused for once its post has been looked up, the first reason first.
inductive Refuses (draft : CommentDraft) (image : ByteArray) : Option Post → Error → Prop
  | absent : Refuses draft image none (.notFound "post")
  | archived {post : Post} (archived : post.isArchived = true) :
      Refuses draft image (some post) (.conflict "post is archived, new comments are prohibited")
  | blank {post : Post} (active : post.isArchived = false) (blank : Text.trim draft.content = "") (bare : image.isEmpty = true) :
      Refuses draft image (some post) (.invalidInput "comment is empty")

variable {draft : CommentDraft} {image : ByteArray}

theorem resumes_written : Resumes .done written := ⟨fun _ => rfl, fun _ => ⟨_, rfl⟩, rfl⟩

theorem obeys_transact (b : Backend) (new : NewComment) (expiry : Instant) :
    Obeys (writing new expiry) False (·.comments.rows) new.row b (b.transcript (.ask (.transact (saving new expiry)) written))
      (b.run (.ask (.transact (saving new expiry)) written)) := by
  obtain ⟨ran, told⟩ := b.asking (p := .ask (.transact (saving new expiry)) written) rfl
  have calls := Transaction.conducted_saving b.mishap.transaction new expiry b.sweptFirst.toConnection
  have effect := b.answerNow_effect (q := .transact (saving new expiry)) ⟨new, expiry, rfl⟩
  rw [← Backend.answer_transact_outcome] at calls
  rw [← Backend.answer_prompt (q := .transact (saving new expiry)) rfl] at effect
  obtain ⟨silent, kept, returned_iff⟩ := resumes_written.ends (b.answer (.transact (saving new expiry))).2
    (b.answer (.transact (saving new expiry))).1
  rw [← ran] at kept returned_iff
  refine ⟨?_, ?_, ?_⟩
  · rw [told, silent, List.append_nil]
    exact calls.mono (exists_congr returned_iff) id
  · intro id done
    rw [kept]
    rcases effect.transacts with ⟨without, _⟩ | ⟨replied, _, same⟩
    · exact absurd ((returned_iff id).mp done) (without id)
    · cases replied.symm.trans ((returned_iff id).mp done)
      rw [same, ← b.sweptFirst_comments]
      rfl
  · intro without
    rw [kept]
    rcases effect.transacts with ⟨_, same | same⟩ | ⟨replied, _, _⟩
    · rw [same]
    · rw [same, b.sweptFirst_comments]
    · exact absurd ((returned_iff _).mpr replied) (without _)

def placing (grace : Span) (draft : CommentDraft) : Placing CommentRow where
  rest := write grace draft draft.postId
  plan := fun url now => writing (comment draft draft.postId url now) ((now.add? grace).getD now)
  halts := fun now => now.add? grace = none
  rows := fun s => s.comments.rows
  row := fun url now => (comment draft draft.postId url now).row

theorem sound_placing (grace : Span) (draft : CommentDraft) : (placing grace draft).Sound where
  obeys := by
    intro b url
    obtain ⟨ran, told⟩ := b.asking (p := (placing grace draft).rest url) (write_eq grace draft draft.postId url)
    rw [ran, told, Backend.answer_now]
    dsimp only [dated, placing]
    cases sum : b.clock.add? grace with
    | none => exact .halted rfl nofun rfl (by simp [writing])
    | some expiry => exact (obeys_transact b (comment draft draft.postId url b.clock) expiry).mono False.elim
  unswept := fun _ _ => rfl
  apart := by simp [placing, writing]

theorem resumes_uploaded (grace : Span) (draft : CommentDraft) :
    Resumes (fun url => (placing grace draft).rest (some url)) (uploaded grace draft draft.postId) :=
  ⟨fun _ => rfl, fun _ => ⟨_, rfl⟩, rfl⟩

theorem refused_or_admitted (grace : Span) (draft : CommentDraft) (image : ByteArray) (found : Option Post) :
    (∃ e, Refuses draft image found e ∧ loaded grace draft image (.done found) = .fail e) ∨
    ∃ post, found = some post ∧ (∀ e, ¬Refuses draft image found e) ∧ loaded grace draft image (.done found) =
      if image.isEmpty then write grace draft post.id none
      else .ask (.upload draft.author.sessionId image) (uploaded grace draft post.id) := by
  cases found with
  | none => exact .inl ⟨_, .absent, rfl⟩
  | some post =>
    change (∃ e, _ ∧ admitted grace draft image post = _) ∨ ∃ post', _ ∧ _ ∧ admitted grace draft image post = _
    unfold admitted
    by_cases archived : post.isArchived = true
    · rw [if_pos archived]
      exact .inl ⟨_, .archived archived, rfl⟩
    · have active : post.isArchived = false := by simpa using archived
      rw [if_neg archived]
      by_cases empty : ((Text.trim draft.content).isEmpty && image.isEmpty) = true
      · rw [if_pos empty]
        simp only [Bool.and_eq_true, String.isEmpty_iff] at empty
        exact .inl ⟨_, .blank active empty.1 empty.2, rfl⟩
      · rw [if_neg empty]
        refine .inr ⟨post, rfl, fun e refuses => ?_, rfl⟩
        cases refuses with
        | archived found => exact archived found
        | blank _ blank bare => simp [blank, bare] at empty

theorem Refuses.unique {found : Option Post} {e e' : Error} (one : Refuses draft image found e) (two : Refuses draft image found e') :
    e = e' := by
  cases one <;> cases two <;> simp_all

theorem findPost_done_iff (b : Backend) (post : Int) (found : Option Post) :
    (b.answer (.findPost post)).1 = .done found ↔ b.mishap .findPost = none ∧ b.store.findPost post = .ok found := by
  rw [Backend.answer_prompt rfl]
  constructor
  · intro replied
    refine ⟨?_, findPost_done replied⟩
    rcases Backend.meeting_cases (b.mishap .findPost) (b.reading (b.store.findPost post)) b with ⟨calm, _⟩ | ⟨_, without⟩
    · exact calm
    · exact absurd replied (without found)
  · intro ⟨calm, stored⟩
    simp only [Backend.answerNow, Backend.meeting, calm, Backend.reading, stored]

theorem obeys_loaded (b : Backend) (grace : Span) (draft : CommentDraft) (image : ByteArray) {found : Option Post}
    (stored : b.store.findPost draft.postId = .ok found) :
    let rest := b.transcript (loaded grace draft image (.done found))
    Obeys (uploads draft.author.sessionId image ++ (placing grace draft).plan (address rest) b.clock)
      (b.clock.add? grace = none ∨ ∃ e, Refuses draft image found e) (·.comments.rows)
      ((placing grace draft).row (address rest) b.clock) b rest (b.run (loaded grace draft image (.done found))) := by
  intro rest
  rcases refused_or_admitted grace draft image found with ⟨e, refuses, same⟩ | ⟨post, rfl, admits, same⟩
  · simp only [rest, same]
    exact .halted (.inr ⟨e, refuses⟩) nofun rfl (by simp [placing, writing])
  · have known : post.id = draft.postId := by
      obtain ⟨row, first, read⟩ := findPost_some stored
      rw [(read_ok read).1]
      simpa using List.find?_some first
    rw [known] at same
    simp only [rest, same]
    exact ((sound_placing grace draft).attached (resumes_uploaded grace draft) b draft.author.sessionId image).mono .inl

theorem resumes_loaded (grace : Span) (draft : CommentDraft) (image : ByteArray) :
    Resumes (fun found => loaded grace draft image (.done found)) (loaded grace draft image) :=
  ⟨fun _ => rfl, fun _ => ⟨_, rfl⟩, rfl⟩

theorem saved (b : Backend) (grace : Span) (draft : CommentDraft) (image : ByteArray) :
    b.run (save grace draft image) = b.run (loaded grace draft image (b.answer (.findPost draft.postId)).1) ∧
      b.transcript (save grace draft image) = ⟨.port (.findPost draft.postId), (b.answer (.findPost draft.postId)).1⟩ ::
        b.transcript (loaded grace draft image (b.answer (.findPost draft.postId)).1) := by
  obtain ⟨ran, told⟩ := b.asking (save_eq grace draft image)
  rw [b.answer_findPost] at ran told
  exact ⟨ran, told⟩

theorem obeys_save (b : Backend) (grace : Span) (draft : CommentDraft) (image : ByteArray) :
    let told := b.transcript (save grace draft image)
    Obeys (plan grace draft image (address told) b.clock)
      (b.clock.add? grace = none ∨ ∃ found e, b.store.findPost draft.postId = .ok found ∧ Refuses draft image found e)
      (·.comments.rows) (comment draft draft.postId (address told) b.clock).row b told (b.run (save grace draft image)) := by
  obtain ⟨ran, told⟩ := saved b grace draft image
  have answered := findPost_done_iff b draft.postId
  rw [ran, told]
  generalize (b.answer (.findPost draft.postId)).1 = reply at answered
  by_cases returned : ∃ found, reply = .done found
  · obtain ⟨found, rfl⟩ := returned
    obtain ⟨calm, stored⟩ := (answered found).mp rfl
    have obeys := obeys_loaded b grace draft image stored
    exact (obeys.mono (Or.imp_right fun ⟨e, refuses⟩ => ⟨found, e, stored, refuses⟩)).next
  · have without : ∀ found, reply ≠ .done found := fun found same => returned ⟨found, same⟩
    obtain ⟨silent, kept, failed⟩ := (resumes_loaded grace draft image).stops b without
    exact .failed without silent failed kept

theorem refused_save {b : Backend} {grace : Span} {draft : CommentDraft} {image : ByteArray} {found : Option Post} {e : Error}
    (calm : b.mishap .findPost = none) (stored : b.store.findPost draft.postId = .ok found)
    (refuses : Refuses draft image found e) :
    b.run (save grace draft image) = (.failed e, b) ∧
      b.transcript (save grace draft image) = [⟨.port (.findPost draft.postId), .done found⟩] := by
  obtain ⟨ran, told⟩ := saved b grace draft image
  have answered := (findPost_done_iff b draft.postId found).mpr ⟨calm, stored⟩
  rw [ran, told]
  generalize (b.answer (.findPost draft.postId)).1 = reply at answered
  subst answered
  rcases refused_or_admitted grace draft image found with ⟨e', refuses', same⟩ | ⟨_, _, admits, _⟩
  · rw [refuses.unique refuses']
    exact ⟨congrArg b.run same, congrArg (_ :: b.transcript ·) same⟩
  · exact absurd refuses (admits e)

end Comments

namespace Posts

def plan (grace : Span) (draft : PostDraft) (image : ByteArray) (url : Option String) (now : Instant) : List Contact :=
  uploads draft.author.sessionId image ++ [.port (.savePost (post draft url now ((now.add? grace).getD now)))]

def IsBlank (draft : PostDraft) : Prop := Text.trim draft.title = "" ∨ Text.trim draft.content = ""

theorem resumes_posted : Resumes .done posted := ⟨fun _ => rfl, fun _ => ⟨_, rfl⟩, rfl⟩

theorem obeys_savePost (b : Backend) (new : NewPost) :
    Obeys [.port (.savePost new)] False Store.unarchived new.row b (b.transcript (.ask (.savePost new) posted))
      (b.run (.ask (.savePost new) posted)) := by
  obtain ⟨ran, told⟩ := b.asking (p := .ask (.savePost new) posted) rfl
  have effect := b.answerNow_effect (q := .savePost new) trivial
  rw [← Backend.answer_prompt (q := .savePost new) rfl] at effect
  change b.transcript (.ask (.savePost new) posted) = [⟨.port (.savePost new), (b.answer (.savePost new)).1⟩] ++ _ at told
  obtain ⟨silent, kept, returned_iff⟩ := resumes_posted.ends (b.answer (.savePost new)).2 (b.answer (.savePost new)).1
  rw [← ran] at kept returned_iff
  rw [told, silent]
  rcases effect.posts with ⟨without, same⟩ | ⟨replied, same⟩
  · refine ⟨.failed without ?_, ?_, ?_⟩
    · rintro ⟨id, returned⟩
      exact without id ((returned_iff id).mp returned)
    · intro id returned
      exact absurd ((returned_iff id).mp returned) (without id)
    · rw [kept, same]
      exact fun _ => rfl
  · rw [replied]
    refine ⟨.next (.whole ⟨_, (returned_iff _).mpr replied⟩), ?_, ?_⟩
    · intro id returned
      cases replied.symm.trans ((returned_iff id).mp returned)
      rw [kept, same]
      exact b.store.unarchived_addPost new
    · intro without
      exact absurd ((returned_iff _).mpr replied) (without _)

def placing (grace : Span) (draft : PostDraft) : Placing PostRow where
  rest := fun url => .ask .now (timed grace draft url)
  plan := fun url now => [.port (.savePost (post draft url now ((now.add? grace).getD now)))]
  halts := fun now => now.add? grace = none
  rows := Store.unarchived
  row := fun url now => (post draft url now ((now.add? grace).getD now)).row

theorem sound_placing (grace : Span) (draft : PostDraft) : (placing grace draft).Sound where
  obeys := by
    intro b url
    obtain ⟨ran, told⟩ := b.asking (p := (placing grace draft).rest url) rfl
    rw [ran, told, Backend.answer_now]
    dsimp only [timed, placing]
    cases sum : b.clock.add? grace with
    | none => exact .halted rfl nofun rfl (by simp)
    | some expiry => exact (obeys_savePost b (post draft url b.clock expiry)).mono False.elim
  unswept := Store.unarchived_archiveExpired
  apart := by simp [placing]

theorem resumes_placed (grace : Span) (draft : PostDraft) :
    Resumes (fun url => (placing grace draft).rest (some url)) (placed grace draft) :=
  ⟨fun _ => rfl, fun _ => ⟨_, rfl⟩, rfl⟩

theorem isBlank_iff (draft : PostDraft) :
    ((Text.trim draft.title).isEmpty || (Text.trim draft.content).isEmpty) = true ↔ IsBlank draft := by
  simp [IsBlank]

theorem obeys_create (b : Backend) (grace : Span) (draft : PostDraft) (image : ByteArray) :
    let told := b.transcript (create grace draft image)
    Obeys (plan grace draft image (address told) b.clock) (b.clock.add? grace = none ∨ IsBlank draft) Store.unarchived
      (post draft (address told) b.clock ((b.clock.add? grace).getD b.clock)).row b told (b.run (create grace draft image)) := by
  intro told
  simp only [told, create_eq]
  unfold submitted
  by_cases blank : IsBlank draft
  · rw [if_pos ((isBlank_iff draft).mpr blank)]
    exact .halted (.inr blank) nofun rfl (by simp [plan])
  · rw [if_neg (fun same => blank ((isBlank_iff draft).mp same))]
    exact ((sound_placing grace draft).attached (resumes_placed grace draft) b draft.author.sessionId image).mono .inl

theorem refused_create {b : Backend} {grace : Span} {draft : PostDraft} {image : ByteArray} (blank : IsBlank draft) :
    b.run (create grace draft image) = (.failed (.invalidInput "title and content are required"), b) ∧
      b.transcript (create grace draft image) = [] := by
  rw [create_eq]
  unfold submitted
  rw [if_pos ((isBlank_iff draft).mpr blank)]
  exact ⟨rfl, rfl⟩

end Posts

-- The collaborators are called in order, each only if it is needed and all before it have gone through.
-- A submission that is to be refused is refused before anything is uploaded or opened, and an address
-- that is stored is the one that the upload has returned.
theorem collaborators_in_order (b : Backend) (grace : Span) (image : ByteArray) :
    (∀ draft : CommentDraft,
      let told := b.transcript (Comments.save grace draft image)
      Obeys (Comments.plan grace draft image (address told) b.clock)
        (b.clock.add? grace = none ∨ ∃ found e, b.store.findPost draft.postId = .ok found ∧ Comments.Refuses draft image found e)
        (·.comments.rows) (Comments.comment draft draft.postId (address told) b.clock).row b told
        (b.run (Comments.save grace draft image)) ∧
      ∀ found e, b.mishap .findPost = none → b.store.findPost draft.postId = .ok found → Comments.Refuses draft image found e →
        b.run (Comments.save grace draft image) = (.failed e, b) ∧ told = [⟨.port (.findPost draft.postId), .done found⟩]) ∧
    (∀ draft : PostDraft,
      let told := b.transcript (Posts.create grace draft image)
      Obeys (Posts.plan grace draft image (address told) b.clock) (b.clock.add? grace = none ∨ Posts.IsBlank draft)
        Store.unarchived (Posts.post draft (address told) b.clock ((b.clock.add? grace).getD b.clock)).row b told
        (b.run (Posts.create grace draft image)) ∧
      (Posts.IsBlank draft →
        b.run (Posts.create grace draft image) = (.failed (.invalidInput "title and content are required"), b) ∧ told = [])) := by
  constructor
  · intro draft
    exact ⟨Comments.obeys_save b grace draft image, fun _ _ calm stored refuses => Comments.refused_save calm stored refuses⟩
  · intro draft
    exact ⟨Posts.obeys_create b grace draft image, Posts.refused_create⟩

theorem collaborators_in_order_no_post :
    Comments.onePost.mishap .findPost = none ∧ Comments.onePost.store.findPost 7 = .ok none ∧
      Comments.onePost.transcript (Comments.save (.ofMillis 2000) { Comments.answerToOnePost with postId := 7 } ⟨#[137]⟩) =
        [⟨.port (.findPost 7), .done none⟩] := by
  have refused := ((collaborators_in_order Comments.onePost (.ofMillis 2000) ⟨#[137]⟩).1
    { Comments.answerToOnePost with postId := 7 }).2 none _ rfl rfl .absent
  exact ⟨rfl, rfl, refused.2⟩

end Service
end Forum
