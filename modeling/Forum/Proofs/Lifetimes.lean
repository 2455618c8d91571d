import Forum.Http.Handlers
import Forum.Launch
import Forum.Proofs.Chronology

namespace Forum

theorem Span.ofSeconds_eq (count : Int) : Span.ofSeconds count = .ofMillis (1000 * count) := by
  simp only [Span.ofSeconds, Span.ofMillis, Span.mk.injEq]
  omega

namespace Settings

theorem load_ok {path : String} {s : Settings} (loaded : load path file env = .ok s) : s.check = none := by
  obtain ⟨_, _, _, passed⟩ := load_eq_ok_iff.mp loaded
  exact passed

theorem lifetime_bound {s : Settings} (passed : s.check = none) (field : String) {secs : Nat}
    (member : (field, secs) ∈ s.lifetimes) : secs ≤ maxSecs :=
  (check_eq_none_iff.mp passed).2.1 _ member

theorem lifetime_checked {s : Settings} (passed : s.check = none) (field : String) {secs : Nat}
    (member : (field, secs) ∈ s.lifetimes) : lifetime secs = .ofMillis (1000 * secs) := by
  rw [lifetime, Nat.min_eq_left (lifetime_bound passed field member), Span.ofSeconds_eq]

def rules (s : Settings) : Service.Rules := ⟨Http.sessionRules s, s.postGrace, s.commentGrace⟩

end Settings

theorem Grown.origin {R : ρ → ρ → Prop} {before after : List ρ} (grown : Grown R before after)
    (length : after.length = before.length) (member : later ∈ after) : ∃ row ∈ before, R row later := by
  obtain ⟨k, there⟩ := List.getElem?_of_mem member
  have bound := (List.getElem?_eq_some_iff.mp there).1
  have here := List.getElem?_eq_getElem (l := before) (i := k) (by omega)
  obtain ⟨other, there', turned⟩ := grown k _ here
  cases there.symm.trans there'
  exact ⟨_, List.mem_of_getElem? here, turned⟩

theorem Backend.Effect.adds {b : Backend} {q : Service.Question} {reply : Outcome q.Value} {after : Store} (lawful : q.Lawful)
    (effect : b.Effect q reply after) :
    after.posts.rows.length = b.store.posts.rows.length ∨ ∃ new, q = .savePost new ∧ after = (b.store.addPost new).2 := by
  cases effect with
  | issued added =>
    obtain ⟨_, _, _, rfl⟩ := Store.addSession_ok added
    exact .inl rfl
  | edited written =>
    obtain ⟨now, name, rfl⟩ := lawful
    obtain ⟨_, _, _, _, _, rfl⟩ := Store.updateSession_renameEdit written
    exact .inl rfl
  | posted => exact .inr ⟨_, rfl, rfl⟩
  | archived => exact .inl (List.length_map _)
  | undone => exact .inl (List.length_map _)
  | commented =>
    left
    rcases Backend.sweptFirst_cases b with same | ⟨cutoff, _, same⟩
    · rw [same]
      exact List.length_map _
    · rw [same]
      exact (List.length_map _).trans (List.length_map _)
  | _ => exact .inl rfl

theorem Launch.wire_ok {before s : Settings} (wired : wire before = .ok s) : s = before := by
  unfold wire at wired
  split at wired
  · cases wired
  · split at wired
    · cases wired
    · split at wired
      · cases wired
      · cases wired
        rfl

namespace Service
variable {rules : Rules} {c : (hall rules).Crowd} {i : Nat}

-- A post without a comment expires as its creation says, and posts are created in the past. The
-- same holds of the posts that earlier questions met.
structure Lives (c : (hall rules).Crowd) : Prop where
  fresh : ∀ row ∈ c.shared.store.posts.rows, (∀ i, ¬Accepted c row.id i) →
    ∃ created expires, Instant.add? created rules.postGrace = some expires ∧
      row.createdAt = created.millis ∧ row.expiresAt = expires.millis
  aged : ∀ row ∈ c.shared.store.posts.rows, row.createdAt ≤ c.shared.clock.millis
  past : ∀ e ∈ c.log, (∀ row ∈ e.before.store.posts.rows, row.createdAt ≤ e.before.clock.millis) ∧
    Grown PostRow.Becomes e.before.store.posts.rows c.shared.store.posts.rows

theorem creates {e : Errand} {next : Outcome Int → Operation e.Result}
    (stage : Stage rules i e mine (.ask (.savePost new) next)) :
    ∃ s, ⟨i, .now, s⟩ ∈ mine ∧ new.createdAt = s.clock ∧ s.clock.add? rules.postGrace = some new.expiresAt := by
  cases e with
  | save draft image => cases (Board.Saving.waits stage).asks
  | create draft image =>
    cases stage with
    | save sum => exact ⟨_, List.mem_append_right _ (List.mem_singleton_self _), rfl, sum⟩
    | complete _ ended => exact absurd ended.symm (Procedure.ofOutcome_ne_ask _)
  | _ => exact stage.allowed.elim

namespace Lives

theorem start (lives : Lives c) (e : Errand) : Lives (Venue.start c e) where
  fresh := fun row member unanswered => lives.fresh row member fun i accepted => unanswered i (accepted.play [.start e])
  aged := lives.aged
  past := lives.past

theorem elapse (lives : Lives c) (forward : c.shared.clock ≤ (Board.shift x c.shared).clock) : Lives (Venue.elapse c x) := by
  have store : (Venue.elapse c x).shared.store = c.shared.store := Board.shift_store x c.shared
  refine ⟨?_, ?_, ?_⟩
  · rw [store]
    exact lives.fresh
  · rw [store]
    exact fun row member => Int.le_trans (lives.aged row member) (Instant.millis_mono forward)
  · rw [store]
    exact lives.past

theorem rows_ask {e : Errand} {next : Outcome q.Value → Operation e.Result} (chronicled : Chronicled c)
    (waits : c.flights[i]? = some ⟨e, .ask q next⟩) (member : later ∈ (Venue.ask c i e q next).shared.store.posts.rows) :
    (∃ row ∈ c.shared.store.posts.rows, c.shared.Turns q (c.shared.answerNow q).1 row later) ∨
    ∃ created expires, Instant.add? created rules.postGrace = some expires ∧ later.createdAt = created.millis ∧
      later.expiresAt = expires.millis ∧ created ≤ c.shared.clock := by
  have stage := chronicled.staged.stands i _ waits
  have effect := Backend.answerNow_effect c.shared stage.lawful
  rcases effect.adds stage.lawful with same | ⟨new, rfl, written⟩
  · exact .inl ((effect.turns stage.lawful).origin same member)
  · obtain ⟨s, read, createdAt, sum⟩ := creates stage
    change later ∈ (c.shared.answerNow (.savePost new)).2.store.posts.rows at member
    rw [written] at member
    rcases List.mem_append.mp member with old | new
    · exact .inl ⟨later, old, .stays⟩
    · refine .inr ⟨s.clock, _, sum, ?_, ?_, chronicled.timely.past _ (Venue.mem_asked.mp read).1⟩
      · rw [List.mem_singleton.mp new, ← createdAt]
      · rw [List.mem_singleton.mp new]

theorem ask {e : Errand} {next : Outcome q.Value → Operation e.Result} (lives : Lives c) (chronicled : Chronicled c)
    (waits : c.flights[i]? = some ⟨e, .ask q next⟩) : Lives (Venue.ask c i e q next) := by
  have stage := chronicled.staged.stands i _ waits
  have grown := ((Backend.answerNow_effect c.shared stage.lawful).turns stage.lawful).mono fun _ _ => Backend.Turns.becomes
  have moved : Venue.play c [.step i] = Venue.ask c i e q next := Venue.move_step waits
  have clock : (Venue.ask c i e q next).shared.clock = c.shared.clock := (Backend.answerNow_frame c.shared q).clock
  refine ⟨?_, ?_, ?_⟩
  · intro later member unanswered
    rcases rows_ask chronicled waits member with ⟨row, before, turned⟩ | ⟨created, expires, sum, createdAt, expiresAt, _⟩
    · have kept := turned.becomes
      rw [kept.id] at unanswered
      obtain ⟨created, expires, sum, createdAt, expiresAt⟩ :=
        lives.fresh row before fun k accepted => unanswered k (moved ▸ accepted.play [.step i])
      have same : later.expiresAt = row.expiresAt := by
        by_contra differs
        obtain ⟨reading, expiry, lands⟩ := moves_expiry waits stage turned differs
        obtain ⟨draft, image, new, on, _, _, returned, _, _⟩ := lands.returns
        rw [Venue.move_step waits] at returned
        exact unanswered i ⟨draft, image, _, returned, on⟩
      refine ⟨created, expires, sum, ?_, same.trans expiresAt⟩
      rw [kept.rest]
      exact createdAt
    · exact ⟨created, expires, sum, createdAt, expiresAt⟩
  · intro later member
    rw [clock]
    rcases rows_ask chronicled waits member with ⟨row, before, turned⟩ | ⟨created, expires, _, createdAt, _, past⟩
    · rw [turned.becomes.rest]
      exact lives.aged row before
    · rw [createdAt]
      exact Instant.millis_mono past
  · intro f member
    rcases List.mem_append.mp member with old | new
    · obtain ⟨aged, before⟩ := lives.past f old
      exact ⟨aged, before.trans PostRow.Becomes.trans grown⟩
    · rw [List.mem_singleton.mp new]
      exact ⟨lives.aged, grown⟩

theorem play (lives : Lives c) (chronicled : Chronicled c) (orderly : Venue.Along Orderly c moves) :
    Lives (Venue.play c moves) := by
  suffices both : Chronicled (Venue.play c moves) ∧ Lives (Venue.play c moves) from both.2
  refine Venue.play_keeps_along (R := Orderly) (P := fun d => Chronicled d ∧ Lives d) ?_ orderly ⟨chronicled, lives⟩
  intro d m orderly both
  obtain ⟨chronicled, lives⟩ := both
  refine ⟨chronicled.move orderly, ?_⟩
  cases orderly with
  | start e => exact lives.start e
  | change forward => exact lives.elapse forward
  | step alone =>
    rename_i j
    rcases Venue.move_step_cases d j with ⟨e, q, next, waits, same⟩ | same
    · rw [same]
      exact lives.ask chronicled waits
    · rw [same]
      exact lives

theorem opened (rules : Rules) {b : Backend} (empty : b.store = .empty) : Lives (opened rules b) := by
  refine ⟨?_, ?_, by simp [Service.opened]⟩
  · simp [Service.opened, empty, Store.empty]
  · simp [Service.opened, empty, Store.empty]

end Lives

theorem Submitting.created {draft : CommentDraft} {image : ByteArray} {reading : Backend} {new : NewComment} {expiry : Instant}
    (submitting : Submitting c i draft image reading new expiry) (chronicled : Chronicled c) (lives : Lives c) :
    ∃ row, c.shared.store.post? draft.postId = some row ∧ row.createdAt ≤ reading.clock.millis := by
  obtain ⟨earlier, imagePath, ready, asked, _⟩ := submitting.asked
  obtain ⟨s, post, load, finds, _⟩ := ready.loads
  have logged : ⟨i, .findPost draft.postId, s⟩ ∈ c.log :=
    (Venue.mem_asked.mp (asked ▸ List.mem_append_left _ load)).1
  obtain ⟨aged, grown⟩ := lives.past _ logged
  obtain ⟨row', found', _⟩ := Comments.findPost_some (Comments.findPost_done finds)
  obtain ⟨later, there, became⟩ := grown.find? (fun _ _ became => by rw [became.id]) found'
  have before : s.clock ≤ reading.clock := by
    have ordered : (c.asked i).Pairwise fun e f => e.before.clock ≤ f.before.clock :=
      chronicled.timely.ordered.sublist List.filter_sublist
    rw [asked] at ordered
    exact (List.pairwise_append.mp ordered).2.2 _ load _ (List.mem_singleton_self _)
  refine ⟨later, there, ?_⟩
  rw [became.rest]
  exact Int.le_trans (aged row' (List.mem_of_find?_eq_some found')) (Instant.millis_mono before)

-- What an accepted comment does to the expiry of its post. Only the first one on a post can bring it
-- forward, and does so if it comes so early that its own lifetime ends before that of the post.
theorem comment_shortens_iff {path : String} {file : Settings.File} {env : Settings.Environment} {loaded s : Settings}
    (checked : Settings.load path file env = .ok loaded) (wired : Launch.wire loaded = .ok s) {b : Backend}
    (empty : b.store = .empty) {moves : List (hall s.rules).Move}
    (orderly : Venue.Along Orderly (opened s.rules b) (moves ++ [.step i])) {draft : CommentDraft} {image : ByteArray}
    {next : Outcome q.Value → Operation Int}
    (waits : (Venue.play (opened s.rules b) moves).flights[i]? = some ⟨.save draft image, .ask q next⟩) :
    let before := Venue.play (opened s.rules b) moves
    let after := Venue.move before (.step i)
    ∀ id, after.flights[i]? = some ⟨.save draft image, .done id⟩ →
      ∃ reading row later, ⟨i, .now, reading⟩ ∈ before.log ∧ before.shared.store.post? draft.postId = some row ∧
        after.shared.store.post? draft.postId = some later ∧
        later.expiresAt = reading.clock.millis + 1000 * s.commentGraceSecs ∧
        (later.expiresAt < row.expiresAt ↔ (∀ k, ¬Accepted before draft.postId k) ∧
          reading.clock.millis + 1000 * s.commentGraceSecs < row.createdAt + 1000 * s.postGraceSecs) ∧
        (s.postGraceSecs ≤ s.commentGraceSecs → row.expiresAt ≤ later.expiresAt) := by
  intro before after id returned
  obtain ⟨orderly, step, _⟩ := (Venue.along_append moves _).mp orderly
  have chronicled : Chronicled before := (Chronicled.opened s.rules b).play orderly
  have lives : Lives before := (Lives.opened s.rules empty).play (Chronicled.opened s.rules b) orderly
  obtain rfl := Launch.wire_ok wired
  have passed := Settings.load_ok checked
  have commentGrace : s.rules.commentGrace = .ofMillis (1000 * s.commentGraceSecs) :=
    Settings.lifetime_checked passed "comment_grace_secs" (by simp [Settings.lifetimes])
  have postGrace : s.rules.postGrace = .ofMillis (1000 * s.postGraceSecs) :=
    Settings.lifetime_checked passed "post_grace_secs" (by simp [Settings.lifetimes])
  have stage := chronicled.staged.stands i _ waits
  have same : after = Venue.ask before i (.save draft image) q next := Venue.move_step waits
  have accepted : Accepted after draft.postId i := ⟨draft, image, id, returned, rfl⟩
  rw [same] at accepted
  rcases accepted_ask waits stage accepted with ⟨_, _, _, ended, _⟩ | ⟨_, reading, expiry, lands⟩
  · cases waits.symm.trans ended
  obtain ⟨later, there, expires⟩ := lands.post
  cases lands with
  | commit submitting replied on =>
    cases submitting.waits.symm.trans waits
    obtain ⟨row, found, age⟩ := submitting.created chronicled lives
    have sum := submitting.sum
    have later_eq : later.expiresAt = reading.clock.millis + 1000 * s.commentGraceSecs := by
      rw [commentGrace] at sum
      rw [expires, Instant.add?_millis sum]
    refine ⟨reading, row, later, submitting.read_logged, found, there, later_eq, ?_⟩
    -- The last comment on the post read the clock no later, so what it says is no later either. Without one,
    -- the post still expires as its creation said.
    by_cases answered : ∃ k, Accepted before draft.postId k
    · obtain ⟨k, earlier⟩ := answered
      have kept : row.expiresAt ≤ later.expiresAt := by
        obtain ⟨j, reading', expiry', dates⟩ := chronicled.dated _ k earlier
        obtain ⟨row', found', expires'⟩ := dates.post
        cases found.symm.trans found'
        have submits : Submits before i := ⟨draft, image, _, waits⟩
        have order : j ≤ i := by
          cases step with
          | step alone => exact alone submits j dates.accepted.submits
        have clocks := chronicled.reads_in_order dates.accepted submits order dates.read submitting.read_logged
        rw [expires, expires']
        exact Instant.millis_mono (Instant.add?_mono dates.sum sum clocks)
      refine ⟨iff_of_false (Int.not_lt.mpr kept) ?_, fun _ => kept⟩
      intro both
      exact both.1 k earlier
    · have unanswered : ∀ k, ¬Accepted before draft.postId k := fun k earlier => answered ⟨k, earlier⟩
      have known : row.id = draft.postId := Store.post?_id found
      obtain ⟨created, expires', sum', createdAt, expiresAt⟩ :=
        lives.fresh row (List.mem_of_find?_eq_some found) (known ▸ unanswered)
      rw [postGrace] at sum'
      have row_eq : row.expiresAt = row.createdAt + 1000 * s.postGraceSecs := by
        rw [expiresAt, Instant.add?_millis sum', createdAt]
      rw [later_eq, row_eq]
      refine ⟨⟨fun shortens => ⟨unanswered, shortens⟩, fun both => both.2⟩, ?_⟩
      intro order
      omega

def firstComment (rules : Rules) : List (hall rules).Move :=
  [.start (.create ⟨⟨1, "ann", ""⟩, "title", "content"⟩ ⟨#[]⟩), .step 0, .step 0,
    .start (.save Comments.answerToOnePost ⟨#[]⟩), .step 1, .step 1]

def bare : Backend := { Comments.onePost with store := .empty }

theorem orderly_firstComment (rules : Rules) : Venue.Along Orderly (opened rules bare) (firstComment rules ++ [.step 1]) := by
  refine ⟨.start _, .last ?_, .last ?_, .start _, .last ?_, .last ?_, .last ?_, trivial⟩
  all_goals simp [Venue.length_step, Venue.length_start, opened]

def plain : Settings := {}

theorem comment_shortens_iff_plain :
    let before := Venue.play (opened plain.rules bare) (firstComment plain.rules)
    ∃ row later, before.shared.store.post? 1 = some row ∧
      (Venue.move before (.step 1)).shared.store.post? 1 = some later ∧ row.expiresAt ≤ later.expiresAt := by
  intro before
  have checked : Settings.load "forum.toml" .absent (fun _ => none) = .ok plain := rfl
  have wired : Launch.wire plain = .ok plain := rfl
  obtain ⟨q, next, waits⟩ : ∃ (q : Question) (next : Outcome q.Value → Operation Int),
      before.flights[1]? = some ⟨.save Comments.answerToOnePost ⟨#[]⟩, .ask q next⟩ := ⟨_, _, rfl⟩
  have returned : (Venue.move before (.step 1)).flights[1]? =
      some ⟨.save Comments.answerToOnePost ⟨#[]⟩, .done (1 : Int)⟩ := rfl
  obtain ⟨_, row, later, _, found, there, _, _, kept⟩ :=
    comment_shortens_iff checked wired rfl (orderly_firstComment plain.rules) waits 1 returned
  exact ⟨row, later, found, there, kept (by decide)⟩

def hastily : Settings.Environment
  | "FORUM_POST_GRACE" => some "3600"
  | "FORUM_COMMENT_GRACE" => some "60"
  | _ => none

def hasty : Settings := { postGraceSecs := 3600, commentGraceSecs := 60 }

-- The first comment lets a post expire within a minute that would have lived for an hour.
theorem first_comment_shortens :
    let before := Venue.play (opened hasty.rules bare) (firstComment hasty.rules)
    let after := Venue.move before (.step 1)
    Settings.load "forum.toml" .absent hastily = .ok hasty ∧ Launch.wire hasty = .ok hasty ∧ bare.store = .empty ∧
      Venue.Along Orderly (opened hasty.rules bare) (firstComment hasty.rules ++ [.step 1]) ∧
      after.flights[1]? = some ⟨.save Comments.answerToOnePost ⟨#[]⟩, .done (1 : Int)⟩ ∧
      (before.shared.store.post? 1).map (·.expiresAt) = some 3600000 ∧
      (after.shared.store.post? 1).map (·.expiresAt) = some 60000 := by
  refine ⟨rfl, rfl, rfl, orderly_firstComment _, rfl, rfl, rfl⟩

end Service
end Forum
