import Forum.Proofs.History

namespace Forum

namespace Store

theorem post?_map {s t : Store} {f : PostRow → PostRow} (ids : ∀ row, (f row).id = row.id)
    (rows : t.posts.rows = s.posts.rows.map f) (p : Int) : t.post? p = (s.post? p).map f := by
  have same : (fun row : PostRow => decide (row.id = p)) ∘ f = fun row => decide (row.id = p) := by
    funext row
    simp only [Function.comp, ids]
  rw [post?, rows, List.find?_map, same]
  rfl

theorem post?_archiveExpired (s : Store) (cutoff : Instant) (p : Int) :
    (s.archiveExpired cutoff).2.post? p =
      (s.post? p).map fun row => if PostRow.IsDue cutoff.millis row then { row with archived := 1 } else row := by
  refine post?_map ?_ rfl p
  intro row
  split <;> rfl

theorem post?_commented (s : Store) (new : NewComment) (expiry : Instant) (p : Int) :
    (s.commented new expiry).post? p = (s.post? p).map (PostRow.moveExpiry new.postId expiry) := by
  refine post?_map ?_ rfl p
  intro row
  unfold PostRow.moveExpiry
  split <;> rfl

theorem post?_id {s : Store} (found : s.post? p = some row) : row.id = p := by simpa using List.find?_some found

end Store

namespace Service
open Comments (comment saving written)
open Board (Prepared Saving)
variable {rules : Rules} {c d : (hall rules).Crowd} {i j : Nat}

def Submits (c : (hall rules).Crowd) (i : Nat) : Prop :=
  ∃ draft image rest, c.flights[i]? = some ⟨.save draft image, rest⟩

def Accepted (c : (hall rules).Crowd) (p : Int) (i : Nat) : Prop :=
  ∃ draft image id, c.flights[i]? = some ⟨.save draft image, .done id⟩ ∧ draft.postId = p

-- Moves under a clock that never goes back and with submissions that do not overlap: once one of
-- them has begun, those that began before it do not go on. All other operations may overlap.
inductive Orderly (c : (hall rules).Crowd) : (hall rules).Move → Prop
  | start (e : Errand) : Orderly c (.start e)
  | step {i : Nat} (alone : Submits c i → ∀ j, Submits c j → j ≤ i) : Orderly c (.step i)
  | change (forward : c.shared.clock ≤ (Board.shift x c.shared).clock) : Orderly c (.change x)

theorem Submits.bound (submits : Submits c i) : i < c.flights.length := by
  obtain ⟨draft, image, rest, flight⟩ := submits
  exact (List.getElem?_eq_some_iff.mp flight).1

theorem Orderly.last (bound : c.flights.length ≤ i + 1) : Orderly c (.step i) := by
  refine .step fun _ j submits => ?_
  have before := submits.bound
  omega

theorem Accepted.submits (accepted : Accepted c p i) : Submits c i := by
  obtain ⟨draft, image, id, returned, _⟩ := accepted
  exact ⟨draft, image, _, returned⟩

theorem Accepted.play (accepted : Accepted c p i) (moves : List (hall rules).Move) : Accepted (Venue.play c moves) p i := by
  obtain ⟨draft, image, id, returned, on⟩ := accepted
  have ended : c.flights[i]? = some ⟨.save draft image, .ofOutcome (.done id)⟩ := returned
  exact ⟨draft, image, id, Venue.play_ended moves ended, on⟩

theorem submits_start {e : Errand} (submits : Submits (Venue.start c e) j) (old : j < c.flights.length) : Submits c j := by
  obtain ⟨draft, image, rest, flight⟩ := submits
  rw [Venue.start_others old] at flight
  exact ⟨draft, image, rest, flight⟩

theorem returned_start {e : Errand} (staged : Venue.Staged (Stage rules) c) {draft : CommentDraft} {image : ByteArray} {id : Int}
    (returned : (Venue.start c e).flights[j]? = some ⟨.save draft image, .done id⟩) :
    c.flights[j]? = some ⟨.save draft image, .done id⟩ := by
  have began := (staged.start (stages rules) e).stands j _ returned
  obtain ⟨work, s, member, _⟩ := Saving.returns began
  have old := staged.known _ (Venue.mem_asked.mp member).1
  rwa [Venue.start_others old] at returned

theorem accepted_start {e : Errand} (staged : Venue.Staged (Stage rules) c) (accepted : Accepted (Venue.start c e) p j) :
    Accepted c p j := by
  obtain ⟨draft, image, id, returned, on⟩ := accepted
  exact ⟨draft, image, id, returned_start staged returned, on⟩

section
variable {e : Errand} {q : Question} {next : Outcome q.Value → Operation e.Result}

theorem submits_ask (waits : c.flights[i]? = some ⟨e, .ask q next⟩) :
    Submits (Venue.ask c i e q next) j ↔ Submits c j := by
  by_cases same : i = j
  · subst same
    constructor
    · intro submits
      obtain ⟨draft, image, rest, flight⟩ := submits
      rw [Venue.ask_flight waits] at flight
      cases flight
      exact ⟨draft, image, _, waits⟩
    · intro submits
      obtain ⟨draft, image, rest, flight⟩ := submits
      cases waits.symm.trans flight
      exact ⟨draft, image, _, Venue.ask_flight waits⟩
  · unfold Submits
    rw [Venue.ask_others same]

theorem returned_ask (waits : c.flights[i]? = some ⟨e, .ask q next⟩) (stage : Stage rules i e (c.asked i) (.ask q next))
    {draft : CommentDraft} {image : ByteArray} {id : Int}
    (returned : (Venue.ask c i e q next).flights[j]? = some ⟨.save draft image, .done id⟩) :
    c.flights[j]? = some ⟨.save draft image, .done id⟩ ∨ j = i ∧ ∃ reading expiry, Lands c i draft.postId reading expiry q := by
  by_cases same : i = j
  · subst same
    rw [Venue.ask_flight waits] at returned
    injection returned with returned
    injection returned with call rest
    subst call
    obtain ⟨work, rfl, replied⟩ := (Saving.waits stage).commits (eq_of_heq rest)
    obtain ⟨draft', image', reading, new, expiry, rfl, submitting⟩ := submitting waits stage
    cases submitting.waits.symm.trans waits
    exact .inr ⟨rfl, reading, expiry, .commit submitting replied rfl⟩
  · rw [Venue.ask_others same] at returned
    exact .inl returned

theorem accepted_ask (waits : c.flights[i]? = some ⟨e, .ask q next⟩) (stage : Stage rules i e (c.asked i) (.ask q next))
    (accepted : Accepted (Venue.ask c i e q next) p j) :
    Accepted c p j ∨ j = i ∧ ∃ reading expiry, Lands c i p reading expiry q := by
  obtain ⟨draft, image, id, returned, on⟩ := accepted
  rcases returned_ask waits stage returned with old | new
  · exact .inl ⟨draft, image, id, old, on⟩
  · exact .inr (on ▸ new)

theorem expiry_ask (waits : c.flights[i]? = some ⟨e, .ask q next⟩) (stage : Stage rules i e (c.asked i) (.ask q next))
    (found : c.shared.store.post? p = some row) :
    ∃ later, (Venue.ask c i e q next).shared.store.post? p = some later ∧
      (later.expiresAt = row.expiresAt ∨ ∃ reading expiry, Lands c i p reading expiry q) := by
  have grown := (Backend.answerNow_effect c.shared stage.lawful).turns stage.lawful
  obtain ⟨later, there, turns⟩ := grown.find? (fun _ _ turns => by rw [turns.becomes.id]) found
  refine ⟨later, there, ?_⟩
  by_cases same : later.expiresAt = row.expiresAt
  · exact .inl same
  · have lands := moves_expiry waits stage turns same
    rw [Store.post?_id found] at lands
    exact .inr lands

end

theorem Lands.post (lands : Lands c i p reading expiry q) :
    ∃ row, (Venue.move c (.step i)).shared.store.post? p = some row ∧ row.expiresAt = expiry.millis := by
  obtain ⟨draft, image, new, _, same, _, _, known, stored⟩ := lands.returns
  have found : ∃ row, c.shared.sweptFirst.store.post? p = some row := by
    obtain ⟨row, member, id⟩ := known
    exact Option.isSome_iff_exists.mp (List.find?_isSome.mpr ⟨row, member, by simpa using id⟩)
  obtain ⟨row, found⟩ := found
  refine ⟨row.moveExpiry new.postId expiry, ?_, ?_⟩
  · rw [stored, Store.post?_commented, found]
    rfl
  · rw [PostRow.moveExpiry, if_pos ((Store.post?_id found).trans same.symm)]

-- In an orderly crowd the log is in order of time, and so are submissions by their numbers.
structure Timely (c : (hall rules).Crowd) : Prop where
  past : ∀ e ∈ c.log, e.before.clock ≤ c.shared.clock
  ordered : c.log.Pairwise fun e f => e.before.clock ≤ f.before.clock
  submissions : ∀ e ∈ c.log, ∀ f ∈ c.log, Submits c e.call → Submits c f.call → e.call < f.call →
    e.before.clock ≤ f.before.clock

namespace Timely

theorem start (timely : Timely c) (staged : Venue.Staged (Stage rules) c) (e : Errand) : Timely (Venue.start c e) where
  past := timely.past
  ordered := timely.ordered
  submissions := by
    intro f member g member' submits submits'
    exact timely.submissions f member g member' (submits_start submits (staged.known f member))
      (submits_start submits' (staged.known g member'))

theorem elapse (timely : Timely c) (forward : c.shared.clock ≤ (Board.shift x c.shared).clock) : Timely (Venue.elapse c x) where
  past := fun e member => Instant.le_trans (timely.past e member) forward
  ordered := timely.ordered
  submissions := timely.submissions

theorem ask {e : Errand} {q : Question} {next : Outcome q.Value → Operation e.Result} (timely : Timely c)
    (waits : c.flights[i]? = some ⟨e, .ask q next⟩) (alone : Submits c i → ∀ j, Submits c j → j ≤ i) :
    Timely (Venue.ask c i e q next) where
  past := by
    intro f member
    change f.before.clock ≤ (c.shared.answerNow q).2.clock
    rw [(Backend.answerNow_frame c.shared q).clock]
    rcases List.mem_append.mp member with old | new
    · exact timely.past f old
    · rw [List.mem_singleton.mp new]
      exact Instant.le_refl _
  ordered := by
    refine List.pairwise_append.mpr ⟨timely.ordered, List.pairwise_singleton _ _, ?_⟩
    intro f member g last
    rw [List.mem_singleton.mp last]
    exact timely.past f member
  submissions := by
    intro f member g member' submits submits' before
    rw [submits_ask waits] at submits submits'
    rcases List.mem_append.mp member with old | new
    · rcases List.mem_append.mp member' with old' | new'
      · exact timely.submissions f old g old' submits submits' before
      · rw [List.mem_singleton.mp new']
        exact timely.past f old
    · rw [List.mem_singleton.mp new] at submits before
      exact absurd (alone submits g.call submits') (Nat.not_le.mpr before)

end Timely

structure Dates (c : (hall rules).Crowd) (p : Int) (j : Nat) (reading : Backend) (expiry : Instant) : Prop where
  accepted : Accepted c p j
  last : ∀ i, Accepted c p i → i ≤ j
  read : ⟨j, .now, reading⟩ ∈ c.log
  sum : reading.clock.add? rules.commentGrace = some expiry
  post : ∃ row, c.shared.store.post? p = some row ∧ row.expiresAt = expiry.millis

structure Chronicled (c : (hall rules).Crowd) : Prop where
  staged : Venue.Staged (Stage rules) c
  timely : Timely c
  dated : ∀ p i, Accepted c p i → ∃ j reading expiry, Dates c p j reading expiry

namespace Chronicled

theorem start (chronicled : Chronicled c) (e : Errand) : Chronicled (Venue.start c e) where
  staged := chronicled.staged.start (stages rules) e
  timely := chronicled.timely.start chronicled.staged e
  dated := by
    intro p i accepted
    obtain ⟨j, reading, expiry, dates⟩ := chronicled.dated p i (accepted_start chronicled.staged accepted)
    refine ⟨j, reading, expiry, dates.accepted.play [.start e], ?_, dates.read, dates.sum, dates.post⟩
    intro k accepted'
    exact dates.last k (accepted_start chronicled.staged accepted')

theorem elapse (chronicled : Chronicled c) (forward : c.shared.clock ≤ (Board.shift x c.shared).clock) :
    Chronicled (Venue.elapse c x) where
  staged := chronicled.staged.elapse x
  timely := chronicled.timely.elapse forward
  dated := by
    intro p i accepted
    obtain ⟨j, reading, expiry, dates⟩ := chronicled.dated p i accepted
    refine ⟨j, reading, expiry, dates.accepted, dates.last, dates.read, dates.sum, ?_⟩
    change ∃ row, (Board.shift x c.shared).store.post? p = some row ∧ _
    rw [Board.shift_store]
    exact dates.post

theorem ask {e : Errand} {q : Question} {next : Outcome q.Value → Operation e.Result} (chronicled : Chronicled c)
    (waits : c.flights[i]? = some ⟨e, .ask q next⟩) (alone : Submits c i → ∀ j, Submits c j → j ≤ i) :
    Chronicled (Venue.ask c i e q next) where
  staged := chronicled.staged.ask (stages rules) waits
  timely := chronicled.timely.ask waits alone
  dated := by
    have stage := chronicled.staged.stands i _ waits
    have moved : Venue.play c [.step i] = Venue.ask c i e q next := Venue.move_step waits
    intro p k accepted
    -- Either this question dates the post anew, or whatever dated it before still does.
    by_cases landing : ∃ reading expiry, Lands c i p reading expiry q
    · obtain ⟨reading, expiry, lands⟩ := landing
      have post := lands.post
      rw [Venue.move_step waits] at post
      obtain ⟨draft, image, new, on, _, flight, returned, _, _⟩ := lands.returns
      rw [Venue.move_step waits] at returned
      refine ⟨i, reading, expiry, ⟨draft, image, _, returned, on⟩, ?_, ?_, ?_, post⟩
      · intro k' accepted'
        exact alone ⟨draft, image, _, flight⟩ k' ((submits_ask waits).mp accepted'.submits)
      · cases lands with
        | commit submitting => exact List.mem_append_left _ submitting.read_logged
      · cases lands with
        | commit submitting => exact submitting.sum
    · have still : ∀ k', Accepted (Venue.ask c i e q next) p k' → Accepted c p k' := by
        intro k' accepted'
        rcases accepted_ask waits stage accepted' with old | ⟨_, new⟩
        · exact old
        · exact absurd new landing
      obtain ⟨j, reading, expiry, dates⟩ := chronicled.dated p k (still k accepted)
      obtain ⟨row, found, expires⟩ := dates.post
      refine ⟨j, reading, expiry, moved ▸ dates.accepted.play [.step i], ?_, List.mem_append_left _ dates.read, dates.sum, ?_⟩
      · intro k' accepted'
        exact dates.last k' (still k' accepted')
      · obtain ⟨later, there, same | new⟩ := expiry_ask waits stage found
        · exact ⟨later, there, same.trans expires⟩
        · exact absurd new landing

theorem move (chronicled : Chronicled c) (orderly : Orderly c m) : Chronicled (Venue.move c m) := by
  cases orderly with
  | start e => exact chronicled.start e
  | change forward => exact chronicled.elapse forward
  | step alone =>
    rename_i i
    rcases Venue.move_step_cases c i with ⟨e, q, next, waits, same⟩ | same
    · rw [same]
      exact chronicled.ask waits alone
    · rw [same]
      exact chronicled

theorem play (chronicled : Chronicled c) (orderly : Venue.Along Orderly c moves) : Chronicled (Venue.play c moves) :=
  Venue.play_keeps_along (fun _ _ orderly chronicled => chronicled.move orderly) orderly chronicled

theorem opened (rules : Rules) (b : Backend) : Chronicled (opened rules b) where
  staged := staged_opened rules b
  timely := ⟨by simp [Service.opened], .nil, by simp [Service.opened]⟩
  dated := by simp [Accepted, Service.opened]

theorem reads_in_order (chronicled : Chronicled c) (accepted : Accepted c p i) (submits : Submits c j) (order : i ≤ j)
    (read : ⟨i, .now, s⟩ ∈ c.log) (read' : ⟨j, .now, t⟩ ∈ c.log) : s.clock ≤ t.clock := by
  rcases Nat.eq_or_lt_of_le order with rfl | before
  · obtain ⟨draft, image, id, returned, _⟩ := accepted
    have stage : Saving rules.commentGrace draft image i (c.asked i) _ := chronicled.staged.stands i _ returned
    cases stage.reads_once (Venue.mem_asked.mpr ⟨read, rfl⟩) (Venue.mem_asked.mpr ⟨read', rfl⟩)
    exact Instant.le_refl _
  · exact chronicled.timely.submissions _ read _ read' accepted.submits submits before

end Chronicled

end Service
end Forum
