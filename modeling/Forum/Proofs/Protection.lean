import Forum.Proofs.Chronology

namespace Forum.Service
open Board (Archived Entry)
variable {rules : Rules} {c d : (hall rules).Crowd} {i : Nat} {p : Int} {reading : Backend} {expiry : Instant}

def Active (s : Store) (p : Int) : Prop := ∃ row, s.post? p = some row ∧ row.archived = 0

inductive Sweeps (expiry : Instant) : Entry → Prop
  | archived (late : expiry.floor ≤ cutoff) (done : (s.answerNow (.archiveExpired cutoff)).1 = .done count) :
      Sweeps expiry ⟨j, .archiveExpired cutoff, s⟩

theorem turnsFirst_unscripted {b : Backend} (unscripted : b.sweepFirst = none) (turned : b.TurnsFirst row later) :
    later = row := by
  cases turned with
  | stays => rfl
  | due first => simp [unscripted] at first

theorem unscripted_play (unscripted : c.shared.sweepFirst = none) (moves : List (hall rules).Move) :
    (Venue.play c moves).shared.sweepFirst = none := by
  refine Venue.play_keeps (P := fun d => d.shared.sweepFirst = none) moves ?_ ?_ ?_ unscripted
  · intro d e unscripted
    exact unscripted
  · intro d j e q next _ unscripted
    exact (Backend.answerNow_frame d.shared q).sweepFirst.trans unscripted
  · intro d x unscripted
    rw [← unscripted]
    cases x <;> rfl

theorem active_ask {e : Errand} {next : Outcome q.Value → Operation e.Result}
    (stage : Stage rules i e (c.asked i) (.ask q next)) (unscripted : c.shared.sweepFirst = none)
    (found : c.shared.store.post? p = some row) (active : row.archived = 0) :
    Active (Venue.ask c i e q next).shared.store p ∨ ∃ cutoff count, q = .archiveExpired cutoff ∧
      (c.shared.answerNow (.archiveExpired cutoff)).1 = .done count ∧ row.expiresAt ≤ cutoff.millis := by
  have grown := (Backend.answerNow_effect c.shared stage.lawful).turns stage.lawful
  obtain ⟨later, there, turns⟩ := grown.find? (fun _ _ turns => by rw [turns.becomes.id]) found
  generalize replied : (c.shared.answerNow q).1 = reply at turns
  cases turns with
  | stays => exact .inl ⟨row, there, active⟩
  | archived due => exact .inr ⟨_, _, rfl, replied, due.2⟩
  | sweptFirst turned =>
    cases turnsFirst_unscripted unscripted turned
    exact .inl ⟨row, there, active⟩
  | commented _ turned =>
    cases turnsFirst_unscripted unscripted turned
    exact .inl ⟨_, there, active⟩

theorem archives_due {b : Backend} (done : (b.answerNow (.archiveExpired cutoff)).1 = .done count)
    (found : b.store.post? p = some row) (due : Store.PostRow.IsDue cutoff.millis row) :
    Archived (b.answerNow (.archiveExpired cutoff)).2.store p := by
  have effect := Backend.answerNow_effect b (q := .archiveExpired cutoff) trivial
  generalize (b.answerNow (.archiveExpired cutoff)).2.store = after at effect
  generalize replied : (b.answerNow (.archiveExpired cutoff)).1 = reply at effect
  cases effect with
  | read calm => cases calm
  | refused without => exact absurd (replied.symm.trans done) (without count)
  | archived =>
    refine ⟨{ row with archived := 1 }, ?_, Int.one_ne_zero⟩
    change Store.post? _ p = _
    rw [Store.post?_archiveExpired, found, Option.map_some, if_pos due]

theorem Chronicled.expires (chronicled : Chronicled c) (accepted : Accepted c p i) (read : ⟨i, .now, reading⟩ ∈ c.log)
    (sum : reading.clock.add? rules.commentGrace = some expiry) :
    ∃ row, c.shared.store.post? p = some row ∧ expiry.millis ≤ row.expiresAt ∧
      ((∀ k, Accepted c p k → k ≤ i) → row.expiresAt = expiry.millis) := by
  obtain ⟨j, reading', expiry', dates⟩ := chronicled.dated p i accepted
  obtain ⟨row, found, expires⟩ := dates.post
  refine ⟨row, found, ?_, ?_⟩
  · have order := chronicled.reads_in_order accepted dates.accepted.submits (dates.last i accepted) read dates.read
    rw [expires]
    exact Instant.millis_mono (Instant.add?_mono sum dates.sum order)
  · intro quiet
    cases Nat.le_antisymm (quiet j dates.accepted) (dates.last i accepted)
    have order := chronicled.reads_in_order accepted accepted.submits (Nat.le_refl _) read dates.read
    have order' := chronicled.reads_in_order accepted accepted.submits (Nat.le_refl _) dates.read read
    have same : reading.clock = reading'.clock := Instant.ext_nanos (Int.le_antisymm order order')
    rw [same] at sum
    cases sum.symm.trans dates.sum
    exact expires

-- How a crowd stands to an earlier one in which a comment was just accepted on an active post. The
-- post is still active if nothing has happened since that could change it.
structure Follows (c : (hall rules).Crowd) (p : Int) (i : Nat) (reading : Backend) (expiry : Instant)
    (d : (hall rules).Crowd) : Prop where
  chronicled : Chronicled d
  unscripted : d.shared.sweepFirst = none
  accepted : Accepted d p i
  since : ∃ past, d.log = c.log ++ past ∧
    ((∀ k, Accepted d p k → k ≤ i) → (∀ e ∈ past, ¬Sweeps expiry e) → Active d.shared.store p)

namespace Follows

theorem start (follows : Follows c p i reading expiry d) (e : Errand) : Follows c p i reading expiry (Venue.start d e) where
  chronicled := follows.chronicled.start e
  unscripted := follows.unscripted
  accepted := follows.accepted.play [.start e]
  since := by
    obtain ⟨past, log, active⟩ := follows.since
    refine ⟨past, log, fun quiet => active fun k accepted => quiet k (accepted.play [.start e])⟩

theorem elapse (follows : Follows c p i reading expiry d) (forward : d.shared.clock ≤ (Board.shift x d.shared).clock) :
    Follows c p i reading expiry (Venue.elapse d x) where
  chronicled := follows.chronicled.elapse forward
  unscripted := unscripted_play follows.unscripted [.change x]
  accepted := follows.accepted
  since := by
    obtain ⟨past, log, active⟩ := follows.since
    refine ⟨past, log, ?_⟩
    change _ → _ → Active (Board.shift x d.shared).store p
    rw [Board.shift_store]
    exact active

theorem ask {e : Errand} {next : Outcome q.Value → Operation e.Result} (follows : Follows c p i reading expiry d)
    (read : ⟨i, .now, reading⟩ ∈ c.log) (sum : reading.clock.add? rules.commentGrace = some expiry)
    (waits : d.flights[j]? = some ⟨e, .ask q next⟩) (alone : Submits d j → ∀ k, Submits d k → k ≤ j) :
    Follows c p i reading expiry (Venue.ask d j e q next) where
  chronicled := follows.chronicled.ask waits alone
  unscripted := by
    rw [← Venue.move_step waits]
    exact unscripted_play follows.unscripted [.step j]
  accepted := by
    rw [← Venue.move_step waits]
    exact follows.accepted.play [.step j]
  since := by
    obtain ⟨past, log, active⟩ := follows.since
    refine ⟨past ++ [⟨j, q, d.shared⟩], ?_, ?_⟩
    · change d.log ++ [_] = _
      rw [log, List.append_assoc]
    · intro quiet unswept
      have before : ∀ k, Accepted d p k → k ≤ i := by
        intro k accepted
        refine quiet k ?_
        rw [← Venue.move_step waits]
        exact accepted.play [.step j]
      obtain ⟨row, found, still⟩ := active before fun f member => unswept f (List.mem_append_left _ member)
      obtain ⟨row', found', _, exactly⟩ :=
        follows.chronicled.expires follows.accepted (log ▸ List.mem_append_left _ read) sum
      cases found.symm.trans found'
      rcases active_ask (follows.chronicled.staged.stands j _ waits) follows.unscripted found still with
        kept | ⟨cutoff, count, rfl, done, due⟩
      · exact kept
      · have late : expiry.floor ≤ cutoff := Instant.floor_le_iff.mpr (exactly before ▸ due)
        exact absurd (.archived late done) (unswept _ (List.mem_append_right _ (List.mem_singleton_self _)))

theorem play (follows : Follows c p i reading expiry d) (read : ⟨i, .now, reading⟩ ∈ c.log)
    (sum : reading.clock.add? rules.commentGrace = some expiry) (orderly : Venue.Along Orderly d more) :
    Follows c p i reading expiry (Venue.play d more) := by
  refine Venue.play_keeps_along (R := Orderly) ?_ orderly follows
  intro d m orderly follows
  cases orderly with
  | start e => exact follows.start e
  | change forward => exact follows.elapse forward
  | step alone =>
    rename_i j
    rcases Venue.move_step_cases d j with ⟨e, q, next, waits, same⟩ | same
    · rw [same]
      exact follows.ask read sum waits alone
    · rw [same]
      exact follows

end Follows

-- A comment that is accepted on a post keeps it from being archived before the comment's own expiry,
-- whatever other comments follow; and if none follows on that post, the first sweep that goes through
-- at that expiry or later archives it.
theorem reply_protects (rules : Rules) {b : Backend} (unscripted : b.sweepFirst = none) {moves more : List (hall rules).Move}
    (orderly : Venue.Along Orderly (opened rules b) (moves ++ .step i :: more)) {draft : CommentDraft} {image : ByteArray}
    {next : Outcome q.Value → Operation Int}
    (waits : (Venue.play (opened rules b) moves).flights[i]? = some ⟨.save draft image, .ask q next⟩) :
    let accepted := Venue.move (Venue.play (opened rules b) moves) (.step i)
    let later := Venue.play accepted more
    ∀ id, accepted.flights[i]? = some ⟨.save draft image, .done id⟩ → Active accepted.shared.store draft.postId →
      ∃ reading expiry, ⟨i, .now, reading⟩ ∈ accepted.log ∧ reading.clock.add? rules.commentGrace = some expiry ∧
        ∀ j e cutoff next', later.flights[j]? = some ⟨e, .ask (.archiveExpired cutoff) next'⟩ →
          (cutoff < expiry.floor → Active later.shared.store draft.postId →
            Active (Venue.move later (.step j)).shared.store draft.postId) ∧
          (expiry.floor ≤ cutoff → (∃ count, (later.shared.answerNow (.archiveExpired cutoff)).1 = .done count) →
            (∀ k, Accepted later draft.postId k → Accepted accepted draft.postId k) →
            (∀ f ∈ Venue.history accepted more, ¬Sweeps expiry f) →
            Active later.shared.store draft.postId ∧ Archived (Venue.move later (.step j)).shared.store draft.postId) := by
  intro accepted later id returned active
  obtain ⟨orderly, step, orderly'⟩ := Venue.along_append moves _ |>.mp orderly
  have before := (Chronicled.opened rules b).play orderly
  have chronicled : Chronicled accepted := before.move step
  have same : accepted = Venue.ask (Venue.play (opened rules b) moves) i (.save draft image) q next := Venue.move_step waits
  have last : ∀ k, Accepted accepted draft.postId k → k ≤ i := by
    intro k also
    cases step with
    | step alone =>
      rw [same] at also
      exact alone ⟨draft, image, _, waits⟩ k ((submits_ask waits).mp also.submits)
  have mine : Accepted accepted draft.postId i := ⟨draft, image, id, returned, rfl⟩
  obtain ⟨j, reading, expiry, dates⟩ := chronicled.dated _ i mine
  -- The comment that dates the post is the last one, and that is this one.
  cases Nat.le_antisymm (last j dates.accepted) (dates.last i mine)
  have follows : Follows accepted draft.postId i reading expiry accepted :=
    ⟨chronicled, unscripted_play (unscripted_play unscripted moves) [.step i], mine, [], (List.append_nil _).symm, fun _ _ => active⟩
  have follows := follows.play dates.read dates.sum orderly'
  refine ⟨reading, expiry, dates.read, dates.sum, ?_⟩
  intro j e cutoff next' sweeping
  obtain ⟨past, log, still⟩ := follows.since
  -- Later comments read the clock no earlier, so the post expires no earlier than this one says.
  obtain ⟨row, found, bound, exactly⟩ :=
    follows.chronicled.expires follows.accepted (log ▸ List.mem_append_left _ dates.read) dates.sum
  rw [Venue.move_step sweeping]
  constructor
  · intro early live
    obtain ⟨row', found', unmarked⟩ := live
    cases found.symm.trans found'
    rcases active_ask (follows.chronicled.staged.stands j _ sweeping) follows.unscripted found unmarked with
      kept | ⟨cutoff', count, same, _, due⟩
    · exact kept
    · cases same
      have early := Instant.lt_floor_iff.mp early
      omega
  · intro late done quiet unswept
    obtain ⟨count, done⟩ := done
    have quiet : ∀ k, Accepted later draft.postId k → k ≤ i := fun k also => last k (quiet k also)
    have same : past = Venue.history accepted more := List.append_cancel_left (log.symm.trans (Venue.play_log accepted more))
    obtain ⟨row', found', unmarked⟩ := still quiet (same ▸ unswept)
    cases found.symm.trans found'
    refine ⟨⟨row, found, unmarked⟩, archives_due done found ⟨unmarked, ?_⟩⟩
    rw [exactly quiet]
    exact Instant.floor_le_iff.mp late

theorem reply_protects_one_post :
    let accepted := Venue.move (Venue.play (opened seconds Comments.onePost) answering) (.step 0)
    let later := Venue.play accepted [.start (.archive ⟨2000000000, by decide⟩)]
    Active later.shared.store Comments.answerToOnePost.postId ∧
      Archived (Venue.move later (.step 1)).shared.store Comments.answerToOnePost.postId := by
  intro accepted later
  have returned : accepted.flights[0]? = some ⟨.save Comments.answerToOnePost ⟨#[]⟩, .done (1 : Int)⟩ := rfl
  have active : Active accepted.shared.store Comments.answerToOnePost.postId := ⟨_, rfl, rfl⟩
  have orderly : Venue.Along Orderly (opened seconds Comments.onePost)
      (answering ++ .step 0 :: [.start (.archive ⟨2000000000, by decide⟩)]) :=
    ⟨.start _, .last (by decide), .last (by decide), .last (by decide), .start _, trivial⟩
  obtain ⟨reading, expiry, read, sum, swept⟩ := reply_protects seconds rfl orderly rfl 1 returned active
  have clocks : accepted.log.map (·.before.clock) = List.replicate 3 .epoch := rfl
  have clock : reading.clock = .epoch := List.eq_of_mem_replicate (clocks ▸ List.mem_map_of_mem read)
  rw [clock] at sum
  cases sum.symm.trans (rfl : Instant.epoch.add? (.ofMillis 2000) = some ⟨2000000000, by decide⟩)
  have done : (later.shared.answerNow (.archiveExpired ⟨2000000000, by decide⟩)).1 = .done (1 : Nat) := rfl
  have sweeps := (swept 1 (.archive ⟨2000000000, by decide⟩) ⟨2000000000, by decide⟩ _ rfl).2 (by decide) ⟨_, done⟩
  have staged := Venue.play_staged (stages seconds) [.step 0]
    (Venue.play_staged (stages seconds) answering (staged_opened seconds Comments.onePost))
  dsimp only [later, accepted]
  refine sweeps (fun k also => accepted_start staged also) ?_
  simp [Venue.history, Venue.logged]

end Forum.Service
