import Forum.Proofs.Custody

namespace Forum.Identity
open Procedure (ofOutcome)

namespace Pool
variable {p q : Pool} {id size : Nat} {now expiry : Instant}

-- A pool in which nothing is amiss: each of its ids waits on the free list, once, or has a reservation,
-- one, and not both.
structure Sound (p : Pool) (size : Nat) : Prop where
  keyed : p.Keyed
  noTwice : p.NoTwice
  complete : p.Complete size

-- The same free ids in the same order, and the same reservations, which have no order.
structure Alike (p q : Pool) : Prop where
  size : p.size = q.size
  free : p.free = q.free
  reserved : p.reserved.Perm q.reserved

theorem Alike.refl (p : Pool) : p.Alike p := ⟨rfl, rfl, .refl _⟩

def IsHeld (p : Pool) (now : Instant) (id : Nat) : Prop := ∃ expiry, p.holder? id = some expiry ∧ now < expiry

theorem isHeld_iff : p.IsHeld now id ↔ ¬p.IsLapsed now id := by
  constructor
  · intro held lapsed
    obtain ⟨expiry, holds, later⟩ := held
    exact Int.not_le.mpr later (lapsed expiry holds)
  · intro unlapsed
    by_contra free
    refine unlapsed fun expiry holds => ?_
    by_contra later
    exact free ⟨expiry, holds, Int.not_le.mp later⟩

theorem sound_fresh {order : List Nat} (whole : order.Perm (ids size)) : (fresh order).Sound size where
  keyed := keyed_fresh order
  noTwice := noTwice_fresh (whole.nodup_iff.mpr List.nodup_range')
  complete := complete_fresh whole

namespace Sound

theorem allocate (sound : p.Sound size) (nonempty : 0 < size) (now expiry : Instant) (draws : Draws) :
    (p.allocate now expiry draws).2.Sound size :=
  ⟨sound.keyed.allocate _ _ _, sound.noTwice.allocate _ _ _, sound.complete.allocate nonempty _ _ _⟩

theorem relist (sound : p.Sound size) (listing : List (Nat × Instant)) : (p.relist listing).Sound size :=
  ⟨sound.keyed.relist listing, sound.noTwice.relist sound.keyed listing, sound.complete.relist listing⟩

theorem reclaim (sound : p.Sound size) (now : Instant) : (p.reclaim now).2.Sound size :=
  ⟨sound.keyed.reclaim now, sound.noTwice.reclaim sound.keyed now, sound.complete.reclaim now⟩

theorem reserved (sound : p.Sound size) (empty : p.free = []) (range : 1 ≤ id ∧ id ≤ size) : ∃ expiry, p.holder? id = some expiry := by
  rcases (sound.complete.whole id).mpr range with free | ⟨expiry, there⟩
  · rw [empty] at free
    cases free
  · exact ⟨expiry, sound.keyed.holder?_some.mpr there⟩

theorem unreserved (sound : p.Sound size) (free : id ∈ p.free) : p.reserved.filter (·.1 ≠ id) = p.reserved := by
  have absent := holder?_none.mp (sound.noTwice.apart id free)
  rw [List.filter_eq_self]
  intro entry member
  obtain ⟨key, expiry⟩ := entry
  rw [decide_eq_true_eq]
  intro same
  subst same
  exact absent expiry member

theorem restored (sound : p.Sound size) (held : p.holder? id = some expiry) (taken : Instant) :
    (put (put p.reserved id taken) id expiry).Perm p.reserved := by
  have there := sound.keyed.holder?_some.mp held
  have keyed : ((put (put p.reserved id taken) id expiry).map (·.1)).Nodup := nodup_put (nodup_put sound.keyed)
  refine (List.perm_ext_iff_of_nodup keyed.of_map (List.Nodup.of_map _ sound.keyed)).mpr ?_
  intro entry
  obtain ⟨other, held'⟩ := entry
  rw [mem_put, mem_put]
  constructor
  · intro member
    rcases member with ⟨rfl, rfl⟩ | ⟨⟨same, _⟩ | ⟨old, _⟩, differs⟩
    · exact there
    · exact absurd same differs
    · exact old
  · intro old
    by_cases same : other = id
    · subst same
      have unique := sound.keyed.holder?_some.mpr old
      rw [held] at unique
      exact .inl ⟨rfl, (Option.some.inj unique).symm⟩
    · exact .inr ⟨.inr ⟨old, same⟩, same⟩

-- An allocation that is undone at once has left no trace, wherever its id came from: a free id had no
-- reservation and is free again, and an id that was taken over had one, since none was free.
theorem undo (sound : p.Sound size) (nonempty : 0 < size) (now expiry : Instant) (draws : Draws) :
    ((p.allocate now expiry draws).2.release (p.allocate now expiry draws).1).Alike p := by
  have range := sound.complete.range nonempty now expiry draws
  rcases allocate_cases p now expiry draws with ⟨id, free, waiting, took⟩ | ⟨id, empty, took⟩
  · have member : id ∈ p.free := waiting ▸ List.mem_cons_self
    have unheld := sound.noTwice.apart id member
    have held : (put p.reserved id expiry).lookup id = some expiry := (lookup_put _).trans (if_pos rfl)
    have removed : (put p.reserved id expiry).filter (·.1 ≠ id) = p.reserved := by
      rw [put, List.filter_cons_of_neg (by simp), List.filter_filter]
      simpa using sound.unreserved member
    rw [took, unheld]
    simp only [release, holder?, held, Option.isSome_some, if_true, removed]
    exact ⟨rfl, waiting.symm, .refl _⟩
  · rw [took] at range ⊢
    obtain ⟨before, held⟩ := sound.reserved empty range
    simp only [release, held]
    exact ⟨rfl, rfl, sound.restored held expiry⟩

theorem undone (sound : p.Sound size) (nonempty : 0 < size) (now expiry : Instant) (draws : Draws) :
    ((p.allocate now expiry draws).2.release (p.allocate now expiry draws).1).Sound size where
  keyed := (sound.keyed.allocate _ _ _).release _
  noTwice := sound.noTwice.undone _ _ _
  complete := (sound.complete.allocate nonempty _ _ _).release (sound.complete.range nonempty _ _ _)

end Sound
end Pool

namespace Desk
variable {d : Desk} {size : Nat}

theorem sound_allocate (sound : d.pool.Sound size) (nonempty : 0 < size) (hold : Span) : (d.allocate hold).2.pool.Sound size := by
  rcases allocate_cases d hold with ⟨_, same⟩ | ⟨expiry, _, _, pool⟩
  · rw [same]
    exact sound
  · rw [pool]
    exact sound.allocate nonempty _ _ _

theorem sound_turn (sound : d.pool.Sound size) (x : Turn) : (turn x d).pool.Sound size := by
  cases x with
  | clock now => exact sound
  | server server => exact sound
  | reclaim listing => exact (sound.relist listing).reclaim d.clock

theorem undo (sound : d.pool.Sound size) (nonempty : 0 < size) {r : Reservation} (took : (d.allocate hold).1 = .done r) :
    ((d.allocate hold).2.pool.release r).Sound size ∧ ((d.allocate hold).2.pool.release r).Alike d.pool := by
  rcases allocate_cases d hold with ⟨failed, _⟩ | ⟨expiry, _, done, pool⟩
  · exact absurd took (failed r)
  · cases took.symm.trans done
    rw [pool]
    exact ⟨sound.undone nonempty _ _ _, sound.undo nonempty _ _ _⟩

end Desk

def AtWork (c : office.Crowd) (i : Nat) : Prop :=
  ∃ hold q next, c.flights[i]? = some ⟨hold, .ask q next⟩ ∧ q ≠ .allocate hold

-- Moves of calls that come one after another. Once a call has begun, those before it have ended or were
-- dropped, and do not go on; and reservations are reclaimed while the call that began last is not at
-- work. The clock and the other server may change at any time.
inductive InTurn (c : office.Crowd) : office.Move → Prop
  | start (hold : Span) : InTurn c (.start hold)
  | step {i : Nat} (last : c.flights.length ≤ i + 1) : InTurn c (.step i)
  | clock (now : Instant) : InTurn c (.change (.clock now))
  | server (server : Server) : InTurn c (.change (.server server))
  | reclaim (listing : List (Nat × Instant)) (idle : ∀ i, AtWork c i → i + 1 < c.flights.length) :
      InTurn c (.change (.reclaim listing))

def Left (size : Nat) (mine : List Entry) (p : Pool) : Prop :=
  ∃ i hold s, mine.head? = some ⟨i, .allocate hold, s⟩ ∧ s.pool.Sound size ∧ p = (s.allocate hold).2.pool

def Traceless (mine : List Entry) : Prop :=
  ∃ first last, mine.head? = some first ∧ mine.getLast? = some last ∧
    (last.before.answer last.question).2.pool.Alike first.before.pool

def Failed (c : office.Crowd) (i : Nat) : Prop :=
  ∃ hold outcome, c.flights[i]? = some ⟨hold, ofOutcome outcome⟩ ∧ ∀ identity, outcome ≠ .done identity

structure Proceeds (size : Nat) (hold : Span) (mine : List Entry) (p : Pool) (rest : Procedure ports Identity) : Prop where
  sound : p.Sound size
  left : ∀ q next, rest = .ask q next → q ≠ .allocate hold → Left size mine p
  traceless : ∀ outcome, rest = ofOutcome outcome → (∀ identity, outcome ≠ .done identity) → Traceless mine

theorem Providing.proceeds {size : Nat} {d : Desk} {q : Question} {next : Outcome q.Value → Procedure ports Identity}
    (stage : Providing hold i mine (.ask q next)) (nonempty : 0 < size) (sound : d.pool.Sound size)
    (left : q ≠ .allocate hold → Left size mine d.pool) :
    Proceeds size hold (mine ++ [⟨i, q, d⟩]) (d.answer q).2.pool (next (d.answer q).1) := by
  cases stage with
  | allocate =>
    refine ⟨Desk.sound_allocate sound nonempty hold, ?_, ?_⟩
    · intro q next _ _
      exact ⟨i, hold, d, rfl, sound, rfl⟩
    · intro outcome ended without
      refine ⟨_, _, rfl, rfl, ?_⟩
      change (d.allocate hold).2.pool.Alike d.pool
      rcases Desk.allocate_cases d hold with ⟨_, same⟩ | ⟨expiry, _, took, _⟩
      · rw [same]
        exact .refl _
      · -- Whoever has taken an id goes on to fetch, so the call has not ended.
        change allocated (d.allocate hold).1 = _ at ended
        rw [took] at ended
        exact absurd ended.symm (Procedure.ofOutcome_ne_ask outcome)
  | refused _ _ _ ended => exact absurd ended.symm (Procedure.ofOutcome_ne_ask _)
  | fetch took =>
    rename_i r
    refine ⟨sound, ?_, ?_⟩
    · intro _ _ _ _
      obtain ⟨j, hold', s', first, before, same⟩ := left (by simp)
      exact ⟨j, hold', s', first, before, same⟩
    · intro outcome ended without
      change fetched r (.ofExcept (d.fetch r.id)) = _ at ended
      cases told : d.fetch r.id with
      | ok identity =>
        rw [told] at ended
        have same : (ofOutcome (.done identity) : Procedure ports Identity) = ofOutcome outcome := ended
        exact absurd (Procedure.ofOutcome_inj same).symm (without identity)
      | error e =>
        rw [told] at ended
        exact absurd ended.symm (Procedure.ofOutcome_ne_ask outcome)
  | release took failed =>
    rename_i s r t e
    obtain ⟨j, hold', s', first, before, same⟩ := left (by simp)
    cases first
    -- Nothing has come to the pool since the allocation, so it is undone at once.
    have undo := Desk.undo before nonempty took
    rw [← same] at undo
    refine ⟨undo.1, ?_, ?_⟩
    · intro q next asks
      cases asks
    · intro _ _ _
      exact ⟨_, _, rfl, rfl, undo.2⟩

structure Tidy (size : Nat) (c : office.Crowd) : Prop where
  staged : Venue.Staged (fun i hold => Providing hold i) c
  sound : c.shared.pool.Sound size
  left : ∀ i, AtWork c i → c.flights.length = i + 1 → Left size (c.asked i) c.shared.pool
  traceless : ∀ i, Failed c i → Traceless (c.asked i)

theorem flight_start (c : office.Crowd) (hold : Span) :
    (Venue.start c hold).flights[c.flights.length]? = some ⟨hold, .ask (.allocate hold) allocated⟩ := by
  rw [← provide_eq]
  exact List.getElem?_concat_length

namespace Tidy
variable {size : Nat} {c : office.Crowd}

theorem start (tidy : Tidy size c) (hold : Span) : Tidy size (Venue.start c hold) where
  staged := tidy.staged.start provides hold
  sound := tidy.sound
  left := by
    intro i work last
    obtain ⟨hold', q, next, flight, goes⟩ := work
    have new : i = c.flights.length := by simpa [Venue.start] using last.symm
    subst new
    cases (flight_start c hold).symm.trans flight
    exact absurd rfl goes
  traceless := by
    intro i failed
    obtain ⟨hold', outcome, flight, without⟩ := failed
    by_cases old : i < c.flights.length
    · rw [Venue.start_others old] at flight
      exact tidy.traceless i ⟨hold', outcome, flight, without⟩
    · have bound := (List.getElem?_eq_some_iff.mp flight).1
      have new : i = c.flights.length := by
        simp only [Venue.start, List.length_append, List.length_singleton] at bound
        omega
      subst new
      injection (flight_start c hold).symm.trans flight with ended
      injection ended with _ rest
      exact absurd rest.symm (Procedure.ofOutcome_ne_ask outcome)

theorem ask {q : Question} {next : Outcome q.Value → Procedure ports Identity} (tidy : Tidy size c) (nonempty : 0 < size)
    (waits : c.flights[i]? = some ⟨hold, .ask q next⟩) (last : c.flights.length ≤ i + 1) :
    Tidy size (Venue.ask (V := office) c i hold q next) := by
  have length : c.flights.length = i + 1 := by
    have bound := (List.getElem?_eq_some_iff.mp waits).1
    omega
  have proceeds := Providing.proceeds (d := c.shared) (tidy.staged.stands i _ waits) nonempty tidy.sound
    fun goes => tidy.left i ⟨hold, q, next, waits, goes⟩ length
  have asked : (Venue.ask (V := office) c i hold q next).asked i = c.asked i ++ [⟨i, q, c.shared⟩] := by
    rw [Venue.asked_ask, if_pos rfl]
  have now := Venue.ask_flight waits
  refine ⟨tidy.staged.ask provides waits, proceeds.sound, ?_, ?_⟩
  · intro j work also
    have same : j = i := by
      simp only [Venue.ask, List.length_set] at also
      omega
    subst same
    obtain ⟨hold', q', next', flight, goes⟩ := work
    rw [now] at flight
    injection flight with flight
    injection flight with hold rest
    subst hold
    rw [asked]
    exact proceeds.left q' next' rest goes
  · intro j failed
    obtain ⟨hold', outcome, flight, without⟩ := failed
    by_cases same : i = j
    · subst same
      rw [now] at flight
      injection flight with flight
      injection flight with _ rest
      rw [asked]
      exact proceeds.traceless outcome rest without
    · rw [Venue.asked_ask, if_neg same]
      rw [Venue.ask_others same] at flight
      exact tidy.traceless j ⟨hold', outcome, flight, without⟩

theorem move {m : office.Move} (tidy : Tidy size c) (nonempty : 0 < size) (turn : InTurn c m) : Tidy size (Venue.move c m) := by
  cases turn with
  | start hold => exact tidy.start hold
  | step last =>
    rename_i i
    rcases Venue.move_step_cases c i with ⟨hold, q, next, waits, same⟩ | same
    · rw [same]
      exact tidy.ask nonempty waits last
    · rw [same]
      exact tidy
  | clock now => exact ⟨tidy.staged.elapse (.clock now), tidy.sound, tidy.left, tidy.traceless⟩
  | server server => exact ⟨tidy.staged.elapse (.server server), tidy.sound, tidy.left, tidy.traceless⟩
  | reclaim listing idle =>
    refine ⟨tidy.staged.elapse (.reclaim listing), Desk.sound_turn tidy.sound (.reclaim listing), ?_, tidy.traceless⟩
    intro i work last
    have bound := idle i work
    have length : c.flights.length = i + 1 := last
    omega

theorem opened {d : Desk} (sound : d.pool.Sound size) : Tidy size (opened d) where
  staged := providing_opened d
  sound := sound
  left := by
    intro i work
    obtain ⟨_, _, _, flight, _⟩ := work
    cases flight
  traceless := by
    intro i failed
    obtain ⟨_, _, flight, _⟩ := failed
    cases flight

end Tidy

theorem tidy_played {moves : List office.Move} (begun : Desk.open? root size order clock draws server = .ok d)
    (whole : order.Perm (Pool.ids size.toNat)) (inTurn : Venue.Along InTurn (opened d) moves) :
    Tidy size.toNat (Venue.play (opened d) moves) := by
  have positive : 1 ≤ size := size_opened begun
  refine Venue.play_keeps_along (fun c m turn tidy => Tidy.move tidy (by omega) turn) inTurn (.opened ?_)
  exact pool_opened begun ▸ Pool.sound_fresh whole

-- While calls come one after another, every id of the pool is free, once, or reserved at all times, and a
-- call that fails leaves the free ids, their order included, and the reservations as it found them.
theorem failures_leave_no_trace (begun : Desk.open? root size order clock draws server = .ok d)
    (whole : order.Perm (Pool.ids size.toNat)) {moves : List office.Move} (inTurn : Venue.Along InTurn (opened d) moves) :
    (∀ k, let p := (Venue.play (opened d) (moves.take k)).shared.pool
      p.free.Nodup ∧ (∀ id ∈ p.free, ∀ expiry, (id, expiry) ∉ p.reserved) ∧
        ∀ id : Nat, (id ∈ p.free ∨ ∃ expiry, (id, expiry) ∈ p.reserved) ↔ 1 ≤ id ∧ (id : Int) ≤ size) ∧
    ∀ i hold error, (Venue.play (opened d) moves).flights[i]? = some ⟨hold, .fail error⟩ →
      Traceless ((Venue.play (opened d) moves).asked i) := by
  have positive : 1 ≤ size := size_opened begun
  constructor
  · intro k p
    have early : Venue.Along InTurn (opened d) (moves.take k) := by
      rw [← List.take_append_drop k moves, Venue.along_append] at inTurn
      exact inTurn.1
    obtain ⟨keyed, sound, complete⟩ := (tidy_played begun whole early).sound
    refine ⟨sound.once, fun id free => Pool.holder?_none.mp (sound.apart id free), ?_⟩
    intro id
    rw [complete.whole id]
    omega
  · intro i hold error failed
    exact (tidy_played begun whole inTurn).traceless i ⟨hold, .failed error, failed, by simp⟩

def relay : List office.Move :=
  [.change (.server telling), .start (.ofMillis 10), .step 0, .step 0, .change (.server refusing), .start (.ofMillis 20),
    .step 1, .change (.clock ⟨4000000, by decide⟩), .step 1, .step 1]

theorem inTurn_relay : Venue.Along InTurn (opened oneId) relay :=
  ⟨.server _, .start _, .step (Nat.le_refl _), .step (Nat.le_refl _), .server _, .start _, .step (Nat.le_refl _), .clock _,
    .step (Nat.le_refl _), .step (Nat.le_refl _), trivial⟩

theorem failures_leave_no_trace_relay :
    Venue.Along InTurn (opened oneId) relay ∧
      (Venue.play (opened oneId) relay).flights[1]? =
        some ⟨.ofMillis 20, .fail (.identityUnavailable "connection refused")⟩ ∧
      Traceless ((Venue.play (opened oneId) relay).asked 1) ∧
      (1, ⟨10000000, by decide⟩) ∈ (Venue.play (opened oneId) relay).shared.pool.reserved := by
  have begun : Desk.open? "" 1 [1] .epoch oneId.draws refusing = .ok oneId := rfl
  have failed : (Venue.play (opened oneId) relay).flights[1]? =
      some ⟨.ofMillis 20, .fail (.identityUnavailable "connection refused")⟩ := rfl
  exact ⟨inTurn_relay, failed, (failures_leave_no_trace begun (.refl _) inTurn_relay).2 1 _ _ failed, List.mem_singleton_self _⟩

end Forum.Identity
