import Forum.Proofs.Succession

namespace Forum.Identity

namespace Pool
variable {p : Pool} {id size : Nat} {now expiry : Instant}

theorem relist_alike (p : Pool) (listing : List (Nat × Instant)) : (p.relist listing).Alike p := by
  unfold relist
  split
  · rename_i same
    exact ⟨rfl, rfl, same⟩
  · exact .refl p

-- What becomes of a pool whose lapsed reservations are reclaimed at some instant: the free ids are then
-- those that nobody has until later, and the count says how many have come to those that were free.
structure Reclaimed (size : Nat) (now : Instant) (before : Pool) (count : Nat) (after : Pool) : Prop where
  once : after.free.Nodup
  free : ∀ id, id ∈ after.free ↔ (1 ≤ id ∧ id ≤ size) ∧ ¬before.IsHeld now id
  moved : ∃ ids, after.free = ids ++ before.free ∧ ids.length = count
  kept : ∀ id expiry, after.holder? id = some expiry ↔ before.holder? id = some expiry ∧ now < expiry

theorem Sound.mem_reclaim_free (sound : p.Sound size) :
    id ∈ (p.reclaim now).2.free ↔ (1 ≤ id ∧ id ≤ size) ∧ ¬p.IsHeld now id := by
  rw [Pool.mem_reclaim_free, ← sound.complete.whole id]
  constructor
  · intro free
    rcases free with ⟨expiry, there, lapsed⟩ | free
    · refine ⟨.inr ⟨expiry, there⟩, ?_⟩
      intro held
      obtain ⟨later, holds, after⟩ := held
      rw [sound.keyed.holder?_some.mpr there] at holds
      cases holds
      exact Int.not_le.mpr after lapsed
    · refine ⟨.inl free, ?_⟩
      intro held
      obtain ⟨later, holds, _⟩ := held
      rw [sound.noTwice.apart id free] at holds
      cases holds
  · intro known
    obtain ⟨free | ⟨expiry, there⟩, unheld⟩ := known
    · exact .inr free
    · refine .inl ⟨expiry, there, ?_⟩
      by_contra later
      exact unheld ⟨expiry, sound.keyed.holder?_some.mpr there, Int.not_le.mp later⟩

theorem Sound.reclaimed (sound : p.Sound size) (now : Instant) (listing : List (Nat × Instant)) :
    Reclaimed size now p ((p.relist listing).reclaim now).1 ((p.relist listing).reclaim now).2 := by
  have relisted := sound.relist listing
  have holders : ∀ id, (p.relist listing).holder? id = p.holder? id := sound.keyed.holder?_relist listing
  refine ⟨(relisted.reclaim now).noTwice.once, ?_, ?_, ?_⟩
  · intro id
    rw [relisted.mem_reclaim_free]
    simp only [IsHeld, holders]
  · refine ⟨_, congrArg _ (relist_free p listing), ?_⟩
    simp only [List.length_reverse, List.length_map, Pool.reclaim]
  · intro id expiry
    rw [relisted.keyed.holder?_reclaim, holders]
    exact and_congr_right fun _ => Int.not_le

theorem reclaim_none (lasting : ∀ entry ∈ p.reserved, ¬entry.2 ≤ now) : p.reclaim now = (0, p) := by
  have none : p.reserved.filter (·.2 ≤ now) = [] := by simpa [List.filter_eq_nil_iff] using lasting
  have all : p.reserved.filter (fun entry => ¬entry.2 ≤ now) = p.reserved := by
    simpa only [List.filter_eq_self, decide_eq_true_eq] using lasting
  simp only [reclaim, none, all, List.length_nil, List.map_nil, List.reverse_nil, List.nil_append]

theorem reclaim_again (p : Pool) (now : Instant) (listing : List (Nat × Instant)) :
    ((p.reclaim now).2.relist listing).reclaim now = (0, (p.reclaim now).2.relist listing) := by
  refine reclaim_none ?_
  intro entry member
  simpa using (List.mem_filter.mp (mem_relist.mp member)).2

theorem takeOver_held (p : Pool) (now : Instant) (draws : Draws) :
    p.IsHeld now (p.takeOver now draws) ↔
      (∀ random ∈ draws.picks.toList, p.IsHeld now (p.pick random)) ∧ p.IsHeld now (p.pick draws.last) := by
  unfold takeOver
  cases found : (draws.picks.toList.map p.pick).find? fun id => p.IsLapsed now id with
  | none =>
    have all : ∀ random ∈ draws.picks.toList, p.IsHeld now (p.pick random) := by
      intro random member
      have unlapsed := List.find?_eq_none.mp found _ (List.mem_map_of_mem member)
      exact isHeld_iff.mpr (by simpa using unlapsed)
    exact (and_iff_right all).symm
  | some id =>
    have lapsed : p.IsLapsed now id := by simpa using List.find?_some found
    obtain ⟨random, member, rfl⟩ := List.mem_map.mp (List.mem_of_find?_eq_some found)
    constructor
    · intro held
      exact absurd lapsed (isHeld_iff.mp held)
    · intro all
      exact absurd lapsed (isHeld_iff.mp (all.1 random member))

theorem NoTwice.replaces_iff (sound : p.NoTwice) (now expiry : Instant) (draws : Draws) :
    (∃ held, (p.allocate now expiry draws).1.previous = some held ∧ now < held) ↔
      p.free = [] ∧ (∀ random ∈ draws.picks.toList, p.IsHeld now (p.pick random)) ∧ p.IsHeld now (p.pick draws.last) := by
  by_cases empty : p.free = []
  · have took : (p.allocate now expiry draws).1 = ⟨p.takeOver now draws, p.holder? (p.takeOver now draws)⟩ := by
      simp only [Pool.allocate, empty]
    rw [took, ← takeOver_held, and_iff_right empty]
    rfl
  · rw [sound.popped empty]
    simp [empty]

end Pool

def grant? (e : Entry) : Option Reservation :=
  match e.question with
  | .allocate hold =>
    match (e.before.allocate hold).1 with
    | .done r => some r
    | _ => none
  | _ => none

theorem grant?_taken {d : Desk} {r : Reservation} (took : (d.allocate hold).1 = .done r) :
    grant? ⟨i, .allocate hold, d⟩ = some r := by
  simp only [grant?, took]

theorem grant?_refused {d : Desk} (failed : ∀ r, (d.allocate hold).1 ≠ .done r) : grant? ⟨i, .allocate hold, d⟩ = none := by
  unfold grant?
  dsimp only
  split
  · rename_i r took
    exact absurd took (failed r)
  · rfl

def grants (c : office.Crowd) (moves : List office.Move) : List Reservation := (Venue.history c moves).filterMap grant?

inductive Taking (c : office.Crowd) : office.Move → Prop
  | start (hold : Span) : Taking c (.start hold)
  | step {q : Question} {next : Outcome q.Value → Procedure ports Identity}
      (waits : c.flights[i]? = some ⟨hold, .ask q next⟩) (keeps : ∀ r, q ≠ .release r) : Taking c (.step i)
  | clock (now : Instant) : Taking c (.change (.clock now))
  | server (server : Server) : Taking c (.change (.server server))

theorem Taking.cases {c : office.Crowd} {m : office.Move} (taking : Taking c m) :
    ((Venue.logged c m).filterMap grant? = [] ∧ (Venue.move c m).shared.pool = c.shared.pool) ∨
    ∃ now expiry draws, (Venue.logged c m).filterMap grant? = [(c.shared.pool.allocate now expiry draws).1] ∧
      (Venue.move c m).shared.pool = (c.shared.pool.allocate now expiry draws).2 := by
  cases taking with
  | start hold => exact .inl ⟨rfl, rfl⟩
  | clock now => exact .inl ⟨rfl, rfl⟩
  | server server => exact .inl ⟨rfl, rfl⟩
  | step waits keeps =>
    rename_i i hold q next
    rw [Venue.move_step waits]
    have logged : Venue.logged c (.step i) = [⟨i, q, c.shared⟩] := by simp [Venue.logged, waits]
    rw [logged]
    cases q with
    | fetch id => exact .inl ⟨rfl, rfl⟩
    | release r => exact absurd rfl (keeps r)
    | allocate hold =>
      rcases Desk.allocate_cases c.shared hold with ⟨failed, same⟩ | ⟨expiry, _, took, pool⟩
      · refine .inl ⟨List.filterMap_cons_none (grant?_refused failed), ?_⟩
        exact congrArg Desk.pool same
      · exact .inr ⟨_, _, _, List.filterMap_cons_some (grant?_taken took), pool⟩

theorem grants_in_order {c : office.Crowd} {later : List office.Move} (taking : Venue.Along Taking c later)
    (sound : c.shared.pool.NoTwice) :
    (grants c later).take c.shared.pool.free.length =
      (c.shared.pool.free.take (grants c later).length).map fun id => ⟨id, none⟩ := by
  induction later generalizing c with
  | nil => simp only [grants, Venue.history, List.filterMap_nil, List.take_nil, List.length_nil, List.take_zero, List.map_nil]
  | cons m rest ih =>
    obtain ⟨here, there⟩ := taking
    have split : grants c (m :: rest) = (Venue.logged c m).filterMap grant? ++ grants (Venue.move c m) rest :=
      List.filterMap_append
    rcases here.cases with ⟨nothing, same⟩ | ⟨now, expiry, draws, one, pool⟩
    · rw [split, nothing, List.nil_append, ← same]
      exact ih there (same ▸ sound)
    · have later := ih there (pool ▸ sound.allocate now expiry draws)
      rw [pool] at later
      rw [split, one]
      rcases Pool.allocate_cases c.shared.pool now expiry draws with ⟨id, free, waiting, took⟩ | ⟨id, empty, _⟩
      · have unheld : c.shared.pool.holder? id = none := sound.apart id (waiting ▸ List.mem_cons_self)
        rw [took] at later ⊢
        simp only [waiting, unheld, List.singleton_append, List.length_cons, List.take_succ_cons, List.map_cons]
        exact congrArg _ later
      · simp only [empty, List.length_nil, List.take_zero, List.take_nil, List.map_nil]

-- While calls come one after another: once lapsed reservations are reclaimed, the free ids are those that
-- nobody has until later; from then on, and at any other time, as many allocations as ids are free get
-- different ids that were not reserved; and an id that somebody still has is taken over exactly if none
-- is free and each of the random picks, and the one that decides, is such an id.
theorem allocation_spares_holders (begun : Desk.open? root size order clock draws server = .ok d)
    (whole : order.Perm (Pool.ids size.toNat)) {moves : List office.Move} (inTurn : Venue.Along InTurn (opened d) moves) :
    let c := Venue.play (opened d) moves
    (∀ listing, let swept := Desk.reclaim { c.shared with pool := c.shared.pool.relist listing }
      Pool.Reclaimed size.toNat c.shared.clock c.shared.pool swept.1 swept.2.pool ∧
      ∀ again, let more := Desk.reclaim { swept.2 with pool := swept.2.pool.relist again }
        more.1 = 0 ∧ more.2.pool.Alike swept.2.pool) ∧
    (∀ later, Venue.Along Taking c later →
      let given := (grants c later).take c.shared.pool.free.length
      (given.map (·.id)).Nodup ∧ ∀ r ∈ given, r.previous = none ∧ c.shared.pool.holder? r.id = none) ∧
    ∀ hold r, (c.shared.allocate hold).1 = .done r →
      let chance := c.shared.draws c.shared.allocations
      ((∃ held, r.previous = some held ∧ c.shared.clock < held) ↔ c.shared.pool.free = [] ∧
        (∀ random ∈ chance.picks.toList, c.shared.pool.IsHeld c.shared.clock (c.shared.pool.pick random)) ∧
        c.shared.pool.IsHeld c.shared.clock (c.shared.pool.pick chance.last)) := by
  intro c
  have sound : c.shared.pool.Sound size.toNat := (tidy_played begun whole inTurn).sound
  refine ⟨?_, ?_, ?_⟩
  · intro listing swept
    refine ⟨sound.reclaimed c.shared.clock listing, ?_⟩
    intro again more
    have none := Pool.reclaim_again (c.shared.pool.relist listing) c.shared.clock again
    refine ⟨congrArg Prod.fst none, ?_⟩
    have pool : more.2.pool = swept.2.pool.relist again := congrArg Prod.snd none
    rw [pool]
    exact Pool.relist_alike _ _
  · intro later taking given
    have ordered : given = (c.shared.pool.free.take (grants c later).length).map fun id => ⟨id, none⟩ :=
      grants_in_order taking sound.noTwice
    -- They are the free list from its head on, which has no id twice and none that is reserved.
    rw [ordered]
    constructor
    · rw [List.map_map]
      simpa [Function.comp_def] using (List.take_sublist _ _).nodup sound.noTwice.once
    · intro r member
      obtain ⟨id, taken, rfl⟩ := List.mem_map.mp member
      exact ⟨rfl, sound.noTwice.apart id (List.mem_of_mem_take taken)⟩
  · intro hold r took chance
    rcases Desk.allocate_cases c.shared hold with ⟨failed, _⟩ | ⟨expiry, _, done, _⟩
    · exact absurd took (failed r)
    · cases took.symm.trans done
      exact sound.noTwice.replaces_iff _ _ _

def twoIds : Desk := { oneId with pool := .fresh [2, 1], server := telling }

def handedOut : List office.Move :=
  [.start (.ofMillis 10), .step 0, .step 0, .start (.ofMillis 20), .step 1, .step 1, .change (.clock ⟨12000000, by decide⟩)]

theorem inTurn_handedOut : Venue.Along InTurn (opened twoIds) handedOut :=
  ⟨.start _, .step (Nat.le_refl _), .step (Nat.le_refl _), .start _, .step (Nat.le_refl _), .step (Nat.le_refl _), .clock _,
    trivial⟩

theorem allocation_spares_holders_handedOut :
    let c := Venue.play (opened twoIds) handedOut
    ((grants (opened twoIds) [.start (.ofMillis 10), .start (.ofMillis 20), .step 0, .step 1]).map (·.id)).Nodup ∧
      (Desk.reclaim { c.shared with pool := c.shared.pool.relist [] }).1 = 1 ∧
      (∃ ids, (Desk.reclaim { c.shared with pool := c.shared.pool.relist [] }).2.pool.free = ids ++ [] ∧ ids.length = 1) ∧
      (c.shared.allocate (.ofMillis 20)).1 = .done ⟨1, some ⟨20000000, by decide⟩⟩ ∧
      c.shared.pool.IsHeld c.shared.clock (c.shared.pool.pick 0) := by
  intro c
  have begun : Desk.open? "" 2 [2, 1] .epoch oneId.draws telling = .ok twoIds := rfl
  have whole : [2, 1].Perm (Pool.ids 2) := .swap 1 2 []
  have resting : Venue.Along InTurn (opened twoIds) [] := trivial
  have before := allocation_spares_holders begun whole resting
  have after := allocation_spares_holders begun whole inTurn_handedOut
  have taking : Venue.Along Taking (opened twoIds) [.start (.ofMillis 10), .start (.ofMillis 20), .step 0, .step 1] :=
    ⟨.start _, .start _, .step rfl (by simp), .step rfl (by simp), trivial⟩
  have took : (c.shared.allocate (.ofMillis 20)).1 = .done ⟨1, some ⟨20000000, by decide⟩⟩ := rfl
  have later : c.shared.clock < ⟨20000000, by decide⟩ := by decide
  have held := ((after.2.2 _ _ took).mp ⟨_, rfl, later⟩).2.1
  refine ⟨(before.2.1 _ taking).1, rfl, (after.1 []).1.moved, took, held 0 ?_⟩
  exact List.mem_cons_self

end Forum.Identity
