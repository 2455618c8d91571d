import Forum.Proofs.Identities

namespace Forum.Identity
open Procedure (ofOutcome)

-- Where a call for an identity can stand, by what it has asked: it has taken an id, fetched the
-- character of that id, and given the id back if there is none. Only while it fetches can it be
-- dropped: it goes on from a failed fetch to the release without waiting.
inductive Providing (hold : Span) (i : Nat) : List Entry → Procedure ports Identity → Prop
  | allocate : Providing hold i [] (.ask (.allocate hold) allocated)
  | refused (outcome : Outcome Identity) (without : ∀ r, (s.allocate hold).1 ≠ .done r)
      (unprovided : ∀ identity, outcome ≠ .done identity) (ended : rest = ofOutcome outcome) :
      Providing hold i [⟨i, .allocate hold, s⟩] rest
  | fetch (took : (s.allocate hold).1 = .done r) :
      Providing hold i [⟨i, .allocate hold, s⟩] (.ask (.fetch r.id) (fetched r))
  | told (took : (s.allocate hold).1 = .done r) (told : t.fetch r.id = .ok identity) :
      Providing hold i [⟨i, .allocate hold, s⟩, ⟨i, .fetch r.id, t⟩] (.done identity)
  | release (took : (s.allocate hold).1 = .done r) (failed : t.fetch r.id = .error e) :
      Providing hold i [⟨i, .allocate hold, s⟩, ⟨i, .fetch r.id, t⟩] (.ask (.release r) (released e))
  | failed (took : (s.allocate hold).1 = .done r) (failed : t.fetch r.id = .error e) :
      Providing hold i [⟨i, .allocate hold, s⟩, ⟨i, .fetch r.id, t⟩, ⟨i, .release r, u⟩] (.fail e)

theorem provides : Venue.Stages (V := office) fun i hold => Providing hold i where
  opened := by
    intro i hold
    change Providing hold i [] (provide hold)
    rw [provide_eq]
    exact .allocate
  asked := by
    intro i hold mine q next s stage
    cases stage with
    | allocate =>
      change Providing hold i _ (allocated (s.allocate hold).1)
      cases took : (s.allocate hold).1 with
      | done r => exact .fetch took
      | failed e => exact .refused (.failed e) (by simp [took]) (by simp) rfl
      | crashed => exact .refused .crashed (by simp [took]) (by simp) rfl
    | refused _ _ _ ended => exact absurd ended.symm (Procedure.ofOutcome_ne_ask _)
    | fetch took =>
      rename_i t r
      change Providing hold i _ (fetched r (.ofExcept (s.fetch r.id)))
      cases told : s.fetch r.id with
      | ok identity => exact .told took told
      | error e => exact .release took told
    | release took failed => exact .failed took failed

theorem Providing.returned (stage : Providing hold i mine (.done identity)) :
    ∃ s r t, mine = [⟨i, .allocate hold, s⟩, ⟨i, .fetch r.id, t⟩] ∧ (s.allocate hold).1 = .done r ∧
      t.fetch r.id = .ok identity := by
  cases stage with
  | refused _ _ unprovided ended =>
    have same : (ofOutcome (.done identity) : Procedure ports Identity) = ofOutcome _ := ended
    exact absurd (Procedure.ofOutcome_inj same).symm (unprovided identity)
  | told took told => exact ⟨_, _, _, rfl, took, told⟩

theorem providing_opened (d : Desk) : Venue.Staged (V := office) (fun i hold => Providing hold i) (opened d) where
  known := by simp [opened]
  stands := by simp [opened]

theorem providing_played (d : Desk) (moves : List office.Move) :
    Venue.Staged (fun i hold => Providing hold i) (Venue.play (opened d) moves) :=
  Venue.play_staged provides moves (providing_opened d)

namespace Desk
variable {d : Desk} {size : Nat}

theorem complete_allocate (complete : d.pool.Complete size) (nonempty : 0 < size) (hold : Span) :
    (d.allocate hold).2.pool.Complete size ∧ ∀ r, (d.allocate hold).1 = .done r → 1 ≤ r.id ∧ r.id ≤ size := by
  rcases allocate_cases d hold with ⟨failed, same⟩ | ⟨expiry, _, took, pool⟩
  · rw [same]
    exact ⟨complete, fun r took => absurd took (failed r)⟩
  · rw [pool]
    refine ⟨complete.allocate nonempty _ _ _, ?_⟩
    intro r took'
    cases took.symm.trans took'
    exact complete.range nonempty _ _ _

theorem complete_turn (complete : d.pool.Complete size) (x : Turn) : (turn x d).pool.Complete size := by
  cases x with
  | clock now => exact complete
  | server server => exact complete
  | reclaim listing => exact (complete.relist listing).reclaim d.clock

end Desk

theorem size_opened (begun : Desk.open? root size order clock draws server = .ok d) : 1 ≤ size := by
  unfold Desk.open? at begun
  split at begun
  · cases begun
  · omega

structure Conserved (size : Nat) (c : office.Crowd) : Prop where
  complete : c.shared.pool.Complete size
  taken : ∀ i hold s r, ⟨i, .allocate hold, s⟩ ∈ c.log → (s.allocate hold).1 = .done r → 1 ≤ r.id ∧ r.id ≤ size

namespace Conserved
variable {size : Nat} {c : office.Crowd}

theorem ask {q : Question} {next : Outcome q.Value → Procedure ports Identity} (conserved : Conserved size c)
    (nonempty : 0 < size) (stage : Providing hold i (c.asked i) (.ask q next)) :
    Conserved size (Venue.ask (V := office) c i hold q next) := by
  have old : ∀ {r : Reservation} {s : Desk}, ⟨i, .allocate hold, s⟩ ∈ c.asked i → (s.allocate hold).1 = .done r →
      1 ≤ r.id ∧ r.id ≤ size := by
    intro r s member took
    exact conserved.taken i hold s r (Venue.mem_asked.mp member).1 took
  refine ⟨?_, ?_⟩
  · change (c.shared.answer q).2.pool.Complete size
    generalize asked : c.asked i = mine at stage old
    cases stage with
    | allocate => exact (Desk.complete_allocate conserved.complete nonempty hold).1
    | refused _ _ _ ended => exact absurd ended.symm (Procedure.ofOutcome_ne_ask _)
    | fetch took => exact conserved.complete
    | release took failed => exact conserved.complete.release (old List.mem_cons_self took)
  · intro j hold' s r member took
    rcases List.mem_append.mp member with before | now
    · exact conserved.taken j hold' s r before took
    · cases List.mem_singleton.mp now
      exact (Desk.complete_allocate conserved.complete nonempty hold').2 r took

theorem play {d : Desk} (complete : d.pool.Complete size) (nonempty : 0 < size) (moves : List office.Move) :
    Conserved size (Venue.play (opened d) moves) := by
  refine Venue.play_keeps_staged provides moves ?_ ?_ ?_ (providing_opened d) ⟨complete, by simp [opened]⟩
  · intro c hold conserved
    exact ⟨conserved.complete, conserved.taken⟩
  · intro c i hold q next _ stage conserved
    exact conserved.ask nonempty stage
  · intro c x conserved
    exact ⟨Desk.complete_turn conserved.complete x, conserved.taken⟩

end Conserved

-- However calls overlap, end or are dropped, the free ids and the reserved ones are together the ids of
-- the pool, and so is every id that a call has taken, asked for or got the character of.
theorem ids_conserved (begun : Desk.open? root size order clock draws server = .ok d)
    (whole : order.Perm (Pool.ids size.toNat)) (moves : List office.Move) :
    let c := Venue.play (opened d) moves
    (∀ id : Nat, (id ∈ c.shared.pool.free ∨ ∃ expiry, (id, expiry) ∈ c.shared.pool.reserved) ↔ 1 ≤ id ∧ (id : Int) ≤ size) ∧
    (∀ i hold s r, ⟨i, .allocate hold, s⟩ ∈ c.log → (s.allocate hold).1 = .done r → 1 ≤ r.id ∧ (r.id : Int) ≤ size) ∧
    ∀ i hold identity, c.flights[i]? = some ⟨hold, .done identity⟩ →
      ∃ (id : Nat) (t : Desk), ⟨i, .fetch id, t⟩ ∈ c.log ∧ t.fetch id = .ok identity ∧ 1 ≤ id ∧ (id : Int) ≤ size := by
  intro c
  have positive : 1 ≤ size := size_opened begun
  have conserved : Conserved size.toNat c :=
    Conserved.play (pool_opened begun ▸ Pool.complete_fresh whole) (by omega) moves
  refine ⟨?_, ?_, ?_⟩
  · intro id
    rw [conserved.complete.whole id]
    omega
  · intro i hold s r member took
    have range := conserved.taken i hold s r member took
    omega
  · intro i hold identity returned
    have stage : Providing hold i (c.asked i) (.done identity) := (providing_played d moves).stands i _ returned
    obtain ⟨s, r, t, asked, took, told⟩ := stage.returned
    have logged : ∀ e ∈ c.asked i, e ∈ c.log := fun e member => (Venue.mem_asked.mp member).1
    rw [asked] at logged
    have range := conserved.taken i hold s r (logged _ List.mem_cons_self) took
    exact ⟨r.id, t, logged _ (List.mem_cons_of_mem _ (List.mem_singleton_self _)), told, range.1, by omega⟩

theorem ids_conserved_overlap :
    let c := Venue.play (opened oneId) overlap
    (1 ∈ c.shared.pool.free ∧ (1, ⟨10000000, by decide⟩) ∈ c.shared.pool.reserved) ∧
      ∀ id : Nat, (id ∈ c.shared.pool.free ∨ ∃ expiry, (id, expiry) ∈ c.shared.pool.reserved) ↔ 1 ≤ id ∧ (id : Int) ≤ 1 := by
  have begun : Desk.open? "" 1 [1] .epoch oneId.draws refusing = .ok oneId := rfl
  exact ⟨⟨List.mem_singleton_self 1, List.mem_singleton_self _⟩, (ids_conserved begun (.refl _) overlap).1⟩

-- Books on the reservations: whose each one is, and whose it was that each call replaced. An entry
-- counts for as long as its id is reserved.
structure Books where
  maker : Nat → Option Nat
  before : Nat → Option Nat

def Books.note (b : Books) (e : Entry) : Books :=
  match e.question with
  | .allocate hold =>
    match (e.before.allocate hold).1 with
    | .done r => ⟨Function.update b.maker r.id (some e.call), Function.update b.before e.call (b.maker r.id)⟩
    | _ => b
  | .fetch _ => b
  | .release r => { b with maker := Function.update b.maker r.id (if r.previous.isSome then b.before e.call else none) }

theorem Books.note_taken (b : Books) {d : Desk} {r : Reservation} (took : (d.allocate hold).1 = .done r) :
    b.note ⟨i, .allocate hold, d⟩ = ⟨Function.update b.maker r.id (some i), Function.update b.before i (b.maker r.id)⟩ := by
  simp only [note, took]

theorem Books.note_refused (b : Books) {d : Desk} (failed : ∀ r, (d.allocate hold).1 ≠ .done r) :
    b.note ⟨i, .allocate hold, d⟩ = b := by
  unfold note
  dsimp only
  split
  · rename_i r took
    exact absurd took (failed r)
  · rfl

def books (log : List Entry) : Books := log.foldl Books.note ⟨fun _ => none, fun _ => none⟩

theorem books_concat (log : List Entry) (e : Entry) : books (log ++ [e]) = (books log).note e := List.foldl_concat _ _ _ _

def Made (log : List Entry) (i id : Nat) (expiry : Instant) : Prop :=
  ∃ hold s r, ⟨i, .allocate hold, s⟩ ∈ log ∧ (s.allocate hold).1 = .done r ∧ r.id = id ∧ s.clock.add? hold = some expiry

def Released (log : List Entry) (i : Nat) : Prop := ∃ r s, ⟨i, .release r, s⟩ ∈ log

-- What a call had reserved was put back by another one, which had replaced it, after the call itself
-- had given it up.
def Revived (log : List Entry) (i id : Nat) (expiry : Instant) : Prop :=
  ∃ early j s late, log = early ++ ⟨j, .release ⟨id, some expiry⟩, s⟩ :: late ∧ (books early).before j = some i ∧
    Released early i

section
variable {log : List Entry} {i id : Nat} {expiry : Instant}

theorem Made.concat (made : Made log i id expiry) (e : Entry) : Made (log ++ [e]) i id expiry := by
  obtain ⟨hold, s, r, member, took, same, sum⟩ := made
  exact ⟨hold, s, r, List.mem_append_left _ member, took, same, sum⟩

theorem Released.concat {e : Entry} (released : Released (log ++ [e]) i) :
    Released log i ∨ ∃ r, e.call = i ∧ e.question = .release r := by
  obtain ⟨r, s, member⟩ := released
  rcases List.mem_append.mp member with old | new
  · exact .inl ⟨r, s, old⟩
  · cases List.mem_singleton.mp new
    exact .inr ⟨r, rfl, rfl⟩

theorem Revived.concat (revived : Revived log i id expiry) (e : Entry) : Revived (log ++ [e]) i id expiry := by
  obtain ⟨early, j, s, late, same, before, released⟩ := revived
  exact ⟨early, j, s, late ++ [e], by rw [same, List.append_assoc, List.cons_append], before, released⟩

theorem Revived.released (revived : Revived log i id expiry) : Released log i := by
  obtain ⟨early, j, s, late, same, _, r, t, member⟩ := revived
  exact ⟨r, t, same ▸ List.mem_append_left _ member⟩

end

-- A reservation has a maker in the books, and if the maker has given it up, it is there again because
-- somebody put it back.
def Attributed (log : List Entry) (id : Nat) (expiry : Instant) : Prop :=
  ∃ i, (books log).maker id = some i ∧ Made log i id expiry ∧ (Released log i → Revived log i id expiry)

def Remembered (log : List Entry) (i id : Nat) (expiry : Instant) : Prop :=
  ∃ j, (books log).before i = some j ∧ j ≠ i ∧ Made log j id expiry

structure Accounted (p : Pool) (log : List Entry) : Prop where
  keyed : p.Keyed
  held : ∀ id expiry, (id, expiry) ∈ p.reserved → Attributed log id expiry
  replaced : ∀ i hold s r expiry, ⟨i, .allocate hold, s⟩ ∈ log → (s.allocate hold).1 = .done r → r.previous = some expiry →
    Remembered log i r.id expiry

namespace Accounted
variable {p : Pool} {log : List Entry} {d : Desk} {e : Entry} {i : Nat} {hold : Span} {r : Reservation}

theorem kept {id : Nat} {expiry : Instant} (accounted : Accounted p log) (there : (id, expiry) ∈ p.reserved)
    (same : ((books log).note e).maker id = (books log).maker id)
    (others : ∀ r, e.question = .release r → ¬Made log e.call id expiry) : Attributed (log ++ [e]) id expiry := by
  obtain ⟨j, maker, made, revived⟩ := accounted.held id expiry there
  refine ⟨j, by rw [books_concat, same, maker], made.concat e, ?_⟩
  intro released
  rcases released.concat with old | ⟨r, rfl, question⟩
  · exact (revived old).concat e
  · exact absurd made (others r question)

theorem knows (accounted : Accounted p log) (same : ((books log).note e).before = (books log).before)
    (others : ∀ hold r, e.question = .allocate hold → (e.before.allocate hold).1 ≠ .done r) :
    ∀ i hold s r expiry, ⟨i, .allocate hold, s⟩ ∈ log ++ [e] → (s.allocate hold).1 = .done r → r.previous = some expiry →
      Remembered (log ++ [e]) i r.id expiry := by
  intro i hold s r expiry member took replaced
  rcases List.mem_append.mp member with old | new
  · obtain ⟨j, before, other, made⟩ := accounted.replaced i hold s r expiry old took replaced
    exact ⟨j, by rw [books_concat, same, before], other, made.concat e⟩
  · cases List.mem_singleton.mp new
    exact absurd took (others hold r rfl)

theorem allocate (accounted : Accounted d.pool log) (strange : ∀ e ∈ log, e.call ≠ i) :
    Accounted (d.allocate hold).2.pool (log ++ [⟨i, .allocate hold, d⟩]) := by
  have keyed := Desk.keyed_answer accounted.keyed (.allocate hold)
  rcases Desk.allocate_cases d hold with ⟨failed, same⟩ | ⟨expiry, sum, took, pool⟩
  · have blank := (books log).note_refused (i := i) failed
    rw [same]
    refine ⟨accounted.keyed, ?_, accounted.knows (by rw [blank]) ?_⟩
    · intro id expiry there
      exact accounted.kept there (by rw [blank]) (by simp)
    · intro hold' r question
      cases question
      exact failed r
  · have puts := Pool.allocate_puts d.pool d.clock expiry (d.draws d.allocations)
    generalize d.pool.allocate d.clock expiry (d.draws d.allocations) = reply at took pool puts
    obtain ⟨r, after⟩ := reply
    obtain ⟨reserved, previous⟩ := puts
    have noted := (books log).note_taken (i := i) took
    refine ⟨keyed, ?_, ?_⟩
    · intro id until' there
      rw [pool, reserved] at there
      rcases Pool.mem_put.mp there with ⟨rfl, rfl⟩ | ⟨old, other⟩
      · refine ⟨i, by rw [books_concat, noted]; exact Function.update_self _ _ _, ?_, ?_⟩
        · exact ⟨hold, d, r, List.mem_append_right _ (List.mem_singleton_self _), took, rfl, sum⟩
        · intro released
          rcases released.concat with ⟨_, _, old⟩ | ⟨_, _, question⟩
          · exact absurd rfl (strange _ old)
          · cases question
      · refine accounted.kept old ?_ (by simp)
        rw [noted]
        exact Function.update_of_ne other _ _
    · intro j hold' s r' until' member took' replaced
      unfold Remembered
      rw [books_concat, noted]
      rcases List.mem_append.mp member with old | new
      · obtain ⟨k, before, other, made⟩ := accounted.replaced j hold' s r' until' old took' replaced
        exact ⟨k, (Function.update_of_ne (strange _ old) _ _).trans before, other, made.concat _⟩
      · cases List.mem_singleton.mp new
        cases took.symm.trans took'
        have there : (r.id, until') ∈ d.pool.reserved := accounted.keyed.holder?_some.mp (previous.symm.trans replaced)
        -- What is replaced was reserved, so the books have its maker.
        obtain ⟨k, maker, made, _⟩ := accounted.held r.id until' there
        have other : k ≠ i := by
          obtain ⟨_, _, _, asked, _⟩ := made
          exact strange _ asked
        exact ⟨k, (Function.update_self _ _ _).trans maker, other, made.concat _⟩

theorem fetch (accounted : Accounted p log) (id : Nat) : Accounted p (log ++ [⟨i, .fetch id, d⟩]) := by
  refine ⟨accounted.keyed, ?_, accounted.knows rfl (by simp)⟩
  intro id expiry there
  exact accounted.kept there rfl (by simp)

theorem release (accounted : Accounted p log) (mine : ⟨i, .allocate hold, s⟩ ∈ log) (took : (s.allocate hold).1 = .done r)
    (only : ∀ hold' s', ⟨i, .allocate hold', s'⟩ ∈ log → hold' = hold ∧ s' = s) :
    Accounted (p.release r) (log ++ [⟨i, .release r, d⟩]) := by
  have untouched : ∀ id expiry, (id, expiry) ∈ p.reserved → id ≠ r.id → Attributed (log ++ [⟨i, .release r, d⟩]) id expiry := by
    intro id expiry there other
    refine accounted.kept there (Function.update_of_ne other _ _) ?_
    intro _ _ made
    obtain ⟨hold', s', r', member, took', same, _⟩ := made
    obtain ⟨rfl, rfl⟩ := only hold' s' member
    cases took.symm.trans took'
    exact other same.symm
  refine ⟨accounted.keyed.release r, ?_, accounted.knows rfl (by simp)⟩
  intro id expiry there
  unfold Pool.release at there
  cases previous : r.previous with
  | some until' =>
    rw [previous] at there
    rcases Pool.mem_put.mp there with ⟨rfl, rfl⟩ | ⟨old, other⟩
    · obtain ⟨j, before, other, made⟩ := accounted.replaced i hold s r expiry mine took previous
      have noted : ((books log).note ⟨i, .release r, d⟩).maker r.id = (books log).before i := by
        simp only [Books.note, previous, Option.isSome_some, if_true, Function.update_self]
      refine ⟨j, by rw [books_concat, noted, before], made.concat _, ?_⟩
      intro released
      rcases released.concat with old | ⟨_, same, _⟩
      · exact ⟨log, i, d, [], by rw [← previous], before, old⟩
      · exact absurd same.symm other
    · exact untouched id expiry old other
  | none =>
    rw [previous] at there
    dsimp only at there
    split at there
    · obtain ⟨old, other⟩ := List.mem_filter.mp there
      exact untouched id expiry old (by simpa using other)
    · rename_i unheld
      refine untouched id expiry there ?_
      intro same
      subst same
      rw [accounted.keyed.holder?_some.mpr there] at unheld
      exact unheld rfl

theorem turn (accounted : Accounted d.pool log) (x : Turn) : Accounted (turn x d).pool log := by
  refine ⟨Desk.keyed_turn accounted.keyed x, ?_, accounted.replaced⟩
  intro id expiry there
  refine accounted.held id expiry ?_
  cases x with
  | clock now => exact there
  | server server => exact there
  | reclaim listing => exact Pool.mem_relist.mp (List.mem_filter.mp there).1

theorem play (begun : Desk.open? root size order clock draws server = .ok d) (moves : List office.Move) :
    Accounted (Venue.play (opened d) moves).shared.pool (Venue.play (opened d) moves).log := by
  refine Venue.play_keeps_staged (P := fun c => Accounted c.shared.pool c.log) provides moves ?_ ?_ ?_ (providing_opened d) ?_
  · intro c hold accounted
    exact accounted
  · intro c i hold q next _ stage accounted
    change Accounted (c.shared.answer q).2.pool (c.log ++ [⟨i, q, c.shared⟩])
    have logged : ∀ e, e ∈ c.asked i ↔ e ∈ c.log ∧ e.call = i := fun e => Venue.mem_asked
    generalize c.asked i = mine at stage logged
    cases stage with
    | allocate =>
      refine accounted.allocate ?_
      intro e member same
      exact absurd ((logged e).mpr ⟨member, same⟩) List.not_mem_nil
    | refused _ _ _ ended => exact absurd ended.symm (Procedure.ofOutcome_ne_ask _)
    | fetch took => exact accounted.fetch _
    | release took failed =>
      refine accounted.release ((logged _).mp List.mem_cons_self).1 took ?_
      intro hold' s' member
      simpa using (logged _).mpr ⟨member, rfl⟩
  · intro c x accounted
    exact accounted.turn x
  · rw [opened, pool_opened begun]
    exact ⟨Pool.keyed_fresh order, by simp [Pool.fresh], by simp⟩

end Accounted

def Returned (c : office.Crowd) (i : Nat) : Prop := ∃ hold identity, c.flights[i]? = some ⟨hold, .done identity⟩

def Fetching (c : office.Crowd) (i : Nat) : Prop := ∃ hold id next, c.flights[i]? = some ⟨hold, .ask (.fetch id) next⟩

-- No call is at work: those that have not ended have been dropped. A call waits to be told a
-- character, but never to give its id back.
def AtRest (c : office.Crowd) : Prop :=
  ∀ (i : Nat) (hold : Span) (r : Reservation) (next : Outcome Unit → Procedure ports Identity),
    c.flights[i]? ≠ some ⟨hold, .ask (.release r) next⟩

section
variable {c : office.Crowd} {i id : Nat} {expiry : Instant}

theorem Returned.not_fetching (returned : Returned c i) : ¬Fetching c i := by
  intro fetching
  obtain ⟨_, _, flight⟩ := returned
  obtain ⟨_, _, _, waits⟩ := fetching
  cases flight.symm.trans waits

theorem Returned.not_released (staged : Venue.Staged (fun i hold => Providing hold i) c) (returned : Returned c i) :
    ¬Released c.log i := by
  intro released
  obtain ⟨hold, identity, flight⟩ := returned
  obtain ⟨r, u, member⟩ := released
  have stage : Providing hold i (c.asked i) (.done identity) := staged.stands i _ flight
  obtain ⟨s, r', t, asked, _⟩ := stage.returned
  have mine : ⟨i, .release r, u⟩ ∈ c.asked i := Venue.mem_asked.mpr ⟨member, rfl⟩
  simp [asked] at mine

theorem Made.stands (staged : Venue.Staged (fun i hold => Providing hold i) c) (rest : AtRest c) (made : Made c.log i id expiry) :
    Returned c i ∨ Fetching c i ∨ Released c.log i := by
  obtain ⟨hold, s, r, member, took, _⟩ := made
  obtain ⟨⟨call, left⟩, flight⟩ : ∃ f, c.flights[i]? = some f := ⟨_, List.getElem?_eq_getElem (staged.known _ member)⟩
  have stage : Providing call i (c.asked i) left := staged.stands i _ flight
  have logged : ∀ e, e ∈ c.asked i ↔ e ∈ c.log ∧ e.call = i := fun e => Venue.mem_asked
  have mine : ⟨i, .allocate hold, s⟩ ∈ c.asked i := (logged _).mpr ⟨member, rfl⟩
  generalize c.asked i = asked at stage logged mine
  cases stage with
  | allocate => cases mine
  | refused _ without _ _ =>
    cases List.mem_singleton.mp mine
    exact absurd took (without r)
  | fetch took => exact .inr (.inl ⟨_, _, _, flight⟩)
  | told took told => exact .inl ⟨_, _, flight⟩
  | release took failed => exact absurd flight (rest i _ _ _)
  | failed took failed =>
    exact .inr (.inr ⟨_, _, ((logged _).mp (List.mem_cons_of_mem _ (List.mem_cons_of_mem _ List.mem_cons_self))).1⟩)

end

-- Once nothing is at work, whoever made a reservation has returned an identity, or was dropped while
-- it was fetching one, or has given the id up and had the reservation put back by another call that
-- had replaced it. So every reservation is that of a call that returned exactly if none is a dropped
-- call's and none was put back too late.
theorem makers_returned_iff (begun : Desk.open? root size order clock draws server = .ok d) {c : office.Crowd}
    {moves : List office.Move} (reached : c = Venue.play (opened d) moves) (rest : AtRest c) :
    (∀ id expiry, (id, expiry) ∈ c.shared.pool.reserved → ∃ i, (books c.log).maker id = some i ∧
      Made c.log i id expiry ∧ (Returned c i ∨ Fetching c i ∨ Revived c.log i id expiry)) ∧
    ((∀ id expiry, (id, expiry) ∈ c.shared.pool.reserved → ∃ i, (books c.log).maker id = some i ∧ Returned c i) ↔
      ∀ id expiry, (id, expiry) ∈ c.shared.pool.reserved → ∀ i, (books c.log).maker id = some i →
        ¬Fetching c i ∧ ¬Revived c.log i id expiry) := by
  have staged : Venue.Staged (fun i hold => Providing hold i) c := reached ▸ providing_played d moves
  have accounted : Accounted c.shared.pool c.log := reached ▸ Accounted.play begun moves
  have accounts : ∀ id expiry, (id, expiry) ∈ c.shared.pool.reserved → ∃ i, (books c.log).maker id = some i ∧
      Made c.log i id expiry ∧ (Returned c i ∨ Fetching c i ∨ Revived c.log i id expiry) := by
    intro id expiry there
    obtain ⟨i, maker, made, revived⟩ := accounted.held id expiry there
    exact ⟨i, maker, made, (made.stands staged rest).imp_right fun others => others.imp_right revived⟩
  refine ⟨accounts, ?_, ?_⟩
  · intro all id expiry there i maker
    obtain ⟨j, maker', returned⟩ := all id expiry there
    cases maker.symm.trans maker'
    exact ⟨returned.not_fetching, fun revived => returned.not_released staged revived.released⟩
  · intro none id expiry there
    obtain ⟨i, maker, _, stands⟩ := accounts id expiry there
    obtain ⟨notFetching, notRevived⟩ := none id expiry there i maker
    rcases stands with returned | fetching | revived
    · exact ⟨i, maker, returned⟩
    · exact absurd fetching notFetching
    · exact absurd revived notRevived

def abandoned : List office.Move := [.start (.ofMillis 10), .step 0]

theorem atRest_abandoned : AtRest (Venue.play (opened oneId) abandoned) := by
  intro i hold r next waits
  rcases i with _ | i
  · cases waits
  · cases waits

theorem atRest_overlap : AtRest (Venue.play (opened oneId) overlap) := by
  intro i hold r next waits
  rcases i with _ | _ | i
  · cases waits
  · cases waits
  · cases waits

theorem makers_returned_iff_overlap :
    let c := Venue.play (opened oneId) overlap
    AtRest c ∧ (1, ⟨10000000, by decide⟩) ∈ c.shared.pool.reserved ∧ (books c.log).maker 1 = some 0 ∧
      Revived c.log 0 1 ⟨10000000, by decide⟩ := by
  intro c
  have begun : Desk.open? "" 1 [1] .epoch oneId.draws refusing = .ok oneId := rfl
  have there : (1, ⟨10000000, by decide⟩) ∈ c.shared.pool.reserved := List.mem_singleton_self _
  obtain ⟨i, maker, _, stands⟩ := (makers_returned_iff begun rfl atRest_overlap).1 1 _ there
  have first : (books c.log).maker 1 = some 0 := rfl
  cases first.symm.trans maker
  refine ⟨atRest_overlap, there, first, ?_⟩
  rcases stands with ⟨_, _, flight⟩ | ⟨_, _, _, flight⟩ | revived
  · cases flight
  · cases flight
  · exact revived

-- A call that is dropped while it is fetching leaves its reservation behind, and so do two calls that
-- overlap and both fail. Nobody was told a character.
theorem reservation_without_holder :
    (AtRest (Venue.play (opened oneId) abandoned) ∧
      (Venue.play (opened oneId) abandoned).shared.pool.reserved = [(1, ⟨10000000, by decide⟩)] ∧
      ∀ i, ¬Returned (Venue.play (opened oneId) abandoned) i) ∧
    AtRest (Venue.play (opened oneId) overlap) ∧
      (Venue.play (opened oneId) overlap).shared.pool.reserved = [(1, ⟨10000000, by decide⟩)] ∧
      ∀ i, ¬Returned (Venue.play (opened oneId) overlap) i := by
  refine ⟨⟨atRest_abandoned, rfl, ?_⟩, atRest_overlap, rfl, ?_⟩
  · intro i returned
    obtain ⟨_, _, flight⟩ := returned
    rcases i with _ | i
    · cases flight
    · cases flight
  · intro i returned
    obtain ⟨_, _, flight⟩ := returned
    rcases i with _ | _ | i
    · cases flight
    · cases flight
    · cases flight

end Forum.Identity
