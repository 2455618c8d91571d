import Forum.Proofs.Pool

namespace Forum.Identity

-- What happens at a desk between two questions: the clock is set, the other server changes what it
-- says, or lapsed reservations are reclaimed, in some order.
inductive Turn
  | clock (now : Instant)
  | server (server : Server)
  | reclaim (listing : List (Nat × Instant))

def turn : Turn → Desk → Desk
  | .clock clock, d => { d with clock }
  | .server server, d => { d with server }
  | .reclaim listing, d => (Desk.reclaim { d with pool := d.pool.relist listing }).2

abbrev office : Venue ports Desk := ⟨Span, fun _ => Identity, provide, Desk.answer, Turn, turn⟩

abbrev Entry := Asked ports Desk

def opened (d : Desk) : office.Crowd := { shared := d }

namespace Desk
variable {d : Desk} {id : Nat} {expiry : Instant}

theorem allocate_cases (d : Desk) (hold : Span) :
    ((∀ r, (d.allocate hold).1 ≠ .done r) ∧ (d.allocate hold).2 = d) ∨
    ∃ expiry, d.clock.add? hold = some expiry ∧
      (d.allocate hold).1 = .done (d.pool.allocate d.clock expiry (d.draws d.allocations)).1 ∧
      (d.allocate hold).2.pool = (d.pool.allocate d.clock expiry (d.draws d.allocations)).2 := by
  unfold allocate
  split
  · exact .inl ⟨by simp, rfl⟩
  · split
    · exact .inl ⟨by simp, rfl⟩
    · rename_i expiry sum
      exact .inr ⟨expiry, sum, rfl, rfl⟩

theorem keyed_answer (keyed : d.pool.Keyed) (q : Question) : (d.answer q).2.pool.Keyed := by
  cases q with
  | allocate hold =>
    change (d.allocate hold).2.pool.Keyed
    rcases allocate_cases d hold with ⟨_, same⟩ | ⟨expiry, _, _, pool⟩
    · rw [same]; exact keyed
    · rw [pool]; exact keyed.allocate _ _ _
  | fetch id => exact keyed
  | release r => exact keyed.release r

theorem keyed_turn (keyed : d.pool.Keyed) (x : Turn) : (turn x d).pool.Keyed := by
  cases x with
  | clock now => exact keyed
  | server server => exact keyed
  | reclaim listing => exact (keyed.relist listing).reclaim d.clock

theorem noTwice_turn (sound : d.pool.NoTwice) (keyed : d.pool.Keyed) (x : Turn) : (turn x d).pool.NoTwice := by
  cases x with
  | clock now => exact sound
  | server server => exact sound
  | reclaim listing => exact (sound.relist keyed listing).reclaim (keyed.relist listing) d.clock

theorem noTwice_answer (sound : d.pool.NoTwice) (q : Question) :
    (d.answer q).2.pool.NoTwice ↔ ¬∃ id expiry, q = .release ⟨id, some expiry⟩ ∧ id ∈ d.pool.free := by
  cases q with
  | allocate hold =>
    simp only [reduceCtorEq, false_and, exists_false, not_false_eq_true, iff_true]
    change (d.allocate hold).2.pool.NoTwice
    rcases allocate_cases d hold with ⟨_, same⟩ | ⟨expiry, _, _, pool⟩
    · rw [same]; exact sound
    · rw [pool]; exact sound.allocate _ _ _
  | fetch id =>
    simp only [reduceCtorEq, false_and, exists_false, not_false_eq_true, iff_true]
    exact sound
  | release r =>
    obtain ⟨id, previous⟩ := r
    refine (sound.release_iff ⟨id, previous⟩).trans (not_congr ?_)
    constructor
    · intro reinstates
      obtain ⟨expiry, rfl, member⟩ := reinstates
      exact ⟨id, expiry, rfl, member⟩
    · intro asked
      obtain ⟨_, expiry, same, member⟩ := asked
      cases same
      exact ⟨expiry, rfl, member⟩

theorem holds_turn (holds : d.pool.Holds id expiry) (keyed : d.pool.Keyed) (early : d.clock < expiry) (x : Turn) :
    (turn x d).pool.Holds id expiry := by
  cases x with
  | clock now => exact holds
  | server server => exact holds
  | reclaim listing => exact (holds.relist keyed listing).reclaim (keyed.relist listing) early

def Picks (d : Desk) (q : Question) (id : Nat) : Prop :=
  ∃ hold r, q = .allocate hold ∧ (d.allocate hold).1 = .done r ∧ r.id = id

theorem holds_answer (holds : d.pool.Holds id expiry) {q : Question} (other : ¬d.Picks q id) :
    (d.answer q).2.pool.Holds id expiry ↔ ¬∃ previous, q = .release ⟨id, previous⟩ ∧ previous ≠ some expiry := by
  cases q with
  | allocate hold =>
    simp only [reduceCtorEq, false_and, exists_false, not_false_eq_true, iff_true]
    change (d.allocate hold).2.pool.Holds id expiry
    rcases allocate_cases d hold with ⟨_, same⟩ | ⟨expiry', _, took, pool⟩
    · rw [same]; exact holds
    · rw [pool]
      exact holds.allocate fun same => other ⟨hold, _, rfl, took, same⟩
  | fetch id =>
    simp only [reduceCtorEq, false_and, exists_false, not_false_eq_true, iff_true]
    exact holds
  | release r =>
    obtain ⟨key, previous⟩ := r
    refine (holds.release_iff ⟨key, previous⟩).trans (not_congr ?_)
    constructor
    · intro both
      obtain ⟨rfl, differs⟩ := both
      exact ⟨previous, rfl, differs⟩
    · intro asked
      obtain ⟨_, same, differs⟩ := asked
      cases same
      exact ⟨rfl, differs⟩

end Desk

def released (e : Error) : Outcome Unit → Procedure ports Identity
  | .done () => .fail e
  | .failed e => .fail e
  | .crashed => .crash

def fetched (r : Reservation) : Outcome Identity → Procedure ports Identity
  | .done identity => .done identity
  | .failed e => .ask (.release r) (released e)
  | .crashed => .crash

def allocated : Outcome Reservation → Procedure ports Identity
  | .done r => .ask (.fetch r.id) (fetched r)
  | .failed e => .fail e
  | .crashed => .crash

theorem provide_eq (hold : Span) : provide hold = .ask (.allocate hold) allocated := by
  change Procedure.ask _ _ = _
  congr 1
  funext reply
  cases reply with
  | done r =>
    change Procedure.ask _ _ = Procedure.ask _ _
    congr 1
    funext reply
    cases reply with
    | done identity => rfl
    | failed e =>
      change Procedure.ask _ _ = Procedure.ask _ _
      congr 1
      funext reply
      cases reply <;> rfl
    | crashed => rfl
  | failed e => rfl
  | crashed => rfl

theorem noTwice_provide {d : Desk} (sound : d.pool.NoTwice) (hold : Span) : (d.provide hold).2.pool.NoTwice := by
  unfold Desk.provide
  rw [provide_eq]
  change (Procedure.run (I := ports) Desk.answer (d.allocate hold).2 (allocated (d.allocate hold).1)).2.pool.NoTwice
  rcases Desk.allocate_cases d hold with ⟨failed, same⟩ | ⟨expiry, _, took, pool⟩
  · rw [same]
    generalize (d.allocate hold).1 = reply at failed
    cases reply with
    | done r => exact absurd rfl (failed r)
    | failed e => exact sound
    | crashed => exact sound
  · rw [took]
    generalize (d.allocate hold).2 = after at pool
    change (Procedure.run (I := ports) Desk.answer after (fetched _ (.ofExcept (after.fetch _)))).2.pool.NoTwice
    cases after.fetch (d.pool.allocate d.clock expiry (d.draws d.allocations)).1.id with
    | ok identity =>
      change after.pool.NoTwice
      rw [pool]
      exact sound.allocate _ _ _
    | error e =>
      change (after.pool.release _).NoTwice
      rw [pool]
      exact sound.undone _ _ _

theorem keyed_played {c : office.Crowd} (keyed : c.shared.pool.Keyed) (moves : List office.Move) :
    (Venue.play c moves).shared.pool.Keyed :=
  Venue.play_keeps (P := fun c : office.Crowd => c.shared.pool.Keyed) moves (fun _ _ keyed => keyed)
    (fun _ _ _ q _ _ keyed => Desk.keyed_answer keyed q) (fun _ x keyed => Desk.keyed_turn keyed x) keyed

theorem pool_opened (begun : Desk.open? root size order clock draws server = .ok d) : d.pool = .fresh order := by
  unfold Desk.open? at begun
  split at begun
  · cases begun
  · cases begun
    rfl

theorem keyed_opened (begun : Desk.open? root size order clock draws server = .ok d) : d.pool.Keyed :=
  pool_opened begun ▸ Pool.keyed_fresh order

-- Along every run of a pool no id is held twice exactly as long as no release reinstates the
-- reservation of an id that has become free; and ids from the free list come without reservation.
theorem noTwice_iff (begun : Desk.open? root size order clock draws server = .ok d)
    (whole : order.Perm (Pool.ids size.toNat)) (moves : List office.Move) :
    ((∀ k, (Venue.play (opened d) (moves.take k)).shared.pool.NoTwice) ↔
      ∀ e ∈ (Venue.play (opened d) moves).log,
        ¬∃ id expiry, e.question = .release ⟨id, some expiry⟩ ∧ id ∈ e.before.pool.free) ∧
    ((∀ k, (Venue.play (opened d) (moves.take k)).shared.pool.NoTwice) →
      ∀ e ∈ (Venue.play (opened d) moves).log, ∀ hold r, e.question = .allocate hold → e.before.pool.free ≠ [] →
        (e.before.allocate hold).1 = .done r → r.previous = none) := by
  have keyed : d.pool.Keyed := keyed_opened begun
  have distinct : order.Nodup := whole.nodup_iff.mpr (by simp [Pool.ids, List.nodup_range'])
  have sound : d.pool.NoTwice := pool_opened begun ▸ Pool.noTwice_fresh distinct
  have logged : (Venue.play (opened d) moves).log = Venue.history (opened d) moves := Venue.play_log _ _
  rw [logged]
  constructor
  · have exactly := Venue.throughout_iff (V := office) (P := fun d => d.pool.NoTwice) (K := fun d => d.pool.Keyed)
      (fun k => keyed_played (c := opened d) keyed (moves.take k)) (fun x d keyed _ sound => Desk.noTwice_turn sound keyed x)
      (fun e _ _ sound => Desk.noTwice_answer sound e.question)
    rw [exactly]
    exact and_iff_right sound
  · intro all e asked hold r question waiting took
    obtain ⟨k, same⟩ := Venue.history_before asked
    have sound : e.before.pool.NoTwice := same ▸ all k
    rcases Desk.allocate_cases e.before hold with ⟨failed, _⟩ | ⟨expiry, _, done, _⟩
    · exact absurd took (failed r)
    · cases took.symm.trans done
      exact sound.popped waiting _ _ _

def refusing : Server := fun _ => .error "connection refused"

def oneId : Desk where
  root := ""
  pool := .fresh [1]
  clock := .epoch
  draws := fun _ => ⟨.replicate _ 0, 0⟩
  server := refusing

-- Two calls that overlap: the second takes the id over from the first. The first fails and frees the
-- id; the second fails and reinstates what it took over.
def overlap : List office.Move :=
  [.start (.ofMillis 10), .start (.ofMillis 20), .step 0, .step 1, .step 0, .step 0, .step 1, .step 1]

theorem id_held_twice :
    Desk.open? "" 1 [1] .epoch oneId.draws refusing = .ok oneId ∧ [1].Perm (Pool.ids 1) ∧
      ¬(Venue.play (opened oneId) overlap).shared.pool.NoTwice := by
  refine ⟨rfl, .refl _, ?_⟩
  intro sound
  have unheld : (Venue.play (opened oneId) overlap).shared.pool.holder? 1 = none := sound.apart 1 (List.mem_singleton_self 1)
  cases unheld

theorem noTwice_iff_overlap :
    Desk.open? "" 1 [1] .epoch oneId.draws refusing = .ok oneId ∧ [1].Perm (Pool.ids 1) ∧
      ((∀ k, (Venue.play (opened oneId) (overlap.take k)).shared.pool.NoTwice) ↔
        ∀ e ∈ (Venue.play (opened oneId) overlap).log,
          ¬∃ id expiry, e.question = .release ⟨id, some expiry⟩ ∧ id ∈ e.before.pool.free) := by
  have begun : Desk.open? "" 1 [1] .epoch oneId.draws refusing = .ok oneId := rfl
  exact ⟨begun, .refl _, (noTwice_iff begun (.refl _) overlap).1⟩

-- A reservation is kept, for as long as nobody picks its id again and the clock stays before its end,
-- exactly if its id was not on the free list as well and whatever releases the id puts back that very
-- reservation. That includes the release of the call itself, if its fetch fails.
theorem holds_iff (begun : Desk.open? root size order clock draws server = .ok d) {c later : office.Crowd}
    {before after : List office.Move} (reached : c = Venue.play (opened d) before)
    (waits : c.flights[i]? = some ⟨call, .ask (.allocate hold) next⟩) (took : (c.shared.allocate hold).1 = .done r)
    (sum : c.shared.clock.add? hold = some expiry) (moved : later = Venue.move c (.step i))
    (early : ∀ k, (Venue.play later (after.take k)).shared.clock < expiry)
    (others : ∀ e ∈ Venue.history later after, ¬e.before.Picks e.question r.id) :
    (∀ k, (Venue.play later (after.take k)).shared.pool.Holds r.id expiry) ↔
      r.id ∉ later.shared.pool.free ∧
      ∀ e ∈ Venue.history later after, ¬∃ previous, e.question = .release ⟨r.id, previous⟩ ∧ previous ≠ some expiry := by
  have played : later = Venue.play (opened d) (before ++ [.step i]) := by
    rw [Venue.play_append, moved, reached]
    rfl
  have keyed : later.shared.pool.Keyed := played ▸ keyed_played (keyed_opened begun) _
  have asked : later.shared = (c.shared.allocate hold).2 := by
    simp only [moved, Venue.move, waits]
    rfl
  have held : later.shared.pool.holder? r.id = some expiry := by
    rw [asked]
    rcases Desk.allocate_cases c.shared hold with ⟨failed, _⟩ | ⟨expiry', sum', done, pool⟩
    · exact absurd took (failed r)
    · cases took.symm.trans done
      cases sum.symm.trans sum'
      rw [pool]
      exact Pool.allocate_holds _ _ _ _
  have exactly := Venue.throughout_iff (V := office) (P := fun d => d.pool.Holds r.id expiry)
    (K := fun d => d.pool.Keyed ∧ d.clock < expiry) (fun k => ⟨keyed_played keyed _, early k⟩)
    (fun x d known _ holds => Desk.holds_turn holds known.1 known.2 x)
    (fun e member _ holds => Desk.holds_answer holds (others e member))
  rw [exactly]
  exact and_congr_left' (and_iff_right held)

def telling : Server := fun _ =>
  .ok ⟨200, "\x7b\x22id\x22:1,\x22name\x22:\x22Rick\x22,\x22image\x22:\x22\x22\x7d".toUTF8.toList⟩

theorem holds_iff_told :
    let c := Venue.play (opened { oneId with server := telling }) [.start (.ofMillis 10)]
    let later := Venue.move c (.step 0)
    (Venue.move later (.step 0)).flights[0]? = some ⟨.ofMillis 10, .done ⟨1, "Rick", ""⟩⟩ ∧
      ∀ k, (Venue.play later ([.step 0].take k)).shared.pool.Holds 1 ⟨10000000, by decide⟩ := by
  intro c later
  have begun : Desk.open? "" 1 [1] .epoch oneId.draws telling = .ok { oneId with server := telling } := rfl
  obtain ⟨next, waits⟩ : ∃ next, c.flights[0]? = some ⟨.ofMillis 10, .ask (.allocate (.ofMillis 10)) next⟩ := ⟨_, rfl⟩
  have took : (c.shared.allocate (.ofMillis 10)).1 = .done ⟨1, none⟩ := rfl
  have sum : c.shared.clock.add? (.ofMillis 10) = some ⟨10000000, by decide⟩ := rfl
  have asked : ∀ e ∈ Venue.history later [.step 0], e.question = .fetch 1 := by
    intro e member
    rw [show Venue.history later [.step 0] = [⟨0, .fetch 1, later.shared⟩] from rfl] at member
    rw [List.mem_singleton.mp member]
  refine ⟨by cbv, (holds_iff begun rfl waits took sum rfl ?_ ?_).mpr ⟨List.not_mem_nil, ?_⟩⟩
  · intro k
    rcases k with _ | k
    · decide
    · rw [List.take_succ_cons, List.take_nil]
      decide
  · intro e member picks
    obtain ⟨_, _, question, _⟩ := picks
    rw [asked e member] at question
    cases question
  · intro e member puts
    obtain ⟨_, question, _⟩ := puts
    rw [asked e member] at question
    cases question

-- The second of two calls takes the id over from the first and is told its character. Then the first
-- fails, and what it frees is the reservation of the second.
theorem reservation_dropped :
    let c := Venue.play (opened oneId) [.start (.ofMillis 10), .start (.ofMillis 20), .step 0, .step 1,
      .change (.server telling), .step 1, .change (.server refusing), .step 0, .step 0]
    c.flights[1]? = some ⟨.ofMillis 20, .done ⟨1, "Rick", ""⟩⟩ ∧ c.shared.clock = .epoch ∧
      c.shared.pool.holder? 1 = none ∧ 1 ∈ c.shared.pool.free := by
  exact ⟨by cbv, rfl, rfl, List.mem_singleton_self 1⟩

end Forum.Identity
