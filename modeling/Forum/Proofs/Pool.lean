import Mathlib
import Forum.Crowd
import Forum.Identity.Provider

namespace Forum.Identity
namespace Pool
variable {p : Pool} {id other : Nat} {now expiry : Instant}

def Keyed (p : Pool) : Prop := (p.reserved.map (·.1)).Nodup

-- No id is held twice: the free list has no duplicates and no id with a reservation.
structure NoTwice (p : Pool) : Prop where
  once : p.free.Nodup
  apart : ∀ id ∈ p.free, p.holder? id = none

def Holds (p : Pool) (id : Nat) (expiry : Instant) : Prop := p.holder? id = some expiry ∧ id ∉ p.free

theorem holder?_none : p.holder? id = none ↔ ∀ expiry, (id, expiry) ∉ p.reserved := by
  unfold holder?
  rw [List.lookup_eq_none_iff]
  constructor
  · intro absent expiry member
    simpa using absent _ member
  · intro absent entry member
    obtain ⟨key, expiry⟩ := entry
    rw [bne_iff_ne]
    intro same
    subst same
    exact absent expiry member

theorem lookup_of_nodup {reserved : List (Nat × Instant)} (keyed : (reserved.map (·.1)).Nodup) :
    reserved.lookup id = some expiry ↔ (id, expiry) ∈ reserved := by
  induction reserved with
  | nil => simp
  | cons entry rest ih =>
    obtain ⟨key, held⟩ := entry
    rw [List.map_cons, List.nodup_cons] at keyed
    rw [List.lookup_cons]
    by_cases same : id = key
    · subst same
      have absent : (id, expiry) ∉ rest := fun member => keyed.1 (List.mem_map.mpr ⟨_, member, rfl⟩)
      simp [absent, eq_comm]
    · have differs : (id == key) = false := by simpa using same
      simp [differs, same, ih keyed.2]

theorem Keyed.holder?_some (keyed : p.Keyed) : p.holder? id = some expiry ↔ (id, expiry) ∈ p.reserved :=
  lookup_of_nodup keyed

theorem lookup_without (reserved : List (Nat × Instant)) :
    (reserved.filter (·.1 ≠ id)).lookup other = if other = id then none else reserved.lookup other := by
  induction reserved with
  | nil => simp
  | cons entry rest ih =>
    obtain ⟨key, held⟩ := entry
    by_cases dropped : key = id
    · subst dropped
      rw [List.filter_cons_of_neg (by simp), ih, List.lookup_cons]
      by_cases same : other = key
      · simp [same]
      · have differs : (other == key) = false := by simpa using same
        simp [same, differs]
    · rw [List.filter_cons_of_pos (by simpa using dropped), List.lookup_cons, List.lookup_cons, ih]
      by_cases same : other = key
      · subst same
        simp [dropped]
      · have differs : (other == key) = false := by simpa using same
        simp [differs]

theorem lookup_put (reserved : List (Nat × Instant)) :
    (put reserved id expiry).lookup other = if other = id then some expiry else reserved.lookup other := by
  unfold put
  rw [List.lookup_cons, lookup_without]
  by_cases same : other = id
  · simp [same]
  · have differs : (other == id) = false := by simpa using same
    simp [same, differs]

theorem nodup_without {reserved : List (Nat × Instant)} (keyed : (reserved.map (·.1)).Nodup)
    (keep : Nat × Instant → Bool) : ((reserved.filter keep).map (·.1)).Nodup :=
  (List.filter_sublist.map _).nodup keyed

theorem nodup_put {reserved : List (Nat × Instant)} (keyed : (reserved.map (·.1)).Nodup) :
    ((put reserved id expiry).map (·.1)).Nodup := by
  unfold put
  rw [List.map_cons, List.nodup_cons]
  refine ⟨?_, nodup_without keyed _⟩
  intro member
  obtain ⟨entry, kept, same⟩ := List.mem_map.mp member
  have differs : entry.1 ≠ id := by simpa using (List.mem_filter.mp kept).2
  exact differs same

theorem allocate_cases (p : Pool) (now expiry : Instant) (draws : Draws) :
    (∃ id free, p.free = id :: free ∧
      p.allocate now expiry draws = (⟨id, p.holder? id⟩, { p with free, reserved := put p.reserved id expiry })) ∨
    (∃ id, p.free = [] ∧
      p.allocate now expiry draws = (⟨id, p.holder? id⟩, { p with reserved := put p.reserved id expiry })) := by
  unfold allocate
  split
  · rename_i id free waiting
    exact .inl ⟨id, free, waiting, rfl⟩
  · rename_i empty
    exact .inr ⟨_, empty, rfl⟩

theorem Keyed.allocate (keyed : p.Keyed) (now expiry : Instant) (draws : Draws) : (p.allocate now expiry draws).2.Keyed := by
  rcases allocate_cases p now expiry draws with ⟨id, free, _, took⟩ | ⟨id, _, took⟩
  · rw [took]; exact nodup_put keyed
  · rw [took]; exact nodup_put keyed

theorem Keyed.release (keyed : p.Keyed) (r : Reservation) : (p.release r).Keyed := by
  unfold Pool.release
  split
  · exact nodup_put keyed
  · split
    · exact nodup_without keyed _
    · exact keyed

theorem Keyed.reclaim (keyed : p.Keyed) (now : Instant) : (p.reclaim now).2.Keyed := nodup_without keyed _

theorem Keyed.relist (keyed : p.Keyed) (listing : List (Nat × Instant)) : (p.relist listing).Keyed := by
  unfold Pool.relist
  split
  · rename_i same
    exact (same.map _).nodup_iff.mpr keyed
  · exact keyed

theorem mem_relist {listing : List (Nat × Instant)} {entry : Nat × Instant} :
    entry ∈ (p.relist listing).reserved ↔ entry ∈ p.reserved := by
  unfold relist
  split
  · rename_i same
    exact same.mem_iff
  · rfl

theorem Keyed.holder?_relist (keyed : p.Keyed) (listing : List (Nat × Instant)) (id : Nat) :
    (p.relist listing).holder? id = p.holder? id := by
  apply Option.ext
  intro expiry
  rw [(keyed.relist listing).holder?_some, keyed.holder?_some]
  exact mem_relist

theorem relist_free (p : Pool) (listing : List (Nat × Instant)) : (p.relist listing).free = p.free := by
  unfold relist
  split <;> rfl

theorem relist_size (p : Pool) (listing : List (Nat × Instant)) : (p.relist listing).size = p.size := by
  unfold relist
  split <;> rfl

theorem mem_reclaim_free : id ∈ (p.reclaim now).2.free ↔ (∃ expiry, (id, expiry) ∈ p.reserved ∧ expiry ≤ now) ∨ id ∈ p.free := by
  simp [reclaim, List.mem_filter]

theorem Keyed.holder?_reclaim (keyed : p.Keyed) :
    (p.reclaim now).2.holder? id = some expiry ↔ p.holder? id = some expiry ∧ ¬expiry ≤ now := by
  rw [(keyed.reclaim now).holder?_some, keyed.holder?_some]
  simp [Pool.reclaim, List.mem_filter]

theorem keyed_fresh (order : List Nat) : (fresh order).Keyed := List.nodup_nil

theorem noTwice_fresh {order : List Nat} (distinct : order.Nodup) : (fresh order).NoTwice where
  once := distinct
  apart := fun _ _ => rfl

theorem NoTwice.allocate (sound : p.NoTwice) (now expiry : Instant) (draws : Draws) :
    (p.allocate now expiry draws).2.NoTwice := by
  obtain ⟨once, apart⟩ := sound
  rcases allocate_cases p now expiry draws with ⟨id, free, waiting, took⟩ | ⟨id, empty, took⟩
  · rw [waiting] at once apart
    obtain ⟨absent, once⟩ := List.nodup_cons.mp once
    rw [took]
    refine ⟨once, ?_⟩
    intro other member
    have differs : other ≠ id := fun same => absent (same ▸ member)
    have unheld := apart other (List.mem_cons_of_mem _ member)
    unfold holder? at unheld ⊢
    rw [lookup_put, if_neg differs]
    exact unheld
  · rw [took]
    refine ⟨once, ?_⟩
    intro other member
    simp only [empty, List.not_mem_nil] at member

theorem NoTwice.popped (sound : p.NoTwice) (waiting : p.free ≠ []) (now expiry : Instant) (draws : Draws) :
    (p.allocate now expiry draws).1.previous = none := by
  rcases allocate_cases p now expiry draws with ⟨id, free, found, took⟩ | ⟨id, empty, took⟩
  · rw [took]
    exact sound.apart id (found ▸ List.mem_cons_self)
  · exact absurd empty waiting

theorem NoTwice.release_iff (sound : p.NoTwice) (r : Reservation) :
    (p.release r).NoTwice ↔ ¬∃ expiry, r.previous = some expiry ∧ r.id ∈ p.free := by
  obtain ⟨once, apart⟩ := sound
  unfold release
  cases reinstated : r.previous with
  | some expiry =>
    constructor
    · intro kept reinstates
      obtain ⟨_, now⟩ := kept
      obtain ⟨_, _, member⟩ := reinstates
      have unheld := now r.id member
      unfold holder? at unheld
      rw [lookup_put, if_pos rfl] at unheld
      cases unheld
    · intro safe
      refine ⟨once, ?_⟩
      intro other member
      have differs : other ≠ r.id := fun same => safe ⟨expiry, rfl, same ▸ member⟩
      have unheld := apart other member
      unfold holder? at unheld ⊢
      rw [lookup_put, if_neg differs]
      exact unheld
  | none =>
    refine ⟨fun _ => by simp, fun _ => ?_⟩
    dsimp only
    split
    · rename_i held
      -- The id becomes free, and it was not: it had a reservation.
      have absent : r.id ∉ p.free := by
        intro member
        rw [apart r.id member] at held
        cases held
      refine ⟨List.nodup_cons.mpr ⟨absent, once⟩, ?_⟩
      intro other member
      unfold holder?
      rw [lookup_without]
      by_cases same : other = r.id
      · rw [if_pos same]
      · rw [if_neg same]
        exact apart other ((List.mem_cons.mp member).resolve_left same)
    · exact ⟨once, apart⟩

theorem NoTwice.undone (sound : p.NoTwice) (now expiry : Instant) (draws : Draws) :
    ((p.allocate now expiry draws).2.release (p.allocate now expiry draws).1).NoTwice := by
  refine ((sound.allocate now expiry draws).release_iff _).mpr ?_
  intro reinstates
  obtain ⟨before, previous, member⟩ := reinstates
  rcases allocate_cases p now expiry draws with ⟨id, free, waiting, took⟩ | ⟨id, empty, took⟩
  · rw [sound.popped (by rw [waiting]; exact List.cons_ne_nil _ _)] at previous
    cases previous
  · rw [took] at member
    simp only [empty, List.not_mem_nil] at member

theorem NoTwice.reclaim (sound : p.NoTwice) (keyed : p.Keyed) (now : Instant) : (p.reclaim now).2.NoTwice := by
  obtain ⟨once, apart⟩ := sound
  constructor
  · change (((p.reserved.filter (·.2 ≤ now)).map (·.1)).reverse ++ p.free).Nodup
    rw [List.nodup_append]
    refine ⟨(List.reverse_perm _).nodup_iff.mpr (nodup_without keyed _), once, ?_⟩
    intro other lapsed key member same
    subst same
    obtain ⟨⟨key, expiry⟩, held, rfl⟩ := List.mem_map.mp (List.mem_reverse.mp lapsed)
    have free := apart key member
    rw [holder?_none] at free
    exact free expiry (List.mem_filter.mp held).1
  · intro other member
    apply Option.eq_none_iff_forall_ne_some.mpr
    intro expiry held
    obtain ⟨held, unlapsed⟩ := keyed.holder?_reclaim.mp held
    rcases mem_reclaim_free.mp member with ⟨lapse, entry, lapsed⟩ | free
    · rw [keyed.holder?_some.mpr entry] at held
      cases held
      exact unlapsed lapsed
    · rw [apart other free] at held
      cases held

theorem NoTwice.relist (sound : p.NoTwice) (keyed : p.Keyed) (listing : List (Nat × Instant)) :
    (p.relist listing).NoTwice := by
  constructor
  · rw [relist_free]
    exact sound.once
  · intro id member
    rw [keyed.holder?_relist]
    exact sound.apart id (relist_free p listing ▸ member)

theorem allocate_holds (p : Pool) (now expiry : Instant) (draws : Draws) :
    (p.allocate now expiry draws).2.holder? (p.allocate now expiry draws).1.id = some expiry := by
  rcases allocate_cases p now expiry draws with ⟨id, free, _, took⟩ | ⟨id, _, took⟩
  · rw [took]
    exact (lookup_put p.reserved).trans (if_pos rfl)
  · rw [took]
    exact (lookup_put p.reserved).trans (if_pos rfl)

theorem allocate_puts (p : Pool) (now expiry : Instant) (draws : Draws) :
    (p.allocate now expiry draws).2.reserved = put p.reserved (p.allocate now expiry draws).1.id expiry ∧
      (p.allocate now expiry draws).1.previous = p.holder? (p.allocate now expiry draws).1.id := by
  rcases allocate_cases p now expiry draws with ⟨id, free, _, took⟩ | ⟨id, _, took⟩
  · rw [took]
    exact ⟨rfl, rfl⟩
  · rw [took]
    exact ⟨rfl, rfl⟩

theorem allocate_free (waiting : p.free ≠ []) (now expiry : Instant) (draws : Draws) :
    (p.allocate now expiry draws).1.id ∈ p.free := by
  rcases allocate_cases p now expiry draws with ⟨id, free, found, took⟩ | ⟨id, empty, took⟩
  · rw [took, found]
    exact List.mem_cons_self
  · exact absurd empty waiting

theorem Holds.allocate {draws : Draws} {until' : Instant} (holds : p.Holds id expiry)
    (other : (p.allocate now until' draws).1.id ≠ id) : (p.allocate now until' draws).2.Holds id expiry := by
  obtain ⟨held, absent⟩ := holds
  rcases allocate_cases p now until' draws with ⟨picked, free, waiting, took⟩ | ⟨picked, _, took⟩
  · rw [took] at other ⊢
    refine ⟨(lookup_put p.reserved).trans ((if_neg other.symm).trans held), ?_⟩
    intro member
    exact absent (waiting ▸ List.mem_cons_of_mem _ member)
  · rw [took] at other ⊢
    exact ⟨(lookup_put p.reserved).trans ((if_neg other.symm).trans held), absent⟩

theorem Holds.release_iff (holds : p.Holds id expiry) (r : Reservation) :
    (p.release r).Holds id expiry ↔ ¬(r.id = id ∧ r.previous ≠ some expiry) := by
  obtain ⟨held, absent⟩ := holds
  unfold release
  cases reinstated : r.previous with
  | some before =>
    dsimp only
    constructor
    · intro kept others
      obtain ⟨now, _⟩ := kept
      obtain ⟨same, differs⟩ := others
      have back := (lookup_put p.reserved).symm.trans now
      rw [if_pos same.symm] at back
      exact differs back
    · intro safe
      refine ⟨(lookup_put p.reserved).trans ?_, absent⟩
      by_cases same : id = r.id
      · rw [if_pos same]
        by_cases again : some before = some expiry
        · exact again
        · exact absurd ⟨same.symm, again⟩ safe
      · rw [if_neg same]
        exact held
  | none =>
    dsimp only
    by_cases same : r.id = id
    · subst same
      rw [held]
      simp only [Option.isSome_some, if_true, ne_eq, reduceCtorEq, not_false_eq_true, and_self, not_true_eq_false, iff_false]
      intro kept
      obtain ⟨_, gone⟩ := kept
      exact gone List.mem_cons_self
    · simp only [same, false_and, not_false_eq_true, iff_true]
      split
      · refine ⟨(lookup_without p.reserved).trans ((if_neg (Ne.symm same)).trans held), ?_⟩
        intro member
        exact absent ((List.mem_cons.mp member).resolve_left (Ne.symm same))
      · exact ⟨held, absent⟩

theorem Holds.reclaim (holds : p.Holds id expiry) (keyed : p.Keyed) (early : now < expiry) :
    (p.reclaim now).2.Holds id expiry := by
  obtain ⟨held, absent⟩ := holds
  have unlapsed : ¬expiry ≤ now := Int.not_le.mpr early
  refine ⟨keyed.holder?_reclaim.mpr ⟨held, unlapsed⟩, ?_⟩
  intro member
  rcases mem_reclaim_free.mp member with ⟨lapse, entry, lapsed⟩ | free
  · rw [keyed.holder?_some.mpr entry] at held
    cases held
    exact unlapsed lapsed
  · exact absent free

theorem Holds.relist (holds : p.Holds id expiry) (keyed : p.Keyed) (listing : List (Nat × Instant)) :
    (p.relist listing).Holds id expiry :=
  ⟨(keyed.holder?_relist listing id).trans holds.1, (relist_free p listing) ▸ holds.2⟩

-- A pool of some size: each of its ids waits on the free list or is reserved, maybe both, and no
-- other id is or does.
structure Complete (p : Pool) (size : Nat) : Prop where
  sized : p.size = size
  whole : ∀ id, (id ∈ p.free ∨ ∃ expiry, (id, expiry) ∈ p.reserved) ↔ 1 ≤ id ∧ id ≤ size

section
variable {size : Nat}

theorem mem_put {reserved : List (Nat × Instant)} {until' : Instant} :
    (other, until') ∈ put reserved id expiry ↔ (other = id ∧ until' = expiry) ∨ ((other, until') ∈ reserved ∧ other ≠ id) := by
  simp [put, List.mem_filter]

theorem reserved_put (reserved : List (Nat × Instant)) :
    (∃ until', (other, until') ∈ put reserved id expiry) ↔ other = id ∨ ∃ until', (other, until') ∈ reserved := by
  constructor
  · intro found
    obtain ⟨until', member⟩ := found
    rcases mem_put.mp member with ⟨same, _⟩ | ⟨old, _⟩
    · exact .inl same
    · exact .inr ⟨until', old⟩
  · intro found
    by_cases same : other = id
    · exact ⟨expiry, mem_put.mpr (.inl ⟨same, rfl⟩)⟩
    · obtain ⟨until', old⟩ := found.resolve_left same
      exact ⟨until', mem_put.mpr (.inr ⟨old, same⟩)⟩

theorem pick_range (nonempty : 0 < p.size) (random : Nat) : 1 ≤ p.pick random ∧ p.pick random ≤ p.size := by
  have bound := Nat.mod_lt random nonempty
  unfold pick
  omega

theorem takeOver_range (nonempty : 0 < p.size) (now : Instant) (draws : Draws) :
    1 ≤ p.takeOver now draws ∧ p.takeOver now draws ≤ p.size := by
  unfold takeOver
  cases found : (draws.picks.toList.map p.pick).find? fun id => p.IsLapsed now id with
  | none => exact pick_range nonempty draws.last
  | some id =>
    obtain ⟨random, _, rfl⟩ := List.mem_map.mp (List.mem_of_find?_eq_some found)
    exact pick_range nonempty random

theorem complete_fresh {order : List Nat} (whole : order.Perm (ids size)) : (fresh order).Complete size where
  sized := by
    have length := whole.length_eq
    rwa [ids, List.length_range'] at length
  whole := by
    intro id
    simp only [fresh, List.not_mem_nil, exists_false, or_false, whole.mem_iff, ids, List.mem_range'_1]
    omega

namespace Complete

theorem range (complete : p.Complete size) (nonempty : 0 < size) (now expiry : Instant) (draws : Draws) :
    1 ≤ (p.allocate now expiry draws).1.id ∧ (p.allocate now expiry draws).1.id ≤ size := by
  unfold Pool.allocate
  split
  · rename_i id free waiting
    exact (complete.whole id).mp (.inl (waiting ▸ List.mem_cons_self))
  · have range := takeOver_range (complete.sized.symm ▸ nonempty) now draws
    rwa [complete.sized] at range

theorem allocate (complete : p.Complete size) (nonempty : 0 < size) (now expiry : Instant) (draws : Draws) :
    (p.allocate now expiry draws).2.Complete size := by
  have range := complete.range nonempty now expiry draws
  rcases allocate_cases p now expiry draws with ⟨id, free, waiting, took⟩ | ⟨id, empty, took⟩
  · rw [took]
    refine ⟨complete.sized, ?_⟩
    intro other
    have whole := complete.whole other
    rw [waiting, List.mem_cons] at whole
    rw [reserved_put, ← whole]
    tauto
  · rw [took] at range ⊢
    refine ⟨complete.sized, ?_⟩
    intro other
    rw [reserved_put, or_left_comm, complete.whole other, or_iff_right_iff_imp]
    intro same
    subst same
    exact range

theorem release (complete : p.Complete size) {r : Reservation} (known : 1 ≤ r.id ∧ r.id ≤ size) :
    (p.release r).Complete size := by
  unfold Pool.release
  split
  · refine ⟨complete.sized, ?_⟩
    intro other
    rw [reserved_put, or_left_comm, complete.whole other, or_iff_right_iff_imp]
    intro same
    subst same
    exact known
  · split
    · refine ⟨complete.sized, ?_⟩
      intro other
      have whole := complete.whole other
      by_cases same : other = r.id
      · subst same
        simp [known]
      · simpa [same, List.mem_filter] using whole
    · exact complete

theorem reclaim (complete : p.Complete size) (now : Instant) : (p.reclaim now).2.Complete size where
  sized := complete.sized
  whole := by
    intro id
    rw [mem_reclaim_free, ← complete.whole id]
    simp only [Pool.reclaim, List.mem_filter, decide_eq_true_eq]
    constructor
    · intro there
      rcases there with (⟨expiry, held, _⟩ | free) | ⟨expiry, held, _⟩
      · exact .inr ⟨expiry, held⟩
      · exact .inl free
      · exact .inr ⟨expiry, held⟩
    · intro there
      rcases there with free | ⟨expiry, held⟩
      · exact .inl (.inr free)
      · by_cases lapsed : expiry ≤ now
        · exact .inl (.inl ⟨expiry, held, lapsed⟩)
        · exact .inr ⟨expiry, held, lapsed⟩

theorem relist (complete : p.Complete size) (listing : List (Nat × Instant)) : (p.relist listing).Complete size where
  sized := (relist_size p listing).trans complete.sized
  whole := by
    intro id
    simp only [relist_free, mem_relist]
    exact complete.whole id

end Complete
end

end Pool
end Forum.Identity
