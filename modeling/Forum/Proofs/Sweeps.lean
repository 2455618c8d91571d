import Mathlib
import Forum.Proofs.History

namespace Forum

namespace Instant

instance : Max Instant := ⟨fun t u => if t ≤ u then u else t⟩

instance : Std.IsLinearOrder Instant :=
  .of_le ⟨fun _ _ first second => ext_nanos (Int.le_antisymm first second)⟩ ⟨le_trans⟩ ⟨fun t u => Int.le_total t.nanos u.nanos⟩

instance : Std.LawfulOrderMax Instant where
  max_eq_or := by
    intro t u
    change (if t ≤ u then u else t) = t ∨ (if t ≤ u then u else t) = u
    split
    · exact .inr rfl
    · exact .inl rfl
  max_le_iff := by
    intro t u v
    change (if t ≤ u then u else t).nanos ≤ v.nanos ↔ t.nanos ≤ v.nanos ∧ u.nanos ≤ v.nanos
    split
    · rename_i earlier
      change t.nanos ≤ u.nanos at earlier
      omega
    · rename_i later
      change ¬t.nanos ≤ u.nanos at later
      omega

end Instant

namespace PostRow
variable {row : PostRow} {cutoffs more : List Instant} {cutoff : Instant}

def DueBy (cutoffs : List Instant) (row : PostRow) : Prop :=
  row.archived = 0 ∧ ∃ t ∈ cutoffs, row.expiresAt * 1000000 ≤ t.nanos

instance (cutoffs : List Instant) (row : PostRow) : Decidable (row.DueBy cutoffs) := inferInstanceAs (Decidable (_ ∧ _))

def sweptBy (cutoffs : List Instant) (row : PostRow) : PostRow :=
  if row.DueBy cutoffs then { row with archived := 1 } else row

theorem isDue_iff : Store.PostRow.IsDue cutoff.millis row ↔ row.DueBy [cutoff] := by
  unfold Store.PostRow.IsDue DueBy Instant.millis
  rw [Int.le_ediv_iff_mul_le (by decide)]
  simp

theorem sweptBy_of_due (due : row.DueBy cutoffs) : row.sweptBy cutoffs = { row with archived := 1 } := if_pos due

theorem sweptBy_of_not_due (notDue : ¬row.DueBy cutoffs) : row.sweptBy cutoffs = row := if_neg notDue

theorem archived_sweptBy : (row.sweptBy cutoffs).archived ≠ 0 ↔
    row.archived ≠ 0 ∨ ∃ t ∈ cutoffs, row.expiresAt * 1000000 ≤ t.nanos := by
  by_cases due : row.DueBy cutoffs
  · rw [sweptBy_of_due due]
    simp [due.2]
  · rw [sweptBy_of_not_due due]
    constructor
    · exact .inl
    · intro either
      rcases either with already | expired
      · exact already
      · exact fun active => due ⟨active, expired⟩

theorem dueBy_sweptBy : (row.sweptBy cutoffs).DueBy more ↔ row.DueBy more ∧ ¬row.DueBy cutoffs := by
  by_cases due : row.DueBy cutoffs
  · rw [sweptBy_of_due due, iff_false_right (fun both => both.2 due)]
    exact fun again => Int.one_ne_zero again.1
  · rw [sweptBy_of_not_due due, and_iff_left due]

theorem dueBy_append : row.DueBy (cutoffs ++ more) ↔ row.DueBy cutoffs ∨ row.DueBy more := by
  unfold DueBy
  simp only [List.mem_append, or_and_right, exists_or, and_or_left]

theorem sweptBy_sweptBy : (row.sweptBy cutoffs).sweptBy more = row.sweptBy (cutoffs ++ more) := by
  by_cases due : row.DueBy cutoffs
  · have notAgain : ¬(row.sweptBy cutoffs).DueBy more := fun again => (dueBy_sweptBy.mp again).2 due
    rw [sweptBy_of_not_due notAgain, sweptBy_of_due due, sweptBy_of_due (dueBy_append.mpr (.inl due))]
  · rw [sweptBy_of_not_due due]
    by_cases later : row.DueBy more
    · rw [sweptBy_of_due later, sweptBy_of_due (dueBy_append.mpr (.inr later))]
    · have never : ¬row.DueBy (cutoffs ++ more) := fun both => (dueBy_append.mp both).elim due later
      rw [sweptBy_of_not_due later, sweptBy_of_not_due never]

theorem dueBy_latest (row : PostRow) (cutoffs : List Instant) : row.DueBy cutoffs.max?.toList ↔ row.DueBy cutoffs := by
  unfold DueBy
  refine and_congr_right fun _ => ?_
  cases latest : cutoffs.max? with
  | none =>
    rw [List.max?_eq_none_iff.mp latest]
    exact Iff.rfl
  | some t =>
    obtain ⟨member, last⟩ := List.max?_eq_some_iff.mp latest
    simp only [Option.toList_some, List.mem_singleton, exists_eq_left]
    constructor
    · intro expired
      exact ⟨t, member, expired⟩
    · intro expired
      obtain ⟨u, known, expired⟩ := expired
      exact Int.le_trans expired (last u known)

end PostRow

namespace Store
variable {s : Store} {cutoffs more : List Instant}

def sweptBy (s : Store) (cutoffs : List Instant) : Store :=
  { s with posts := { s.posts with rows := s.posts.rows.map (PostRow.sweptBy cutoffs) } }

def dueBy (s : Store) (cutoffs : List Instant) : Nat := s.posts.rows.countP fun row => row.DueBy cutoffs

theorem archiveExpired_eq (s : Store) (cutoff : Instant) : s.archiveExpired cutoff = (s.dueBy [cutoff], s.sweptBy [cutoff]) := by
  unfold archiveExpired dueBy sweptBy PostRow.sweptBy
  simp only [PostRow.isDue_iff]

theorem sweptBy_nil (s : Store) : s.sweptBy [] = s := by
  have same : PostRow.sweptBy [] = id := by
    funext row
    exact PostRow.sweptBy_of_not_due (by simp [PostRow.DueBy])
  rw [sweptBy, same, List.map_id]

theorem dueBy_nil (s : Store) : s.dueBy [] = 0 := by
  rw [dueBy, List.countP_eq_zero]
  simp [PostRow.DueBy]

theorem sweptBy_sweptBy : (s.sweptBy cutoffs).sweptBy more = s.sweptBy (cutoffs ++ more) := by
  simp only [sweptBy, List.map_map]
  congr 3
  funext row
  exact PostRow.sweptBy_sweptBy

theorem dueBy_append : s.dueBy (cutoffs ++ more) = s.dueBy cutoffs + (s.sweptBy cutoffs).dueBy more := by
  unfold dueBy sweptBy
  rw [List.countP_map]
  induction s.posts.rows with
  | nil => rfl
  | cons row rest ih =>
    rw [List.countP_cons, List.countP_cons, List.countP_cons, ih]
    simp only [Function.comp_apply, decide_eq_true_eq, PostRow.dueBy_append, PostRow.dueBy_sweptBy]
    by_cases due : row.DueBy cutoffs
    · simp only [due, true_or, not_true_eq_false, and_false, if_true, if_false]
      omega
    · simp only [due, false_or, not_false_eq_true, and_true, if_false]
      omega

theorem sweptBy_latest (s : Store) (cutoffs : List Instant) : s.sweptBy cutoffs.max?.toList = s.sweptBy cutoffs := by
  have same : PostRow.sweptBy cutoffs.max?.toList = PostRow.sweptBy cutoffs := by
    funext row
    unfold PostRow.sweptBy
    simp only [PostRow.dueBy_latest]
  rw [sweptBy, same, sweptBy]

theorem dueBy_latest (s : Store) (cutoffs : List Instant) : s.dueBy cutoffs.max?.toList = s.dueBy cutoffs := by
  unfold dueBy
  simp only [PostRow.dueBy_latest]

theorem dueBy_eq (s : Store) (cutoffs : List Instant) :
    s.dueBy cutoffs = s.posts.rows.countP fun row => row.archived = 0 ∧ (row.sweptBy cutoffs).archived ≠ 0 := by
  unfold dueBy
  congr 1
  funext row
  rw [decide_eq_decide, PostRow.archived_sweptBy]
  unfold PostRow.DueBy
  constructor
  · intro due
    exact ⟨due.1, .inr due.2⟩
  · intro became
    obtain ⟨active, already | expired⟩ := became
    · exact absurd active already
    · exact ⟨active, expired⟩

end Store

section
variable {cutoffs more : List Instant}

theorem latest_append (earlier : ∀ t ∈ more, ∃ l, cutoffs.max? = some l ∧ t ≤ l) : (cutoffs ++ more).max? = cutoffs.max? := by
  cases latest : cutoffs.max? with
  | none =>
    have nothing : more = [] := by
      rw [List.eq_nil_iff_forall_not_mem]
      intro t member
      obtain ⟨_, some, _⟩ := earlier t member
      rw [latest] at some
      cases some
    rw [nothing, List.append_nil, latest]
  | some l =>
    obtain ⟨member, last⟩ := List.max?_eq_some_iff.mp latest
    refine List.max?_eq_some_iff.mpr ⟨List.mem_append_left _ member, ?_⟩
    intro t known
    rcases List.mem_append.mp known with old | new
    · exact last t old
    · obtain ⟨_, some, bound⟩ := earlier t new
      cases latest.symm.trans some
      exact bound

theorem latest_perm (same : cutoffs.Perm more) : cutoffs.max? = more.max? := by
  apply Option.ext
  intro l
  rw [List.max?_eq_some_iff, List.max?_eq_some_iff, same.mem_iff]
  simp only [same.mem_iff]

end

theorem Backend.Effect.calm {b : Backend} {q : Service.Question} {reply : Outcome q.Value} {after : Store}
    (calm : q.writes = false) (effect : b.Effect q reply after) : after = b.store := by
  cases effect with
  | read => rfl
  | refused => rfl
  | issued => cases calm
  | edited => cases calm
  | posted => cases calm
  | archived => cases calm
  | undone => cases calm
  | commented => cases calm

theorem Backend.archiveExpired_cases (b : Backend) (cutoff : Instant) :
    ((b.answerNow (.archiveExpired cutoff)).1 = .done (b.store.dueBy [cutoff]) ∧
      (b.answerNow (.archiveExpired cutoff)).2.store = b.store.sweptBy [cutoff]) ∨
    ((∀ count, (b.answerNow (.archiveExpired cutoff)).1 ≠ .done count) ∧ (b.answerNow (.archiveExpired cutoff)).2.store = b.store) := by
  have effect := b.answerNow_effect (q := .archiveExpired cutoff) trivial
  generalize (b.answerNow (.archiveExpired cutoff)).1 = reply at effect ⊢
  generalize (b.answerNow (.archiveExpired cutoff)).2.store = after at effect ⊢
  cases effect with
  | read calm => cases calm
  | refused without => exact .inr ⟨without, rfl⟩
  | archived =>
    rw [Store.archiveExpired_eq]
    exact .inl ⟨rfl, rfl⟩

namespace Service
open Board (Entry)

def Question.sweeps : Question → Bool
  | .archiveExpired _ => true
  | _ => false

def Question.Sweeping (q : Question) : Prop := q.writes = false ∨ q.sweeps = true

instance (q : Question) : Decidable q.Sweeping := inferInstanceAs (Decidable (_ ∨ _))

def tried? (e : Entry) : Option Instant :=
  match e.question with
  | .archiveExpired cutoff => some cutoff
  | _ => none

def swept? (e : Entry) : Option (Instant × Nat) :=
  match e.question with
  | .archiveExpired cutoff =>
    match (e.before.answerNow (.archiveExpired cutoff)).1 with
    | .done count => some (cutoff, count)
    | _ => none
  | _ => none

def cutoffs (log : List Entry) : List Instant := (log.filterMap swept?).map (·.1)

def count (log : List Entry) : Nat := ((log.filterMap swept?).map (·.2)).sum

theorem cutoffs_append (log more : List Entry) : cutoffs (log ++ more) = cutoffs log ++ cutoffs more := by
  rw [cutoffs, List.filterMap_append, List.map_append]
  rfl

theorem count_append (log more : List Entry) : count (log ++ more) = count log + count more := by
  rw [count, List.filterMap_append, List.map_append, List.sum_append]
  rfl

theorem Question.Sweeping.lawful {q : Question} (sweeping : q.Sweeping) : q.Lawful := by
  cases q with
  | updateSession hash edit =>
    rcases sweeping with calm | sweeps
    · cases calm
    · cases sweeps
  | transact work =>
    rcases sweeping with calm | sweeps
    · cases calm
    · cases sweeps
  | _ => exact trivial

theorem sweeping_answer (e : Entry) (sweeping : e.question.Sweeping) :
    (e.before.answerNow e.question).2.store = e.before.store.sweptBy (cutoffs [e]) ∧
      count [e] = e.before.store.dueBy (cutoffs [e]) := by
  have still : swept? e = none → (e.before.answerNow e.question).2.store = e.before.store →
      (e.before.answerNow e.question).2.store = e.before.store.sweptBy (cutoffs [e]) ∧
        count [e] = e.before.store.dueBy (cutoffs [e]) := by
    intro none same
    simp only [cutoffs, count, List.filterMap_cons, List.filterMap_nil, none, List.map_nil, List.sum_nil]
    exact ⟨same.trans e.before.store.sweptBy_nil.symm, e.before.store.dueBy_nil.symm⟩
  obtain ⟨i, q, b⟩ := e
  cases q with
  | archiveExpired cutoff =>
    rcases b.archiveExpired_cases cutoff with ⟨replied, written⟩ | ⟨without, same⟩
    · have swept : swept? ⟨i, .archiveExpired cutoff, b⟩ = some (cutoff, b.store.dueBy [cutoff]) := by
        unfold swept?
        dsimp only
        rw [replied]
      simp only [cutoffs, count, List.filterMap_cons, List.filterMap_nil, swept, List.map_cons, List.map_nil, List.sum_singleton]
      exact ⟨written, trivial⟩
    · refine still ?_ same
      unfold swept?
      dsimp only
      split
      · rename_i count replied
        exact absurd replied (without count)
      · rfl
  | _ => exact still rfl ((b.answerNow_effect sweeping.lawful).calm (sweeping.resolve_right Bool.false_ne_true))

variable {rules : Rules} {c : (hall rules).Crowd} {moves : List (hall rules).Move}

theorem sweeping_play (sweeping : ∀ e ∈ Venue.history c moves, e.question.Sweeping) :
    (Venue.play c moves).shared.store = c.shared.store.sweptBy (cutoffs (Venue.history c moves)) ∧
      count (Venue.history c moves) = c.shared.store.dueBy (cutoffs (Venue.history c moves)) := by
  induction moves generalizing c with
  | nil => exact ⟨c.shared.store.sweptBy_nil.symm, c.shared.store.dueBy_nil.symm⟩
  | cons m rest ih =>
    rw [Venue.history, List.forall_mem_append] at sweeping
    obtain ⟨now, later⟩ := sweeping
    have step : (Venue.move c m).shared.store = c.shared.store.sweptBy (cutoffs (Venue.logged c m)) ∧
        count (Venue.logged c m) = c.shared.store.dueBy (cutoffs (Venue.logged c m)) := by
      have still : c.shared.store = c.shared.store.sweptBy (cutoffs []) ∧ count [] = c.shared.store.dueBy (cutoffs []) :=
        ⟨c.shared.store.sweptBy_nil.symm, c.shared.store.dueBy_nil.symm⟩
      rcases Venue.move_cases c m with ⟨_, same, none⟩ | ⟨i, _, q, _, _, same, one⟩ | ⟨x, same, none⟩ | ⟨same, none⟩
      · rw [same, none]
        exact still
      · rw [one, List.forall_mem_singleton] at now
        rw [same, one]
        exact sweeping_answer ⟨i, q, c.shared⟩ now
      · rw [same, none]
        exact ⟨(Board.shift_store x c.shared).trans still.1, still.2⟩
      · rw [same, none]
        exact still
    obtain ⟨store, counted⟩ := ih later
    rw [Venue.history, cutoffs_append, count_append]
    refine ⟨?_, ?_⟩
    · rw [← Store.sweptBy_sweptBy, ← step.1]
      exact store
    · rw [Store.dueBy_append, ← step.1, step.2, counted]

theorem cutoffs_tried {log : List Entry} {t : Instant} (swept : t ∈ cutoffs log) : t ∈ log.filterMap tried? := by
  obtain ⟨⟨_, count⟩, member, rfl⟩ := List.mem_map.mp swept
  obtain ⟨e, logged, found⟩ := List.mem_filterMap.mp member
  refine List.mem_filterMap.mpr ⟨e, logged, ?_⟩
  unfold swept? at found
  unfold tried?
  split at found
  · split at found
    · cases found
      rfl
    · cases found
  · cases found

-- Sweeps at any instants, in any order, some of them failing, with nothing else written in between,
-- come to one sweep at the latest instant of those that went through, and their counts add up to what
-- became archived. So the order does not matter, sweeps that come later but not at later instants find
-- nothing to do, and one that goes through makes up for all that failed at no later instants.
theorem sweeps_compose (sweeping : ∀ e ∈ Venue.history c moves, e.question.Sweeping) :
    let log := Venue.history c moves
    let latest := (cutoffs log).max?
    (Venue.play c moves).shared.store = c.shared.store.sweptBy latest.toList ∧
    count log = c.shared.store.posts.rows.countP
      (fun row => row.archived = 0 ∧ (row.sweptBy latest.toList).archived ≠ 0) ∧
    (∀ (d : (hall rules).Crowd) others, d.shared.store = c.shared.store →
      (∀ e ∈ Venue.history d others, e.question.Sweeping) → (cutoffs (Venue.history d others)).Perm (cutoffs log) →
      (Venue.play d others).shared.store = (Venue.play c moves).shared.store) ∧
    (∀ more, (∀ e ∈ Venue.history (Venue.play c moves) more, e.question.Sweeping) →
      (∀ t ∈ cutoffs (Venue.history (Venue.play c moves) more), ∃ l, latest = some l ∧ t ≤ l) →
      (Venue.play (Venue.play c moves) more).shared.store = (Venue.play c moves).shared.store ∧
        count (Venue.history (Venue.play c moves) more) = 0) ∧
    ∀ l ∈ cutoffs log, (∀ t ∈ log.filterMap tried?, t ≤ l) →
      (Venue.play c moves).shared.store = c.shared.store.sweptBy (log.filterMap tried?) := by
  intro log latest
  obtain ⟨store, counted⟩ := sweeping_play sweeping
  refine ⟨?_, ?_, ?_, ?_, ?_⟩
  · rw [store, Store.sweptBy_latest]
  · rw [← Store.dueBy_eq, Store.dueBy_latest, counted]
  · intro d others same sweeping' perm
    rw [(sweeping_play sweeping').1, store, same, ← Store.sweptBy_latest, latest_perm perm, Store.sweptBy_latest]
  · intro more sweeping' earlier
    obtain ⟨store', counted'⟩ := sweeping_play sweeping'
    have again := latest_append earlier
    refine ⟨?_, ?_⟩
    · rw [store', store, Store.sweptBy_sweptBy, ← Store.sweptBy_latest, again, Store.sweptBy_latest]
    · have all : c.shared.store.dueBy (cutoffs log ++ cutoffs (Venue.history (Venue.play c moves) more)) = _ := Store.dueBy_append
      rw [← Store.dueBy_latest, again, Store.dueBy_latest, ← store, ← counted'] at all
      omega
  · intro l swept last
    have bound : ∀ t ∈ cutoffs log, t ≤ l := fun t member => last t (cutoffs_tried member)
    -- The latest sweep that went through is then the latest of all that were tried.
    have first : (cutoffs log).max? = some l := List.max?_eq_some_iff.mpr ⟨swept, bound⟩
    have second : (log.filterMap tried?).max? = some l := List.max?_eq_some_iff.mpr ⟨cutoffs_tried swept, last⟩
    rw [store, ← Store.sweptBy_latest, first, ← second, Store.sweptBy_latest]

def twoPosts : Backend :=
  { Comments.onePost with
    store := { posts := ⟨[⟨1, ⟨1, "ann", ""⟩, "title", "content", none, 0, 1000, 0⟩,
                          ⟨2, ⟨1, "ann", ""⟩, "title", "content", none, 0, 2000, 0⟩], 2⟩ } }

def failing : Script := fun _ => some (.error .lockPoisoned)

def threeSweeps : List (hall seconds).Move :=
  [.start (.archive ⟨1500000000, by decide⟩), .step 0, .change (.script failing), .start (.archive ⟨2500000000, by decide⟩), .step 1,
   .change (.script .none), .change (.clock ⟨3000000000, by decide⟩), .start .sweep, .step 2, .step 2]

theorem sweeps_compose_three :
    let c := opened seconds twoPosts
    let log := Venue.history c threeSweeps
    (∀ e ∈ log, e.question.Sweeping) ∧ (cutoffs log).length = 2 ∧ (log.filterMap tried?).length = 3 ∧ count log = 2 ∧
      (Venue.play c threeSweeps).shared.store = c.shared.store.sweptBy (log.filterMap tried?) := by
  intro c log
  have sweeping : ∀ e ∈ log, e.question.Sweeping := by decide
  have last : ⟨3000000000, by decide⟩ ∈ cutoffs log := by decide
  obtain ⟨_, _, _, _, madeUp⟩ := sweeps_compose sweeping
  exact ⟨sweeping, by decide, by decide, by decide, madeUp _ last (by decide)⟩

end Service

end Forum
