import Forum.Proofs.Listings
import Forum.Proofs.Sessions

namespace Forum

namespace Instant
variable {t u : Instant} {count : Int}

def IsWhole (t : Instant) : Prop := ∃ count : Int, t.nanos = count * 1000000

theorem whole_floor (t : Instant) : t.floor.IsWhole := ⟨t.millis, rfl⟩

theorem IsWhole.floor_eq (whole : t.IsWhole) : t.floor = t := by
  obtain ⟨count, nanos⟩ := whole
  rw [floor_eq_iff]
  omega

theorem IsWhole.le_floor_iff (whole : t.IsWhole) : t ≤ u.floor ↔ t ≤ u := by
  constructor
  · intro before
    exact le_trans before u.floor_le
  · intro before
    have rounded := floor_mono before
    rwa [whole.floor_eq] at rounded

theorem IsWhole.le_iff (whole : t.IsWhole) : t ≤ u ↔ t.millis ≤ u.millis := by
  have rounded := floor_le_iff (t := t) (u := u)
  rwa [whole.floor_eq] at rounded

theorem ofMillis?_eq_some_iff : ofMillis? count = some t ↔ t.IsWhole ∧ t.millis = count := by
  unfold ofMillis?
  rw [ofNanos?_eq_some_iff, millis]
  constructor
  · intro nanos
    exact ⟨⟨count, nanos⟩, by omega⟩
  · rintro ⟨⟨other, nanos⟩, same⟩
    omega

end Instant

theorem readInstant_ok_iff {column : Nat} {count : Int} {t : Instant} :
    readInstant column count = .ok t ↔ Instant.ofMillis? count = some t := by
  unfold readInstant
  cases Instant.ofMillis? count <;> simp

theorem SessionRow.live_iff {row : SessionRow} {session : Session} (read : row.read = .ok session) (now : Instant) :
    session.IsLiveAt now ↔ ¬row.expiresAt ≤ now.millis := by
  obtain ⟨created, expires, _, expiresAt, rfl⟩ := SessionRow.read_iff.mp read
  obtain ⟨whole, same⟩ := Instant.ofMillis?_eq_some_iff.mp (readInstant_ok_iff.mp expiresAt)
  rw [← same, ← whole.le_iff]
  exact Int.not_le.symm

theorem PostRow.due_iff {row : PostRow} {post : Post} (read : row.read = .ok post) (cutoff : Instant) :
    Store.PostRow.IsDue cutoff.millis row ↔ post.isArchived = false ∧ post.expiresAt ≤ cutoff := by
  obtain ⟨created, expires, _, expiresAt, rfl⟩ := PostRow.read_ok_iff.mp read
  obtain ⟨whole, same⟩ := Instant.ofMillis?_eq_some_iff.mp expiresAt
  unfold Store.PostRow.IsDue
  rw [← same, whole.le_iff]
  simp

namespace Instant

-- An instant is stored as the last whole millisecond that is not after it, and is read back as that. The
-- order of what is stored is that of the instants, so a sweep finds a post due, and a session ends, at the
-- instant that is read back.
theorem rounding_keeps_order (a b : Instant) :
    (∃ e, ofMillis? a.millis = some e ∧ e.IsWhole ∧ e ≤ a ∧ ∀ w : Instant, w.IsWhole → w ≤ a → w ≤ e) ∧
    (a ≤ b → a.millis ≤ b.millis) ∧
    (a.IsWhole → ofMillis? a.millis = some a) ∧
    (∀ e, ofMillis? a.millis = some e → (e ≤ b ↔ e.millis ≤ b.millis)) ∧
    (∀ (row : PostRow) post, row.read = .ok post →
      (Store.PostRow.IsDue b.millis row ↔ post.isArchived = false ∧ post.expiresAt ≤ b)) ∧
    ∀ (row : SessionRow) session, row.read = .ok session → (session.IsLiveAt b ↔ ¬row.expiresAt ≤ b.millis) := by
  refine ⟨⟨a.floor, ofMillis?_millis a, whole_floor a, a.floor_le, ?_⟩, millis_mono, ?_, ?_, ?_, ?_⟩
  · intro w whole before
    exact whole.le_floor_iff.mpr before
  · intro whole
    exact ofMillis?_eq_some_iff.mpr ⟨whole, rfl⟩
  · intro e read
    exact (ofMillis?_eq_some_iff.mp read).1.le_iff
  · intro row post read
    exact row.due_iff read b
  · intro row session read
    exact row.live_iff read b

example : (⟨-1, by decide⟩ : Instant).millis = -1 := by decide

end Instant
end Forum
