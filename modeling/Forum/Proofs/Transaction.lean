import Forum.Service.Comments

namespace Forum
variable {id : Int}

theorem Connection.begin_ok {c : Connection} (opened : c.begin = .ok t) :
    c.undo = none ∧ t = { connection := { c with undo := some c.store } } := by
  unfold Connection.begin at opened
  split at opened
  · cases opened
  · rename_i free
    cases opened
    exact ⟨free, rfl⟩

theorem Connection.begin_free {c : Connection} (free : c.undo = none) : ∃ t, c.begin = .ok t := by
  simp [Connection.begin, free]

theorem addComment_ok {s : Store} (added : s.addComment new = .ok (id, after)) :
    (∃ row ∈ s.posts.rows, row.id = new.postId) ∧ id = s.comments.lastId + 1 ∧
      after = { s with comments := (s.comments.insert new.row).2 } := by
  unfold Store.addComment at added
  split at added
  · rename_i found
    cases added
    exact ⟨by simpa using found, rfl, rfl⟩
  · cases added

theorem setPostExpiry_some {s : Store} (moved : s.setPostExpiry post expiry = some after) :
    after = { s with posts := { s.posts with rows := s.posts.rows.map (PostRow.moveExpiry post expiry) } } := by
  unfold Store.setPostExpiry at moved
  split at moved
  · cases moved; rfl
  · cases moved

def Store.commented (s : Store) (new : NewComment) (expiry : Instant) : Store :=
  { s with
    posts := { s.posts with rows := s.posts.rows.map (PostRow.moveExpiry new.postId expiry) }
    comments := (s.comments.insert new.row).2 }

namespace Transaction
open Service.Comments (saving)

theorem drop_opened {c : Connection} {opened later : Transaction} (begun : c.begin = .ok opened)
    (undo : later.connection.undo = opened.connection.undo) (finished : later.finished = opened.finished) :
    later.drop = c := by
  obtain ⟨free, rfl⟩ := Connection.begin_ok begun
  obtain ⟨store, _⟩ := c
  have same : later.connection.undo = some store := undo
  have unfinished : later.finished = false := finished
  cases free
  simp [drop, unfinished, Connection.rollback, same]

theorem drop_commit (t : Transaction) : t.commit.drop = { t.connection with undo := none } := rfl

theorem perform_frame (mishaps : Mishaps) (work : Work α) (t : Transaction) :
    (perform mishaps t work).2.connection.undo = t.connection.undo ∧
      (perform mishaps t work).2.finished = t.finished := by
  induction work generalizing t with
  | done a => exact ⟨rfl, rfl⟩
  | fail e => exact ⟨rfl, rfl⟩
  | panic text => exact ⟨rfl, rfl⟩
  | insert comment next ih =>
    unfold perform
    split
    · exact ih _ t
    · exact ⟨rfl, rfl⟩
    · split
      · exact ih _ (t.write _)
      · exact ih _ t
  | setExpiry post expiry next ih =>
    unfold perform
    split
    · exact ih _ t
    · exact ⟨rfl, rfl⟩
    · split
      · exact ih _ (t.write _)
      · exact ih _ t

theorem drop_perform {c : Connection} {opened : Transaction} (begun : c.begin = .ok opened)
    (mishaps : Mishaps) (work : Work α) : (perform mishaps opened work).2.drop = c :=
  drop_opened begun (perform_frame mishaps work opened).1 (perform_frame mishaps work opened).2

theorem within_cases (mishaps : Mishaps) (work : Work α) (c : Connection) :
    (∃ a opened t, c.begin = .ok opened ∧ perform mishaps opened work = (.done a, t) ∧
      within mishaps work c = (.done a, t.commit.drop)) ∨
    ((∀ a, (within mishaps work c).1 ≠ .done a) ∧ (within mishaps work c).2 = c) := by
  unfold within
  split
  · exact .inr ⟨by simp, rfl⟩
  · exact .inr ⟨by simp, rfl⟩
  · split
    · exact .inr ⟨by simp, rfl⟩
    · rename_i opened begun
      have rolledBack := drop_perform begun mishaps work
      split
      all_goals rename_i performed
      all_goals rw [performed] at rolledBack
      · exact .inr ⟨by simp, rolledBack⟩
      · exact .inr ⟨by simp, rolledBack⟩
      · split
        · exact .inr ⟨by simp, rolledBack⟩
        · exact .inr ⟨by simp, rolledBack⟩
        · exact .inl ⟨_, opened, _, begun, performed, rfl⟩

theorem within_undo (mishaps : Mishaps) (work : Work α) (c : Connection) :
    (within mishaps work c).2.undo = c.undo := by
  rcases within_cases mishaps work c with ⟨a, opened, t, begun, performed, ran⟩ | ⟨_, same⟩
  · rw [ran, drop_commit, (Connection.begin_ok begun).1]
  · rw [same]

theorem perform_saving {t : Transaction} (performed : perform mishaps t (saving comment expiry) = (.done id, after)) :
    (∃ row ∈ t.connection.store.posts.rows, row.id = comment.postId) ∧ id = t.connection.store.comments.lastId + 1 ∧
      after.connection.store = t.connection.store.commented comment expiry := by
  unfold saving perform at performed
  split at performed
  · simp [perform] at performed
  · cases performed
  · split at performed
    · rename_i added
      obtain ⟨known, fresh, written⟩ := addComment_ok added
      unfold perform at performed
      split at performed
      · simp [perform] at performed
      · cases performed
      · split at performed
        · rename_i moved
          have moved := setPostExpiry_some moved
          simp only [perform, Prod.mk.injEq, Ending.done.injEq] at performed
          obtain ⟨rfl, rfl⟩ := performed
          refine ⟨known, fresh, ?_⟩
          rw [show (Transaction.write (t.write _) _).connection.store = _ from rfl, moved]
          simp only [write, written, Store.commented]
        · simp [perform] at performed
    · simp [perform] at performed

theorem within_saving {c : Connection} (ran : within mishaps (saving comment expiry) c = (.done id, after)) :
    c.undo = none ∧ (∃ row ∈ c.store.posts.rows, row.id = comment.postId) ∧ id = c.store.comments.lastId + 1 ∧
      after = { store := c.store.commented comment expiry } := by
  rcases within_cases mishaps (saving comment expiry) c with ⟨a, opened, t, begun, performed, same⟩ | ⟨undone, _⟩
  · cases ran.symm.trans same
    obtain ⟨free, rfl⟩ := Connection.begin_ok begun
    obtain ⟨known, fresh, written⟩ := perform_saving performed
    exact ⟨free, known, fresh, congrArg (fun store => ({ store } : Connection)) written⟩
  · exact absurd (congrArg Prod.fst ran) (undone id)

end Transaction
end Forum
