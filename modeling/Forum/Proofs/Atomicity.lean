import Forum.Proofs.Transaction

namespace Forum

theorem addComment_known {s : Store} (known : ∃ row ∈ s.posts.rows, row.id = new.postId) :
    s.addComment new = .ok (s.comments.lastId + 1, { s with comments := (s.comments.insert new.row).2 }) := by
  have found : s.posts.rows.any (·.id = new.postId) = true := by simpa using known
  simp only [Store.addComment, found, if_true]
  rfl

theorem addComment_unknown {s : Store} (unknown : ∀ row ∈ s.posts.rows, row.id ≠ new.postId) :
    s.addComment new = .error .unknownPost := by
  have absent : s.posts.rows.any (·.id = new.postId) = false := by simpa using unknown
  simp [Store.addComment, absent]

theorem setPostExpiry_known {s : Store} (known : ∃ row ∈ s.posts.rows, row.id = post) (expiry : Instant) :
    s.setPostExpiry post expiry =
      some { s with posts := { s.posts with rows := s.posts.rows.map (PostRow.moveExpiry post expiry) } } := by
  have found : s.posts.rows.any (·.id = post) = true := by simpa using known
  simp only [Store.setPostExpiry, found, if_true]

theorem setPostExpiry_unknown {s : Store} (unknown : ∀ row ∈ s.posts.rows, row.id ≠ post) (expiry : Instant) :
    s.setPostExpiry post expiry = none := by
  have absent : s.posts.rows.any (·.id = post) = false := by simpa using unknown
  simp [Store.setPostExpiry, absent]

namespace Transaction

inductive Statement
  | insert (comment : NewComment) (reply : Except Error Int)
  | setExpiry (post : Int) (expiry : Instant) (reply : Except Error Unit)

namespace Statement

def write (s : Store) : Statement → Store
  | insert comment (.ok _) => { s with comments := (s.comments.insert comment.row).2 }
  | setExpiry post expiry (.ok _) =>
    { s with posts := { s.posts with rows := s.posts.rows.map (PostRow.moveExpiry post expiry) } }
  | _ => s

inductive Answered (mishaps : Mishaps) (s : Store) : Statement → Prop
  | inserted (calm : mishaps.insert = none) (known : ∃ row ∈ s.posts.rows, row.id = comment.postId) :
      Answered mishaps s (insert comment (.ok (s.comments.lastId + 1)))
  | unknownPost (calm : mishaps.insert = none) (unknown : ∀ row ∈ s.posts.rows, row.id ≠ comment.postId) :
      Answered mishaps s (insert comment (.error (.database .unknownPost)))
  | notInserted (fails : mishaps.insert = some (.error e)) : Answered mishaps s (insert comment (.error e))
  | moved (calm : mishaps.expiry = none) (known : ∃ row ∈ s.posts.rows, row.id = post) :
      Answered mishaps s (setExpiry post expiry (.ok ()))
  | missingPost (calm : mishaps.expiry = none) (unknown : ∀ row ∈ s.posts.rows, row.id ≠ post) :
      Answered mishaps s (setExpiry post expiry (.error (.notFound "post")))
  | notMoved (fails : mishaps.expiry = some (.error e)) : Answered mishaps s (setExpiry post expiry (.error e))

theorem insert_answered (mishaps : Mishaps) (s : Store) (comment : NewComment) :
    (∃ reply, (insert comment reply).Answered mishaps s) ∨ ∃ text, mishaps.insert = some (.panic text) := by
  cases mishap : mishaps.insert with
  | none =>
    by_cases known : ∃ row ∈ s.posts.rows, row.id = comment.postId
    · exact .inl ⟨_, .inserted mishap known⟩
    · exact .inl ⟨_, .unknownPost mishap (by simpa using known)⟩
  | some fault =>
    cases fault with
    | error e => exact .inl ⟨_, .notInserted mishap⟩
    | panic text => exact .inr ⟨text, rfl⟩

theorem setExpiry_answered (mishaps : Mishaps) (s : Store) (post : Int) (expiry : Instant) :
    (∃ reply, (setExpiry post expiry reply).Answered mishaps s) ∨ ∃ text, mishaps.expiry = some (.panic text) := by
  cases mishap : mishaps.expiry with
  | none =>
    by_cases known : ∃ row ∈ s.posts.rows, row.id = post
    · exact .inl ⟨_, .moved mishap known⟩
    · exact .inl ⟨_, .missingPost mishap (by simpa using known)⟩
  | some fault =>
    cases fault with
    | error e => exact .inl ⟨_, .notMoved mishap⟩
    | panic text => exact .inr ⟨text, rfl⟩

end Statement

-- How work goes from a store on: the statements it makes, each answered by the store as those before it
-- have left it, and how it ends. A statement that panics is the end of the work.
inductive Goes (mishaps : Mishaps) : Store → Work α → List Statement → Ending α → Prop
  | done : Goes mishaps s (.done a) [] (.done a)
  | fail : Goes mishaps s (.fail e) [] (.failed e)
  | panic : Goes mishaps s (.panic text) [] (.gaveUp text)
  | insert (answered : (Statement.insert comment reply).Answered mishaps s)
      (rest : Goes mishaps ((Statement.insert comment reply).write s) (next reply) statements ending) :
      Goes mishaps s (.insert comment next) (.insert comment reply :: statements) ending
  | insertPanics (panics : mishaps.insert = some (.panic text)) : Goes mishaps s (.insert comment next) [] (.gaveUp (some text))
  | setExpiry (answered : (Statement.setExpiry post expiry reply).Answered mishaps s)
      (rest : Goes mishaps ((Statement.setExpiry post expiry reply).write s) (next reply) statements ending) :
      Goes mishaps s (.setExpiry post expiry next) (.setExpiry post expiry reply :: statements) ending
  | expiryPanics (panics : mishaps.expiry = some (.panic text)) :
      Goes mishaps s (.setExpiry post expiry next) [] (.gaveUp (some text))

theorem exists_goes (mishaps : Mishaps) (work : Work α) (s : Store) : ∃ statements ending, Goes mishaps s work statements ending := by
  induction work generalizing s with
  | done a => exact ⟨_, _, .done⟩
  | fail e => exact ⟨_, _, .fail⟩
  | panic text => exact ⟨_, _, .panic⟩
  | insert comment next ih =>
    rcases Statement.insert_answered mishaps s comment with ⟨reply, answered⟩ | ⟨text, panics⟩
    · obtain ⟨_, _, rest⟩ := ih reply ((Statement.insert comment reply).write s)
      exact ⟨_, _, .insert answered rest⟩
    · exact ⟨_, _, .insertPanics panics⟩
  | setExpiry post expiry next ih =>
    rcases Statement.setExpiry_answered mishaps s post expiry with ⟨reply, answered⟩ | ⟨text, panics⟩
    · obtain ⟨_, _, rest⟩ := ih reply ((Statement.setExpiry post expiry reply).write s)
      exact ⟨_, _, .setExpiry answered rest⟩
    · exact ⟨_, _, .expiryPanics panics⟩

theorem perform_of_goes {mishaps : Mishaps} {work : Work α} (goes : Goes mishaps s work statements ending) {t : Transaction}
    (store : t.connection.store = s) : perform mishaps t work = (ending, t.write (statements.foldl Statement.write s)) := by
  induction goes generalizing t with
  | done => subst store; rfl
  | fail => subst store; rfl
  | panic => subst store; rfl
  | insertPanics panics =>
    subst store
    simp only [perform, panics]
    rfl
  | expiryPanics panics =>
    subst store
    simp only [perform, panics]
    rfl
  | insert answered _ ih =>
    subst store
    cases answered with
    | inserted calm known =>
      simp only [perform, calm, addComment_known known]
      exact ih rfl
    | unknownPost calm unknown =>
      simp only [perform, calm, addComment_unknown unknown]
      exact ih rfl
    | notInserted fails =>
      simp only [perform, fails]
      exact ih rfl
  | setExpiry answered _ ih =>
    subst store
    cases answered with
    | moved calm known =>
      simp only [perform, calm, setPostExpiry_known known]
      exact ih rfl
    | missingPost calm unknown =>
      simp only [perform, calm, setPostExpiry_unknown unknown]
      exact ih rfl
    | notMoved fails =>
      simp only [perform, fails]
      exact ih rfl

-- What a transaction comes to, by how its work goes and whether it can be committed. A connection that
-- nobody has opened a transaction on is given back as one on which the next can be opened.
theorem within_atomic (mishaps : Mishaps) (work : Work α) (s : Store) :
    let ran := within mishaps work { store := s }
    (∃ t, ran.2.begin = .ok t) ∧ ((∀ a, ran.1 ≠ .done a) → ran.2 = { store := s }) ∧
    (∃ statements ending, Goes mishaps s work statements ending) ∧
    ∀ statements ending, Goes mishaps s work statements ending → mishaps.begins = none →
      match ending with
      | .done a =>
        (mishaps.commit = none → ran = (.done a, { store := statements.foldl Statement.write s })) ∧
          ∀ e, mishaps.commit = some (.error e) → ran.1 = .failed e
      | .failed e => ran.1 = .failed e
      | .gaveUp text => ran.1 = .failed (.transactionAborted (text.getD "panic")) := by
  intro ran
  refine ⟨Connection.begin_free (within_undo mishaps work _), ?_, exists_goes mishaps work s, ?_⟩
  · intro without
    rcases within_cases mishaps work { store := s } with ⟨a, _, _, _, _, same⟩ | ⟨_, same⟩
    · exact absurd (congrArg Prod.fst same) (without a)
    · exact same
  · intro statements ending goes calm
    have performed := perform_of_goes goes (t := { connection := { store := s, undo := some s } }) rfl
    cases ending with
    | done a =>
      constructor
      · intro committed
        simp only [ran, within, calm, Connection.begin, performed, committed]
        rfl
      · intro e fails
        simp only [ran, within, calm, Connection.begin, performed, fails]
    | failed e => simp only [ran, within, calm, Connection.begin, performed]
    | gaveUp text => simp only [ran, within, calm, Connection.begin, performed]

def onePostStore : Store where
  posts := ⟨[⟨1, ⟨1, "ann", ""⟩, "title", "content", none, 0, 1000, 0⟩], 1⟩

def remark (post : Int) : NewComment := ⟨post, none, ⟨1, "ann", ""⟩, "hello", none, .epoch⟩

def insistent : Work Int :=
  .insert (remark 2) fun _ =>
    .setExpiry 2 ⟨8000000, by decide⟩ fun _ =>
      .insert (remark 1) fun
        | .ok id => .setExpiry 1 ⟨8000000, by decide⟩ fun _ => .done id
        | .error e => .fail e

theorem within_atomic_insistent :
    within noMishaps insistent { store := onePostStore } =
      (.done 1, { store := {
        posts := ⟨[⟨1, ⟨1, "ann", ""⟩, "title", "content", none, 0, 8, 0⟩], 1⟩
        comments := ⟨[⟨1, 1, none, ⟨1, "ann", ""⟩, "hello", none, 0⟩], 1⟩ } }) := by
  have goes : Goes noMishaps onePostStore insistent
      [.insert (remark 2) (.error (.database .unknownPost)), .setExpiry 2 ⟨8000000, by decide⟩ (.error (.notFound "post")),
        .insert (remark 1) (.ok 1), .setExpiry 1 ⟨8000000, by decide⟩ (.ok ())] (.done 1) := by
    refine .insert (.unknownPost rfl (by decide)) (.setExpiry (.missingPost rfl (by decide)) ?_)
    exact .insert (.inserted rfl (by decide)) (.setExpiry (.moved rfl (by decide)) .done)
  exact ((within_atomic noMishaps insistent onePostStore).2.2.2 _ _ goes rfl).1 rfl

end Transaction
end Forum
