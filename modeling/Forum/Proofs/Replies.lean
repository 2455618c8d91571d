import Forum.Proofs.Lifetimes
import Forum.Proofs.Threads
import Forum.Proofs.Traces

namespace Forum

def CommentRow.comment (row : CommentRow) : Comment :=
  ⟨row.id, row.postId, row.parentId, row.author, row.content, row.imagePath, (Instant.ofMillis? row.createdAt).getD default⟩

theorem CommentRow.read_eq {row : CommentRow} (dated : (Instant.ofMillis? row.createdAt).isSome) : row.read = .ok row.comment := by
  obtain ⟨created, same⟩ := Option.isSome_iff_exists.mp dated
  simp only [read, comment, readInstant, same, bind, Except.bind, pure, Except.pure, Option.getD_some]

theorem Store.listComments_eq {s : Store} (dated : ∀ row ∈ s.comments.rows, (Instant.ofMillis? row.createdAt).isSome)
    (post : Int) : ∃ comments, s.listComments post = .ok comments ∧
      comments.Perm ((s.comments.rows.filter (·.postId = post)).map CommentRow.comment) := by
  unfold listComments
  have sorted := List.mergeSort_perm (s.comments.rows.filter (·.postId = post)) fun a b => decide (Older a b)
  refine ⟨_, ?_, sorted.map CommentRow.comment⟩
  refine mapM_ok fun row member => CommentRow.read_eq (dated row ?_)
  exact (List.mem_filter.mp (sorted.mem_iff.mp member)).1

namespace Board.Landing

def comment (l : Landing) : Comment :=
  ⟨l.id, l.draft.postId, l.draft.parentId, l.draft.author, Text.trim l.draft.content, l.imagePath, l.now.floor⟩

theorem dated (l : Landing) : Instant.ofMillis? l.row.createdAt = some l.now.floor := Instant.ofMillis?_millis l.now

theorem comment_row (l : Landing) : l.row.comment = l.comment := by
  simp only [CommentRow.comment, l.dated, Option.getD_some]
  rfl

end Board.Landing

namespace Service
open Comments (comment saving written)
open Board (Entry Landing Prepared Saving)
variable {rules : Rules} {c d : (hall rules).Crowd} {landings fresh : List Landing} {i j : Nat}

structure Recorded (c : (hall rules).Crowd) (l : Landing) : Prop where
  returned : c.flights[l.call]? = some ⟨.save l.draft l.image, .done l.id⟩
  asked : ∃ mine reading saved, Prepared l.draft l.image l.call mine l.imagePath ∧ reading.clock = l.now ∧
    c.asked l.call = mine ++ [⟨l.call, .now, reading⟩, ⟨l.call, .transact (saving l.new l.expiry), saved⟩]

-- The comments of a crowd, as the submissions that landed in it account for them.
structure Accounts (c : (hall rules).Crowd) (landings : List Landing) : Prop where
  recorded : ∀ l ∈ landings, Recorded c l
  landed : ∀ (i : Nat) draft image id, c.flights[i]? = some ⟨.save draft image, .done id⟩ →
    ∃ l ∈ landings, l.call = i ∧ l.draft = draft ∧ l.image = image ∧ l.id = id
  numbered : landings.Pairwise (·.id < ·.id)
  bound : ∀ l ∈ landings, l.id ≤ c.shared.store.comments.lastId
  rows : c.shared.store.comments.rows = landings.map Landing.row

namespace Accounts

theorem opened {b : Backend} (empty : b.store = .empty) : Accounts (opened rules b) [] where
  recorded := by simp
  landed := by simp [Service.opened]
  numbered := .nil
  bound := by simp
  rows := by
    change b.store.comments.rows = _
    rw [empty]
    rfl

theorem start (accounts : Accounts c landings) (staged : Venue.Staged (Stage rules) c) (e : Errand) :
    Accounts (Venue.start c e) landings where
  recorded := by
    intro l member
    obtain ⟨returned, asked⟩ := accounts.recorded l member
    exact ⟨by rw [Venue.start_others (List.getElem?_eq_some_iff.mp returned).1, returned], asked⟩
  landed := by
    intro i draft image id returned
    exact accounts.landed i draft image id (returned_start staged returned)
  numbered := accounts.numbered
  bound := accounts.bound
  rows := accounts.rows

theorem elapse (accounts : Accounts c landings) (x : Board.Shift) : Accounts (Venue.elapse c x) landings where
  recorded := fun l member => ⟨(accounts.recorded l member).returned, (accounts.recorded l member).asked⟩
  landed := accounts.landed
  numbered := accounts.numbered
  bound := by
    change ∀ l ∈ landings, l.id ≤ (Board.shift x c.shared).store.comments.lastId
    rw [Board.shift_store]
    exact accounts.bound
  rows := by
    change (Board.shift x c.shared).store.comments.rows = _
    rw [Board.shift_store]
    exact accounts.rows

section
variable {e : Errand} {q : Question} {next : Outcome q.Value → Operation e.Result}

theorem asked_recorded (accounts : Accounts c landings) (waits : c.flights[i]? = some ⟨e, .ask q next⟩) (member : l ∈ landings) :
    l.call ≠ i ∧ Recorded (Venue.ask c i e q next) l := by
  obtain ⟨returned, asked⟩ := accounts.recorded l member
  have other : i ≠ l.call := by
    intro same
    subst same
    cases waits.symm.trans returned
  refine ⟨other.symm, by rw [Venue.ask_others other, returned], ?_⟩
  rw [Venue.asked_ask, if_neg other]
  exact asked

theorem still (waits : c.flights[i]? = some ⟨e, .ask q next⟩) (stage : Stage rules i e (c.asked i) (.ask q next))
    (apart : ∀ p reading expiry, ¬Lands c i p reading expiry q) :
    (Venue.ask c i e q next).shared.store.comments = c.shared.store.comments ∧
      ∀ (j : Nat) draft image id, (Venue.ask c i e q next).flights[j]? = some ⟨.save draft image, .done id⟩ →
        c.flights[j]? = some ⟨.save draft image, .done id⟩ := by
  refine ⟨?_, ?_⟩
  · change (c.shared.answerNow q).2.store.comments = _
    have effect := Backend.answerNow_effect c.shared stage.lawful
    generalize (c.shared.answerNow q).2.store = after at effect ⊢
    generalize replied : (c.shared.answerNow q).1 = reply at effect
    cases effect with
    | issued added =>
      obtain ⟨_, _, _, rfl⟩ := Store.addSession_ok added
      rfl
    | edited written =>
      obtain ⟨now, name, rfl⟩ := stage.lawful
      obtain ⟨_, _, _, _, _, rfl⟩ := Store.updateSession_renameEdit written
      rfl
    | commented saves known =>
      obtain ⟨draft, image, reading, new, expiry, rfl, submitting⟩ := submitting waits stage
      exact absurd (.commit submitting replied rfl) (apart _ reading expiry)
    | _ => rfl
  · intro j draft image id returned
    rcases returned_ask waits stage returned with old | ⟨_, reading, expiry, lands⟩
    · exact old
    · exact absurd lands (apart _ reading expiry)

theorem concat (accounts : Accounts c landings) (waits : c.flights[i]? = some ⟨e, .ask q next⟩)
    (recorded : Recorded (Venue.ask c i e q next) l) (call : l.call = i) (fresh : l.id = c.shared.store.comments.lastId + 1)
    (comments : (Venue.ask c i e q next).shared.store.comments = (c.shared.store.comments.insert l.new.row).2) :
    Accounts (Venue.ask c i e q next) (landings ++ [l]) where
  recorded := by
    intro m member
    rcases List.mem_append.mp member with old | new
    · exact (accounts.asked_recorded waits old).2
    · rw [List.mem_singleton.mp new]
      exact recorded
  landed := by
    intro j draft image id flight
    by_cases same : i = j
    · subst same
      subst call
      cases recorded.returned.symm.trans flight
      exact ⟨l, List.mem_append_right _ (List.mem_singleton_self _), rfl, rfl, rfl, rfl⟩
    · rw [Venue.ask_others same] at flight
      obtain ⟨m, member, landed⟩ := accounts.landed j draft image id flight
      exact ⟨m, List.mem_append_left _ member, landed⟩
  numbered := by
    refine List.pairwise_append.mpr ⟨accounts.numbered, List.pairwise_singleton _ _, ?_⟩
    intro m member last new
    rw [List.mem_singleton.mp new]
    have bound := accounts.bound m member
    omega
  bound := by
    intro m member
    rw [comments]
    change m.id ≤ c.shared.store.comments.lastId + 1
    rcases List.mem_append.mp member with old | new
    · have bound := accounts.bound m old
      omega
    · rw [List.mem_singleton.mp new]
      exact Int.le_of_eq fresh
  rows := by
    rw [comments, List.map_append, ← accounts.rows]
    change c.shared.store.comments.rows ++ [l.new.row (c.shared.store.comments.lastId + 1)] = _
    rw [← fresh]
    rfl

theorem lands (accounts : Accounts c landings) (lands : Lands c i p reading expiry q) :
    ∃ l, Accounts (Venue.move c (.step i)) (landings ++ [l]) := by
  obtain ⟨draft, image, new, _, _, waits, returned, _, stored⟩ := lands.returns
  cases lands with
  | commit submitting =>
    cases submitting.waits.symm.trans waits
    obtain ⟨earlier, imagePath, ready, asked, rfl⟩ := submitting.asked
    rw [Venue.move_step waits] at returned stored ⊢
    refine ⟨⟨i, draft, image, imagePath, reading.clock, expiry, c.shared.store.comments.lastId + 1⟩,
      accounts.concat waits ⟨returned, earlier, reading, c.shared, ready, rfl, ?_⟩ rfl rfl ?_⟩
    · refine (Venue.asked_ask c i i).trans ?_
      rw [if_pos rfl, asked, List.append_assoc]
      rfl
    · rw [stored, ← Backend.sweptFirst_comments]
      rfl

theorem ask (accounts : Accounts c landings) (waits : c.flights[i]? = some ⟨e, .ask q next⟩)
    (stage : Stage rules i e (c.asked i) (.ask q next)) :
    ∃ fresh, Accounts (Venue.ask c i e q next) (landings ++ fresh) := by
  by_cases landing : ∃ p reading expiry, Lands c i p reading expiry q
  · obtain ⟨p, reading, expiry, lands⟩ := landing
    obtain ⟨l, accounts⟩ := accounts.lands lands
    rw [Venue.move_step waits] at accounts
    exact ⟨[l], accounts⟩
  · obtain ⟨comments, returned⟩ := still waits stage fun p reading expiry lands => landing ⟨p, reading, expiry, lands⟩
    refine ⟨[], ?_⟩
    rw [List.append_nil]
    exact {
      recorded := fun l member => (accounts.asked_recorded waits member).2
      landed := fun j draft image id ended => accounts.landed j draft image id (returned j draft image id ended)
      numbered := accounts.numbered
      bound := comments ▸ accounts.bound
      rows := comments ▸ accounts.rows }

end

theorem play (accounts : Accounts c landings) (staged : Venue.Staged (Stage rules) c) (moves : List (hall rules).Move) :
    ∃ fresh, Accounts (Venue.play c moves) (landings ++ fresh) := by
  have both : Venue.Staged (Stage rules) (Venue.play c moves) ∧ ∃ fresh, Accounts (Venue.play c moves) (landings ++ fresh) := by
    refine Venue.play_keeps (P := fun d => Venue.Staged (Stage rules) d ∧ ∃ fresh, Accounts d (landings ++ fresh)) moves
      ?_ ?_ ?_ ⟨staged, [], by rwa [List.append_nil]⟩
    · intro d e kept
      obtain ⟨staged, fresh, accounts⟩ := kept
      exact ⟨staged.start (stages rules) e, fresh, accounts.start staged e⟩
    · intro d i e q next waits kept
      obtain ⟨staged, fresh, accounts⟩ := kept
      obtain ⟨more, accounts⟩ := accounts.ask waits (staged.stands i _ waits)
      exact ⟨staged.ask (stages rules) waits, fresh ++ more, List.append_assoc landings fresh more ▸ accounts⟩
    · intro d x kept
      obtain ⟨staged, fresh, accounts⟩ := kept
      exact ⟨staged.elapse x, fresh, accounts.elapse x⟩
  exact both.2

theorem listed (accounts : Accounts c landings) (p : Int) :
    ∃ comments, c.shared.store.listComments p = .ok comments ∧
      comments.Perm ((landings.filter (·.draft.postId = p)).map Landing.comment) := by
  have dated : ∀ row ∈ c.shared.store.comments.rows, (Instant.ofMillis? row.createdAt).isSome := by
    rw [accounts.rows]
    intro row member
    obtain ⟨l, _, rfl⟩ := List.mem_map.mp member
    rw [l.dated]
    rfl
  obtain ⟨comments, listed, perm⟩ := Store.listComments_eq dated p
  refine ⟨comments, listed, perm.trans (.of_eq ?_)⟩
  rw [accounts.rows, List.filter_map, List.map_map]
  exact List.map_congr_left fun l _ => l.comment_row

theorem ids (accounts : Accounts c landings) : (landings.map (·.id)).Nodup :=
  (List.pairwise_map.mpr accounts.numbered).imp Int.ne_of_lt

section
variable {p : Int} {comments : List Comment}

theorem mem_listed (accounts : Accounts c landings) (listed : c.shared.store.listComments p = .ok comments) {comment : Comment} :
    comment ∈ comments ↔ ∃ l ∈ landings, l.draft.postId = p ∧ l.comment = comment := by
  obtain ⟨others, listed', perm⟩ := accounts.listed p
  cases listed.symm.trans listed'
  simp only [perm.mem_iff, List.mem_map, List.mem_filter, decide_eq_true_eq, and_assoc]

theorem listed_ids (accounts : Accounts c landings) (listed : c.shared.store.listComments p = .ok comments) :
    (comments.map (·.id)).Nodup := by
  obtain ⟨others, listed', perm⟩ := accounts.listed p
  cases listed.symm.trans listed'
  rw [(perm.map _).nodup_iff, List.map_map]
  exact accounts.ids.sublist (List.filter_sublist.map _)

end

theorem before (accounts : Accounts d landings) (staged : Venue.Staged (Stage rules) d)
    (past : ∀ e ∈ d.log, e.before.clock ≤ d.shared.clock) {moves : List (hall rules).Move} (forward : Venue.Along Forward d moves)
    (later : Accounts (Venue.play d moves) (landings ++ fresh)) (member : m ∈ landings) (also : l ∈ landings ++ fresh)
    (begun : d.flights.length ≤ l.call) : Thread.Before m.comment l.comment := by
  have ids : m.id < l.id := by
    rcases List.mem_append.mp also with old | new
    · have bound := (List.getElem?_eq_some_iff.mp (accounts.recorded l old).returned).1
      omega
    · exact (List.pairwise_append.mp later.numbered).2.2 m member l new
  have clocks : m.now ≤ l.now := by
    obtain ⟨_, reading, _, _, now, asked⟩ := (accounts.recorded m member).asked
    obtain ⟨_, reading', _, _, now', asked'⟩ := (later.recorded l also).asked
    have read : ⟨m.call, .now, reading⟩ ∈ d.asked m.call := by simp [asked]
    have read' : ⟨l.call, .now, reading'⟩ ∈ (Venue.play d moves).asked l.call := by simp [asked']
    rw [← now, ← now']
    exact Instant.le_trans (past _ (Venue.mem_asked.mp read).1)
      (history_between forward (Venue.asked_later staged moves begun read')).1
  have floors : m.now.floor.nanos ≤ l.now.floor.nanos := Instant.floor_mono clocks
  rw [Thread.before_iff]
  change m.now.floor.nanos < l.now.floor.nanos ∨ m.now.floor.nanos = l.now.floor.nanos ∧ m.id < l.id
  omega

section
variable {p : Int} {comments : List Comment}

theorem answers (accounts : Accounts d landings) (staged : Venue.Staged (Stage rules) d)
    (past : ∀ e ∈ d.log, e.before.clock ≤ d.shared.clock) {moves : List (hall rules).Move} (forward : Venue.Along Forward d moves)
    (listed : (Venue.play d moves).shared.store.listComments p = .ok comments) (member : m ∈ landings) (on : m.draft.postId = p)
    {draft : CommentDraft} {id : Int} (begun : d.flights.length ≤ j) (flight : (Venue.play d moves).flights[j]? = some ⟨.save draft image, .done id⟩)
    (on' : draft.postId = p) (names : draft.parentId = some m.id) :
    ∃ node, Node.Within (Thread.build comments) node ∧ node.comment.id = m.id ∧ ∃ reply ∈ node.replies, reply.comment.id = id := by
  obtain ⟨fresh, later⟩ := accounts.play staged moves
  obtain ⟨l, also, rfl, rfl, rfl, rfl⟩ := later.landed j draft image id flight
  have before := accounts.before staged past forward later member also begun
  have parent : m.comment ∈ comments := (later.mem_listed listed).mpr ⟨m, List.mem_append_left _ member, on, rfl⟩
  have child : l.comment ∈ comments := (later.mem_listed listed).mpr ⟨l, also, on', rfl⟩
  obtain ⟨node, within, same⟩ := Node.within_of_mem _ ((Thread.preorder_build comments).mem_iff.mpr parent)
  have replies := (Thread.reply_build_iff (later.listed_ids listed) within).mpr ⟨child, names.trans (by rw [same]; rfl), same ▸ before⟩
  obtain ⟨reply, among, same'⟩ := List.mem_map.mp replies
  exact ⟨node, within, congrArg (·.id) same, reply, among, congrArg (·.id) same'⟩

theorem top (accounts : Accounts c landings) (listed : c.shared.store.listComments p = .ok comments) (member : l ∈ landings)
    (on : l.draft.postId = p) (also : m ∈ landings) (off : m.draft.postId ≠ p) (names : l.draft.parentId = some m.id) :
    ∃ node ∈ Thread.build comments, node.comment.id = l.id := by
  have known : l.comment ∈ comments := (accounts.mem_listed listed).mpr ⟨l, member, on, rfl⟩
  have top := (Thread.top_build_iff (accounts.listed_ids listed)).mpr ⟨known, ?_⟩
  · obtain ⟨node, there, same⟩ := List.mem_map.mp top
    exact ⟨node, there, congrArg (·.id) same⟩
  · intro x among _ named
    obtain ⟨other, there, on, rfl⟩ := (accounts.mem_listed listed).mp among
    have same : some m.id = some other.id := names.symm.trans named
    cases List.inj_on_of_nodup_map accounts.ids also there (Option.some.inj same)
    exact off on

end

end Accounts

theorem run_thread {b : Backend} (works : b.mishap .listComments = none) (listed : b.store.listComments p = .ok comments) :
    b.run (Comments.thread p) = (.done (Thread.build comments), b) := by
  have asked : b.answer (.listComments p) = (.done comments, b) := by
    refine (Backend.answer_prompt rfl).trans ?_
    simp only [Backend.answerNow, works, Backend.meeting, Backend.reading, listed]
  unfold Backend.run Comments.thread
  change Procedure.run (I := ports) Backend.answer b (.ask (.listComments p) _) = _
  rw [Procedure.run, asked]
  rfl

structure Shows (c : (hall rules).Crowd) (i : Nat) (draft : CommentDraft) (image : ByteArray) (comment : Comment) : Prop where
  returned : c.flights[i]? = some ⟨.save draft image, .done comment.id⟩
  post : comment.postId = draft.postId
  parent : comment.parentId = draft.parentId
  author : comment.author = draft.author
  content : comment.content = Text.trim draft.content
  asked : ∃ mine reading work saved, c.asked i = mine ++ [⟨i, .now, reading⟩, ⟨i, .transact work, saved⟩] ∧
    Prepared draft image i mine comment.imagePath ∧ comment.createdAt = reading.clock.floor

theorem Recorded.shows (recorded : Recorded c l) : Shows c l.call l.draft l.image l.comment := by
  obtain ⟨mine, reading, saved, ready, now, asked⟩ := recorded.asked
  exact ⟨recorded.returned, rfl, rfl, rfl, rfl, mine, reading, _, saved, asked, ready, by rw [now]; rfl⟩

-- A thread has the comments of its post, each as it was submitted and once. A comment that was submitted
-- in answer to one on the post that had been accepted by then hangs right under it, and one that names a
-- comment on another post is at the top. The clock never goes back, and all operations may overlap.
theorem replies_under_parents (rules : Rules) {b : Backend} (empty : b.store = .empty) {moves : List (hall rules).Move}
    (forward : Venue.Along Forward (opened rules b) moves)
    (works : (Venue.play (opened rules b) moves).shared.mishap .listComments = none) (p : Int) :
    let c := Venue.play (opened rules b) moves
    ∃ nodes, c.shared.run (Comments.thread p) = (.done nodes, c.shared) ∧
      ((Node.forestPreorder nodes).map (·.id)).Nodup ∧
      (∀ (i : Nat) draft image id, c.flights[i]? = some ⟨.save draft image, .done id⟩ → draft.postId = p →
        ∃ comment ∈ Node.forestPreorder nodes, comment.id = id ∧ Shows c i draft image comment) ∧
      (∀ comment ∈ Node.forestPreorder nodes, ∃ i draft image, draft.postId = p ∧ Shows c i draft image comment) ∧
      (∀ k (i j : Nat) draft image parent answer file id, let d := Venue.play (opened rules b) (moves.take k)
        d.flights[i]? = some ⟨.save draft image, .done parent⟩ → draft.postId = p →
        d.flights.length ≤ j → c.flights[j]? = some ⟨.save answer file, .done id⟩ → answer.postId = p →
        answer.parentId = some parent →
          ∃ node, Node.Within nodes node ∧ node.comment.id = parent ∧ ∃ reply ∈ node.replies, reply.comment.id = id) ∧
      ∀ (i j : Nat) draft image parent answer file id,
        c.flights[i]? = some ⟨.save draft image, .done parent⟩ → draft.postId ≠ p →
        c.flights[j]? = some ⟨.save answer file, .done id⟩ → answer.postId = p → answer.parentId = some parent →
          ∃ node ∈ nodes, node.comment.id = id := by
  intro c
  obtain ⟨landings, accounts⟩ := (Accounts.opened empty).play (staged_opened rules b) moves
  obtain ⟨comments, listed, _⟩ := accounts.listed p
  have preorder := Thread.preorder_build comments
  refine ⟨Thread.build comments, run_thread works listed, (preorder.map _).nodup_iff.mpr (accounts.listed_ids listed), ?_, ?_, ?_, ?_⟩
  · intro i draft image id flight on
    obtain ⟨l, member, rfl, rfl, rfl, rfl⟩ := accounts.landed i draft image id flight
    have shown := (accounts.mem_listed listed).mpr ⟨l, member, on, rfl⟩
    exact ⟨l.comment, preorder.mem_iff.mpr shown, rfl, (accounts.recorded l member).shows⟩
  · intro comment shown
    obtain ⟨l, member, on, rfl⟩ := (accounts.mem_listed listed).mp (preorder.mem_iff.mp shown)
    exact ⟨l.call, l.draft, l.image, on, (accounts.recorded l member).shows⟩
  · intro k i j draft image parent answer file id d accepted on begun flight on' names
    have staged : Venue.Staged (Stage rules) d := Venue.play_staged (stages rules) (moves.take k) (staged_opened rules b)
    -- The run is cut where the parent had been accepted: the answer belongs to what follows.
    obtain ⟨early, accounts⟩ := (Accounts.opened empty).play (staged_opened rules b) (moves.take k)
    have continued : Venue.play d (moves.drop k) = c := by rw [← Venue.play_append, List.take_append_drop]
    rw [← List.take_append_drop k moves, Venue.along_append] at forward
    have past : ∀ e ∈ d.log, e.before.clock ≤ d.shared.clock := by
      intro e member
      rw [Venue.play_log] at member
      exact (history_between forward.1 member).2
    obtain ⟨m, member, rfl, rfl, rfl, rfl⟩ := accounts.landed i draft image parent accepted
    exact accounts.answers staged past forward.2 (by rwa [continued]) member on begun (by rwa [continued]) on' names
  · intro i j draft image parent answer file id accepted off flight on names
    obtain ⟨l, member, rfl, rfl, rfl, rfl⟩ := accounts.landed j answer file id flight
    obtain ⟨m, also, rfl, rfl, rfl, rfl⟩ := accounts.landed i draft image parent accepted
    exact accounts.top listed member on also off names

def answerToFirstComment : CommentDraft := ⟨1, some 1, ⟨1, "ann", ""⟩, "hello yourself"⟩

def conversation : List (hall seconds).Move :=
  firstComment seconds ++ [.step 1, .start (.save answerToFirstComment ⟨#[]⟩), .step 2, .step 2, .step 2]

theorem replies_under_parents_conversation :
    let c := Venue.play (opened seconds bare) conversation
    bare.store = .empty ∧ Venue.Along Forward (opened seconds bare) conversation ∧ c.shared.mishap .listComments = none ∧
      ∃ nodes, c.shared.run (Comments.thread 1) = (.done nodes, c.shared) ∧
        ∃ node, Node.Within nodes node ∧ node.comment.id = 1 ∧ ∃ reply ∈ node.replies, reply.comment.id = 2 := by
  intro c
  have forward : Venue.Along Forward (opened seconds bare) conversation :=
    ⟨.start _, .step 0, .step 0, .start _, .step 1, .step 1, .step 1, .start _, .step 2, .step 2, .step 2, trivial⟩
  obtain ⟨nodes, ran, _, _, _, answers, _⟩ := replies_under_parents seconds rfl forward rfl 1
  exact ⟨rfl, forward, rfl, nodes, ran, answers 7 1 2 _ _ 1 _ _ 2 rfl rfl (by decide) rfl rfl rfl⟩

end Service
end Forum
