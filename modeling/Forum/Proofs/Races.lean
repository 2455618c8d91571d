import Forum.Proofs.Visits

namespace Forum.Board
open Service Service.Comments
open Procedure (ofOutcome)
open Venue (mem_asked)
variable {i : Nat} {id : Int} {grace : Span} {draft : CommentDraft} {image : ByteArray}

-- A submission whose transaction has committed: its number, what it was about, the address of its
-- image, the instant that it read, the expiry that follows and the id of its comment.
structure Landing where
  call : Nat
  draft : CommentDraft
  image : ByteArray
  imagePath : Option String
  now : Instant
  expiry : Instant
  id : Int

namespace Landing

def new (l : Landing) : NewComment := comment l.draft l.draft.postId l.imagePath l.now

def row (l : Landing) : CommentRow :=
  ⟨l.id, l.draft.postId, l.draft.parentId, l.draft.author, Text.trim l.draft.content, l.imagePath, l.now.millis⟩

def expiryAfter (landings : List Landing) (post : Int) (before : Int) : Int :=
  match (landings.filter (·.draft.postId = post)).getLast? with
  | some l => l.expiry.millis
  | none => before

theorem expiryAfter_concat (landings : List Landing) (l : Landing) (post before : Int) :
    expiryAfter (landings ++ [l]) post before =
      if l.draft.postId = post then l.expiry.millis else expiryAfter landings post before := by
  unfold expiryAfter
  by_cases same : l.draft.postId = post
  · simp [List.filter_append, same]
  · simp [List.filter_append, same]

end Landing

-- What is left in the crowd of a submission that landed: it returned its comment's id, and it asked
-- for its post, perhaps for an upload, for the time and for the transaction.
def Landed (grace : Span) (c : (board grace).Crowd) (l : Landing) : Prop :=
  c.flights[l.call]? = some ⟨.save l.draft l.image, .done l.id⟩ ∧ l.now.add? grace = some l.expiry ∧
    ∃ mine s t, Prepared l.draft l.image l.call mine l.imagePath ∧ s.clock = l.now ∧
      c.asked l.call = mine ++ [⟨l.call, .now, s⟩, ⟨l.call, .transact (saving l.new l.expiry), t⟩]

-- The store of a crowd, as its landings account for it.
structure Ledger (grace : Span) (b : Backend) (c : (board grace).Crowd) (landings : List Landing) : Prop where
  landed : ∀ l ∈ landings, Landed grace c l
  once : (landings.map (·.call)).Nodup
  order : c.log.filterMap commit? = landings.map fun l => (l.call, l.id)
  numbered : ∀ (k : Nat) (l : Landing), landings[k]? = some l → l.id = b.store.comments.lastId + 1 + k
  lastId : c.shared.store.comments.lastId = b.store.comments.lastId + landings.length
  rows : c.shared.store.comments.rows = b.store.comments.rows ++ landings.map Landing.row
  expiries : c.shared.store.posts.rows.map (fun r => (r.id, r.expiresAt)) =
    b.store.posts.rows.map fun r => (r.id, Landing.expiryAfter landings r.id r.expiresAt)

theorem Swept.expiries {s t : Store} (swept : Swept s t) :
    t.posts.rows.map (fun r => (r.id, r.expiresAt)) = s.posts.rows.map fun r => (r.id, r.expiresAt) := by
  obtain ⟨_, f, ages, rows⟩ := swept
  rw [rows, List.map_map]
  apply List.map_congr_left
  intro row _
  simp only [Function.comp, ages.id, ages.expiresAt]

theorem expiries_moveExpiry (rows : List PostRow) (post : Int) (expiry : Instant) :
    (rows.map (PostRow.moveExpiry post expiry)).map (fun r => (r.id, r.expiresAt)) =
      (rows.map fun r => (r.id, r.expiresAt)).map fun r => (r.1, if post = r.1 then expiry.millis else r.2) := by
  rw [List.map_map, List.map_map]
  apply List.map_congr_left
  intro row _
  simp only [Function.comp, PostRow.moveExpiry]
  by_cases same : row.id = post
  · simp [same]
  · simp [same, Ne.symm same]

theorem Landed.ask {c : (board grace).Crowd} {visit : Visit} {next : Outcome q.Value → Operation visit.Result}
    (landed : Landed grace c l) (waits : c.flights[i]? = some ⟨visit, .ask q next⟩) :
    Landed grace (Venue.ask c i visit q next) l ∧ i ≠ l.call := by
  obtain ⟨returned, sum, mine, s, t, ready, read, asked⟩ := landed
  have other : i ≠ l.call := by
    intro same
    rw [same, returned] at waits
    cases waits
  refine ⟨⟨?_, sum, mine, s, t, ready, read, ?_⟩, other⟩
  · simp only [Venue.ask, List.getElem?_set_ne other]
    exact returned
  · rw [Venue.asked_ask, if_neg other]
    exact asked

theorem ledger_opened (grace : Span) (b : Backend) : Ledger grace b (opened grace b) [] where
  landed := by simp
  once := by simp
  order := rfl
  numbered := by simp
  lastId := by simp [opened]
  rows := by simp [opened]
  expiries := rfl

theorem Ledger.calm {c : (board grace).Crowd} {visit : Visit} {next : Outcome q.Value → Operation visit.Result}
    (ledger : Ledger grace b c landings) (waits : c.flights[i]? = some ⟨visit, .ask q next⟩)
    (uncommitted : commit? ⟨i, q, c.shared⟩ = none) (swept : Swept c.shared.store (c.shared.answerNow q).2.store) :
    Ledger grace b (Venue.ask c i visit q next) landings where
  landed := fun l member => ((ledger.landed l member).ask waits).1
  once := ledger.once
  order := by
    change (c.log ++ [_]).filterMap commit? = _
    rw [List.filterMap_append, List.filterMap_cons_none uncommitted, List.filterMap_nil, List.append_nil, ledger.order]
  numbered := ledger.numbered
  lastId := by
    change (c.shared.answerNow q).2.store.comments.lastId = _
    rw [swept.1, ledger.lastId]
  rows := by
    change (c.shared.answerNow q).2.store.comments.rows = _
    rw [swept.1, ledger.rows]
  expiries := swept.expiries.trans ledger.expiries

theorem Ledger.commits {c : (board grace).Crowd} {visit : Visit} {next : Outcome q.Value → Operation visit.Result}
    (ledger : Ledger grace b c landings) (waits : c.flights[i]? = some ⟨visit, .ask q next⟩) {before : Store}
    (committed : commit? ⟨i, q, c.shared⟩ = some (i, l.id)) (mine : l.call = i)
    (swept : Swept c.shared.store before) (fresh : l.id = before.comments.lastId + 1)
    (written : (c.shared.answerNow q).2.store = before.commented l.new l.expiry)
    (landed : Landed grace (Venue.ask c i visit q next) l) :
    Ledger grace b (Venue.ask c i visit q next) (landings ++ [l]) where
  landed := by
    intro other member
    rcases List.mem_append.mp member with old | new
    · exact ((ledger.landed other old).ask waits).1
    · rw [List.mem_singleton.mp new]
      exact landed
  once := by
    rw [List.map_append, List.nodup_append]
    refine ⟨ledger.once, by simp, ?_⟩
    intro call member call' new same
    obtain ⟨other, old, rfl⟩ := List.mem_map.mp member
    have last : call' = l.call := by simpa using new
    -- Whoever has landed has returned, and this call is still asking.
    exact ((ledger.landed other old).ask waits).2 (mine.symm.trans (last.symm.trans same.symm))
  order := by
    change (c.log ++ [_]).filterMap commit? = _
    rw [List.filterMap_append, List.filterMap_cons_some committed, List.filterMap_nil, ledger.order, List.map_append, ← mine]
    rfl
  numbered := by
    intro k other found
    rcases Nat.lt_or_ge k landings.length with old | new
    · rw [List.getElem?_append_left old] at found
      exact ledger.numbered k other found
    · rw [List.getElem?_append_right new, List.getElem?_singleton] at found
      split at found
      · cases found
        have last : k = landings.length := by omega
        rw [fresh, swept.1, ledger.lastId, last]
        omega
      · cases found
  lastId := by
    change (c.shared.answerNow q).2.store.comments.lastId = _
    rw [written]
    change before.comments.lastId + 1 = _
    rw [swept.1, ledger.lastId, List.length_append, List.length_singleton]
    omega
  rows := by
    change (c.shared.answerNow q).2.store.comments.rows = _
    rw [written]
    change before.comments.rows ++ [l.new.row (before.comments.lastId + 1)] = _
    rw [← fresh, swept.1, ledger.rows, List.map_append, List.append_assoc]
    rfl
  expiries := by
    change (c.shared.answerNow q).2.store.posts.rows.map _ = _
    rw [written]
    change (before.posts.rows.map (PostRow.moveExpiry l.draft.postId l.expiry)).map _ = _
    rw [expiries_moveExpiry, swept.expiries, ledger.expiries, List.map_map]
    apply List.map_congr_left
    intro row _
    simp only [Function.comp, Landing.expiryAfter_concat]

theorem Ledger.start {c : (board grace).Crowd} (ledger : Ledger grace b c landings) (visit : Visit) :
    Ledger grace b (Venue.start c visit) landings where
  landed := by
    intro l member
    obtain ⟨returned, rest⟩ := ledger.landed l member
    refine ⟨?_, rest⟩
    have bound := (List.getElem?_eq_some_iff.mp returned).1
    simp only [Venue.start, List.getElem?_append_left bound]
    exact returned
  once := ledger.once
  order := ledger.order
  numbered := ledger.numbered
  lastId := ledger.lastId
  rows := ledger.rows
  expiries := ledger.expiries

theorem shift_store (shift : Shift) (b : Backend) : (Board.shift shift b).store = b.store := by
  cases shift <;> rfl

theorem Ledger.elapse {c : (board grace).Crowd} (ledger : Ledger grace b c landings) (x : Shift) :
    Ledger grace b (Venue.elapse c x) landings where
  landed := ledger.landed
  once := ledger.once
  order := ledger.order
  numbered := ledger.numbered
  lastId := by
    change (shift x c.shared).store.comments.lastId = _
    rw [shift_store, ledger.lastId]
  rows := by
    change (shift x c.shared).store.comments.rows = _
    rw [shift_store, ledger.rows]
  expiries := by
    change (shift x c.shared).store.posts.rows.map _ = _
    rw [shift_store, ledger.expiries]

theorem ledger_asked {c : (board grace).Crowd} {visit : Visit} {next : Outcome q.Value → Operation visit.Result}
    (ledger : Ledger grace b c landings) (waits : c.flights[i]? = some ⟨visit, .ask q next⟩)
    (stage : Stage grace i visit (c.asked i) (.ask q next)) :
    ∃ landings, Ledger grace b (Venue.ask c i visit q next) landings := by
  rcases answer_effect i stage.asks c.shared with
    ⟨uncommitted, swept⟩ | ⟨new, expiry, id, before, rfl, replied, swept, fresh, written⟩
  · exact ⟨landings, ledger.calm waits uncommitted swept⟩
  · cases visit with
    | sweep => exact (Sweeping.not_transacts stage).elim
    | save draft image =>
      obtain ⟨earlier, imagePath, s, expiry', asked, ready, sum, work, rfl⟩ := (Saving.waits stage).transacts
      obtain ⟨rfl, rfl⟩ := saving_inj work
      have bound := (List.getElem?_eq_some_iff.mp waits).1
      refine ⟨_, ledger.commits (l := ⟨i, draft, image, imagePath, s.clock, expiry, id⟩) waits
        (commit?_transact.mpr ⟨rfl, replied⟩) rfl swept fresh written ?_⟩
      refine ⟨?_, sum, earlier, s, c.shared, ready, rfl, ?_⟩
      · have ended : (c.shared.answerNow (.transact (saving (comment draft draft.postId imagePath s.clock) expiry))).1 = .done id :=
          replied
        simp only [Venue.ask, List.getElem?_set_self bound, ended]
        rfl
      · refine (Venue.asked_ask c i i).trans ?_
        rw [if_pos rfl, asked, List.append_assoc]
        rfl

theorem ledger_played (grace : Span) (b : Backend) (moves : List (board grace).Move) :
    ∃ landings, Ledger grace b (Venue.play (opened grace b) moves) landings := by
  refine Venue.play_keeps_staged (P := fun c => ∃ landings, Ledger grace b c landings) (stages grace) moves ?_ ?_ ?_
    (staged_opened grace b) ⟨[], ledger_opened grace b⟩
  · intro c visit known
    obtain ⟨landings, ledger⟩ := known
    exact ⟨landings, ledger.start visit⟩
  · intro c i visit q next waits stage known
    obtain ⟨landings, ledger⟩ := known
    exact ledger_asked ledger waits stage
  · intro c x known
    obtain ⟨landings, ledger⟩ := known
    exact ⟨landings, ledger.elapse x⟩

def Archived (s : Store) (p : Int) : Prop := ∃ row, s.posts.rows.find? (·.id = p) = some row ∧ row.archived ≠ 0

def Keeps (s t : Store) : Prop := ∀ p, Archived s p → Archived t p

theorem Keeps.refl (s : Store) : Keeps s s := fun _ archived => archived

theorem Keeps.trans (first : Keeps s t) (second : Keeps t u) : Keeps s u := fun p archived => second p (first p archived)

theorem keeps_map {s t : Store} {f : PostRow → PostRow} (ids : ∀ row, (f row).id = row.id)
    (archived : ∀ row, row.archived ≠ 0 → (f row).archived ≠ 0) (rows : t.posts.rows = s.posts.rows.map f) : Keeps s t := by
  intro p marked
  obtain ⟨row, first, marked⟩ := marked
  refine ⟨f row, ?_, archived row marked⟩
  have same : (fun r : PostRow => decide (r.id = p)) ∘ f = fun r => decide (r.id = p) := by
    funext r
    simp only [Function.comp, ids]
  rw [rows, List.find?_map, same, first]
  rfl

theorem keeps_answer (asks : Asks q) (s : Backend) : Keeps s.store (s.answerNow q).2.store := by
  rcases answer_effect 0 asks s with ⟨_, _, f, ages, rows⟩ | ⟨new, expiry, id, before, rfl, _, ⟨_, f, ages, rows⟩, _, written⟩
  · exact keeps_map ages.id ages.archived rows
  · rw [written]
    refine (keeps_map ages.id ages.archived rows).trans (keeps_map (f := PostRow.moveExpiry new.postId expiry) ?_ ?_ rfl)
    · intro row
      unfold PostRow.moveExpiry
      split <;> rfl
    · intro row archived
      unfold PostRow.moveExpiry
      split <;> exact archived

structure Chronicle (c : (board grace).Crowd) : Prop where
  ordered : c.log.Pairwise fun e f => Keeps e.before.store f.before.store
  past : ∀ e ∈ c.log, Keeps e.before.store c.shared.store

theorem Chronicle.ask {c : (board grace).Crowd} {visit : Visit} {next : Outcome q.Value → Operation visit.Result}
    (chronicle : Chronicle c) (asks : Asks q) : Chronicle (Venue.ask c i visit q next) where
  ordered := by
    refine List.pairwise_append.mpr ⟨chronicle.ordered, List.pairwise_singleton _ _, ?_⟩
    intro e member f last
    rw [List.mem_singleton.mp last]
    exact chronicle.past e member
  past := by
    intro e member
    refine Keeps.trans ?_ (keeps_answer asks c.shared)
    rcases List.mem_append.mp member with old | new
    · exact chronicle.past e old
    · rw [List.mem_singleton.mp new]
      exact .refl _

theorem Chronicle.elapse {c : (board grace).Crowd} (chronicle : Chronicle c) (x : Shift) : Chronicle (Venue.elapse c x) where
  ordered := chronicle.ordered
  past := by
    intro e member
    change Keeps e.before.store (shift x c.shared).store
    rw [shift_store]
    exact chronicle.past e member

theorem chronicle_played (grace : Span) (b : Backend) (moves : List (board grace).Move) :
    Chronicle (Venue.play (opened grace b) moves) := by
  refine Venue.play_keeps_staged (stages grace) moves ?_ ?_ ?_ (staged_opened grace b) ⟨.nil, by simp [opened]⟩
  · intro c visit chronicle
    exact ⟨chronicle.ordered, chronicle.past⟩
  · intro c i visit q next waits stage chronicle
    exact chronicle.ask stage.asks
  · intro c x chronicle
    exact chronicle.elapse x

theorem archived_play {c : (board grace).Crowd} (staged : Venue.Staged (Stage grace) c) (more : List (board grace).Move) :
    Keeps c.shared.store (Venue.play c more).shared.store := by
  refine Venue.play_keeps_staged (P := fun later => Keeps c.shared.store later.shared.store) (stages grace) more
    ?_ ?_ ?_ staged (.refl _)
  · intro later visit keeps
    exact keeps
  · intro later i visit q next waits stage keeps
    exact keeps.trans (keeps_answer stage.asks later.shared)
  · intro later x keeps
    change Keeps _ (shift x later.shared).store
    rw [shift_store]
    exact keeps

theorem Finds.archived (found : Finds s p post) (active : post.isArchived = false) : ¬Archived s.store p := by
  intro archived
  obtain ⟨row, first, archived⟩ := archived
  obtain ⟨row', first', read⟩ := findPost_some (findPost_done found)
  cases first.symm.trans first'
  have active : row.archived = 0 := by simpa [(read_ok read).2] using active
  exact archived active

theorem Ledger.returned {c : (board grace).Crowd} (ledger : Ledger grace b c landings)
    (staged : Venue.Staged (Stage grace) c) (i : Nat) (draft : CommentDraft) (image : ByteArray) (id : Int) :
    c.flights[i]? = some ⟨.save draft image, .done id⟩ ↔
      ∃ l ∈ landings, l.call = i ∧ l.draft = draft ∧ l.image = image ∧ l.id = id := by
  constructor
  · intro returned
    obtain ⟨work, s, member, replied⟩ := Saving.returns (staged.stands i _ returned)
    have committed : (i, id) ∈ c.log.filterMap commit? :=
      List.mem_filterMap.mpr ⟨_, (mem_asked.mp member).1, commit?_transact.mpr ⟨rfl, replied⟩⟩
    rw [ledger.order] at committed
    obtain ⟨l, old, same⟩ := List.mem_map.mp committed
    cases same
    have again := (ledger.landed l old).1
    rw [returned] at again
    cases again
    exact ⟨l, old, rfl, rfl, rfl, rfl⟩
  · intro landed
    obtain ⟨l, old, rfl, rfl, rfl, rfl⟩ := landed
    exact (ledger.landed l old).1

theorem Ledger.ids {c : (board grace).Crowd} (ledger : Ledger grace b c landings) : (landings.map (·.id)).Nodup := by
  refine List.pairwise_iff_getElem.mpr ?_
  intro k m lower bound order same
  simp only [List.length_map] at lower bound
  simp only [List.getElem_map] at same
  have first := ledger.numbered k _ (List.getElem?_eq_getElem lower)
  have second := ledger.numbered m _ (List.getElem?_eq_getElem bound)
  omega

theorem Ledger.loaded {c : (board grace).Crowd} {k : Nat} {e : Entry} (ledger : Ledger grace b c landings) (chronicle : Chronicle c)
    (member : l ∈ landings) (noted : c.log[k]? = some e) (archived : Archived e.before.store l.draft.postId) :
    ∃ m s post, m < k ∧ c.log[m]? = some ⟨l.call, .findPost l.draft.postId, s⟩ ∧ Finds s l.draft.postId post ∧
      post.isArchived = false := by
  obtain ⟨_, _, mine, _, _, ready, _, asked⟩ := ledger.landed l member
  obtain ⟨s, post, load, found, active, _⟩ := ready.loads
  have logged : ⟨l.call, .findPost l.draft.postId, s⟩ ∈ c.log :=
    (mem_asked.mp (asked ▸ List.mem_append_left _ load)).1
  obtain ⟨m, place⟩ := List.getElem?_of_mem logged
  refine ⟨m, s, post, ?_, place, found, active⟩
  refine Nat.lt_of_not_le fun late => ?_
  obtain ⟨kept, rfl⟩ := List.getElem?_eq_some_iff.mp noted
  obtain ⟨bound, same⟩ := List.getElem?_eq_some_iff.mp place
  have still : Archived s.store l.draft.postId := by
    rcases Nat.eq_or_lt_of_le late with rfl | earlier
    · rw [same] at archived
      exact archived
    · have keeps := List.pairwise_iff_getElem.mp chronicle.ordered k m kept bound earlier
      rw [same] at keeps
      exact keeps _ archived
  exact found.archived active still

theorem Ledger.expiry {c : (board grace).Crowd} (ledger : Ledger grace b c landings)
    (first : b.store.posts.rows.find? (·.id = p) = some row) :
    ∃ now, c.shared.store.posts.rows.find? (·.id = p) = some now ∧
      now.expiresAt = Landing.expiryAfter landings p row.expiresAt := by
  have columns := congrArg (List.find? (·.1 = p)) ledger.expiries
  have known : row.id = p := by simpa using List.find?_some first
  rw [List.find?_map, List.find?_map] at columns
  simp only [Function.comp_def, first, Option.map_some] at columns
  obtain ⟨now, found, same⟩ := Option.map_eq_some_iff.mp columns
  refine ⟨now, found, ?_⟩
  rw [← known]
  exact congrArg Prod.snd same

-- Submissions and sweeps under every schedule: a submission loads its post before all else; who loads an
-- archived post is refused on the spot; a comment is added for every submission that returned an id and
-- for no other, each under an id of its own, and on an archived post only for those that had loaded it
-- before; a post expires as the last of its commits says; and what is archived stays so.
theorem submissions_race_sweeps (grace : Span) (b : Backend) (moves : List (board grace).Move) :
    let c := Venue.play (opened grace b) moves
    (∀ i draft image rest, c.flights[i]? = some ⟨.save draft image, rest⟩ →
      (c.asked i = [] ∧ ∃ next, rest = .ask (.findPost draft.postId) next) ∨
        ∃ s more, c.asked i = ⟨i, .findPost draft.postId, s⟩ :: more) ∧
    (∀ i s p post, ⟨i, .findPost p, s⟩ ∈ c.log → Finds s p post → post.isArchived = true →
      c.asked i = [⟨i, .findPost p, s⟩] ∧ ∃ draft image,
        c.flights[i]? = some ⟨.save draft image, .fail (.conflict "post is archived, new comments are prohibited")⟩) ∧
    (∃ landings, Ledger grace b c landings ∧
      (∀ i draft image id, c.flights[i]? = some ⟨.save draft image, .done id⟩ ↔
        ∃ l ∈ landings, l.call = i ∧ l.draft = draft ∧ l.image = image ∧ l.id = id) ∧
      (landings.map (·.id)).Nodup ∧
      (∀ p, c.shared.store.comments.rows.filter (·.postId = p) =
        b.store.comments.rows.filter (·.postId = p) ++ (landings.filter (·.draft.postId = p)).map Landing.row) ∧
      (∀ l ∈ landings, ∀ (k : Nat) (e : Entry), c.log[k]? = some e → Archived e.before.store l.draft.postId →
        ∃ m s post, m < k ∧ c.log[m]? = some ⟨l.call, .findPost l.draft.postId, s⟩ ∧ Finds s l.draft.postId post ∧
          post.isArchived = false) ∧
      (∀ p row, b.store.posts.rows.find? (·.id = p) = some row →
        ∃ now, c.shared.store.posts.rows.find? (·.id = p) = some now ∧
          now.expiresAt = Landing.expiryAfter landings p row.expiresAt)) ∧
    ∀ more p, Archived c.shared.store p → Archived (Venue.play c more).shared.store p := by
  intro c
  have staged : Venue.Staged (Stage grace) c := Venue.play_staged (stages grace) moves (staged_opened grace b)
  obtain ⟨landings, ledger⟩ := ledger_played grace b moves
  refine ⟨?_, ?_, ⟨landings, ledger, ledger.returned staged, ledger.ids, ?_, ?_, ?_⟩, ?_⟩
  · intro i draft image rest flight
    exact Saving.begins (staged.stands i _ flight)
  · intro i s p post logged found archived
    have member : ⟨i, .findPost p, s⟩ ∈ c.asked i := mem_asked.mpr ⟨logged, rfl⟩
    have bound := staged.known _ logged
    rcases flight : c.flights[i] with ⟨visit, rest⟩
    have stands := staged.stands i _ (List.getElem?_eq_getElem bound)
    rw [flight] at stands
    cases visit with
    | sweep => exact absurd member (Sweeping.loads_nothing stands)
    | save draft image =>
      obtain ⟨alone, refused⟩ := Saving.conflict stands member found archived
      refine ⟨alone, draft, image, ?_⟩
      change rest = _ at refused
      rw [List.getElem?_eq_getElem bound, flight, refused]
  · intro p
    rw [ledger.rows, List.filter_append, List.filter_map]
    rfl
  · intro l member k e noted archived
    exact ledger.loaded (chronicle_played grace b moves) member noted archived
  · intro p row first
    exact ledger.expiry first
  · intro more p archived
    exact archived_play staged more p archived

end Forum.Board
