import Forum.Proofs.Pool
import Forum.Proofs.Lifetimes
import Forum.Proofs.Listings
import Forum.Proofs.Replies

namespace Forum
open Service (Operation Question Rules hall opened)

namespace Instant
variable {t u : Instant} {count : Nat}

-- The longest lifetime that settings may ask for does not lead out of the calendar from here.
def HasRoom (t : Instant) : Prop := (t.add? (.ofSeconds Settings.maxSecs)).isSome = true

instance (t : Instant) : Decidable t.HasRoom := inferInstanceAs (Decidable (_ = true))

theorem HasRoom.add (room : t.HasRoom) (within : count ≤ Settings.maxSecs) : ∃ u, t.add? (.ofSeconds count) = some u := by
  obtain ⟨last, sum⟩ := Option.isSome_iff_exists.mp room
  have bound := last.inRange.2
  rw [add?_nanos sum] at bound
  have low := t.inRange.1
  have inside : InRange (t.nanos + (Span.ofSeconds count).nanos) := by
    simp only [InRange, Span.ofSeconds] at bound ⊢
    omega
  exact ⟨⟨_, inside⟩, ofNanos?_eq_some_iff.mpr rfl⟩

theorem millis_lt (sum : t.add? (.ofSeconds count) = some u) (lasts : 0 < count) : t.millis < u.millis := by
  rw [Span.ofSeconds_eq] at sum
  have later := add?_millis sum
  omega

end Instant

structure Span.Lasts (d : Span) (count : Nat) : Prop where
  exact : d = .ofSeconds count
  bound : count ≤ Settings.maxSecs

namespace Settings
variable {s : Settings}

theorem lifetime_lasts (passed : s.check = none) (field : String) {secs : Nat} (member : (field, secs) ∈ s.lifetimes) :
    (lifetime secs).Lasts secs := by
  have bound := lifetime_bound passed field member
  refine ⟨?_, bound⟩
  rw [lifetime, Nat.min_eq_left bound]

theorem positive_checked (passed : s.check = none) (field : String) {secs : Nat} (member : (field, secs) ∈ s.positives) :
    0 < secs :=
  (check_eq_none_iff.mp passed).1 _ member

end Settings

theorem Identity.Desk.allocate_lasting {d : Desk} {hold : Span} {count : Nat} (lasts : hold.Lasts count) (room : d.clock.HasRoom) :
    ∃ r expiry, d.clock.add? hold = some expiry ∧ (d.allocate hold).1 = .done r ∧
      (d.allocate hold).2.pool.holder? r.id = some expiry := by
  obtain ⟨rfl, bound⟩ := lasts
  obtain ⟨expiry, sum⟩ := room.add bound
  have short : ¬longestHold.nanos < (Span.ofSeconds count).nanos := by
    simp only [longestHold, Span.ofMillis, Span.ofSeconds, Settings.maxSecs] at bound ⊢
    omega
  have made : d.allocate (.ofSeconds count) =
      (.done (d.pool.allocate d.clock expiry (d.draws d.allocations)).1,
        { d with
          pool := (d.pool.allocate d.clock expiry (d.draws d.allocations)).2
          allocations := d.allocations + 1 }) := by
    simp only [allocate, if_neg short, sum]
  refine ⟨_, expiry, sum, congrArg Prod.fst made, ?_⟩
  rw [made]
  exact Pool.allocate_holds d.pool d.clock expiry _

namespace Service
open Board (Entry)
open Comments (saving)

structure Rules.Timed (rules : Rules) (sessionSecs postSecs commentSecs : Nat) : Prop where
  session : rules.session.ttl.Lasts sessionSecs
  positive : 0 < sessionSecs
  post : rules.postGrace.Lasts postSecs
  comment : rules.commentGrace.Lasts commentSecs

-- Questions that keep to the lifetimes of the rules: what is written is written at an instant that the
-- clock showed and expires when its time is over, and a session does so later than it begins.
def Question.Dated (rules : Rules) (Shown : Instant → Prop) : Question → Prop
  | .provideIdentity hold => hold = rules.session.ttl
  | .storeSession new => Shown new.createdAt ∧ new.createdAt.add? rules.session.ttl = some new.expiresAt ∧
      new.createdAt.millis < new.expiresAt.millis
  | .savePost new => Shown new.createdAt ∧ new.createdAt.add? rules.postGrace = some new.expiresAt
  | .transact work => ∃ new expiry, work = saving new expiry ∧ Shown new.createdAt ∧
      new.createdAt.add? rules.commentGrace = some expiry
  | _ => True

def Question.reading : (q : Question) → Outcome q.Value → Option Instant
  | .now, .done t => some t
  | _, _ => none

-- An operation that asks dated questions as long as the clock has room, and gives up when it hears that
-- a port did, for no other reason. Its dates are those that the last reply showed.
inductive Dating (rules : Rules) {α : Type} : Option Instant → Operation α → Prop
  | done (value : α) : Dating rules shown (.done value)
  | fail (error : Error) : Dating rules shown (.fail error)
  | ask {q : Question} {next : Outcome q.Value → Operation α} (dated : q.Dated rules (shown = some ·))
      (yields : next .crashed = .crash)
      (rest : ∀ reply, reply ≠ .crashed → (∀ t ∈ q.reading reply, t.HasRoom) → Dating rules (q.reading reply) (next reply)) :
      Dating rules shown (.ask q next)

namespace Dating
variable {rules : Rules} {shown : Option Instant} {p : Operation α}

theorem bind {f : α → Operation β} (first : Dating rules shown p) (rest : ∀ a shown, Dating rules shown (f a)) : Dating rules shown (p >>= f) := by
  change Dating rules shown (p.bind f)
  induction first with
  | done a => exact rest a _
  | fail e => exact .fail e
  | ask dated yields _ ih =>
    refine .ask dated ?_ ih
    rw [yields]
    rfl

theorem during {operation : String} (dating : Dating rules shown p) : Dating rules shown (p.during operation) := by
  induction dating with
  | done a => exact .done a
  | fail e => exact .fail _
  | ask dated yields _ ih =>
    refine .ask dated ?_ ih
    rw [yields]
    rfl

theorem attempt (dating : Dating rules shown p) : Dating rules shown p.attempt := by
  induction dating with
  | done a => exact .done _
  | fail e => exact .done _
  | ask dated yields _ ih =>
    refine .ask dated ?_ ih
    rw [yields]
    rfl

theorem call {q : Question} (dated : q.Dated rules (shown = some ·)) : Dating rules shown (Service.ask q) := by
  refine .ask dated rfl fun reply calm _ => ?_
  cases reply with
  | done a => exact .done a
  | failed e => exact .fail e
  | crashed => exact absurd rfl calm

theorem clock {f : Instant → Operation α} (rest : ∀ now, now.HasRoom → Dating rules (some now) (f now)) :
    Dating rules shown (Service.ask .now >>= f) := by
  refine .ask trivial rfl fun reply calm roomy => ?_
  cases reply with
  | done now => exact rest now (roomy now rfl)
  | failed e => exact .fail e
  | crashed => exact absurd rfl calm

theorem sum {now : Instant} {d : Span} {count : Nat} {f : Instant → Operation α} (lasts : d.Lasts count) (room : now.HasRoom)
    (rest : ∀ later, now.add? d = some later → Dating rules shown (f later)) : Dating rules shown (Procedure.orCrash (now.add? d) >>= f) := by
  obtain ⟨rfl, bound⟩ := lasts
  obtain ⟨later, sum⟩ := room.add bound
  rw [sum]
  exact rest later sum

end Dating

section
variable {rules : Rules} {shown : Option Instant} {sessionSecs postSecs commentSecs : Nat}

theorem dating_issue (timed : rules.Timed sessionSecs postSecs commentSecs) : Dating rules shown (Sessions.issue rules.session) := by
  unfold Sessions.issue Sessions.provideIdentity
  split
  · exact .fail _
  · refine Dating.bind (Dating.bind (Dating.attempt (Dating.call rfl)) ?_) fun identity _ => ?_
    · intro provided _
      cases provided with
      | ok identity => exact .done _
      | error e => exact .fail _
    · refine Dating.bind (Dating.call trivial) fun entropy _ => ?_
      refine Dating.clock fun now room => ?_
      refine Dating.sum timed.session room fun expiresAt later => ?_
      have ordered : now.millis < expiresAt.millis := by
        rw [timed.session.exact] at later
        exact Instant.millis_lt later timed.positive
      exact Dating.bind (Dating.during (Dating.call ⟨rfl, later, ordered⟩)) fun _ _ => .done _

theorem dating_find (token : Token) : Dating rules shown (Sessions.find token) := by
  unfold Sessions.find
  split
  · exact .fail _
  · refine Dating.bind (Dating.during (Dating.call trivial)) fun found _ => ?_
    cases found with
    | none => exact .fail _
    | some session =>
      refine Dating.clock fun now _ => ?_
      split
      · exact .done _
      · exact .fail _

theorem dating_rename (token : Token) (name : String) : Dating rules shown (Sessions.rename rules.session token name) := by
  unfold Sessions.rename
  split
  · exact .fail _
  · exact Dating.clock fun now _ => Dating.during (Dating.call trivial)

theorem dating_uploadUnlessEmpty (owner : Int) (image : ByteArray) (operation : String) :
    Dating rules shown (uploadUnlessEmpty owner image operation) := by
  unfold uploadUnlessEmpty
  split
  · exact .done _
  · exact Dating.bind (Dating.during (Dating.call trivial)) fun _ _ => .done _

theorem dating_create (timed : rules.Timed sessionSecs postSecs commentSecs) (draft : PostDraft) (image : ByteArray) :
    Dating rules shown (Posts.create rules.postGrace draft image) := by
  unfold Posts.create
  dsimp only
  split
  · exact .fail _
  · refine Dating.bind (dating_uploadUnlessEmpty _ _ _) fun imagePath _ => ?_
    refine Dating.clock fun now room => ?_
    exact Dating.sum timed.post room fun expiresAt later => Dating.during (Dating.call ⟨rfl, later⟩)

theorem dating_load (post : Int) : Dating rules shown (Posts.find post) := by
  refine Dating.bind (Dating.during (Dating.call trivial)) fun found _ => ?_
  cases found with
  | none => exact .fail _
  | some post => exact .done _

theorem dating_upload (owner : Int) (image : ByteArray) : Dating rules shown (Posts.uploadImage owner image) := by
  unfold Posts.uploadImage
  split
  · exact .fail _
  · exact Dating.during (Dating.call trivial)

theorem dating_save (timed : rules.Timed sessionSecs postSecs commentSecs) (draft : CommentDraft) (image : ByteArray) :
    Dating rules shown (Comments.save rules.commentGrace draft image) := by
  refine Dating.bind (dating_load draft.postId) fun post _ => ?_
  split
  · exact .fail _
  · split
    · exact .fail _
    · refine Dating.bind (dating_uploadUnlessEmpty _ _ _) fun imagePath _ => ?_
      refine Dating.clock fun now room => ?_
      refine Dating.sum timed.comment room fun expiry later => ?_
      exact Dating.during (Dating.call ⟨_, expiry, rfl, rfl, later⟩)

theorem dating_sweep : Dating rules shown Posts.sweep := by
  refine Dating.clock fun now _ => ?_
  exact Dating.bind (Dating.attempt (Dating.during (Dating.call trivial))) fun _ _ => .done _

theorem dating_body (timed : rules.Timed sessionSecs postSecs commentSecs) (e : Errand) : Dating rules shown (e.body rules) := by
  cases e with
  | issue => exact dating_issue timed
  | find token => exact dating_find token
  | rename token name => exact dating_rename token name
  | create draft image => exact dating_create timed draft image
  | load post => exact dating_load post
  | list archived page => exact Dating.during (Dating.call trivial)
  | upload owner image => exact dating_upload owner image
  | archive cutoff => exact Dating.during (Dating.call trivial)
  | save draft image => exact dating_save timed draft image
  | comments post => exact Dating.during (Dating.call trivial)
  | thread post => exact Dating.bind (Dating.during (Dating.call trivial)) fun _ _ => .done _
  | sweep => exact dating_sweep

end

def Ample (asked : List Entry) : Prop := ∀ x ∈ asked, x.question = .now → x.before.clock.HasRoom

def lastShown (asked : List Entry) : Option Instant := asked.getLast?.bind fun x => x.question.reading (x.before.answerNow x.question).1

-- Where a call stands whose readings of the clock have room: the rest of it is dated, or a port gave up on it.
def Measured (rules : Rules) (_ : Nat) (e : Errand) (mine : List Entry) (rest : Operation e.Result) : Prop :=
  Ample mine → Dating rules (lastShown mine) rest ∨ rest = .crash ∧ ∃ x ∈ mine, (x.before.answerNow x.question).1 = .crashed

theorem reading_answer {s : Backend} {q : Question} {t : Instant} (shown : q.reading (s.answerNow q).1 = some t) :
    q = .now ∧ s.clock = t := by
  cases q with
  | now => exact ⟨rfl, Option.some.inj shown⟩
  | _ => cases shown

theorem lastShown_concat (mine : List Entry) (x : Entry) :
    lastShown (mine ++ [x]) = x.question.reading (x.before.answerNow x.question).1 := by
  rw [lastShown, List.getLast?_concat]
  rfl

theorem lastShown_read {mine : List Entry} {t : Instant} (shown : lastShown mine = some t) :
    ∃ x ∈ mine, x.question = .now ∧ x.before.clock = t := by
  obtain ⟨x, last, reads⟩ := Option.bind_eq_some_iff.mp shown
  exact ⟨x, List.mem_of_getLast? last, reading_answer reads⟩

theorem Ample.concat {mine : List Entry} {x : Entry} :
    Ample (mine ++ [x]) ↔ Ample mine ∧ (x.question = .now → x.before.clock.HasRoom) := by
  simp only [Ample, List.forall_mem_append, List.forall_mem_singleton]

theorem measured {rules : Rules} (timed : rules.Timed sessionSecs postSecs commentSecs) :
    Venue.Stages (V := hall rules) (Measured rules) where
  opened := fun _ e _ => .inl (dating_body timed e)
  asked := by
    intro i e mine q next s stands ample
    obtain ⟨before, room⟩ := Ample.concat.mp ample
    rcases stands before with dating | ⟨ended, _⟩
    · cases dating with
      | ask dated yields rest =>
        by_cases crashed : (s.answerNow q).1 = .crashed
        · right
          refine ⟨?_, _, List.mem_append_right _ (List.mem_singleton_self _), crashed⟩
          change next (s.answerNow q).1 = _
          rw [crashed, yields]
        · left
          rw [lastShown_concat]
          refine rest _ crashed fun t shown => ?_
          obtain ⟨now, clock⟩ := reading_answer shown
          exact clock ▸ room now
    · cases ended

theorem measured_opened (rules : Rules) (b : Backend) : Venue.Staged (V := hall rules) (Measured rules) (opened rules b) where
  known := by simp [opened]
  stands := by simp [opened]

theorem Question.Dated.mono {rules : Rules} {q : Question} {Shown Read : Instant → Prop} (dated : q.Dated rules Shown)
    (weaker : ∀ t, Shown t → Read t) : q.Dated rules Read := by
  cases q with
  | storeSession new => exact ⟨weaker _ dated.1, dated.2⟩
  | savePost new => exact ⟨weaker _ dated.1, dated.2⟩
  | transact work =>
    obtain ⟨new, expiry, saves, shown, later⟩ := dated
    exact ⟨new, expiry, saves, weaker _ shown, later⟩
  | _ => exact dated

def DatedIn {rules : Rules} (c : (hall rules).Crowd) (x : Entry) : Prop :=
  x.question.Dated rules fun t => ∃ y ∈ c.asked x.call, y.question = .now ∧ y.before.clock = t

section
variable {rules : Rules} {b : Backend} {moves : List (hall rules).Move}

theorem log_dated (timed : rules.Timed sessionSecs postSecs commentSecs) (ample : Ample (Venue.play (opened rules b) moves).log) :
    ∀ x ∈ (Venue.play (opened rules b) moves).log, DatedIn (Venue.play (opened rules b) moves) x := by
  refine Venue.play_keeps_staged (P := fun c : (hall rules).Crowd => Ample c.log → ∀ x ∈ c.log, DatedIn c x)
    (measured timed) moves ?_ ?_ ?_ (measured_opened rules b) ?_ ample
  · exact fun _ _ kept => kept
  · intro c i e q next waits stands kept ample x member
    obtain ⟨before, _⟩ := Ample.concat.mp ample
    have asked : ∀ j, ∀ y ∈ c.asked j, y ∈ (Venue.ask c i e q next).asked j := by
      intro j y mine
      obtain ⟨logged, call⟩ := Venue.mem_asked.mp mine
      exact Venue.mem_asked.mpr ⟨List.mem_append_left _ logged, call⟩
    rcases List.mem_append.mp member with old | new
    · refine (kept before x old).mono fun t read => ?_
      obtain ⟨y, mine, reads⟩ := read
      exact ⟨y, asked _ y mine, reads⟩
    · rw [List.mem_singleton.mp new]
      rcases stands fun y mine => before y (Venue.mem_asked.mp mine).1 with dating | ⟨ended, _⟩
      · cases dating with
        | ask dated _ _ =>
          refine dated.mono fun t shown => ?_
          obtain ⟨y, mine, reads⟩ := lastShown_read shown
          exact ⟨y, asked i y mine, reads⟩
      · cases ended
  · exact fun _ _ kept => kept
  · simp [opened]

theorem crashed_told (timed : rules.Timed sessionSecs postSecs commentSecs) (ample : Ample (Venue.play (opened rules b) moves).log)
    {i : Nat} {e : Errand} (crashed : (Venue.play (opened rules b) moves).flights[i]? = some ⟨e, .crash⟩) :
    ∃ x ∈ (Venue.play (opened rules b) moves).asked i, (x.before.answerNow x.question).1 = .crashed := by
  have staged := Venue.play_staged (measured timed) moves (measured_opened rules b)
  rcases staged.stands i _ crashed fun x mine => ample x (Venue.mem_asked.mp mine).1 with dating | ⟨_, told⟩
  · cases dating
  · exact told

end

end Service

structure Store.Readable (s : Store) : Prop where
  sessions : ∀ row ∈ s.sessions.rows, ∃ session, row.read = .ok session ∧ session.createdAt < session.expiresAt
  posts : ∀ row ∈ s.posts.rows, ∃ post, row.read = .ok post
  comments : ∀ row ∈ s.comments.rows, ∃ comment, row.read = .ok comment

theorem Table.insert_all {P : ρ → Prop} {t : Table ρ} {row : Int → ρ} (old : ∀ r ∈ t.rows, P r) (new : P (row (t.lastId + 1))) :
    ∀ r ∈ (t.insert row).2.rows, P r := by
  intro r member
  rcases List.mem_append.mp member with known | last
  · exact old r known
  · rw [List.mem_singleton.mp last]
    exact new

namespace Store.Readable
variable {s : Store}

theorem empty : Store.Readable .empty := ⟨nofun, nofun, nofun⟩

theorem addSession (readable : s.Readable) {new : NewSession} (ordered : new.createdAt.millis < new.expiresAt.millis) :
    Store.Readable { s with sessions := (s.sessions.insert new.row).2 } where
  sessions := by
    refine Table.insert_all readable.sessions ⟨_, NewSession.read_row new _, ?_⟩
    change new.createdAt.millis * 1000000 < new.expiresAt.millis * 1000000
    omega
  posts := readable.posts
  comments := readable.comments

theorem mapSessions (readable : s.Readable) {f : SessionRow → SessionRow}
    (kept : ∀ row, f row = { row with identity := (f row).identity }) :
    Store.Readable { s with sessions := { s.sessions with rows := s.sessions.rows.map f } } where
  sessions := by
    refine List.forall_mem_map.mpr fun row member => ?_
    obtain ⟨session, read, ordered⟩ := readable.sessions row member
    obtain ⟨created, expires, createdAt, expiresAt, rfl⟩ := SessionRow.read_iff.mp read
    rw [kept row]
    exact ⟨_, SessionRow.read_iff.mpr ⟨created, expires, createdAt, expiresAt, rfl⟩, ordered⟩
  posts := readable.posts
  comments := readable.comments

theorem addPost (readable : s.Readable) (new : NewPost) : (s.addPost new).2.Readable where
  sessions := readable.sessions
  posts := Table.insert_all readable.posts (PostRow.readable (new.row _) new.createdAt new.expiresAt rfl rfl)
  comments := readable.comments

theorem archiveExpired (readable : s.Readable) (cutoff : Instant) : (s.archiveExpired cutoff).2.Readable where
  sessions := readable.sessions
  posts := by
    refine List.forall_mem_map.mpr fun row member => ?_
    obtain ⟨post, read⟩ := readable.posts row member
    split
    · obtain ⟨created, expires, createdAt, expiresAt, _⟩ := PostRow.read_ok_iff.mp read
      exact ⟨_, PostRow.read_ok_iff.mpr ⟨created, expires, createdAt, expiresAt, rfl⟩⟩
    · exact ⟨post, read⟩
  comments := readable.comments

theorem sweptFirst {b : Backend} (readable : b.store.Readable) : b.sweptFirst.store.Readable := by
  rcases b.sweptFirst_cases with same | ⟨cutoff, _, same⟩
  · exact same ▸ readable
  · exact same ▸ readable.archiveExpired cutoff

theorem commented (readable : s.Readable) (new : NewComment) (expiry : Instant) : (s.commented new expiry).Readable where
  sessions := readable.sessions
  posts := by
    refine List.forall_mem_map.mpr fun row member => ?_
    obtain ⟨post, read⟩ := readable.posts row member
    unfold PostRow.moveExpiry
    split
    · obtain ⟨created, _, createdAt, _, _⟩ := PostRow.read_ok_iff.mp read
      exact ⟨_, PostRow.read_ok_iff.mpr ⟨created, expiry.floor, createdAt, Instant.ofMillis?_millis expiry, rfl⟩⟩
    · exact ⟨post, read⟩
  comments := by
    refine Table.insert_all readable.comments ⟨_, CommentRow.read_eq ?_⟩
    simp [NewComment.row, Instant.ofMillis?_millis]

end Store.Readable

theorem Backend.Effect.readable {b : Backend} {q : Question} {reply : Outcome q.Value} {after : Store} (lawful : q.Lawful)
    (effect : b.Effect q reply after) (readable : b.store.Readable) : after.Readable := by
  cases effect with
  | read => exact readable
  | refused => exact readable
  | issued added =>
    obtain ⟨ordered, _, _, rfl⟩ := Store.addSession_ok added
    exact readable.addSession ordered
  | edited written =>
    obtain ⟨now, name, rfl⟩ := lawful
    obtain ⟨_, _, _, _, _, rfl⟩ := Store.updateSession_renameEdit written
    refine readable.mapSessions fun row => ?_
    split <;> rfl
  | posted => exact readable.addPost _
  | archived => exact readable.archiveExpired _
  | undone => exact readable.archiveExpired _
  | commented => exact readable.sweptFirst.commented _ _

theorem Settings.timed {s : Settings} (passed : s.check = none) :
    s.rules.Timed s.sessionTtlSecs s.postGraceSecs s.commentGraceSecs where
  session := lifetime_lasts passed "session_ttl_secs" (by simp [lifetimes])
  positive := positive_checked passed "session_ttl_secs" (by simp [positives])
  post := lifetime_lasts passed "post_grace_secs" (by simp [lifetimes])
  comment := lifetime_lasts passed "comment_grace_secs" (by simp [lifetimes])

namespace Service

theorem issue_asks {rules : Rules} (timed : rules.Timed sessionSecs postSecs commentSecs) :
    ∃ next, Sessions.issue rules.session = .ask (.provideIdentity rules.session.ttl) next := by
  have forward : ¬rules.session.ttl.nanos < 0 := by
    rw [timed.session.exact]
    simp only [Span.ofSeconds]
    omega
  unfold Sessions.issue
  rw [if_neg forward]
  exact ⟨_, rfl⟩

theorem readable_play {rules : Rules} {b : Backend} (readable : b.store.Readable) (moves : List (hall rules).Move) :
    (Venue.play (opened rules b) moves).shared.store.Readable := by
  refine Venue.play_keeps_staged (P := fun c : (hall rules).Crowd => c.shared.store.Readable) (stages rules) moves ?_ ?_ ?_
    (staged_opened rules b) readable
  · exact fun _ _ readable => readable
  · intro c i e q next _ stage readable
    exact (Backend.answerNow_effect c.shared stage.lawful).readable stage.lawful readable
  · intro c x readable
    change (Board.shift x c.shared).store.Readable
    rw [Board.shift_store]
    exact readable

-- No settings that pass their check make the arithmetic of time fail, as long as a hundred years from
-- now are in the calendar: lifetimes are what was asked for, every date that is written is in the
-- calendar and can be read back, and operations give up only when a port does.
theorem dates_in_range {path : String} {file : Settings.File} {env : Settings.Environment} {s : Settings}
    (checked : Settings.load path file env = .ok s) :
    s.rules.session.ttl = .ofSeconds s.sessionTtlSecs ∧ s.rules.postGrace = .ofSeconds s.postGraceSecs ∧
      s.rules.commentGrace = .ofSeconds s.commentGraceSecs ∧
      (∃ next, Sessions.issue s.rules.session = .ask (.provideIdentity s.rules.session.ttl) next) ∧
      (∀ d : Identity.Desk, d.clock.HasRoom →
        ∃ r expiry, d.clock.add? s.rules.session.ttl = some expiry ∧ (d.allocate s.rules.session.ttl).1 = .done r ∧
          (d.allocate s.rules.session.ttl).2.pool.holder? r.id = some expiry) ∧
      ∀ {b : Backend} {moves : List (hall s.rules).Move},
        let c := Venue.play (opened s.rules b) moves
        Ample c.log →
          (∀ x ∈ c.log, DatedIn c x) ∧
          (∀ i e, c.flights[i]? = some ⟨e, .crash⟩ → ∃ x ∈ c.asked i, (x.before.answerNow x.question).1 = .crashed) ∧
          (b.store.Readable → c.shared.store.Readable) := by
  have timed := Settings.timed (Settings.load_ok checked)
  refine ⟨timed.session.exact, timed.post.exact, timed.comment.exact, issue_asks timed, ?_, ?_⟩
  · exact fun d room => Identity.Desk.allocate_lasting timed.session room
  · intro b moves c ample
    refine ⟨log_dated timed ample, ?_, fun readable => readable_play readable moves⟩
    exact fun i e crashed => crashed_told timed ample crashed

def patiently : Settings.Environment
  | "FORUM_SESSION_TTL" => some "3153600000"
  | "FORUM_POST_GRACE" => some "3153600000"
  | "FORUM_COMMENT_GRACE" => some "3153600000"
  | _ => none

def patient : Settings := { sessionTtlSecs := 3153600000, postGraceSecs := 3153600000, commentGraceSecs := 3153600000 }

def brink : Instant := ⟨8207113276799999999999, by decide⟩

def lastCall : List (hall patient.rules).Move :=
  [.start .issue, .step 0, .step 0, .step 0, .step 0, .start (.create ⟨⟨1, "ann", ""⟩, "title", "content"⟩ ⟨#[]⟩), .step 1, .step 1,
    .start (.save Comments.answerToOnePost ⟨#[]⟩), .step 2, .step 2, .step 2]

theorem dates_in_range_patient :
    let c := Venue.play (opened patient.rules { bare with clock := brink }) lastCall
    c.shared.store.sessions.rows.map (·.expiresAt) = [Instant.latestMillis] ∧
      c.shared.store.posts.rows.map (·.expiresAt) = [Instant.latestMillis] ∧ c.shared.store.comments.rows.length = 1 ∧
      (∀ x ∈ c.log, DatedIn c x) ∧ c.shared.store.Readable ∧
      ∃ r, (Identity.Desk.allocate ⟨"", .fresh [1], brink, fun _ => ⟨.replicate _ 0, 0⟩, 0, fun _ => .error ""⟩
        patient.rules.session.ttl).1 = .done r := by
  intro c
  have checked : Settings.load "forum.toml" .absent patiently = .ok patient := rfl
  have room : (c.log.all fun x => x.before.clock.HasRoom) = true := by decide +kernel
  have ample : Ample c.log := fun x member _ => of_decide_eq_true (List.all_eq_true.mp room x member)
  obtain ⟨_, _, _, _, reserves, runs⟩ := dates_in_range checked
  obtain ⟨dated, _, readable⟩ := runs ample
  obtain ⟨r, _, _, made, _⟩ := reserves ⟨"", .fresh [1], brink, fun _ => ⟨.replicate _ 0, 0⟩, 0, fun _ => .error ""⟩ (by decide +kernel)
  exact ⟨by decide +kernel, by decide +kernel, by decide +kernel, dated, readable .empty, r, made⟩

end Service

end Forum
