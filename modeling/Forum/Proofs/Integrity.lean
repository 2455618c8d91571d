import Forum.Proofs.History

namespace Forum

namespace Text

structure IsBare (s : String) : Prop where
  leading : ∀ c ∈ s.toList.head?, isBlank c = false
  trailing : ∀ c ∈ s.toList.getLast?, isBlank c = false

def IsFilled (s : String) : Prop := s ≠ "" ∧ IsBare s

theorem head_trimLeft (cs : List Char) : ∀ c ∈ (trimLeft cs).head?, isBlank c = false := by
  intro c first
  have stopped := List.head?_dropWhile_not isBlank cs
  rw [Option.mem_def] at first
  rw [trimLeft] at first
  rw [first] at stopped
  simpa using stopped

theorem head_trimChars (cs : List Char) : ∀ c ∈ (trimChars cs).head?, c ∈ (trimLeft cs).head? := by
  have front : trimChars cs <+: trimLeft cs := by
    have back : trimLeft (trimLeft cs).reverse <:+ (trimLeft cs).reverse := List.dropWhile_suffix isBlank
    simpa [trimChars] using List.reverse_prefix.mpr back
  obtain ⟨rest, whole⟩ := front
  intro c first
  rw [← whole]
  cases trimmed : trimChars cs with
  | nil =>
    rw [trimmed] at first
    cases first
  | cons d ds =>
    rw [trimmed] at first
    exact first

theorem isBare_trim (s : String) : IsBare (trim s) where
  leading := by
    rw [trim, String.toList_ofList]
    exact fun c first => head_trimLeft _ c (head_trimChars _ c first)
  trailing := by
    rw [trim, String.toList_ofList, trimChars, List.getLast?_reverse]
    exact head_trimLeft _

theorem isFilled_trim {s : String} (some : (trim s).isEmpty = false) : IsFilled (trim s) :=
  ⟨by simpa using some, isBare_trim s⟩

end Text

structure Table.Sound (idOf : ρ → Int) (P : ρ → Prop) (t : Table ρ) : Prop where
  increasing : (t.rows.map idOf).Pairwise (· < ·)
  counted : ∀ row ∈ t.rows, idOf row ≤ t.lastId
  holds : ∀ row ∈ t.rows, P row

namespace Table.Sound
variable {idOf : ρ → Int} {P : ρ → Prop} {t : Table ρ}

theorem insert (sound : t.Sound idOf P) {row : Int → ρ} (numbered : ∀ id, idOf (row id) = id)
    (new : P (row (t.lastId + 1))) : (t.insert row).2.Sound idOf P where
  increasing := by
    simp only [Table.insert, List.map_append, List.map_singleton, List.pairwise_append]
    refine ⟨sound.increasing, List.pairwise_singleton _ _, ?_⟩
    intro old member last same
    obtain ⟨row', known, rfl⟩ := List.mem_map.mp member
    have bound := sound.counted row' known
    rw [List.mem_singleton.mp same, numbered]
    omega
  counted := by
    intro row' member
    simp only [Table.insert, List.mem_append, List.mem_singleton] at member ⊢
    rcases member with old | rfl
    · have bound := sound.counted row' old
      omega
    · exact Int.le_of_eq (numbered _)
  holds := by
    intro row' member
    simp only [Table.insert, List.mem_append, List.mem_singleton] at member
    rcases member with old | rfl
    · exact sound.holds row' old
    · exact new

theorem map (sound : t.Sound idOf P) {f : ρ → ρ} (ids : ∀ row, idOf (f row) = idOf row) (each : ∀ row, P row → P (f row)) :
    Table.Sound idOf P { t with rows := t.rows.map f } where
  increasing := by
    simp only [List.map_map, Function.comp_def, ids]
    exact sound.increasing
  counted := by
    intro row member
    obtain ⟨old, known, rfl⟩ := List.mem_map.mp member
    rw [ids]
    exact sound.counted old known
  holds := by
    intro row member
    obtain ⟨old, known, rfl⟩ := List.mem_map.mp member
    exact each old (sound.holds old known)

theorem nodup (sound : t.Sound idOf P) : (t.rows.map idOf).Nodup := sound.increasing.imp Int.ne_of_lt

end Table.Sound

def Table.Precedes (idOf : ρ → Int) (before after : Table ρ) : Prop :=
  ∃ added, after.rows.map idOf = before.rows.map idOf ++ added ∧ ∀ id ∈ added, ∀ old ∈ before.rows.map idOf, old < id

theorem Grown.map_eq {R : ρ → ρ → Prop} {first second : List ρ} (grown : Grown R first second) {f : ρ → β}
    (kept : ∀ row later, R row later → f later = f row) : ∃ added, second.map f = first.map f ++ added := by
  refine ⟨(second.map f).drop first.length, List.ext_getElem? fun k => ?_⟩
  rcases Nat.lt_or_ge k first.length with old | new
  · obtain ⟨later, there, became⟩ := grown k first[k] (List.getElem?_eq_getElem old)
    rw [List.getElem?_append_left (by simpa using old), List.getElem?_map, List.getElem?_map, there,
      List.getElem?_eq_getElem old]
    exact congrArg some (kept _ _ became)
  · rw [List.getElem?_append_right (by simpa using new), List.length_map, List.getElem?_drop]
    congr 1
    omega

theorem Table.Sound.precedes {idOf : ρ → Int} {P : ρ → Prop} {before after : Table ρ} (sound : after.Sound idOf P)
    {R : ρ → ρ → Prop} (grown : Grown R before.rows after.rows) (kept : ∀ row later, R row later → idOf later = idOf row) :
    before.Precedes idOf after := by
  obtain ⟨added, whole⟩ := grown.map_eq kept
  have increasing := sound.increasing
  rw [whole, List.pairwise_append] at increasing
  exact ⟨added, whole, fun id fresh old known => increasing.2.2 old known id fresh⟩

structure PostRow.Sound (row : PostRow) : Prop where
  title : Text.IsFilled row.title
  content : Text.IsFilled row.content
  mark : row.archived = 0 ∨ row.archived = 1
  dated : ∃ created expires : Instant, row.createdAt = created.millis ∧ row.expiresAt = expires.millis

structure CommentRow.Sound (row : CommentRow) : Prop where
  bare : Text.IsBare row.content
  said : row.content ≠ "" ∨ row.imagePath ≠ none

def NewPost.row (new : NewPost) (id : Int) : PostRow :=
  ⟨id, new.author, new.title, new.content, new.imagePath, new.createdAt.millis, new.expiresAt.millis, 0⟩

structure Store.Sound (s : Store) : Prop where
  sessions : s.sessions.Sound (·.id) fun row => row.createdAt < row.expiresAt
  tokens : (s.sessions.rows.map (·.tokenHash)).Nodup
  posts : s.posts.Sound (·.id) PostRow.Sound
  comments : s.comments.Sound (·.id) CommentRow.Sound
  attached : ∀ row ∈ s.comments.rows, ∃ post ∈ s.posts.rows, post.id = row.postId

namespace PostRow

theorem Sound.archive {row : PostRow} (sound : row.Sound) : PostRow.Sound { row with archived := 1 } :=
  ⟨sound.title, sound.content, .inr rfl, sound.dated⟩

theorem Sound.expire {row : PostRow} (sound : row.Sound) (expiry : Instant) :
    PostRow.Sound { row with expiresAt := expiry.millis } := by
  obtain ⟨created, _, createdAt, _⟩ := sound.dated
  exact ⟨sound.title, sound.content, sound.mark, created, expiry, createdAt, rfl⟩

end PostRow

namespace Store.Sound
variable {s after : Store}

theorem empty : Store.Sound .empty where
  sessions := ⟨.nil, nofun, nofun⟩
  tokens := .nil
  posts := ⟨.nil, nofun, nofun⟩
  comments := ⟨.nil, nofun, nofun⟩
  attached := nofun

theorem keyed (sound : s.Sound) : SessionsKeyed s.sessions := ⟨sound.sessions.nodup, sound.tokens, sound.sessions.counted⟩

theorem addSession (sound : s.Sound) {new : NewSession} (ordered : new.createdAt.millis < new.expiresAt.millis)
    (unknown : ∀ row ∈ s.sessions.rows, row.tokenHash ≠ new.tokenHash) :
    Store.Sound { s with sessions := (s.sessions.insert new.row).2 } :=
  { sound with
    sessions := sound.sessions.insert (fun _ => rfl) ordered
    tokens := (sound.keyed.insert unknown).tokens }

theorem rename (sound : s.Sound) (hash : TokenHash) (name : String) : (s.rename hash name).Sound := by
  have became := SessionRow.becomes_rename hash name
  refine { sound with sessions := sound.sessions.map ?_ ?_, tokens := ?_ }
  · intro row
    rw [became row]
  · intro row holds
    rw [became row]
    exact holds
  · have same : ∀ row : SessionRow, (row.rename hash name).tokenHash = row.tokenHash := by
      intro row
      rw [became row]
    simp only [Store.rename, List.map_map, Function.comp_def, same]
    exact sound.tokens

theorem addPost (sound : s.Sound) {new : NewPost} (title : Text.IsFilled new.title) (content : Text.IsFilled new.content) :
    (s.addPost new).2.Sound where
  sessions := sound.sessions
  tokens := sound.tokens
  posts := by
    change (s.posts.insert new.row).2.Sound _ _
    exact sound.posts.insert (fun _ => rfl) ⟨title, content, .inl rfl, new.createdAt, new.expiresAt, rfl, rfl⟩
  comments := sound.comments
  attached := by
    intro row member
    obtain ⟨post, known, same⟩ := sound.attached row member
    exact ⟨post, List.mem_append_left _ known, same⟩

theorem mapPosts (sound : s.Sound) {f : PostRow → PostRow} (ids : ∀ row, (f row).id = row.id)
    (each : ∀ row, row.Sound → (f row).Sound) :
    Store.Sound { s with posts := { s.posts with rows := s.posts.rows.map f } } where
  sessions := sound.sessions
  tokens := sound.tokens
  posts := sound.posts.map ids each
  comments := sound.comments
  attached := by
    intro row member
    obtain ⟨post, known, same⟩ := sound.attached row member
    exact ⟨f post, List.mem_map_of_mem known, (ids post).trans same⟩

theorem archiveExpired (sound : s.Sound) (cutoff : Instant) : (s.archiveExpired cutoff).2.Sound := by
  refine sound.mapPosts ?_ ?_
  · intro row
    split <;> rfl
  · intro row holds
    split
    · exact holds.archive
    · exact holds

theorem sweptFirst {b : Backend} (sound : b.store.Sound) : b.sweptFirst.store.Sound := by
  rcases b.sweptFirst_cases with same | ⟨cutoff, _, same⟩
  · exact same ▸ sound
  · exact same ▸ sound.archiveExpired cutoff

theorem commented (sound : s.Sound) {new : NewComment} (bare : Text.IsBare new.content)
    (said : new.content ≠ "" ∨ new.imagePath ≠ none) (known : ∃ post ∈ s.posts.rows, post.id = new.postId) (expiry : Instant) :
    (s.commented new expiry).Sound := by
  have ids : ∀ row, (PostRow.moveExpiry new.postId expiry row).id = row.id := by
    intro row
    unfold PostRow.moveExpiry
    split <;> rfl
  have moved : Store.Sound { s with posts := { s.posts with rows := s.posts.rows.map (PostRow.moveExpiry new.postId expiry) } } := by
    refine sound.mapPosts ids fun row holds => ?_
    unfold PostRow.moveExpiry
    split
    · exact holds.expire expiry
    · exact holds
  refine { moved with comments := moved.comments.insert (fun _ => rfl) ⟨bare, said⟩, attached := ?_ }
  intro row member
  rcases List.mem_append.mp member with old | fresh
  · exact moved.attached row old
  · obtain ⟨post, there, same⟩ := known
    rw [List.mem_singleton.mp fresh]
    exact ⟨_, List.mem_map_of_mem there, (ids post).trans same⟩

end Store.Sound

namespace Service
open Comments (saving)
open Procedure (Asks)

-- The questions of the services, with what they promise of the texts that they write.
def Question.Proper : Question → Prop
  | .savePost new => Text.IsFilled new.title ∧ Text.IsFilled new.content
  | .transact work => ∃ new expiry, work = saving new expiry ∧ Text.IsBare new.content ∧ (new.content ≠ "" ∨ new.imagePath ≠ none)
  | .updateSession _ edit => ∃ now name, edit = Sessions.renameEdit now name
  | _ => True

theorem Question.Proper.lawful {q : Question} (proper : q.Proper) : q.Lawful := by
  cases q with
  | updateSession hash edit => exact proper
  | transact work =>
    obtain ⟨new, expiry, saves, _⟩ := proper
    exact ⟨new, expiry, saves⟩
  | _ => exact trivial

theorem Question.Ordinary.proper (q : Question) (ordinary : q.Ordinary) : q.Proper := by
  cases q with
  | updateSession hash edit => exact ordinary
  | savePost new => exact ordinary.elim
  | transact work => exact ordinary.elim
  | _ => exact trivial

theorem proper_create (grace : Span) (draft : PostDraft) (image : ByteArray) :
    (Posts.create grace draft image).Asks Question.Proper := by
  unfold Posts.create
  dsimp only
  split
  · exact .fail _
  · rename_i filled
    simp only [Bool.or_eq_true, not_or, Bool.not_eq_true] at filled
    refine Asks.bind ?_ fun imagePath => ?_
    · unfold uploadUnlessEmpty
      split
      · exact .done _
      · exact Asks.bind (Asks.during _ (Procedure.asks_call trivial)) fun _ => .done _
    · refine Asks.bind (Procedure.asks_call trivial) fun now => ?_
      refine Asks.bind (Procedure.asks_orCrash _) fun expiresAt => ?_
      exact Asks.during _ (Procedure.asks_call ⟨Text.isFilled_trim filled.1, Text.isFilled_trim filled.2⟩)

theorem proper_write (grace : Span) (draft : CommentDraft) (post : Int) (imagePath : Option String)
    (said : Text.trim draft.content ≠ "" ∨ imagePath ≠ none) :
    (Comments.write grace draft post imagePath).Asks Question.Proper := by
  refine Asks.bind (Procedure.asks_call trivial) fun now => ?_
  refine Asks.bind (Procedure.asks_orCrash _) fun expiry => ?_
  exact Asks.during _ (Procedure.asks_call ⟨_, expiry, rfl, Text.isBare_trim _, said⟩)

theorem proper_save (grace : Span) (draft : CommentDraft) (image : ByteArray) :
    (Comments.save grace draft image).Asks Question.Proper := by
  rw [Comments.save_eq]
  refine .ask trivial fun found => ?_
  rcases found with (_ | post) | e | _
  · exact .fail _
  · dsimp only [Comments.loaded, Comments.admitted]
    split
    · exact .fail _
    · split
      · exact .fail _
      · rename_i meant
        split
        · rename_i plain
          exact proper_write grace draft post.id none (.inl (by simpa [plain] using meant))
        · refine .ask trivial fun placed => ?_
          cases placed with
          | done url => exact proper_write grace draft post.id (some url) (.inr nofun)
          | failed e => exact .fail _
          | crashed => exact .crash
  · exact .fail _
  · exact .crash

theorem proper_body (rules : Rules) (e : Errand) : (e.body rules).Asks Question.Proper := by
  cases e with
  | issue => exact (asks_issue rules.session).mono Question.Ordinary.proper
  | rename token name => exact (asks_rename rules.session token name).mono Question.Ordinary.proper
  | create draft image => exact proper_create rules.postGrace draft image
  | save draft image => exact proper_save rules.commentGrace draft image
  | find token => exact (asks_find token).mono fun q plain => (plain.ordinary).proper
  | load post => exact (asks_load post).mono fun q plain => (plain.ordinary).proper
  | upload owner image => exact (asks_upload owner image).mono fun q plain => (plain.ordinary).proper
  | thread post => exact (asks_thread post).mono fun q plain => (plain.ordinary).proper
  | sweep => exact asks_sweep.mono fun q plain => (plain.ordinary).proper
  | list archived page => exact Asks.during _ (Procedure.asks_call trivial)
  | archive cutoff => exact Asks.during _ (Procedure.asks_call trivial)
  | comments post => exact Asks.during _ (Procedure.asks_call trivial)

def Proceeds (_ : Nat) (e : Errand) (_ : List Board.Entry) (rest : Operation e.Result) : Prop := rest.Asks Question.Proper

theorem proceeding (rules : Rules) : Venue.Stages (V := hall rules) Proceeds where
  opened := fun _ e => proper_body rules e
  asked := fun _ _ _ _ _ _ asks => Asks.rest asks _

theorem proceeding_opened (rules : Rules) (b : Backend) : Venue.Staged (V := hall rules) Proceeds (opened rules b) where
  known := by simp [opened]
  stands := by simp [opened]

end Service

theorem Backend.Effect.sound {b : Backend} {q : Service.Question} {reply : Outcome q.Value} {after : Store} (proper : q.Proper)
    (effect : b.Effect q reply after) (sound : b.store.Sound) : after.Sound := by
  cases effect with
  | read => exact sound
  | refused => exact sound
  | issued added =>
    obtain ⟨ordered, unknown, _, rfl⟩ := Store.addSession_ok added
    exact sound.addSession ordered unknown
  | edited written =>
    obtain ⟨now, name, rfl⟩ := proper
    obtain ⟨_, _, _, _, _, _, rfl⟩ := sound.keyed.rename written
    exact sound.rename _ name
  | posted => exact sound.addPost proper.1 proper.2
  | archived => exact sound.archiveExpired _
  | undone => exact sound.archiveExpired _
  | commented saves known =>
    obtain ⟨_, _, saves', bare, said⟩ := proper
    obtain ⟨rfl, rfl⟩ := Board.saving_inj (saves'.symm.trans saves)
    exact sound.sweptFirst.commented bare said known _

namespace Service

theorem sound_play {rules : Rules} {b : Backend} (sound : b.store.Sound) (moves : List (hall rules).Move) :
    (Venue.play (opened rules b) moves).shared.store.Sound := by
  refine Venue.play_keeps_staged (P := fun c => c.shared.store.Sound) (proceeding rules) moves ?_ ?_ ?_
    (proceeding_opened rules b) sound
  · exact fun _ _ sound => sound
  · intro c i e q next _ asks sound
    have proper : q.Proper := Procedure.Asks.allowed asks
    exact (Backend.answerNow_effect c.shared proper.lawful).sound proper sound
  · intro c x sound
    change (Board.shift x c.shared).store.Sound
    rw [Board.shift_store]
    exact sound

-- The tables are sound at all times, whatever the operations are and however they interleave, fail or
-- are given up, and what is committed later has the larger id.
theorem store_sound (rules : Rules) {b : Backend} (empty : b.store = .empty) (moves more : List (hall rules).Move) :
    let s := (Venue.play (opened rules b) moves).shared.store
    let t := (Venue.play (opened rules b) (moves ++ more)).shared.store
    s.Sound ∧ s.sessions.Precedes (·.id) t.sessions ∧ s.posts.Precedes (·.id) t.posts ∧
      s.comments.Precedes (·.id) t.comments := by
  intro s t
  have sound : b.store.Sound := empty ▸ .empty
  have now : s.Sound := sound_play sound moves
  have later : t.Sound := sound_play sound (moves ++ more)
  have staged : Venue.Staged (Stage rules) (Venue.play (opened rules b) moves) :=
    Venue.play_staged (stages rules) moves (staged_opened rules b)
  have extended : s.Extends t := by
    dsimp only [s, t]
    rw [Venue.play_append]
    exact (continues_play staged now.keyed more).grown
  refine ⟨now, ?_, ?_, ?_⟩
  · exact later.sessions.precedes extended.sessions fun row other became => by rw [became]
  · exact later.posts.precedes extended.posts fun row other became => became.id
  · exact later.comments.precedes extended.comments fun row other same => by rw [same]

def refusedComment : List (hall seconds).Move :=
  [.start (.create ⟨⟨1, "ann", ""⟩, " title ", "content"⟩ ⟨#[]⟩), .step 0, .step 0,
    .start (.save Comments.answerToOnePost ⟨#[]⟩), .step 1, .step 1,
    .change (.script fun port => if port = .commit then some (.error .lockPoisoned) else none), .step 1]

def secondAttempt : List (hall seconds).Move :=
  [.change (.script .none), .start (.save Comments.answerToOnePost ⟨#[]⟩), .step 2, .step 2, .step 2]

theorem store_sound_second_attempt :
    let b : Backend := { Comments.onePost with store := .empty }
    let s := (Venue.play (opened seconds b) refusedComment).shared.store
    let t := (Venue.play (opened seconds b) (refusedComment ++ secondAttempt)).shared.store
    b.store = .empty ∧ s.Sound ∧ s.posts.rows.map (·.title) = ["title"] ∧ s.comments.rows = [] ∧
      t.comments.rows.map (·.id) = [1] ∧ s.comments.Precedes (·.id) t.comments := by
  intro b s t
  have posted : s.posts.rows.map (·.title) = ["title"] := by decide +kernel
  have refused : s.comments.rows = [] := by decide +kernel
  have accepted : t.comments.rows.map (·.id) = [1] := by decide +kernel
  obtain ⟨sound, _, _, comments⟩ := store_sound seconds (b := b) rfl refusedComment secondAttempt
  exact ⟨rfl, sound, posted, refused, accepted, comments⟩

end Service

end Forum
