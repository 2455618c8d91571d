import Forum.Post
import Forum.Error
namespace Forum

-- Rows and the largest id handed out so far.
structure Table (ρ : Type) where
  rows : List ρ := []
  lastId : Int := 0

namespace Table

def insert (t : Table ρ) (row : Int → ρ) : Int × Table ρ :=
  (t.lastId + 1, ⟨t.rows ++ [row (t.lastId + 1)], t.lastId + 1⟩)

end Table

structure SessionRow where
  id : Int
  tokenHash : TokenHash
  identity : Identity
  createdAt : Int
  expiresAt : Int
deriving DecidableEq

structure PostRow where
  id : Int
  author : Author
  title : String
  content : String
  imagePath : Option String
  createdAt : Int
  expiresAt : Int
  archived : Int
deriving DecidableEq

structure CommentRow where
  id : Int
  postId : Int
  parentId : Option Int
  author : Author
  content : String
  imagePath : Option String
  createdAt : Int
deriving DecidableEq

def readInstant (column : Nat) (millis : Int) : Except DatabaseFault Instant :=
  match Instant.ofMillis? millis with
  | some t => .ok t
  | none => .error (.outOfRange column millis)

def SessionRow.read (r : SessionRow) : Except DatabaseFault Session := do
  return ⟨r.id, r.tokenHash, r.identity, ← readInstant 5 r.createdAt, ← readInstant 6 r.expiresAt⟩

def PostRow.read (r : PostRow) : Except DatabaseFault Post := do
  return ⟨r.id, r.author, r.title, r.content, r.imagePath, ← readInstant 7 r.createdAt, ← readInstant 8 r.expiresAt,
    r.archived ≠ 0⟩

def CommentRow.read (r : CommentRow) : Except DatabaseFault Comment := do
  return ⟨r.id, r.postId, r.parentId, r.author, r.content, r.imagePath, ← readInstant 8 r.createdAt⟩

-- Rows that can all be read are read one by one.
theorem mapM_ok {f : ρ → Except ε α} {g : ρ → α} {rows : List ρ} (each : ∀ row ∈ rows, f row = .ok (g row)) :
    rows.mapM f = .ok (rows.map g) := by
  induction rows with
  | nil => rfl
  | cons row rest ih =>
    rw [List.mapM_cons, each row List.mem_cons_self, ih fun other member => each other (List.mem_cons_of_mem _ member)]
    rfl

-- The row of a new comment, once it has an id.
def NewComment.row (new : NewComment) (id : Int) : CommentRow :=
  ⟨id, new.postId, new.parentId, new.author, new.content, new.imagePath, new.createdAt.millis⟩

-- A row with its expiry moved if it is the row of that post.
def PostRow.moveExpiry (post : Int) (expiry : Instant) (row : PostRow) : PostRow :=
  if row.id = post then { row with expiresAt := expiry.millis } else row

structure Store where
  sessions : Table SessionRow := {}
  posts : Table PostRow := {}
  comments : Table CommentRow := {}

namespace Store

def empty : Store := {}

def addSession (s : Store) (new : NewSession) : Except DatabaseFault (Int × Store) :=
  let created := new.createdAt.millis
  let expires := new.expiresAt.millis
  if expires ≤ created then .error .expiryOrder
  else if s.sessions.rows.any (·.tokenHash = new.tokenHash) then .error .duplicateToken
  else
    let (id, sessions) := s.sessions.insert fun id => ⟨id, new.tokenHash, new.identity, created, expires⟩
    .ok (id, { s with sessions })

def findSession (s : Store) (hash : TokenHash) : Except DatabaseFault (Option Session) :=
  match s.sessions.rows.find? (·.tokenHash = hash) with
  | some row => row.read.map some
  | none => .ok none

abbrev SessionEdit := Session → Except Error (Option Session)

-- The store with an identity written to the row of an id. Nothing else of a session is ever written.
def identify (s : Store) (id : Int) (identity : Identity) : Store :=
  let write := fun row : SessionRow => if row.id = id then { row with identity } else row
  { s with sessions := { s.sessions with rows := s.sessions.rows.map write } }

def addPost (s : Store) (new : NewPost) : Int × Store :=
  let (id, posts) := s.posts.insert fun id =>
    ⟨id, new.author, new.title, new.content, new.imagePath, new.createdAt.millis, new.expiresAt.millis, 0⟩
  (id, { s with posts })

def findPost (s : Store) (id : Int) : Except DatabaseFault (Option Post) :=
  match s.posts.rows.find? (·.id = id) with
  | some row => row.read.map some
  | none => .ok none

def Newer (a b : PostRow) : Prop := b.createdAt < a.createdAt ∨ a.createdAt = b.createdAt ∧ b.id ≤ a.id

instance (a b : PostRow) : Decidable (Newer a b) := inferInstanceAs (Decidable (_ ∨ _))

def listing (s : Store) (archived : Bool) : List PostRow :=
  (s.posts.rows.filter (·.archived = if archived then 1 else 0)).mergeSort fun a b => Newer a b

def listPosts (s : Store) (archived : Bool) (page : Page) : Except DatabaseFault (List Post) :=
  (((s.listing archived).drop page.offset).take page.size.toNat).mapM PostRow.read

def PostRow.IsDue (cutoff : Int) (r : PostRow) : Prop := r.archived = 0 ∧ r.expiresAt ≤ cutoff

instance (cutoff : Int) (r : PostRow) : Decidable (PostRow.IsDue cutoff r) := inferInstanceAs (Decidable (_ ∧ _))

def archiveExpired (s : Store) (at_ : Instant) : Nat × Store :=
  let sweep := fun row : PostRow => if PostRow.IsDue at_.millis row then { row with archived := 1 } else row
  (s.posts.rows.countP fun row => PostRow.IsDue at_.millis row,
    { s with posts := { s.posts with rows := s.posts.rows.map sweep } })

def addComment (s : Store) (new : NewComment) : Except DatabaseFault (Int × Store) :=
  if s.posts.rows.any (·.id = new.postId) then
    let (id, comments) := s.comments.insert new.row
    .ok (id, { s with comments })
  else .error .unknownPost

def setPostExpiry (s : Store) (id : Int) (expiry : Instant) : Option Store :=
  if s.posts.rows.any (·.id = id) then
    some { s with posts := { s.posts with rows := s.posts.rows.map (PostRow.moveExpiry id expiry) } }
  else none

def Older (a b : CommentRow) : Prop := a.createdAt < b.createdAt ∨ a.createdAt = b.createdAt ∧ a.id ≤ b.id

instance (a b : CommentRow) : Decidable (Older a b) := inferInstanceAs (Decidable (_ ∨ _))

def listComments (s : Store) (post : Int) : Except DatabaseFault (List Comment) :=
  ((s.comments.rows.filter (·.postId = post)).mergeSort fun a b => Older a b).mapM CommentRow.read

end Store
end Forum
