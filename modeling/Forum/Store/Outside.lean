import Forum.Store
namespace Forum.Store

inductive TableName
  | sessions
  | posts
  | comments
deriving DecidableEq, Repr

namespace TableName

def text : TableName → String
  | sessions => "forum_session"
  | posts => "forum_post"
  | comments => "forum_comment"

end TableName

inductive Column
  | id
  | identityId
  | authorSessionId
  | postId
  | parentId
  | createdAt
  | expiresAt
  | archived
deriving DecidableEq, Repr

-- Changes the rows of an id. Ids that come up later stay above all ids there are.
def overwriteRows (t : Table ρ) (idOf : ρ → Int) (id : Int) (write : ρ → ρ) : Table ρ :=
  let rows := t.rows.map fun row => if idOf row = id then write row else row
  ⟨rows, rows.foldl (fun most row => max most (idOf row)) t.lastId⟩

def SessionRow.overwrite (column : Column) (value : Int) (row : SessionRow) : SessionRow :=
  match column with
  | .id => { row with id := value }
  | .identityId => { row with identity := { row.identity with id := value } }
  | .createdAt => { row with createdAt := value }
  | .expiresAt => { row with expiresAt := value }
  | _ => row

def PostRow.overwrite (column : Column) (value : Int) (row : PostRow) : PostRow :=
  match column with
  | .id => { row with id := value }
  | .authorSessionId => { row with author := { row.author with sessionId := value } }
  | .createdAt => { row with createdAt := value }
  | .expiresAt => { row with expiresAt := value }
  | .archived => { row with archived := value }
  | _ => row

def CommentRow.overwrite (column : Column) (value : Int) (row : CommentRow) : CommentRow :=
  match column with
  | .id => { row with id := value }
  | .authorSessionId => { row with author := { row.author with sessionId := value } }
  | .postId => { row with postId := value }
  | .parentId => { row with parentId := some value }
  | .createdAt => { row with createdAt := value }
  | _ => row

def overwrite (s : Store) (table : TableName) (id : Int) (column : Column) (value : Int) : Store :=
  match table with
  | .sessions => { s with sessions := overwriteRows s.sessions SessionRow.id id (SessionRow.overwrite column value) }
  | .posts => { s with posts := overwriteRows s.posts PostRow.id id (PostRow.overwrite column value) }
  | .comments => { s with comments := overwriteRows s.comments CommentRow.id id (CommentRow.overwrite column value) }

def emptied (s : Store) : TableName → Store
  | .sessions => { s with sessions := {} }
  | .posts => { s with posts := {} }
  | .comments => { s with comments := {} }

end Forum.Store
