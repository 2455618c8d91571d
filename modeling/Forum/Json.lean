import Forum.Instant.Stamp
import Forum.Thread
namespace Forum

inductive Json
  | null
  | truth (value : Bool)
  | integer (value : Int)
  | text (value : String)
  | list (items : List Json)
  | record (fields : List (String × Json))

namespace Json

def optional (write : α → Json) : Option α → Json
  | some a => write a
  | none => null

def hexDigits (n : Nat) : List Char := [n / 16, n % 16].map fun d => Nat.digitChar d

def escaped (c : Char) : List Char :=
  if c = '"' then ['\\', '"']
  else if c = '\\' then ['\\', '\\']
  else if c = '\n' then ['\\', 'n']
  else if c = '\r' then ['\\', 'r']
  else if c = '\t' then ['\\', 't']
  else if c = '\x08' then ['\\', 'b']
  else if c = '\x0c' then ['\\', 'f']
  else if c.toNat < 32 then ['\\', 'u', '0', '0'] ++ hexDigits c.toNat
  else [c]

def quoted (s : String) : String := .ofList ('"' :: s.toList.flatMap escaped ++ ['"'])

mutual
def render : Json → String
  | null => "null"
  | truth true => "true"
  | truth false => "false"
  | integer n => toString n
  | text s => quoted s
  | list items => "[" ++ ",".intercalate (renderItems items) ++ "]"
  | record fields => "\x7b" ++ ",".intercalate (renderFields fields) ++ "\x7d"
def renderItems : List Json → List String
  | [] => []
  | j :: js => j.render :: renderItems js
def renderFields : List (String × Json) → List String
  | [] => []
  | (name, j) :: fields => (quoted name ++ ":" ++ j.render) :: renderFields fields
end

def instant (t : Instant) : Json := text t.text

end Json

def Identity.toJson (i : Identity) : Json :=
  .record [("id", .integer i.id), ("name", .text i.name), ("avatar_url", .text i.avatarUrl)]

def Author.toJson (a : Author) : Json :=
  .record [("session_id", .integer a.sessionId), ("name", .text a.name), ("avatar_url", .text a.avatarUrl)]

def Post.toJson (p : Post) : Json :=
  .record [("id", .integer p.id), ("author", p.author.toJson), ("title", .text p.title), ("content", .text p.content),
    ("image_path", .optional .text p.imagePath), ("created_at", .instant p.createdAt),
    ("expires_at", .instant p.expiresAt), ("is_archived", .truth p.isArchived)]

def Comment.jsonFields (c : Comment) : List (String × Json) :=
  [("id", .integer c.id), ("post_id", .integer c.postId), ("parent_comment_id", .optional .integer c.parentId),
    ("author", c.author.toJson), ("content", .text c.content), ("image_path", .optional .text c.imagePath),
    ("created_at", .instant c.createdAt)]

def Comment.toJson (c : Comment) : Json := .record c.jsonFields

namespace Node
mutual
def toJson : Node → Json
  | mk c replies => .record (c.jsonFields ++ [("replies", .list (forestJson replies))])
def forestJson : List Node → List Json
  | [] => []
  | n :: ns => n.toJson :: forestJson ns
end
end Node
end Forum
