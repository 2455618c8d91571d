import Forum.Http.Message
import Forum.Text.Split
namespace Forum.Http

inductive Route
  | health
  | session
  | sessionName
  | posts
  | post (id : List Char)
  | postComments (id : List Char)
  | archive
  | images
deriving DecidableEq, Repr

namespace Route

def ofSegments : List (List Char) → Option Route
  | [a] => if a = "health".toList then some .health else none
  | [a, b] =>
    if a ≠ "api".toList then none
    else if b = "session".toList then some .session
    else if b = "posts".toList then some .posts
    else if b = "archive".toList then some .archive
    else if b = "images".toList then some .images
    else none
  | [a, b, c] =>
    if a ≠ "api".toList then none
    else if b = "session".toList ∧ c = "name".toList then some .sessionName
    else if b = "posts".toList ∧ c ≠ [] then some (.post c)
    else none
  | [a, b, c, d] =>
    if a = "api".toList ∧ b = "posts".toList ∧ d = "comments".toList then some (.postComments c) else none
  | _ => none

def ofPath? : List Char → Option Route
  | '/' :: rest => ofSegments (Text.splitAll '/' rest)
  | _ => none

def methods : Route → List String
  | health | session | post _ | archive => ["GET", "HEAD"]
  | posts => ["GET", "HEAD", "POST"]
  | sessionName | postComments _ | images => ["POST"]

end Route
end Forum.Http
