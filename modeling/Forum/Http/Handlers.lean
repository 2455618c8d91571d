import Forum.Http.Form
import Forum.Http.Gate
import Forum.Http.Route
import Forum.Json.Shape
import Forum.Service.Comments
import Forum.Settings
namespace Forum.Http
open Service (Operation)

namespace Handlers

def maxBody : Nat := 10 * 1024 * 1024

def version : String := "0.1.0"

def tooLong : String := "Failed to buffer the request body: length limit exceeded"

def created (id : Int) : Response := .json 201 (.record [("id", .integer id)])

def withId (raw : List Char) (go : Int → Operation Response) : Operation Response :=
  match (Text.Utf8.decode? (Text.Percent.decode (Text.Utf8.encode (.ofList raw)))).bind fun s => Text.integer? s.toList with
  | some id => go id
  | none => return .text 400 "Invalid URL: the id is no number"

def page? (query : List Char) : Option Page :=
  let asked := (Text.Form.pairs (Text.Utf8.encode (.ofList query))).filter (·.1 = "page")
  match asked with
  | [] => some .first
  | [(_, value)] => (Text.unsigned? Text.maxUnsigned32 value.toList).map fun n => .ofNumber n.toUInt32
  | _ => none

def list (archived : Bool) (query : List Char) : Operation Response :=
  match page? query with
  | none => return .text 400 "Failed to deserialize query string: page must be given once, as a number"
  | some page => do
    let posts ← Service.Posts.list archived page
    return .json 200 (.record [("page", .integer page.number.toNat), ("posts", .list (posts.map Post.toJson))])

def withForm (r : Request) (go : Form → Operation Response) : Operation Response :=
  match (r.contentType?.bind MediaType.ofChars?).bind MediaType.formBoundary? with
  | none => return .text 400 "Invalid `boundary` for `multipart/form-data` request"
  | some boundary =>
    if maxBody < r.body.size then .fail (.invalidInput Form.Fault.malformed.message)
    else
      match Form.read boundary r.body with
      | .ok form => go form
      | .error fault => .fail (.invalidInput fault.message)

def nickname (r : Request) : Except String String :=
  let isJson := r.contentType?.any fun cs => "application/json".toList.isPrefixOf cs
  let media := r.contentType?.bind MediaType.ofChars?
  if isJson then
    if !media.any MediaType.isJson then .error "Expected request with `Content-Type: application/json`"
    else if maxBody < r.body.size then .error tooLong
    else
      match Json.ofBytes? (.record [("nickname", .text)]) r.body.toList with
      | .ok (.record [(_, .text name)]) => .ok name
      | .ok _ | .error .mistyped =>
        .error "Failed to deserialize the JSON body into the target type: it must have one text nickname"
      | .error _ => .error "Failed to parse the request body as JSON: it is no JSON text"
  else if !media.any MediaType.isUrlencoded then
    .error "Form requests must have `Content-Type: application/x-www-form-urlencoded`"
  else if maxBody < r.body.size then .error tooLong
  else
    match Text.Form.single? "nickname" (Text.Form.pairs r.body.toList) with
    | some name => .ok name
    | none => .error "Failed to deserialize form body: it must have one nickname"

def health : Operation Response := do
  let alive ← (Service.ask .ping).attempt
  let uptime : Nat ← Service.ask .uptime
  let database := alive.toBool
  return .json 200 (.record [("status", .text (if database then "healthy" else "degraded")), ("version", .text version),
    ("uptime_seconds", .integer uptime), ("components", .record [("database", .truth database)])])

def session (visitor : Gate.Visitor) : Response :=
  .json 200 (.record [("name", .text visitor.session.identity.name), ("avatar_url", .text visitor.session.identity.avatarUrl),
    ("expires_at", .instant visitor.session.expiresAt)])

def rename (rules : Service.SessionRules) (visitor : Gate.Visitor) (r : Request) : Operation Response :=
  match nickname r with
  | .error message => .fail (.invalidInput message)
  | .ok name => do
    Service.Sessions.rename rules visitor.token name
    return .bare 204

def createPost (grace : Span) (visitor : Gate.Visitor) (r : Request) : Operation Response :=
  withForm r fun form => do
    let draft := ⟨visitor.session.author, form.text "title", form.text "content"⟩
    return created (← Service.Posts.create grace draft form.image)

def showPost (id : Int) : Operation Response := do
  let post ← Service.Posts.find id
  let thread ← Service.Comments.thread id
  return .json 200 (.record [("post", post.toJson), ("comments", .list (Node.forestJson thread))])

def createComment (grace : Span) (visitor : Gate.Visitor) (post : Int) (r : Request) : Operation Response :=
  withForm r fun form =>
    match form.integer? "parent_comment_id" with
    | .error e => .fail e
    | .ok parent => do
      let draft := ⟨post, parent, visitor.session.author, form.text "comment"⟩
      return created (← Service.Comments.save grace draft form.image)

def uploadImage (visitor : Gate.Visitor) (r : Request) : Operation Response :=
  if maxBody < r.body.size then return .text 413 tooLong
  else do
    let url ← Service.Posts.uploadImage visitor.session.id r.body
    return .json 201 (.record [("url", .text url)])

end Handlers

def sessionRules (s : Settings) : Service.SessionRules := { ttl := s.sessionTtl }

def handle (s : Settings) (route : Route) (r : Request) (visitor : Gate.Visitor) : Operation Response :=
  if ¬route.methods.contains r.method then return .bare 405
  else
    match route with
    | .health => Handlers.health
    | .session => return Handlers.session visitor
    | .sessionName => Handlers.rename (sessionRules s) visitor r
    | .posts =>
      if r.method = "POST" then Handlers.createPost s.postGrace visitor r
      else Handlers.list false r.target.query
    | .post id => Handlers.withId id Handlers.showPost
    | .postComments id => Handlers.withId id fun post => Handlers.createComment s.commentGrace visitor post r
    | .archive => Handlers.list true r.target.query
    | .images => Handlers.uploadImage visitor r

end Forum.Http
