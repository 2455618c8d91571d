import Forum.Service.Question
import Forum.Text.Blank
namespace Forum.Service

structure PostDraft where
  author : Author
  title : String
  content : String

def uploadUnlessEmpty (owner : Int) (image : ByteArray) (operation : String) : Operation (Option String) :=
  if image.isEmpty then return none
  else do
    let url : String ← (ask (.upload owner image)).during operation
    return some url

namespace Posts

def create (grace : Span) (draft : PostDraft) (image : ByteArray) : Operation Int := do
  let title := Text.trim draft.title
  let content := Text.trim draft.content
  if title.isEmpty || content.isEmpty then .fail (.invalidInput "title and content are required")
  else
    let imagePath ← uploadUnlessEmpty draft.author.sessionId image "upload post image"
    let now : Instant ← ask .now
    let expiresAt ← .orCrash (now.add? grace)
    (ask (.savePost ⟨draft.author, title, content, imagePath, now, expiresAt⟩)).during "save post"

def find (id : Int) : Operation Post := do
  match ← (ask (.findPost id)).during "load post" with
  | some post => return post
  | none => .fail (.notFound "post")

def list (archived : Bool) (page : Page) : Operation (List Post) :=
  (ask (.listPosts archived page)).during (if archived then "list archived posts" else "list active posts")

def uploadImage (owner : Int) (image : ByteArray) : Operation String :=
  if image.isEmpty then .fail (.invalidInput "image is empty")
  else (ask (.upload owner image)).during "upload image"

def archiveExpired (cutoff : Instant) : Operation Nat :=
  (ask (.archiveExpired cutoff)).during "archive expired posts"

def sweep : Operation Unit := do
  let now : Instant ← ask .now
  let _ ← (archiveExpired now).attempt

end Posts
end Forum.Service
