import Forum.Service.Posts
import Forum.Thread
namespace Forum.Service

structure CommentDraft where
  postId : Int
  parentId : Option Int
  author : Author
  content : String

namespace Comments

def saving (comment : NewComment) (expiry : Instant) : Work Int :=
  .insert comment fun
    | .error e => .fail e
    | .ok id =>
      .setExpiry comment.postId expiry fun
        | .error e => .fail e
        | .ok () => .done id

def write (grace : Span) (draft : CommentDraft) (post : Int) (imagePath : Option String) : Operation Int := do
  let now : Instant ← ask .now
  let expiry ← .orCrash (now.add? grace)
  let comment := ⟨post, draft.parentId, draft.author, Text.trim draft.content, imagePath, now⟩
  (ask (.transact (saving comment expiry))).during "save comment"

-- Saves a comment on an active post. The content is trimmed and may be empty only beside an image.
-- An image is uploaded before the transaction; if that fails, the image stays where it is.
def save (grace : Span) (draft : CommentDraft) (image : ByteArray) : Operation Int := do
  let post ← Posts.find draft.postId
  if post.isArchived then .fail (.conflict "post is archived, new comments are prohibited")
  else if (Text.trim draft.content).isEmpty && image.isEmpty then .fail (.invalidInput "comment is empty")
  else
    let imagePath ← uploadUnlessEmpty draft.author.sessionId image "upload comment image"
    write grace draft post.id imagePath

def list (post : Int) : Operation (List Comment) :=
  (ask (.listComments post)).during "list comments"

def thread (post : Int) : Operation (List Node) := do
  let comments ← list post
  return Thread.build comments

end Comments
end Forum.Service
