import Forum.Session
namespace Forum

structure Post where
  id : Int
  author : Author
  title : String
  content : String
  imagePath : Option String
  createdAt : Instant
  expiresAt : Instant
  isArchived : Bool
deriving DecidableEq

structure NewPost where
  author : Author
  title : String
  content : String
  imagePath : Option String
  createdAt : Instant
  expiresAt : Instant
deriving DecidableEq

structure Comment where
  id : Int
  postId : Int
  -- The comment it answers, as far as the visitor said. It need not exist.
  parentId : Option Int
  author : Author
  content : String
  imagePath : Option String
  createdAt : Instant
deriving DecidableEq

structure NewComment where
  postId : Int
  parentId : Option Int
  author : Author
  content : String
  imagePath : Option String
  createdAt : Instant
deriving DecidableEq

structure Page where
  number : UInt32
  size : UInt32
deriving DecidableEq, Repr

namespace Page

def defaultSize : UInt32 := 10

def ofNumber (number : UInt32) : Page := ⟨max number 1, defaultSize⟩

def first : Page := ofNumber 1

def maxOffset : Nat := 9223372036854775807

-- Rows before the page, capped where the count would leave signed 64-bit numbers.
def offset (p : Page) : Nat := min ((p.number.toNat - 1) * p.size.toNat) maxOffset

end Page
end Forum
