import Forum.Post
-- Threads: comments nested under what they answer. Comments are taken in order of creation, ids
-- breaking ties. A comment hangs under its parent if the parent came before it in that order; any
-- other parent leaves it at the top level. Siblings keep the order of creation.
namespace Forum

inductive Node
  | mk (comment : Comment) (replies : List Node)

namespace Node

def comment : Node → Comment
  | mk c _ => c

def replies : Node → List Node
  | mk _ rs => rs

mutual
def preorder : Node → List Comment
  | mk c rs => c :: forestPreorder rs
def forestPreorder : List Node → List Comment
  | [] => []
  | n :: ns => n.preorder ++ forestPreorder ns
end

end Node

namespace Thread

def Earlier (a b : Comment) : Prop := a.createdAt < b.createdAt ∨ a.createdAt = b.createdAt ∧ a.id ≤ b.id

instance (a b : Comment) : Decidable (Earlier a b) := inferInstanceAs (Decidable (_ ∨ _))

def sorted (comments : List Comment) : List Comment := comments.mergeSort fun a b => Earlier a b

abbrev Placed := List (Option Int × Comment)

-- Places each comment under its parent if the parent is among `seen`, the ids before it.
def place (seen : List Int) : List Comment → Placed
  | [] => []
  | c :: rest => (c.parentId.filter seen.contains, c) :: place (c.id :: seen) rest

def takeLevel (parent : Option Int) (placed : Placed) : List Comment × Placed :=
  ((placed.filter (·.1 = parent)).map (·.2), placed.filter (·.1 ≠ parent))

theorem takeLevel_length (parent : Option Int) (placed : Placed) :
    (takeLevel parent placed).1.length + (takeLevel parent placed).2.length = placed.length := by
  induction placed with
  | nil => rfl
  | cons entry rest ih =>
    simp only [takeLevel, List.length_map] at ih
    by_cases here : entry.1 = parent <;> simp [takeLevel, here] <;> simp_all <;> omega

-- What is left to place after part of a forest was built, never more than before.
abbrev Rest (placed : Placed) := { rest : Placed // rest.length ≤ placed.length }

def attach (placed : Placed) : List Comment → List Node × Rest placed
  | [] => ([], ⟨placed, Nat.le_refl _⟩)
  | c :: siblings =>
    have count := takeLevel_length (some c.id) placed
    let (replies, below) := attach (takeLevel (some c.id) placed).2 (takeLevel (some c.id) placed).1
    let (nodes, rest) := attach below.1 siblings
    (.mk c replies :: nodes, ⟨rest.1, by have := rest.2; have := below.2; omega⟩)
termination_by level => placed.length + level.length
decreasing_by
  · simp only [List.length_cons]; omega
  · simp only [List.length_cons]; have := below.2; omega

def build (comments : List Comment) : List Node :=
  let top := takeLevel none (place [] (sorted comments))
  (attach top.2 top.1).1

end Thread
end Forum
