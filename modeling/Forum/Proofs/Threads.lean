import Forum.Thread
import Mathlib.Data.List.Nodup
import Mathlib.Data.List.Perm.Basic

namespace Forum

namespace Node

inductive Within : List Node → Node → Prop
  | top (member : n ∈ forest) : Within forest n
  | deep (member : m ∈ forest) (within : Within m.replies n) : Within forest n

variable {forest other : List Node} {n m : Node}

theorem preorder_eq (n : Node) : n.preorder = n.comment :: forestPreorder n.replies := by cases n; rfl

theorem preorder_subset (member : n ∈ forest) : n.preorder ⊆ forestPreorder forest := by
  induction forest with
  | nil => cases member
  | cons first rest ih =>
    rw [forestPreorder]
    rcases List.mem_cons.mp member with rfl | later
    · exact List.subset_append_left _ _
    · exact List.subset_append_of_subset_right _ (ih later)

theorem Within.mem (within : Within forest n) : n.comment ∈ forestPreorder forest := by
  induction within with
  | top member =>
    refine preorder_subset member ?_
    rw [preorder_eq]
    exact List.mem_cons_self
  | deep member _ ih =>
    refine preorder_subset member ?_
    rw [preorder_eq]
    exact List.mem_cons_of_mem _ ih

theorem Within.weaken (within : Within forest n) (first : Node) : Within (first :: forest) n := by
  cases within with
  | top member => exact .top (List.mem_cons_of_mem _ member)
  | deep member within => exact .deep (List.mem_cons_of_mem _ member) within

theorem Within.cons_cases {first : Node} (within : Within (first :: forest) n) :
    n = first ∨ Within first.replies n ∨ Within forest n := by
  cases within with
  | top member =>
    rcases List.mem_cons.mp member with rfl | later
    · exact .inl rfl
    · exact .inr (.inr (.top later))
  | deep member within =>
    rcases List.mem_cons.mp member with rfl | later
    · exact .inr (.inl within)
    · exact .inr (.inr (.deep later within))

-- A forest is empty, or it begins with a comment and the forest of its replies.
@[elab_as_elim]
theorem forest_induction {P : List Node → Prop} (nil : P [])
    (cons : ∀ c replies rest, P replies → P rest → P (mk c replies :: rest)) : ∀ forest, P forest
  | [] => nil
  | mk c replies :: rest => cons c replies rest (forest_induction nil cons replies) (forest_induction nil cons rest)

theorem within_of_mem (forest : List Node) (member : c ∈ forestPreorder forest) : ∃ n, Within forest n ∧ n.comment = c := by
  induction forest using forest_induction with
  | nil => exact absurd member List.not_mem_nil
  | cons first replies rest ih ih' =>
    simp only [forestPreorder, preorder, List.cons_append, List.mem_cons, List.mem_append] at member
    rcases member with rfl | below | later
    · exact ⟨_, .top List.mem_cons_self, rfl⟩
    · obtain ⟨m, within, rfl⟩ := ih below
      exact ⟨m, .deep List.mem_cons_self within, rfl⟩
    · obtain ⟨m, within, rfl⟩ := ih' later
      exact ⟨m, within.weaken _, rfl⟩

theorem Within.unique (distinct : (forestPreorder forest).Nodup) (one : Within forest n) (two : Within forest m)
    (same : n.comment = m.comment) : n = m := by
  induction forest using forest_induction with
  | nil => exact absurd one.mem List.not_mem_nil
  | cons c replies rest ih ih' =>
    simp only [forestPreorder, preorder, List.cons_append, List.nodup_cons, List.nodup_append, List.mem_append, not_or] at distinct
    obtain ⟨⟨above, apart⟩, inner, outer, disjoint⟩ := distinct
    rcases one.cons_cases with rfl | one | one <;> rcases two.cons_cases with rfl | two | two
    all_goals simp only [comment] at same
    · rfl
    · exact absurd (same ▸ two.mem) above
    · exact absurd (same ▸ two.mem) apart
    · exact absurd (same ▸ one.mem) above
    · exact ih inner one two
    · exact absurd same (disjoint _ one.mem _ two.mem)
    · exact absurd (same ▸ one.mem) apart
    · exact absurd same.symm (disjoint _ two.mem _ one.mem)
    · exact ih' outer one two

theorem forest_ext (top : forest.map comment = other.map comment)
    (below : ∀ n m, Within forest n → Within other m → n.comment = m.comment →
      n.replies.map comment = m.replies.map comment) : forest = other := by
  induction forest using forest_induction generalizing other with
  | nil => exact (List.map_eq_nil_iff.mp top.symm).symm
  | cons c replies rest ih ih' =>
    cases other with
    | nil => cases top
    | cons first others =>
      obtain ⟨c', replies'⟩ := first
      simp only [List.map_cons, List.cons.injEq] at top
      obtain ⟨rfl, top⟩ := top
      have inner : replies = replies' := by
        apply ih
        · exact below _ _ (.top List.mem_cons_self) (.top List.mem_cons_self) rfl
        · intro n m within within'
          exact below n m (.deep List.mem_cons_self within) (.deep List.mem_cons_self within')
      have outer : rest = others := by
        apply ih' top
        intro n m within within'
        exact below n m (within.weaken _) (within'.weaken _)
      rw [inner, outer]
      rfl

end Node

namespace Thread
open Node (Within forestPreorder)
open scoped List

-- How a level of comments becomes nodes: the first takes the comments that are placed under it, and they
-- what is placed under them, before its siblings come.
inductive Attached : Placed → List Comment → List Node → Placed → Prop
  | nil : Attached placed [] [] placed
  | cons {placed below rest : Placed} {c : Comment} {siblings : List Comment} {replies nodes : List Node}
      (first : Attached (takeLevel (some c.id) placed).2 (takeLevel (some c.id) placed).1 replies below)
      (later : Attached below siblings nodes rest) : Attached placed (c :: siblings) (.mk c replies :: nodes) rest

variable {placed rest : Placed} {level : List Comment} {nodes replies : List Node} {c : Comment}

theorem attached (placed : Placed) (level : List Comment) :
    Attached placed level (attach placed level).1 (attach placed level).2.1 := by
  induction placed, level using attach.induct with
  | case1 placed =>
    rw [attach]
    exact .nil
  | case2 placed c siblings count replies below first nodes rest second ih ih' =>
    rw [first] at ih
    rw [second] at ih'
    rw [attach, first]
    dsimp only
    rw [second]
    exact .cons ih ih'

theorem takeLevel_perm (parent : Option Int) (placed : Placed) :
    ((takeLevel parent placed).1 ++ (takeLevel parent placed).2.map (·.2)).Perm (placed.map (·.2)) := by
  rw [takeLevel, ← List.map_append]
  refine List.Perm.map _ ?_
  simpa using List.filter_append_perm (fun e => decide (e.1 = parent)) placed

def Hangs (nodes : List Node) (e : Option Int × Comment) : Prop := ∃ c ∈ forestPreorder nodes, e.1 = some c.id

instance (nodes : List Node) : DecidablePred (Hangs nodes) := fun _ => inferInstanceAs (Decidable (∃ _ ∈ _, _))

theorem hangs_cons {e : Option Int × Comment} :
    Hangs (.mk c replies :: nodes) e ↔ e.1 = some c.id ∨ Hangs replies e ∨ Hangs nodes e := by
  simp only [Hangs, forestPreorder, Node.preorder, List.cons_append, List.mem_cons, List.mem_append, or_and_right, exists_or,
    exists_eq_left]

namespace Attached

theorem comments (attached : Attached placed level nodes rest) : nodes.map Node.comment = level := by
  induction attached with
  | nil => rfl
  | cons _ _ _ ih =>
    rw [List.map_cons, ih]
    rfl

theorem unique {nodes' : List Node} {rest' : Placed} (one : Attached placed level nodes rest)
    (two : Attached placed level nodes' rest') :
    nodes = nodes' ∧ rest = rest' := by
  induction one generalizing nodes' rest' with
  | nil =>
    cases two
    exact ⟨rfl, rfl⟩
  | cons _ _ ih ih' =>
    cases two with
    | cons first later =>
      obtain ⟨rfl, rfl⟩ := ih first
      obtain ⟨rfl, rfl⟩ := ih' later
      exact ⟨rfl, rfl⟩

theorem perm (attached : Attached placed level nodes rest) :
    (forestPreorder nodes ++ rest.map (·.2)).Perm (level ++ placed.map (·.2)) := by
  induction attached with
  | nil => exact .refl _
  | @cons placed below rest c siblings replies nodes _ _ ih ih' =>
    simp only [forestPreorder, Node.preorder, List.cons_append, List.append_assoc]
    refine List.Perm.cons _ ?_
    calc
      forestPreorder replies ++ (forestPreorder nodes ++ rest.map (·.2))
      _ ~ forestPreorder replies ++ (siblings ++ below.map (·.2)) := ih'.append_left _
      _ ~ siblings ++ (forestPreorder replies ++ below.map (·.2)) := List.perm_append_comm_assoc _ _ _
      _ ~ siblings ++ ((takeLevel (some c.id) placed).1 ++ (takeLevel (some c.id) placed).2.map (·.2)) := ih.append_left _
      _ ~ siblings ++ placed.map (·.2) := (takeLevel_perm _ placed).append_left _

theorem rest_eq (attached : Attached placed level nodes rest) : rest = placed.filter fun e => ¬Hangs nodes e := by
  induction attached with
  | nil => simp [Hangs, forestPreorder]
  | cons _ _ ih ih' =>
    rw [ih', ih, takeLevel, List.filter_filter, List.filter_filter]
    refine List.filter_congr fun e _ => ?_
    simp only [hangs_cons]
    grind

theorem preorder_perm (attached : Attached placed level nodes rest) :
    (forestPreorder nodes).Perm (level ++ (placed.filter (Hangs nodes ·)).map (·.2)) := by
  have all := attached.perm
  rw [attached.rest_eq] at all
  have split : ((placed.filter (Hangs nodes ·)).map (·.2) ++ (placed.filter fun e => ¬Hangs nodes e).map (·.2)).Perm
      (placed.map (·.2)) := by
    rw [← List.map_append]
    refine List.Perm.map _ ?_
    simpa using List.filter_append_perm (fun e => decide (Hangs nodes e)) placed
  have parts := all.trans (split.symm.append_left level)
  rw [← List.append_assoc] at parts
  exact (List.perm_append_right_iff _).mp parts

theorem replies_eq (attached : Attached placed level nodes rest) (distinct : ((forestPreorder nodes).map (·.id)).Nodup)
    (within : Within nodes n) :
    n.replies.map Node.comment = (placed.filter (·.1 = some n.comment.id)).map (·.2) := by
  induction attached with
  | nil => exact absurd within.mem List.not_mem_nil
  | @cons placed below rest c siblings replies nodes first later ih ih' =>
    simp only [forestPreorder, Node.preorder, List.cons_append, List.map_cons, List.map_append, List.nodup_cons,
      List.nodup_append, List.mem_append, not_or] at distinct
    obtain ⟨⟨above, apart⟩, inner, outer, disjoint⟩ := distinct
    rcases within.cons_cases with rfl | within | within
    · exact first.comments
    · have other : n.comment.id ≠ c.id := fun same => above (same ▸ List.mem_map_of_mem within.mem)
      rw [ih inner within, takeLevel, List.filter_filter]
      refine congrArg _ (List.filter_congr fun e _ => ?_)
      grind
    · have other : n.comment.id ≠ c.id := fun same => apart (same ▸ List.mem_map_of_mem within.mem)
      have unhung : ∀ e : Option Int × Comment, e.1 = some n.comment.id → ¬Hangs replies e := by
        intro e key hangs
        obtain ⟨x, member, same⟩ := hangs
        rw [key, Option.some.injEq] at same
        exact disjoint _ (List.mem_map_of_mem member) _ (List.mem_map_of_mem within.mem) same.symm
      -- The node is among the siblings, and they only got what the replies had left.
      rw [ih' outer within, first.rest_eq, takeLevel, List.filter_filter, List.filter_filter]
      refine congrArg _ (List.filter_congr fun e _ => ?_)
      grind

end Attached

theorem mem_place {seen : List Int} {comments : List Comment} {e : Option Int × Comment} :
    e ∈ place seen comments ↔ ∃ before after, comments = before ++ e.2 :: after ∧
      e.1 = e.2.parentId.filter fun id => id ∈ before.map (·.id) ∨ id ∈ seen := by
  induction comments generalizing seen with
  | nil => simp [place]
  | cons c rest ih =>
    rw [place, List.mem_cons, ih]
    constructor
    · intro placed
      rcases placed with rfl | ⟨before, after, rfl, key⟩
      · refine ⟨[], rest, rfl, ?_⟩
        dsimp only
        congr 1
        funext id
        simp
      · refine ⟨c :: before, after, rfl, ?_⟩
        rw [key]
        congr 1
        funext id
        grind
    · intro found
      obtain ⟨before, after, same, key⟩ := found
      cases before with
      | nil =>
        cases same
        left
        ext1
        · rw [key]
          congr 1
          funext id
          simp
        · rfl
      | cons first before =>
        cases same
        refine .inr ⟨before, after, rfl, ?_⟩
        rw [key]
        congr 1
        funext id
        grind

theorem place_comments (seen : List Int) (comments : List Comment) : (place seen comments).map (·.2) = comments := by
  induction comments generalizing seen with
  | nil => rfl
  | cons c rest ih => rw [place, List.map_cons, ih]

theorem place_known (known : Int → Prop) {seen : List Int} {comments : List Comment} (begun : ∀ id ∈ seen, known id)
    (closed : ∀ e ∈ place seen comments, (∀ id, e.1 = some id → known id) → known e.2.id) :
    ∀ e ∈ place seen comments, ∀ id, e.1 = some id → known id := by
  induction comments generalizing seen with
  | nil => simp [place]
  | cons c rest ih =>
    have first : ∀ id, c.parentId.filter seen.contains = some id → known id := by
      intro id kept
      have among := Option.filter_eq_some_iff.mp kept
      exact begun id (by simpa using among.2)
    have known' := closed _ List.mem_cons_self first
    intro e member
    rcases List.mem_cons.mp member with rfl | later
    · exact first
    · refine ih ?_ (fun e member => closed e (List.mem_cons_of_mem _ member)) e later
      intro id among
      rcases List.mem_cons.mp among with rfl | old
      · exact known'
      · exact begun id old

section
variable {comments others : List Comment} {forest : List Node}

theorem attached_build (comments : List Comment) :
    ∃ rest, Attached (takeLevel none (place [] (sorted comments))).2 (takeLevel none (place [] (sorted comments))).1
      (build comments) rest := ⟨_, attached _ _⟩

-- Whatever is not at the top hangs under something, since its parent came before it.
theorem hangs_build {e : Option Int × Comment} (member : e ∈ (takeLevel none (place [] (sorted comments))).2) :
    Hangs (build comments) e := by
  obtain ⟨rest, attached⟩ := attached_build comments
  obtain ⟨placed, deeper⟩ := List.mem_filter.mp member
  have known := place_known (fun id => ∃ c ∈ forestPreorder (build comments), id = c.id) (by simp) ?_ e placed
  · cases key : e.1 with
    | none => simp [key] at deeper
    | some id =>
      obtain ⟨c, among, rfl⟩ := known id key
      exact ⟨c, among, key⟩
  · intro e placed known
    refine ⟨e.2, attached.preorder_perm.mem_iff.mpr (List.mem_append.mpr ?_), rfl⟩
    cases key : e.1 with
    | none => exact .inl (List.mem_map_of_mem (List.mem_filter.mpr ⟨placed, by simp [key]⟩))
    | some id =>
      obtain ⟨c, among, rfl⟩ := known id key
      refine .inr (List.mem_map_of_mem (List.mem_filter.mpr ⟨List.mem_filter.mpr ⟨placed, by simp [key]⟩, ?_⟩))
      simpa using ⟨c, among, key⟩

theorem preorder_build (comments : List Comment) : (forestPreorder (build comments)).Perm comments := by
  obtain ⟨rest, attached⟩ := attached_build comments
  have all : (takeLevel none (place [] (sorted comments))).2.filter (Hangs (build comments) ·) =
      (takeLevel none (place [] (sorted comments))).2 :=
    List.filter_eq_self.mpr fun e member => by simpa using hangs_build member
  have parts := attached.preorder_perm
  rw [all] at parts
  refine parts.trans ((takeLevel_perm none _).trans ?_)
  rw [place_comments]
  exact List.mergeSort_perm _ _

theorem comments_build (comments : List Comment) :
    (build comments).map Node.comment = ((place [] (sorted comments)).filter (·.1 = none)).map (·.2) := by
  obtain ⟨rest, attached⟩ := attached_build comments
  exact attached.comments

theorem replies_build (distinct : (comments.map (·.id)).Nodup) (within : Within (build comments) n) :
    n.replies.map Node.comment = ((place [] (sorted comments)).filter (·.1 = some n.comment.id)).map (·.2) := by
  obtain ⟨rest, attached⟩ := attached_build comments
  rw [attached.replies_eq ?_ within, takeLevel, List.filter_filter]
  · refine congrArg _ (List.filter_congr fun e _ => ?_)
    grind
  · exact ((preorder_build comments).map _).nodup_iff.mpr distinct

def Before (a b : Comment) : Prop := a.createdAt < b.createdAt ∨ a.createdAt = b.createdAt ∧ a.id < b.id

instance (a b : Comment) : Decidable (Before a b) := inferInstanceAs (Decidable (_ ∨ _))

theorem earlier_iff {a b : Comment} :
    Earlier a b ↔ a.createdAt.nanos < b.createdAt.nanos ∨ a.createdAt.nanos = b.createdAt.nanos ∧ a.id ≤ b.id := by
  have same : a.createdAt = b.createdAt ↔ a.createdAt.nanos = b.createdAt.nanos := ⟨congrArg _, Instant.ext_nanos⟩
  rw [← same]
  rfl

theorem before_iff {a b : Comment} :
    Before a b ↔ a.createdAt.nanos < b.createdAt.nanos ∨ a.createdAt.nanos = b.createdAt.nanos ∧ a.id < b.id := by
  have same : a.createdAt = b.createdAt ↔ a.createdAt.nanos = b.createdAt.nanos := ⟨congrArg _, Instant.ext_nanos⟩
  rw [← same]
  rfl

theorem sorted_pairwise (comments : List Comment) : (sorted comments).Pairwise Earlier := by
  have ordered : (sorted comments).Pairwise fun a b => decide (Earlier a b) = true := by
    refine List.pairwise_mergeSort ?_ ?_ comments
    · intro a b c first second
      simp only [decide_eq_true_eq, earlier_iff] at first second ⊢
      omega
    · intro a b
      simp only [Bool.or_eq_true, decide_eq_true_eq, earlier_iff]
      omega
  exact ordered.imp fun earlier => of_decide_eq_true earlier

theorem mem_front_iff {front back : List Comment} (distinct : (comments.map (·.id)).Nodup)
    (split : sorted comments = front ++ c :: back) : x ∈ front ↔ x ∈ comments ∧ Before x c := by
  have member : x ∈ comments ↔ x ∈ front ++ c :: back := by rw [← split]; exact List.mem_mergeSort.symm
  have ordered := sorted_pairwise comments
  have ids : ((sorted comments).map (·.id)).Nodup := ((List.mergeSort_perm comments _).map _).nodup_iff.mpr distinct
  rw [split, List.pairwise_append, List.pairwise_cons] at ordered
  rw [split, List.map_append, List.nodup_append] at ids
  obtain ⟨_, ⟨behind, _⟩, ahead⟩ := ordered
  rw [member]
  constructor
  · intro early
    have earlier := ahead x early c List.mem_cons_self
    have other : x.id ≠ c.id := ids.2.2 _ (List.mem_map_of_mem early) _ (List.mem_map_of_mem List.mem_cons_self)
    refine ⟨List.mem_append_left _ early, ?_⟩
    rw [earlier_iff] at earlier
    rw [before_iff]
    omega
  · intro both
    obtain ⟨among, before⟩ := both
    rw [before_iff] at before
    rcases List.mem_append.mp among with early | late
    · exact early
    · rcases List.mem_cons.mp late with rfl | late
      · omega
      · have earlier := earlier_iff.mp (behind x late)
        omega

theorem placed_iff (distinct : (comments.map (·.id)).Nodup) {key : Option Int} :
    (key, c) ∈ place [] (sorted comments) ↔
      c ∈ comments ∧ key = c.parentId.filter fun id => ∃ x ∈ comments, Before x c ∧ x.id = id := by
  have same (front back : List Comment) (split : sorted comments = front ++ c :: back) :
      (c.parentId.filter fun id => id ∈ front.map (·.id) ∨ id ∈ []) =
        c.parentId.filter fun id => ∃ x ∈ comments, Before x c ∧ x.id = id := by
    congr 1
    funext id
    simp only [List.mem_map, mem_front_iff distinct split, List.not_mem_nil, or_false, and_assoc]
  rw [mem_place]
  constructor
  · intro found
    obtain ⟨front, back, split, key⟩ := found
    have member : c ∈ sorted comments := split ▸ List.mem_append_right _ List.mem_cons_self
    exact ⟨List.mem_mergeSort.mp member, key.trans (same front back split)⟩
  · intro known
    obtain ⟨member, key⟩ := known
    obtain ⟨front, back, split⟩ := List.append_of_mem (List.mem_mergeSort.mpr member : c ∈ sorted comments)
    exact ⟨front, back, split, key.trans (same front back split).symm⟩

theorem mem_level {key : Option Int} : c ∈ (placed.filter (·.1 = key)).map (·.2) ↔ (key, c) ∈ placed := by
  simp only [List.mem_map, List.mem_filter, decide_eq_true_eq, Prod.exists, exists_eq_right]

theorem reply_build_iff (distinct : (comments.map (·.id)).Nodup) (within : Within (build comments) n) :
    c ∈ n.replies.map Node.comment ↔ c ∈ comments ∧ c.parentId = some n.comment.id ∧ Before n.comment c := by
  have among : n.comment ∈ comments := (preorder_build comments).mem_iff.mp within.mem
  rw [replies_build distinct within, mem_level, placed_iff distinct]
  refine and_congr_right fun member => ?_
  rw [eq_comm, Option.filter_eq_some_iff]
  refine and_congr_right fun parent => ?_
  simp only [decide_eq_true_eq]
  constructor
  · intro found
    obtain ⟨x, known, before, same⟩ := found
    rwa [← List.inj_on_of_nodup_map distinct known among same]
  · intro before
    exact ⟨n.comment, among, before, rfl⟩

theorem top_build_iff (distinct : (comments.map (·.id)).Nodup) :
    c ∈ (build comments).map Node.comment ↔ c ∈ comments ∧ ∀ x ∈ comments, Before x c → c.parentId ≠ some x.id := by
  rw [comments_build, mem_level, placed_iff distinct]
  refine and_congr_right fun member => ?_
  rw [eq_comm, Option.filter_eq_none_iff]
  constructor
  · intro none x known before parent
    exact none x.id parent (by simpa using ⟨x, known, before, rfl⟩)
  · intro apart id parent found
    obtain ⟨x, known, before, rfl⟩ := of_decide_eq_true found
    exact apart x known before parent

-- Building a thread goes from level to level and comes to its end with a forest, some comments being left.
def Builds (comments : List Comment) (forest : List Node) (rest : Placed) : Prop :=
  Attached (takeLevel none (place [] (sorted comments))).2 (takeLevel none (place [] (sorted comments))).1 forest rest

theorem builds_build (comments : List Comment) : Builds comments (build comments) [] := by
  obtain ⟨rest, attached⟩ := attached_build comments
  have none : rest = [] := by
    rw [attached.rest_eq, List.filter_eq_nil_iff]
    intro e member
    simpa using hangs_build member
  exact none ▸ attached

-- Building a thread ends, in one way, and leaves no comment out: the forest has every comment just as often as
-- it was given, whatever the parents are that the comments name.
theorem nothing_lost (comments : List Comment) :
    (∀ forest rest, Builds comments forest rest ↔ forest = build comments ∧ rest = []) ∧
      (forestPreorder (build comments)).Perm comments := by
  refine ⟨?_, preorder_build comments⟩
  intro forest rest
  constructor
  · intro builds
    exact builds.unique (builds_build comments)
  · intro same
    obtain ⟨rfl, rfl⟩ := same
    exact builds_build comments

theorem sorted_increasing (distinct : (comments.map (·.id)).Nodup) : (sorted comments).Pairwise Before := by
  have ids : ((sorted comments).map (·.id)).Nodup := ((List.mergeSort_perm comments _).map _).nodup_iff.mpr distinct
  refine ((sorted_pairwise comments).and (List.pairwise_map.mp ids)).imp ?_
  intro a b both
  obtain ⟨earlier, other⟩ := both
  rw [earlier_iff] at earlier
  rw [before_iff]
  omega

theorem level_increasing (distinct : (comments.map (·.id)).Nodup) (key : Option Int) :
    (((place [] (sorted comments)).filter (·.1 = key)).map (·.2)).Pairwise Before := by
  have part := (List.filter_sublist (l := place [] (sorted comments)) (p := fun e => decide (e.1 = key))).map (·.2)
  rw [place_comments] at part
  exact (sorted_increasing distinct).sublist part

-- A forest in which every comment has its place: under the comment that it names as its parent if that came
-- before it, at the top otherwise, and each level in the order of the thread.
structure Arranged (comments : List Comment) (forest : List Node) : Prop where
  one : ∀ c ∈ comments, ∃! n, Within forest n ∧ n.comment = c
  known : ∀ n, Within forest n → n.comment ∈ comments
  replies : ∀ n, Within forest n → ∀ c, c ∈ n.replies.map Node.comment ↔
    c ∈ comments ∧ c.parentId = some n.comment.id ∧ Before n.comment c
  top : ∀ c, c ∈ forest.map Node.comment ↔ c ∈ comments ∧ ¬∃ p ∈ comments, c.parentId = some p.id ∧ Before p c
  increasing : (forest.map Node.comment).Pairwise Before
  below : ∀ n, Within forest n → (n.replies.map Node.comment).Pairwise Before

theorem arranged_build (distinct : (comments.map (·.id)).Nodup) : Arranged comments (build comments) where
  one := by
    intro c member
    obtain ⟨n, within, same⟩ := Node.within_of_mem _ ((preorder_build comments).mem_iff.mpr member)
    refine ⟨n, ⟨within, same⟩, ?_⟩
    intro m other
    have whole : (forestPreorder (build comments)).Nodup := (preorder_build comments).nodup_iff.mpr (.of_map _ distinct)
    exact other.1.unique whole within (other.2.trans same.symm)
  known := fun n within => (preorder_build comments).mem_iff.mp within.mem
  replies := fun n within c => reply_build_iff distinct within
  top := by
    intro c
    rw [top_build_iff distinct]
    grind
  increasing := by
    rw [comments_build]
    exact level_increasing distinct none
  below := by
    intro n within
    rw [replies_build distinct within]
    exact level_increasing distinct _

theorem before_asymm {a b : Comment} (first : Before a b) : ¬Before b a := by
  rw [before_iff] at first ⊢
  omega

theorem level_ext {one two : List Comment} (first : one.Pairwise Before) (second : two.Pairwise Before)
    (same : ∀ c, c ∈ one ↔ c ∈ two) : one = two := by
  have nodup : ∀ {level : List Comment}, level.Pairwise Before → level.Nodup := by
    intro level ordered
    refine ordered.imp ?_
    intro a b before equal
    exact before_asymm before (equal ▸ before)
  refine ((List.perm_ext_iff_of_nodup (nodup first) (nodup second)).mpr same).eq_of_pairwise ?_ first second
  intro a b _ _ before after
  exact absurd after (before_asymm before)

theorem Arranged.unique (one : Arranged comments forest) (two : Arranged comments nodes) : forest = nodes := by
  apply Node.forest_ext
  · apply level_ext one.increasing two.increasing
    intro c
    rw [one.top, two.top]
  · intro n m within within' same
    apply level_ext (one.below n within) (two.below m within')
    intro c
    rw [one.replies n within, two.replies m within', same]

theorem Arranged.congr (same : ∀ c, c ∈ others ↔ c ∈ comments) (arranged : Arranged others forest) : Arranged comments forest where
  one := fun c member => arranged.one c ((same c).mpr member)
  known := fun n within => (same _).mp (arranged.known n within)
  replies := by simpa only [same] using arranged.replies
  top := by simpa only [same] using arranged.top
  increasing := arranged.increasing
  below := arranged.below

-- The rule decides what a thread is, so the order in which its comments are given does not matter.
theorem build_by_rule (distinct : (comments.map (·.id)).Nodup) :
    (∀ forest, Arranged comments forest ↔ forest = build comments) ∧
      ∀ others : List Comment, (others.map (·.id)).Nodup → (∀ c, c ∈ others ↔ c ∈ comments) → build others = build comments := by
  refine ⟨?_, ?_⟩
  · intro forest
    constructor
    · intro arranged
      exact arranged.unique (arranged_build distinct)
    · intro same
      exact same ▸ arranged_build distinct
  · intro others distinct' same
    exact ((arranged_build distinct').congr same).unique (arranged_build distinct)

end

def remark (id : Int) (parent : Option Int) : Comment := ⟨id, 1, parent, ⟨1, "ann", ""⟩, "", none, .epoch⟩

-- Four remarks of one instant: 5 and 6 answer each other, 3 answers 5 before that was there, and 7 answers nothing
-- that is known.
def crossed : List Comment := [remark 6 (some 5), remark 3 (some 5), remark 7 (some 9), remark 5 (some 6)]

theorem build_by_rule_crossed :
    (crossed.map (·.id)).Nodup ∧ build crossed.reverse = build crossed ∧
      (∃ n, Within (build crossed) n ∧ n.comment = remark 5 (some 6) ∧ ∀ c, c ∈ n.replies.map Node.comment ↔ c = remark 6 (some 5)) ∧
      ∀ c, c ∈ (build crossed).map Node.comment ↔ c = remark 3 (some 5) ∨ c = remark 5 (some 6) ∨ c = remark 7 (some 9) := by
  have distinct : (crossed.map (·.id)).Nodup := by decide
  obtain ⟨arranged_iff, order⟩ := build_by_rule distinct
  have arranged : Arranged crossed (build crossed) := (arranged_iff _).mpr rfl
  obtain ⟨n, ⟨within, same⟩, _⟩ := arranged.one (remark 5 (some 6)) (by decide)
  refine ⟨distinct, order crossed.reverse (by decide) (fun c => List.mem_reverse), ⟨n, within, same, ?_⟩, ?_⟩
  · intro c
    rw [arranged.replies n within, same]
    constructor
    · intro both
      obtain ⟨member, parent, before⟩ := both
      simp only [crossed, List.mem_cons, List.not_mem_nil, or_false] at member
      rcases member with rfl | rfl | rfl | rfl
      · rfl
      · exact absurd before (by decide)
      · cases parent
      · cases parent
    · rintro rfl
      decide
  · intro c
    rw [arranged.top]
    constructor
    · intro both
      obtain ⟨member, alone⟩ := both
      simp only [crossed, List.mem_cons, List.not_mem_nil, or_false] at member
      rcases member with rfl | rfl | rfl | rfl
      · exact absurd ⟨remark 5 (some 6), by decide⟩ alone
      · exact .inl rfl
      · exact .inr (.inr rfl)
      · exact .inr (.inl rfl)
    · rintro (rfl | rfl | rfl) <;> decide

end Thread
end Forum
