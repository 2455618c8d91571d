import Mathlib
import Forum.Proofs.Integrity

namespace Forum

def Post.Newer (a b : Post) : Prop := b.createdAt < a.createdAt ∨ a.createdAt = b.createdAt ∧ b.id < a.id

def PostRow.post (row : PostRow) : Post :=
  ⟨row.id, row.author, row.title, row.content, row.imagePath, (Instant.ofMillis? row.createdAt).getD default,
    (Instant.ofMillis? row.expiresAt).getD default, row.archived ≠ 0⟩

-- A table of posts as the service keeps it. Nothing is asked of the texts.
structure Store.Listable (s : Store) : Prop where
  distinct : (s.posts.rows.map (·.id)).Nodup
  marked : ∀ row ∈ s.posts.rows, row.archived = 0 ∨ row.archived = 1
  readable : ∀ row ∈ s.posts.rows, ∃ post, row.read = .ok post

structure Store.Lists (s : Store) (archived : Bool) (ordered : List Post) : Prop where
  newest : ordered.Pairwise Post.Newer
  members : ∀ post, post ∈ ordered ↔ post.isArchived = archived ∧ ∃ row ∈ s.posts.rows, row.read = .ok post

namespace Page

-- Rows before the page, however many these are. Page 0 is page 1.
def start (p : Page) : Nat := (max p.number.toNat 1 - 1) * p.size.toNat

def cut (p : Page) (posts : List α) : List α := (posts.drop p.start).take p.size.toNat

def upTo (size : UInt32) (count : Nat) : List Page := (List.range count).map fun k => ⟨.ofNat (k + 1), size⟩

theorem start_ofNat {k : Nat} (small : k + 1 < UInt32.size) (size : UInt32) : start ⟨.ofNat (k + 1), size⟩ = k * size.toNat := by
  simp only [start, UInt32.toNat_ofNat_of_lt' small]
  congr 1
  omega

theorem drop_offset {rows : List α} (short : rows.length ≤ maxOffset) (p : Page) : rows.drop p.offset = rows.drop p.start := by
  have same : p.offset = min p.start maxOffset := by
    unfold offset start
    congr 2
    omega
  rw [same]
  rcases Nat.le_total p.start maxOffset with within | beyond
  · rw [Nat.min_eq_left within]
  · rw [Nat.min_eq_right beyond, List.drop_eq_nil_of_le short, List.drop_eq_nil_of_le (Nat.le_trans short beyond)]

example : offset ⟨4294967295, 4294967295⟩ = maxOffset ∧ maxOffset < start ⟨4294967295, 4294967295⟩ := by decide

theorem cut_upTo (size : UInt32) (rows : List α) {count : Nat} (small : count < UInt32.size) :
    (upTo size count).flatMap (·.cut rows) = rows.take (count * size.toNat) := by
  induction count with
  | zero => simp [upTo]
  | succ k ih =>
    have before := ih (Nat.lt_of_succ_lt small)
    simp only [upTo, List.range_succ, List.map_append, List.flatMap_append] at before ⊢
    rw [before, Nat.succ_mul, List.take_add]
    simp only [List.map_singleton, List.flatMap_singleton, cut, start_ofNat small]

theorem cut_after {size m n : UInt32} {rows : List α} (ended : (cut ⟨m, size⟩ rows).length < size.toNat ∨ cut ⟨m, size⟩ rows = [])
    (later : max m.toNat 1 < n.toNat) : cut ⟨n, size⟩ rows = [] := by
  have next : start ⟨m, size⟩ + size.toNat ≤ start ⟨n, size⟩ := by
    unfold start
    dsimp only
    rw [← Nat.succ_mul]
    exact Nat.mul_le_mul_right _ (by omega)
  rcases Nat.eq_zero_or_pos size.toNat with none | some
  · simp only [cut, none, List.take_zero]
  · have short : (cut ⟨m, size⟩ rows).length < size.toNat := by
      rcases ended with short | empty
      · exact short
      · simpa only [empty, List.length_nil] using some
    simp only [cut, List.length_take, List.length_drop] at short
    rw [cut, List.drop_eq_nil_of_le (by omega), List.take_nil]

end Page

namespace PostRow
variable {row : PostRow} {post : Post}

theorem read_ok_iff : row.read = .ok post ↔ ∃ created expires, Instant.ofMillis? row.createdAt = some created ∧
    Instant.ofMillis? row.expiresAt = some expires ∧
      post = ⟨row.id, row.author, row.title, row.content, row.imagePath, created, expires, row.archived ≠ 0⟩ := by
  cases created : Instant.ofMillis? row.createdAt with
  | none => simp [read, readInstant, created, bind, Except.bind]
  | some t =>
    cases expires : Instant.ofMillis? row.expiresAt with
    | none => simp [read, readInstant, created, expires, bind, Except.bind]
    | some u => simp [read, readInstant, created, expires, bind, Except.bind, pure, Except.pure, eq_comm]

theorem read_eq (readable : ∃ post, row.read = .ok post) : row.read = .ok row.post := by
  obtain ⟨_, known⟩ := readable
  obtain ⟨created, expires, createdAt, expiresAt, rfl⟩ := read_ok_iff.mp known
  simp only [known, PostRow.post, createdAt, expiresAt, Option.getD_some]

theorem readable (row : PostRow) (created expires : Instant) (createdAt : row.createdAt = created.millis)
    (expiresAt : row.expiresAt = expires.millis) : ∃ post, row.read = .ok post :=
  ⟨_, read_ok_iff.mpr ⟨created.floor, expires.floor, by rw [createdAt, Instant.ofMillis?_millis],
    by rw [expiresAt, Instant.ofMillis?_millis], rfl⟩⟩

theorem Sound.readable (sound : row.Sound) : ∃ post, row.read = .ok post := by
  obtain ⟨created, expires, createdAt, expiresAt⟩ := sound.dated
  exact row.readable created expires createdAt expiresAt

theorem newer {a b : PostRow} (first : ∃ post, a.read = .ok post) (second : ∃ post, b.read = .ok post)
    (ordered : Store.Newer a b) (distinct : a.id ≠ b.id) : Post.Newer a.post b.post := by
  obtain ⟨p, reads⟩ := first
  obtain ⟨q, reads'⟩ := second
  have same : a.post = p := Except.ok.inj ((read_eq ⟨p, reads⟩).symm.trans reads)
  have same' : b.post = q := Except.ok.inj ((read_eq ⟨q, reads'⟩).symm.trans reads')
  obtain ⟨t, _, created, _, rfl⟩ := read_ok_iff.mp reads
  obtain ⟨u, _, created', _, rfl⟩ := read_ok_iff.mp reads'
  have nanos := Instant.ofNanos?_eq_some_iff.mp created
  have nanos' := Instant.ofNanos?_eq_some_iff.mp created'
  rw [same, same']
  rcases ordered with later | ⟨at_, ids⟩
  · refine .inl ?_
    change u.nanos < t.nanos
    omega
  · refine .inr ⟨Instant.ext_nanos ?_, ?_⟩
    · change t.nanos = u.nanos
      omega
    · change b.id < a.id
      omega

end PostRow

namespace Store
variable {s : Store}

theorem listing_pairwise (s : Store) (archived : Bool) : (s.listing archived).Pairwise Newer := by
  have ordered : (s.listing archived).Pairwise fun a b => decide (Newer a b) = true := by
    refine List.pairwise_mergeSort ?_ ?_ _
    · intro a b c first second
      rw [decide_eq_true_eq, Newer] at first second ⊢
      omega
    · intro a b
      rw [Bool.or_eq_true, decide_eq_true_eq, decide_eq_true_eq, Newer, Newer]
      omega
  exact ordered.imp fun newer => of_decide_eq_true newer

theorem mem_listing {archived : Bool} {row : PostRow} :
    row ∈ s.listing archived ↔ row ∈ s.posts.rows ∧ row.archived = if archived then 1 else 0 := by
  rw [listing, List.mem_mergeSort, List.mem_filter, decide_eq_true_eq]

namespace Listable

theorem lists (listable : s.Listable) (archived : Bool) : s.Lists archived ((s.listing archived).map PostRow.post) where
  newest := by
    have ids : ((s.listing archived).map (·.id)).Nodup := by
      refine ((List.mergeSort_perm _ _).map _).nodup_iff.mpr ?_
      exact (List.filter_sublist.map _).nodup listable.distinct
    have strict := (s.listing_pairwise archived).and (List.pairwise_map.mp ids)
    refine List.pairwise_map.mpr (strict.imp_of_mem ?_)
    intro a b known known' both
    exact PostRow.newer (listable.readable a (mem_listing.mp known).1) (listable.readable b (mem_listing.mp known').1) both.1 both.2
  members := by
    intro post
    simp only [List.mem_map, mem_listing]
    constructor
    · rintro ⟨row, ⟨known, mark⟩, rfl⟩
      have reads := PostRow.read_eq (listable.readable row known)
      refine ⟨?_, row, known, reads⟩
      cases archived <;> simp_all [PostRow.post]
    · rintro ⟨mark, row, known, reads⟩
      obtain rfl : row.post = post := Except.ok.inj ((PostRow.read_eq ⟨post, reads⟩).symm.trans reads)
      refine ⟨row, ⟨known, ?_⟩, rfl⟩
      rcases listable.marked row known with zero | one
      · simp_all [PostRow.post]
      · simp_all [PostRow.post]

theorem mapM_read (listable : s.Listable) {rows : List PostRow} (known : ∀ row ∈ rows, row ∈ s.posts.rows) :
    rows.mapM PostRow.read = .ok (rows.map PostRow.post) :=
  mapM_ok fun row member => PostRow.read_eq (listable.readable row (known row member))

theorem listPosts_eq (listable : s.Listable) (few : s.posts.rows.length < 2 ^ 63) (archived : Bool) (page : Page) :
    s.listPosts archived page = .ok (page.cut ((s.listing archived).map PostRow.post)) := by
  have short : (s.listing archived).length ≤ Page.maxOffset := by
    have fewer : (s.listing archived).length ≤ s.posts.rows.length := by
      rw [listing, List.length_mergeSort]
      exact List.length_filter_le _ _
    have cap : Page.maxOffset + 1 = 2 ^ 63 := rfl
    omega
  rw [listPosts, Page.drop_offset short, Page.cut, ← List.map_drop, ← List.map_take]
  refine listable.mapM_read fun row member => ?_
  exact (mem_listing.mp (List.drop_subset _ _ (List.take_subset _ _ member))).1

theorem listing_perm (listable : s.Listable) : (s.listing false ++ s.listing true).Perm s.posts.rows := by
  have others : s.posts.rows.filter (fun row => decide (row.archived = 1)) =
      s.posts.rows.filter fun row => !decide (row.archived = 0) := by
    refine List.filter_congr fun row known => ?_
    rcases listable.marked row known with zero | one
    · simp [zero]
    · simp [one]
  have active : (s.listing false).Perm (s.posts.rows.filter fun row => decide (row.archived = 0)) := List.mergeSort_perm _ _
  have archived : (s.listing true).Perm (s.posts.rows.filter fun row => decide (row.archived = 1)) := List.mergeSort_perm _ _
  rw [others] at archived
  exact (active.append archived).trans (List.filter_append_perm _ _)

end Listable

end Store

theorem Store.Sound.listable {s : Store} (sound : s.Sound) : s.Listable where
  distinct := sound.posts.nodup
  marked := fun row known => (sound.posts.holds row known).mark
  readable := fun row known => (sound.posts.holds row known).readable

namespace Service

theorem Posts.run_list {b : Backend} {archived : Bool} {page : Page} {posts : List Post}
    (listed : b.store.listPosts archived page = .ok posts)
    (works : b.mishap (if archived then .listArchived else .listActive) = none) :
    Procedure.run Backend.answerNow b (Posts.list archived page) = (.done posts, b) := by
  have answered : b.answerNow (.listPosts archived page) = (.done posts, b) := by
    simp only [Backend.answerNow, works, Backend.meeting, Backend.reading, listed]
  refine (Procedure.run_during Backend.answerNow b _ (ask (.listPosts archived page))).trans ?_
  rw [ask, Procedure.run_call, answered]
  rfl

-- The pages of the two listings are cut from all posts that are archived and from all that are not, so
-- those of either put together have each post once, and those of both have each post of the table once.
theorem listings_page_through {s : Store} (listable : s.Listable) (few : s.posts.rows.length < 2 ^ 63) (size : UInt32) :
    ∃ ordered : Bool → List Post, (∀ archived, s.Lists archived (ordered archived)) ∧
      (∀ archived number, s.listPosts archived ⟨number, size⟩ = .ok (Page.cut ⟨number, size⟩ (ordered archived)) ∧
        ∀ b : Backend, b.store = s → b.mishap (if archived then .listArchived else .listActive) = none →
          Procedure.run Backend.answerNow b (Posts.list archived ⟨number, size⟩) =
            (.done (Page.cut ⟨number, size⟩ (ordered archived)), b)) ∧
      (∀ archived (m n : UInt32), (Page.cut ⟨m, size⟩ (ordered archived)).length < size.toNat ∨
          Page.cut ⟨m, size⟩ (ordered archived) = [] → max m.toNat 1 < n.toNat → Page.cut ⟨n, size⟩ (ordered archived) = []) ∧
      (s.posts.rows.length ≤ (2 ^ 32 - 1) * size.toNat →
        (∀ archived, (Page.upTo size (2 ^ 32 - 1)).flatMap (·.cut (ordered archived)) = ordered archived) ∧
        ∃ posts, s.posts.rows.mapM PostRow.read = .ok posts ∧ (posts.map (·.id)).Nodup ∧
          (ordered false ++ ordered true).Perm posts) := by
  have listed := listable.listPosts_eq few
  have perm := listable.listing_perm
  refine ⟨fun archived => (s.listing archived).map PostRow.post, listable.lists, ?_, ?_, ?_⟩
  · intro archived number
    refine ⟨listed archived _, ?_⟩
    rintro b rfl works
    exact Posts.run_list (listed archived _) works
  · exact fun archived m n ended later => Page.cut_after ended later
  · intro enough
    refine ⟨fun archived => ?_, _, listable.mapM_read fun row known => known, ?_, ?_⟩
    · have fewer : (s.listing archived).length ≤ s.posts.rows.length := by
        have whole := perm.length_eq
        rw [List.length_append] at whole
        cases archived <;> omega
      rw [Page.cut_upTo size _ (by decide), List.take_of_length_le]
      rw [List.length_map]
      exact Nat.le_trans fewer enough
    · rw [List.map_map]
      exact listable.distinct
    · rw [← List.map_append]
      exact perm.map _

def posting : List (hall seconds).Move :=
  [.start (.create ⟨⟨1, "ann", ""⟩, "one", "first"⟩ ⟨#[]⟩), .step 0, .step 0, .change (.clock ⟨7000000, by decide⟩),
    .start (.create ⟨⟨1, "ann", ""⟩, "two", "second"⟩ ⟨#[]⟩), .step 1, .step 1,
    .start (.create ⟨⟨1, "ann", ""⟩, "three", "third"⟩ ⟨#[]⟩), .step 2, .step 2,
    .start (.archive ⟨1003000000, by decide⟩), .step 3]

def posted : List PostRow :=
  [⟨1, ⟨1, "ann", ""⟩, "one", "first", none, 0, 1000, 1⟩, ⟨2, ⟨1, "ann", ""⟩, "two", "second", none, 7, 1007, 0⟩,
    ⟨3, ⟨1, "ann", ""⟩, "three", "third", none, 7, 1007, 0⟩]

theorem listings_page_through_posting :
    let s := (Venue.play (opened seconds { Comments.onePost with store := .empty }) posting).shared.store
    s.Listable ∧ s.posts.rows.length < 2 ^ 63 ∧ ∃ ordered : Bool → List Post, (∀ archived, s.Lists archived (ordered archived)) ∧
      (Page.cut ⟨2, 1⟩ (ordered false)).map (·.id) = [2] ∧ s.posts.rows.length ≤ (2 ^ 32 - 1) * UInt32.toNat 1 ∧
      (Page.upTo 1 (2 ^ 32 - 1)).flatMap (·.cut (ordered false)) = ordered false := by
  intro s
  have rows : s.posts.rows = posted := by decide +kernel
  have sound : s.Sound := sound_play .empty posting
  have few : s.posts.rows.length < 2 ^ 63 := by
    rw [rows]
    decide
  have enough : s.posts.rows.length ≤ (2 ^ 32 - 1) * UInt32.toNat 1 := by
    rw [rows]
    decide
  obtain ⟨ordered, lists, listed, _, whole⟩ := listings_page_through sound.listable few 1
  have page : (s.listPosts false ⟨2, 1⟩).map (·.map (·.id)) = .ok [2] := by
    rw [Store.listPosts, Store.listing, rows]
    cbv
  rw [(listed false 2).1] at page
  exact ⟨sound.listable, few, ordered, lists, Except.ok.inj page, enough, (whole enough).1 false⟩

end Service

end Forum
