import Forum.Proofs.Admission
import Forum.Proofs.Lockstep

namespace Forum
open Service (Operation Question SessionRules Lockstep)
open Procedure (run runUntil)

namespace Service

theorem lockstep_find (token : Token) : Lockstep Eq (Sessions.find token) (Sessions.find token) := by
  unfold Sessions.find
  split
  · exact .fail (.refl _)
  · refine Lockstep.andThen (.during _ (.call (q := .findSession token.hash) trivial rfl)) fun found => ?_
    split
    · exact .fail (.refl _)
    · refine Lockstep.andThen (.call (q := .now) trivial rfl) fun now => ?_
      split
      · exact .done rfl
      · exact .fail (.refl _)

theorem lockstep_provideIdentity (hold : Span) : Lockstep Eq (Sessions.provideIdentity hold) (Sessions.provideIdentity hold) := by
  have internal : ∀ e, (Sessions.unavailable e).kind = .internal := fun e => by cases e <;> rfl
  refine .ask trivial fun reply reply' alike => ?_
  cases alike with
  | done same => cases same; exact .done rfl
  | failed => exact .fail (.inr ⟨internal _, internal _⟩)
  | crashed => exact .crash

theorem lockstep_issue (rules : SessionRules) : Lockstep Eq (Sessions.issue rules) (Sessions.issue rules) := by
  unfold Sessions.issue
  split
  · exact .fail (.refl _)
  · refine Lockstep.andThen (lockstep_provideIdentity rules.ttl) fun identity => ?_
    refine Lockstep.andThen (.call (q := .drawEntropy) trivial rfl) fun entropy => ?_
    refine Lockstep.andThen (.call (q := .now) trivial rfl) fun now => ?_
    refine Lockstep.andThen (.orCrash _) fun expiresAt => ?_
    exact Lockstep.andThen (.during _ (.call trivial rfl)) fun _ => .done rfl

theorem lockstep_rename (rules : SessionRules) (token : Token) (name : String) :
    Lockstep Eq (Sessions.rename rules token name) (Sessions.rename rules token name) := by
  unfold Sessions.rename
  split
  · exact .fail (.refl _)
  · refine Lockstep.andThen (.call (q := .now) trivial rfl) fun now => ?_
    exact .during _ (.call (q := .updateSession token.hash (Sessions.renameEdit now name)) ⟨now, name, rfl⟩ rfl)

theorem lockstep_uploadUnlessEmpty (owner : Int) (image : ByteArray) (operation : String) :
    Lockstep Eq (uploadUnlessEmpty owner image operation) (uploadUnlessEmpty owner image operation) := by
  unfold uploadUnlessEmpty
  split
  · exact .done rfl
  · exact Lockstep.andThen (.during _ (.call (q := .upload owner image) trivial rfl)) fun _ => .done rfl

theorem lockstep_create (grace : Span) (draft : PostDraft) (image : ByteArray) :
    Lockstep Eq (Posts.create grace draft image) (Posts.create grace draft image) := by
  unfold Posts.create
  dsimp only
  split
  · exact .fail (.refl _)
  · refine Lockstep.andThen (lockstep_uploadUnlessEmpty _ _ _) fun imagePath => ?_
    refine Lockstep.andThen (.call (q := .now) trivial rfl) fun now => ?_
    refine Lockstep.andThen (.orCrash _) fun expiresAt => ?_
    exact .during _ (.call (q := .savePost _) trivial rfl)

theorem lockstep_load (post : Int) : Lockstep Eq (Posts.find post) (Posts.find post) := by
  refine Lockstep.andThen (.during _ (.call (q := .findPost post) trivial rfl)) fun found => ?_
  split
  · exact .done rfl
  · exact .fail (.refl _)

theorem lockstep_save (grace : Span) (draft : CommentDraft) (image : ByteArray) :
    Lockstep Eq (Comments.save grace draft image) (Comments.save grace draft image) := by
  refine Lockstep.andThen (lockstep_load draft.postId) fun post => ?_
  split
  · exact .fail (.refl _)
  · split
    · exact .fail (.refl _)
    · refine Lockstep.andThen (lockstep_uploadUnlessEmpty _ _ _) fun imagePath => ?_
      refine Lockstep.andThen (.call (q := .now) trivial rfl) fun now => ?_
      refine Lockstep.andThen (.orCrash _) fun expiry => ?_
      exact .during _ (.call (q := .transact _) ⟨_, _, rfl⟩ rfl)

theorem lockstep_thread (post : Int) : Lockstep Eq (Comments.thread post) (Comments.thread post) :=
  Lockstep.andThen (.during _ (.call (q := .listComments post) trivial rfl)) fun _ => .done rfl

theorem lockstep_uploadImage (owner : Int) (image : ByteArray) :
    Lockstep Eq (Posts.uploadImage owner image) (Posts.uploadImage owner image) := by
  unfold Posts.uploadImage
  split
  · exact .fail (.refl _)
  · exact .during _ (.call (q := .upload owner image) trivial rfl)

end Service

namespace Http
variable {go go' : Operation Response}

theorem Refusal.ofError_alike {e e' : Error} (alike : e.Alike e') : ofError e = ofError e' := by
  rcases alike with rfl | ⟨internal, internal'⟩
  · rfl
  · simp only [ofError, internal, internal']

namespace Handlers

theorem lockstep_health : Lockstep Eq health health := by
  refine Lockstep.bind (.attempt (.call (q := .ping) trivial rfl)) fun alive alive' caught => ?_
  have same : alive.toBool = alive'.toBool := by cases caught <;> rfl
  dsimp only
  rw [same]
  exact Lockstep.andThen (.call (q := .uptime) trivial rfl) fun _ => .done rfl

theorem lockstep_list (archived : Bool) (query : List Char) : Lockstep Eq (list archived query) (list archived query) := by
  unfold list
  split
  · exact .done rfl
  · exact Lockstep.andThen (.during _ (.call (q := .listPosts archived _) trivial rfl)) fun _ => .done rfl

theorem lockstep_withId {go : Int → Operation Response} (steps : ∀ id, Lockstep Eq (go id) (go id)) (raw : List Char) :
    Lockstep Eq (withId raw go) (withId raw go) := by
  unfold withId
  split
  · exact steps _
  · exact .done rfl

theorem lockstep_withForm {go : Form → Operation Response} (steps : ∀ form, Lockstep Eq (go form) (go form)) (r : Request) :
    Lockstep Eq (withForm r go) (withForm r go) := by
  unfold withForm
  split
  · exact .done rfl
  · split
    · exact .fail (.refl _)
    · split
      · exact steps _
      · exact .fail (.refl _)

theorem lockstep_rename (rules : SessionRules) (visitor : Gate.Visitor) (r : Request) :
    Lockstep Eq (rename rules visitor r) (rename rules visitor r) := by
  unfold rename
  split
  · exact .fail (.refl _)
  · exact Lockstep.andThen (Service.lockstep_rename _ _ _) fun _ => .done rfl

theorem lockstep_createPost (grace : Span) (visitor : Gate.Visitor) (r : Request) :
    Lockstep Eq (createPost grace visitor r) (createPost grace visitor r) :=
  lockstep_withForm (fun _ => Lockstep.andThen (Service.lockstep_create _ _ _) fun _ => .done rfl) r

theorem lockstep_createComment (grace : Span) (visitor : Gate.Visitor) (post : Int) (r : Request) :
    Lockstep Eq (createComment grace visitor post r) (createComment grace visitor post r) := by
  refine lockstep_withForm (fun form => ?_) r
  split
  · exact .fail (.refl _)
  · exact Lockstep.andThen (Service.lockstep_save _ _ _) fun _ => .done rfl

theorem lockstep_showPost (id : Int) : Lockstep Eq (showPost id) (showPost id) := by
  refine Lockstep.andThen (Service.lockstep_load id) fun post => ?_
  exact Lockstep.andThen (Service.lockstep_thread id) fun _ => .done rfl

theorem lockstep_uploadImage (visitor : Gate.Visitor) (r : Request) :
    Lockstep Eq (uploadImage visitor r) (uploadImage visitor r) := by
  unfold uploadImage
  split
  · exact .done rfl
  · exact Lockstep.andThen (Service.lockstep_uploadImage _ _) fun _ => .done rfl

end Handlers

theorem lockstep_handle (s : Settings) (route : Route) (r : Request) (visitor : Gate.Visitor) :
    Lockstep Eq (handle s route r visitor) (handle s route r visitor) := by
  unfold handle
  split
  · exact .done rfl
  · cases route with
    | health => exact Handlers.lockstep_health
    | session => exact .done rfl
    | sessionName => exact Handlers.lockstep_rename _ visitor r
    | posts =>
      dsimp only
      split
      · exact Handlers.lockstep_createPost _ visitor r
      · exact Handlers.lockstep_list _ _
    | post id => exact Handlers.lockstep_withId Handlers.lockstep_showPost id
    | postComments id => exact Handlers.lockstep_withId (fun post => Handlers.lockstep_createComment _ visitor post r) id
    | archive => exact Handlers.lockstep_list _ _
    | images => exact Handlers.lockstep_uploadImage visitor r

namespace Gate

theorem lockstep_answering {operation operation' : Operation Response} (steps : Lockstep Eq operation operation') :
    Lockstep Eq (answering operation) (answering operation') := by
  refine Lockstep.bind steps.attempt fun found found' caught => ?_
  cases caught with
  | ok same => exact .done same
  | error alike => exact .done (congrArg Refusal.response (Refusal.ofError_alike alike))

theorem seen_alike (secure : Bool) (token : Token) {found found' : Except Error Session} (caught : Caught Eq found found') :
    seen secure token found = seen secure token found' := by
  have failed : ∀ e : Error, e.kind = .internal → seen secure token (.error e) = .error Refusal.unauthorized.response := by
    intro e internal
    cases e <;> first | rfl | cases internal
  cases caught with
  | ok same => rw [same]
  | error alike =>
    rcases alike with rfl | ⟨internal, internal'⟩
    · rfl
    · rw [failed _ internal, failed _ internal']

theorem lockstep_look (secure : Bool) (token : Token) : Lockstep Eq (look secure token) (look secure token) :=
  Lockstep.bind (Service.lockstep_find token).attempt fun _ _ caught => .done (seen_alike secure token caught)

theorem lockstep_judge (rules : SessionRules) (secure : Bool) (cookies : List (List UInt8)) :
    Lockstep Eq (judge rules secure cookies) (judge rules secure cookies) := by
  unfold judge
  split
  · exact Lockstep.andThen (lockstep_look secure _) fun _ => .done rfl
  · refine Lockstep.andThen (Service.lockstep_issue rules) fun issued => ?_
    exact Lockstep.andThen (lockstep_look secure _) fun _ => .done rfl

theorem lockstep_pass (rules : SessionRules) (secure : Bool) (cookies : List (List UInt8)) {go : Visitor → Operation Response}
    (steps : ∀ visitor, Lockstep Eq (go visitor) (go visitor)) :
    Lockstep Eq (pass rules secure cookies go) (pass rules secure cookies go) := by
  rw [pass_eq]
  refine Lockstep.andThen (lockstep_judge rules secure cookies) fun judged => ?_
  refine Lockstep.andThen ?_ fun _ => .done rfl
  cases judged.visitor with
  | ok visitor => exact lockstep_answering (steps visitor)
  | error response => exact .done rfl

end Gate

namespace Server

theorem lockstep_job {s : Settings} {r : Request} {job : Job} (routed : job? s r = some job) :
    Lockstep Eq job.operation job.operation := by
  have behind : ∀ route, Lockstep Eq (gated s route r) (gated s route r) := fun route =>
    Gate.lockstep_answering (Gate.lockstep_pass _ _ _ (lockstep_handle s route r))
  obtain ⟨route, _, rfl⟩ := Option.map_eq_some_iff.mp routed
  cases route with
  | health =>
    change Lockstep Eq (healthCheck r) (healthCheck r)
    unfold healthCheck
    split
    · exact Handlers.lockstep_health
    · exact .done rfl
  | _ => exact behind _

def Job.isUp (job : Job) (b now : Backend) : Bool := job.limit.any fun limit => b.timer + limit ≤ now.timer

-- The server's answer to a request during which the clock moves and mishaps come and go.
def answerAmid (clocks : Nat → Instant) (scripts : Nat → Script) (s : Settings) (b : Backend) (r : Request) :
    Option Response × Backend :=
  match job? s r with
  | none => (some unknown, b)
  | some job =>
    let (ended, _, after) := runUntil (fun t => job.isUp b t.2) (Backend.amid clocks scripts) (0, b) job.operation
    (job.response? r ended, after)

theorem answer_eq (s : Settings) (b : Backend) (r : Request) : answer s b r = answerAmid (fun _ => b.clock) (fun _ => b.script) s b r := by
  unfold answer answerAmid
  cases job? s r with
  | none => rfl
  | some job =>
    have same : job.run b = runUntil (job.isUp b) Backend.answer b job.operation := by
      unfold Job.run Job.isUp
      cases job.limit with
      | none => exact (Procedure.runUntil_never _ _ _).symm
      | some limit => rfl
    obtain ⟨m, ended⟩ := Backend.runUntil_amid (job.isUp b) job.operation b
    dsimp only
    rw [ended, same]
    rfl

theorem response?_alike (job : Job) (r : Request) {ended ended' : Option (Outcome Response)}
    (alike : Option.Rel (Outcome.Alike Error.Alike Eq) ended ended') : job.response? r ended = job.response? r ended' := by
  cases alike with
  | none => rfl
  | some alike =>
    cases alike with
    | done same => rw [same]
    | failed => rfl
    | crashed => rfl

theorem answerAmid_alike (settings : Settings) (r : Request) (clocks : Nat → Instant) {one two : Nat → Script}
    (alike : ∀ n, (one n).Alike (two n)) (b : Backend) (script : Script) :
    (answerAmid clocks one settings b r).1 = (answerAmid clocks two settings { b with script } r).1 ∧
      (answerAmid clocks one settings b r).2.store = (answerAmid clocks two settings { b with script } r).2.store := by
  unfold answerAmid
  cases routed : job? settings r with
  | none => exact ⟨rfl, rfl⟩
  | some job =>
    have timed : ∀ s t, Backend.Paired s t → job.isUp b s.2 = job.isUp b t.2 := by
      rintro s t ⟨_, other, same⟩
      rw [same]
      rfl
    have paired : Backend.Paired (0, b) (0, { b with script }) := ⟨rfl, script, rfl⟩
    obtain ⟨ended, _, other, same⟩ := (lockstep_job routed).runUntil (fun t => job.isUp b t.2) timed
      (fun _ _ _ => Backend.paired_amid clocks alike) paired
    exact ⟨response?_alike job r ended, (congrArg (·.store) same).symm⟩

-- Nothing of an error that a collaborator fails with gets into the response or the store: two runs that
-- differ in such errors only come to the same, be it while time goes by and failures come and go, or as
-- the server answers.
theorem errors_leak_nothing (settings : Settings) (b : Backend) (r : Request) (clocks : Nat → Instant) {one two : Nat → Script}
    {script : Script} (alike : ∀ n, (one n).Alike (two n)) (alike' : b.script.Alike script) :
    ((answerAmid clocks one settings b r).1 = (answerAmid clocks two settings b r).1 ∧
      (answerAmid clocks one settings b r).2.store = (answerAmid clocks two settings b r).2.store) ∧
    (answer settings b r).1 = (answer settings { b with script } r).1 ∧
      (answer settings b r).2.store = (answer settings { b with script } r).2.store := by
  refine ⟨answerAmid_alike settings r clocks alike b b.script, ?_⟩
  rw [answer_eq, answer_eq]
  exact answerAmid_alike settings r (fun _ => b.clock) (fun _ => alike') b script

def jammed (mishap : Mishap) : Backend :=
  { Gate.visited with
    store := { Gate.visited.store with posts := Service.Comments.onePost.store.posts }
    script := fun port => if port = .insert then some mishap else none }

def commenting : Request where
  method := "POST"
  target := .ofText "/api/posts/1/comments"
  headers := [("cookie", "session_token=abc".toUTF8.toList), ("content-type", "multipart/form-data; boundary=b".toUTF8.toList)]
  body := "--b\r\ncontent-disposition: form-data; name=\"comment\"\r\n\r\nhi\r\n--b--\r\n".toUTF8

theorem errors_leak_nothing_jammed :
    let b := jammed (.error .lockPoisoned)
    let c := jammed (.panic "out of memory")
    b.script.Alike c.script ∧ (answer {} b commenting).1.map (·.status) = some 500 ∧
      (answer {} b commenting).1 = (answer {} c commenting).1 ∧
      (answer {} b commenting).2.store = (answer {} c commenting).2.store := by
  intro b c
  have alike : b.script.Alike c.script := by
    intro port
    dsimp only [b, c, jammed]
    split
    · rename_i inserting
      exact .inside (.inl inserting) rfl rfl
    · exact .none
  have failed : (answer {} b commenting).1.map (·.status) = some 500 := by decide +kernel
  obtain ⟨_, responses, stores⟩ := errors_leak_nothing {} b commenting (fun _ => .epoch) (fun _ => alike) alike
  exact ⟨alike, failed, responses, stores⟩

end Server
end Http

end Forum
