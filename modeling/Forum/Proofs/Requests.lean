import Forum.Http.Server
import Forum.Proofs.Ticking

namespace Forum
open Service (Operation Question ports)
open Procedure (Asks)

namespace Service

theorem asks_uploadUnlessEmpty (owner : Int) (image : ByteArray) (operation : String) :
    (uploadUnlessEmpty owner image operation).Asks Question.Aside := by
  unfold uploadUnlessEmpty
  split
  · exact .done _
  · exact Asks.bind (Asks.during _ (Procedure.asks_call trivial)) fun _ => .done _

theorem asks_create (grace : Span) (draft : PostDraft) (image : ByteArray) :
    (Posts.create grace draft image).Asks Question.Aside := by
  unfold Posts.create
  dsimp only
  split
  · exact .fail _
  · refine Asks.bind (asks_uploadUnlessEmpty _ _ _) fun imagePath => ?_
    refine Asks.bind (Procedure.asks_call trivial) fun now => ?_
    refine Asks.bind (Procedure.asks_orCrash _) fun expiresAt => ?_
    exact Asks.during _ (Procedure.asks_call trivial)

theorem asks_save (grace : Span) (draft : CommentDraft) (image : ByteArray) :
    (Comments.save grace draft image).Asks Question.Aside := by
  refine Asks.bind ((asks_load draft.postId).mono Question.Plain.aside) fun post => ?_
  split
  · exact .fail _
  · split
    · exact .fail _
    · refine Asks.bind (asks_uploadUnlessEmpty _ _ _) fun imagePath => ?_
      refine Asks.bind (Procedure.asks_call trivial) fun now => ?_
      refine Asks.bind (Procedure.asks_orCrash _) fun expiry => ?_
      exact Asks.during _ (Procedure.asks_call ⟨_, _, rfl⟩)

end Service

namespace Http

theorem asks_health : Handlers.health.Asks Question.Aside := by
  refine Asks.bind (Asks.attempt (Procedure.asks_call trivial)) fun alive => ?_
  exact Asks.bind (Procedure.asks_call trivial) fun uptime => .done _

theorem asks_list (archived : Bool) (query : List Char) : (Handlers.list archived query).Asks Question.Aside := by
  unfold Handlers.list
  split
  · exact .done _
  · exact Asks.bind (Asks.during _ (Procedure.asks_call trivial)) fun _ => .done _

section
variable {P : Question → Prop}

theorem asks_withId {go : Int → Operation Response} (asks : ∀ id, (go id).Asks P) (raw : List Char) :
    (Handlers.withId raw go).Asks P := by
  unfold Handlers.withId
  split
  · exact asks _
  · exact .done _

theorem asks_withForm {go : Form → Operation Response} (asks : ∀ form, (go form).Asks P) (r : Request) :
    (Handlers.withForm r go).Asks P := by
  unfold Handlers.withForm
  split
  · exact .done _
  · split
    · exact .fail _
    · split
      · exact asks _
      · exact .fail _

end

theorem asks_createPost (grace : Span) (visitor : Gate.Visitor) (r : Request) :
    (Handlers.createPost grace visitor r).Asks Question.Aside :=
  asks_withForm (fun _ => Asks.bind (Service.asks_create _ _ _) fun _ => .done _) r

theorem asks_createComment (grace : Span) (visitor : Gate.Visitor) (post : Int) (r : Request) :
    (Handlers.createComment grace visitor post r).Asks Question.Aside := by
  refine asks_withForm (fun form => ?_) r
  split
  · exact .fail _
  · exact Asks.bind (Service.asks_save _ _ _) fun _ => .done _

theorem asks_showPost (id : Int) : (Handlers.showPost id).Asks Question.Aside := by
  refine Asks.bind ((Service.asks_load id).mono Question.Plain.aside) fun post => ?_
  exact Asks.bind ((Service.asks_thread id).mono Question.Plain.aside) fun _ => .done _

theorem asks_uploadImage (visitor : Gate.Visitor) (r : Request) :
    (Handlers.uploadImage visitor r).Asks Question.Aside := by
  unfold Handlers.uploadImage
  split
  · exact .done _
  · exact Asks.bind ((Service.asks_upload _ _).mono Question.Plain.aside) fun _ => .done _

theorem asks_handle (s : Settings) (r : Request) (visitor : Gate.Visitor) {route : Route} (other : route ≠ .sessionName) :
    (handle s route r visitor).Asks Question.Aside := by
  unfold handle
  split
  · exact .done _
  · cases route with
    | health => exact asks_health
    | session => exact .done _
    | sessionName => exact absurd rfl other
    | posts =>
      dsimp only
      split
      · exact asks_createPost _ visitor r
      · exact asks_list _ _
    | post id => exact asks_withId asks_showPost id
    | postComments id => exact asks_withId (fun post => asks_createComment _ visitor post r) id
    | archive => exact asks_list _ _
    | images => exact asks_uploadImage visitor r

theorem Server.Job.run_standing (job : Job) (b : Backend) {limit : Nat} (limited : job.limit = some limit) :
    ∃ m, Procedure.runUntil (fun s : Nat × Backend => b.timer + limit ≤ s.2.timer) (Backend.ticking fun _ => b.clock) (0, b)
      job.operation = ((job.run b).1, m, (job.run b).2) := by
  unfold Job.run
  rw [limited]
  exact Backend.runUntil_standing (fun now => b.timer + limit ≤ now.timer) job.operation 0 b

end Http
end Forum
