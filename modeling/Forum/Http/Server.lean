import Forum.Backend
import Forum.Http.Handlers
-- The server: one response to each request. The health check is open to all; every other route lies
-- behind the session gate and a deadline. A request that is not done by its deadline is given up,
-- and what it did not ask for yet is never done.
namespace Forum.Http.Server

def timedOut : Response := .bare 408

def close (route : Route) (r : Request) (response : Response) : Response :=
  let response := if route.methods.contains r.method then response else { response with allow := route.methods }
  if r.method = "HEAD" then { response with body := .empty } else response

def gated (s : Settings) (route : Route) (r : Request) : Service.Operation Response :=
  Gate.answering (Gate.pass (sessionRules s) s.secureCookies (r.values "cookie") (handle s route r))

def healthCheck (r : Request) : Service.Operation Response :=
  if Route.health.methods.contains r.method then Handlers.health else return .bare 405

structure Job where
  route : Route
  operation : Service.Operation Response
  limit : Option Nat

def job? (s : Settings) (r : Request) : Option Job :=
  (Route.ofPath? r.target.path).map fun route =>
    match route with
    | .health => ⟨.health, healthCheck r, none⟩
    | route => ⟨route, gated s route r, some (s.requestTimeoutSecs * 1000)⟩

-- The response of a job that ended, or that did not end in time. There is none if it gave up in the
-- middle.
def Job.response? (j : Job) (r : Request) : Option (Outcome Response) → Option Response
  | none => some (close j.route r timedOut)
  | some (.done response) => some (close j.route r response)
  | some _ => none

def unknown : Response := .bare 404

def Job.run (j : Job) (b : Backend) : Option (Outcome Response) × Backend :=
  match j.limit with
  | none => (b.run j.operation).map some id
  | some limit => b.runWithin limit j.operation

def answer (s : Settings) (b : Backend) (r : Request) : Option Response × Backend :=
  match job? s r with
  | none => (some unknown, b)
  | some job => (job.run b).map (job.response? r) id

end Forum.Http.Server
