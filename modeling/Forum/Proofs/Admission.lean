import Forum.Proofs.Cookies
import Forum.Proofs.Requests

namespace Forum
open Backend (ticking)
open Procedure (run)
open Service (Operation Question SessionRules ports)
variable {clocks : Nat → Instant} {b : Backend} {token : Token}

theorem Http.Cookie.isEmpty_token? {headers : List (List UInt8)} (sent : token? headers = some token) : token.isEmpty = false := by
  unfold token? at sent
  obtain ⟨value, _, given⟩ := Option.bind_eq_some_iff.mp sent
  split at given
  · cases given
  · rename_i some
    cases given
    simpa [Token.isEmpty] using some

namespace Http.Gate
variable {s t : Nat × Backend} {secure : Bool} {rules : SessionRules} {cookies : List (List UInt8)}
  {go : Visitor → Operation Response}

def seen (secure : Bool) (token : Token) : Except Error Session → Except Response Visitor
  | .ok session => .ok ⟨token, session⟩
  | .error .expired => .error (Refusal.unauthorized.response.addCookie (Cookie.clear secure))
  | .error _ => .error Refusal.unauthorized.response

def look (secure : Bool) (token : Token) : Operation (Except Response Visitor) := do
  return seen secure token (← (Service.Sessions.find token).attempt)

def enter (go : Visitor → Operation Response) : Except Response Visitor → Operation Response
  | .ok visitor => answering (go visitor)
  | .error response => return response

theorem requireSession_eq (secure : Bool) (token : Token) (go : Visitor → Operation Response) :
    requireSession secure token go = look secure token >>= enter go := by
  unfold requireSession look
  simp only [bind_assoc, pure_bind]
  congr 1
  funext found
  cases found with
  | ok session => rfl
  | error e => cases e <;> rfl

-- What the gate makes of a request before it turns to a handler: a visitor or a refusal, and the
-- cookie of a session that was issued.
structure Judged where
  cookie : Option String
  visitor : Except Response Visitor

def judge (rules : SessionRules) (secure : Bool) (cookies : List (List UInt8)) : Operation Judged :=
  match Cookie.token? cookies with
  | some token => do return ⟨none, ← look secure token⟩
  | none => do
    let issued ← Service.Sessions.issue rules
    return ⟨some (Cookie.issue issued.token issued.expiresAt secure), ← look secure issued.token⟩

def Judged.close (judged : Judged) (response : Response) : Response :=
  match judged.cookie with
  | none => response
  | some cookie => response.addCookie cookie

def letIn (go : Visitor → Operation Response) (judged : Judged) : Operation Response := do
  return judged.close (← enter go judged.visitor)

theorem returns_issue (rules : SessionRules) :
    (Service.Sessions.issue rules).Returns fun issued => ∃ entropy, issued.token = .ofEntropy entropy := by
  unfold Service.Sessions.issue
  split
  · exact .fail _
  · refine .bind _ fun identity => .bind _ fun entropy => .bind _ fun now => .bind _ fun expiresAt => .bind _ fun _ => ?_
    exact .done ⟨entropy, rfl⟩

theorem pass_sent (sent : Cookie.token? cookies = some token) : pass rules secure cookies go = requireSession secure token go := by
  simp only [pass, ensureToken, requireValidSession, sent]
  rfl

-- The inner layer has the token from the outer one, since the request itself carries none.
theorem pass_unsent (unsent : Cookie.token? cookies = none) :
    pass rules secure cookies go = do
      let issued ← Service.Sessions.issue rules
      let response ← requireSession secure issued.token go
      return response.addCookie (Cookie.issue issued.token issued.expiresAt secure) := by
  simp only [pass, ensureToken, requireValidSession, unsent]
  apply (returns_issue rules).bind_congr
  intro issued drawn
  obtain ⟨entropy, token⟩ := drawn
  rw [token, Cookie.issue?_ofEntropy]
  rfl

theorem pass_eq (rules : SessionRules) (secure : Bool) (cookies : List (List UInt8)) (go : Visitor → Operation Response) :
    pass rules secure cookies go = judge rules secure cookies >>= letIn go := by
  cases sent : Cookie.token? cookies with
  | none => simp only [pass_unsent sent, judge, sent, requireSession_eq, bind_assoc, pure_bind, letIn, Judged.close]
  | some token => simp only [pass_sent sent, judge, sent, requireSession_eq, bind_assoc, pure_bind, letIn, Judged.close, bind_pure]

def served (go : Visitor → Operation Response) : Outcome Judged → Operation Response
  | .done judged => letIn go judged
  | .failed e => return (Refusal.ofError e).response
  | .crashed => .crash

def settled : Outcome Response → Outcome Response
  | .failed e => .done (Refusal.ofError e).response
  | other => other

theorem run_answering (answer : Procedure.Answering ports σ) (s : σ) (operation : Operation Response) :
    run answer s (answering operation) = (settled (run answer s operation).1, (run answer s operation).2) := by
  change run answer s (operation.attempt.bind _) = _
  rw [Procedure.run_bind, Procedure.run_attempt]
  obtain ⟨outcome, t⟩ := run answer s operation
  cases outcome <;> rfl

theorem run_gated {answer : Procedure.Answering ports σ} {s t : σ} (go : Visitor → Operation Response)
    (judged : run answer s (judge rules secure cookies) = (verdict, t)) :
    run answer s (answering (pass rules secure cookies go)) = run answer t (served go verdict) := by
  have never : ∀ judged, settled (run answer t (letIn go judged)).1 = (run answer t (letIn go judged)).1 := by
    intro judged
    unfold letIn
    rw [Procedure.run_map]
    rcases judged with ⟨cookie, response | visitor⟩
    · rfl
    · dsimp only [enter]
      rw [run_answering]
      generalize (run answer t (go visitor)).1 = outcome
      cases outcome <;> rfl
  rw [run_answering, pass_eq]
  change (settled (run answer s (Procedure.bind _ _)).1, (run answer s (Procedure.bind _ _)).2) = _
  rw [Procedure.run_bind, judged]
  cases verdict with
  | done found => exact Prod.ext (never found) rfl
  | failed e => rfl
  | crashed => rfl

def Admits (verdict : Outcome Judged) (visitor : Visitor) : Prop := ∃ cookie, verdict = .done ⟨cookie, .ok visitor⟩

theorem seen_refuses (secure : Bool) (token : Token) (found : Except Error Session)
    (refused : seen secure token found = .error response) : response.status = 401 := by
  cases found with
  | ok session => cases refused
  | error e => cases e <;> cases refused <;> rfl

theorem seen_ok (secure : Bool) (token : Token) (found : Except Error Session) (visitor : Visitor) :
    seen secure token found = .ok visitor ↔ visitor.token = token ∧ found = .ok visitor.session := by
  cases found with
  | ok session =>
    obtain ⟨other, current⟩ := visitor
    simp only [seen, Except.ok.injEq, Visitor.mk.injEq]
    exact and_congr_left' eq_comm
  | error e => cases e <;> simp [seen]

-- What comes of a token that is looked up at some point of a request.
structure Sights (clocks : Nat → Instant) (s : Nat × Backend) (token : Token) (sight : Outcome (Except Response Visitor)) :
    Prop where
  unfailing : ∀ e, sight ≠ .failed e
  refuses : ∀ response, sight = .done (.error response) → response.status = 401
  admits_iff : ∀ visitor, sight = .done (.ok visitor) ↔ visitor.token = token ∧ s.2.mishap .findSession = none ∧
    s.2.store.findSession token.hash = .ok (some visitor.session) ∧ visitor.session.IsLiveAt (clocks (s.1 + 1))

theorem admits_map (sight : Outcome (Except Response Visitor)) (cookie : Option String) (visitor : Visitor) :
    Admits (sight.map fun found => ⟨cookie, found⟩) visitor ↔ sight = .done (.ok visitor) := by
  cases sight <;> simp [Admits, Outcome.map]

theorem Sights.refuses_map {sight : Outcome (Except Response Visitor)} (sights : Sights clocks s token sight)
    {issued : Option String} (cookie : Option String) (response : Response)
    (refused : (sight.map fun found => ⟨issued, found⟩) = .done (⟨cookie, .error response⟩ : Judged)) : response.status = 401 := by
  apply sights.refuses
  cases sight <;> simp_all [Outcome.map]

theorem run_look (given : token.isEmpty = false) (ran : run (ticking clocks) s (look secure token) = (sight, t)) :
    Sights clocks s token sight ∧ t.2.store = s.2.store := by
  unfold look at ran
  rw [Procedure.run_map, Procedure.run_attempt] at ran
  generalize finding : run (ticking clocks) s (Service.Sessions.find token) = part at ran
  obtain ⟨found, u⟩ := part
  cases ran
  obtain ⟨same, found_iff⟩ := Service.Sessions.run_find given finding
  refine ⟨⟨?_, ?_, ?_⟩, same⟩
  · intro e
    cases found <;> simp [Outcome.attempt, Outcome.map]
  · intro response refused
    cases found with
    | done session => exact seen_refuses secure token (.ok session) (by simpa [Outcome.attempt, Outcome.map] using refused)
    | failed e => exact seen_refuses secure token (.error e) (by simpa [Outcome.attempt, Outcome.map] using refused)
    | crashed => cases refused
  · intro visitor
    rw [← found_iff]
    cases found <;> simp [Outcome.attempt, Outcome.map, seen_ok]

-- What the gate makes of a token that came with a request: it writes nothing, and lets in the visitor
-- whose row is found and is live when the clock is read.
structure Recognises (clocks : Nat → Instant) (b : Backend) (token : Token) (verdict : Outcome Judged) (entered : Nat × Backend) :
    Prop where
  untouched : entered.2.store = b.store
  admits_iff : ∀ visitor, Admits verdict visitor ↔ visitor.token = token ∧ b.mishap .findSession = none ∧
    (∃ row ∈ b.store.sessions.rows, row.tokenHash = token.hash ∧ row.read = .ok visitor.session) ∧
    visitor.session.IsLiveAt (clocks 1)
  refuses : ∀ cookie response, verdict = .done ⟨cookie, .error response⟩ → response.status = 401

theorem run_judge_token (keyed : SessionsKeyed b.store.sessions) (sent : Cookie.token? cookies = some token)
    (judged : run (ticking clocks) (0, b) (judge rules secure cookies) = (verdict, entered)) :
    Recognises clocks b token verdict entered := by
  simp only [judge, sent] at judged
  rw [Procedure.run_map] at judged
  generalize looking : run (ticking clocks) (0, b) (look secure token) = part at judged
  obtain ⟨sight, u⟩ := part
  cases judged
  obtain ⟨sights, same⟩ := run_look (Cookie.isEmpty_token? sent) looking
  refine ⟨same, fun visitor => ?_, sights.refuses_map⟩
  rw [admits_map, sights.admits_iff, keyed.findSession_iff]

-- What the gate makes of a request without a token, if a session is issued: its row is added, its cookie
-- is set, and its visitor is let in if the lookup goes through before the row has expired.
structure Welcomes (rules : SessionRules) (secure : Bool) (clocks : Nat → Instant) (b : Backend) (token : Token)
    (new : NewSession) (verdict : Outcome Judged) (entered : Nat × Backend) : Prop where
  hashed : new.tokenHash = token.hash
  created : new.createdAt = clocks 2
  expires : (clocks 2).add? rules.ttl = some new.expiresAt
  unknown : ∀ row ∈ b.store.sessions.rows, row.tokenHash ≠ new.tokenHash
  added : entered.2.store.sessions = (b.store.sessions.insert new.row).2
  unfailing : ∀ e, verdict ≠ .failed e
  cookie : ∀ judged, verdict = .done judged → judged.cookie = some (Cookie.issue token new.expiresAt secure)
  admits_iff : ∀ visitor, Admits verdict visitor ↔ visitor.token = token ∧ b.mishap .findSession = none ∧
    (new.row (b.store.sessions.lastId + 1)).read = .ok visitor.session ∧ clocks 5 < new.expiresAt.floor
  refuses : ∀ cookie response, verdict = .done ⟨cookie, .error response⟩ → response.status = 401

theorem findSession_added {s : Store} {new : NewSession} (keyed : SessionsKeyed b.store.sessions)
    (unknown : ∀ row ∈ b.store.sessions.rows, row.tokenHash ≠ new.tokenHash)
    (added : s.sessions = (b.store.sessions.insert new.row).2) (session : Session) :
    s.findSession new.tokenHash = .ok (some session) ↔ (new.row (b.store.sessions.lastId + 1)).read = .ok session := by
  have rekeyed : SessionsKeyed s.sessions := added ▸ keyed.insert unknown
  rw [rekeyed.findSession_iff, added]
  simp only [Table.insert, List.mem_append, List.mem_singleton]
  constructor
  · intro found
    obtain ⟨row, old | rfl, token, read⟩ := found
    · exact absurd token (unknown row old)
    · exact read
  · intro read
    exact ⟨_, .inr rfl, rfl, read⟩

theorem run_judge_new (keyed : SessionsKeyed b.store.sessions) (sent : Cookie.token? cookies = none)
    (judged : run (ticking clocks) (0, b) (judge rules secure cookies) = (verdict, entered)) :
    (∃ entropy new, Welcomes rules secure clocks b (.ofEntropy entropy) new verdict entered) ∨
      ((∀ found, verdict ≠ .done found) ∧ entered.2.store.sessions = b.store.sessions) := by
  simp only [judge, sent] at judged
  rcases Procedure.run_bind_cases judged with ⟨issued, u, issuing, looked⟩ | ⟨_, issuing, without, refused⟩
  · rcases Service.Sessions.run_issue issuing with ⟨entropy, new, same, issues⟩ | ⟨without, _⟩
    · cases same
      rw [Procedure.run_map] at looked
      generalize looking : run (ticking clocks) u (look secure (.ofEntropy entropy)) = part at looked
      obtain ⟨sight, v⟩ := part
      cases looked
      obtain ⟨sights, same⟩ := run_look issues.given looking
      refine .inl ⟨entropy, new, ?_⟩
      exact {
        hashed := issues.hashed
        created := issues.created
        expires := issues.expires
        unknown := issues.unknown
        added := (congrArg Store.sessions same).trans issues.added
        unfailing := by
          intro e failed
          cases sight with
          | failed other => exact sights.unfailing other rfl
          | _ => cases failed
        cookie := by
          intro judged done
          cases sight <;> cases done
          rfl
        admits_iff := by
          intro visitor
          rw [admits_map, sights.admits_iff, issues.mishap, issues.asked, ← issues.hashed,
            findSession_added keyed issues.unknown issues.added, NewSession.read_row]
          refine and_congr_right fun _ => and_congr_right fun _ => and_congr_right fun read => ?_
          rw [Session.IsLiveAt, ← Except.ok.inj read]
        refuses := sights.refuses_map }
    · exact absurd rfl (without issued)
  · rcases Service.Sessions.run_issue issuing with ⟨_, _, same, _⟩ | ⟨_, same⟩
    · exact absurd same (without _)
    · exact .inr ⟨refused, same⟩

theorem refusal_status (e : Error) : (Refusal.ofError e).response.status ≠ 204 := by
  change (Refusal.ofError e).status ≠ 204
  unfold Refusal.ofError
  split <;> simp [Refusal.badRequest, Refusal.unauthorized, Refusal.internal]

theorem close_status (judged : Judged) (response : Response) : (judged.close response).status = response.status := by
  unfold Judged.close
  split <;> rfl

theorem run_renameHandler {visitor : Visitor} (keyed : SessionsKeyed s.2.store.sessions) (r : Request)
    (ran : run (ticking clocks) s (handle settings .sessionName r visitor) = (outcome, t)) :
    (outcome = .done (.bare 204) ∧ ∃ name, Handlers.nickname r = .ok name ∧ t.2.store = s.2.store.rename visitor.token.hash name) ∨
      ((∀ response, outcome = .done response → response.status ≠ 204) ∧ t.2.store = s.2.store) := by
  unfold handle at ran
  split at ran
  · cases ran
    exact .inr ⟨fun response done => by cases done; decide, rfl⟩
  · dsimp only [Handlers.rename] at ran
    split at ran
    · cases ran
      exact .inr ⟨nofun, rfl⟩
    · rename_i name read
      rcases Procedure.run_bind_cases ran with ⟨_, u, called, ran⟩ | ⟨_, called, without, refused⟩
      · cases ran
        rcases Service.Sessions.run_rename keyed called with ⟨_, renamed⟩ | ⟨without, _⟩
        · exact .inl ⟨rfl, name, read, renamed⟩
        · exact absurd rfl (without _)
      · rcases Service.Sessions.run_rename keyed called with ⟨done, _⟩ | ⟨_, same⟩
        · exact absurd done (without ())
        · exact .inr ⟨fun response done => absurd done (refused response), same⟩

-- A handler at work for a visitor. The token that the visitor holds is that of the session that the
-- gate found, so a rename, if it goes through, renames that session. No other route writes to sessions.
structure Serves (r : Request) (route : Route) (visitor : Visitor) (before after : Store) (outcome : Outcome Response) : Prop where
  hashed : visitor.token.hash = visitor.session.tokenHash
  current : ∃ row ∈ before.sessions.rows, row.tokenHash = visitor.session.tokenHash ∧ row.read = .ok visitor.session
  renames : route = .sessionName →
    ((∃ response, outcome = .done response ∧ response.status = 204) ∧
      ∃ name, Handlers.nickname r = .ok name ∧ after = before.rename visitor.session.tokenHash name) ∨
    ((∀ response, outcome = .done response → response.status ≠ 204) ∧ after = before)
  spares : route ≠ .sessionName → after.sessions = before.sessions

theorem serves_admitted {visitor : Visitor} (keyed : SessionsKeyed s.2.store.sessions)
    (current : ∃ row ∈ s.2.store.sessions.rows, row.tokenHash = visitor.token.hash ∧ row.read = .ok visitor.session)
    (ran : run (ticking clocks) s (served (handle settings route r) (.done ⟨cookie, .ok visitor⟩)) = (outcome, t)) :
    Serves r route visitor s.2.store t.2.store outcome := by
  obtain ⟨row, member, token, read⟩ := current
  have hashed : visitor.token.hash = visitor.session.tokenHash := token.symm.trans (SessionRow.read_ok read).2.1.symm
  dsimp only [served, letIn] at ran
  rw [Procedure.run_map] at ran
  dsimp only [enter] at ran
  rw [run_answering] at ran
  generalize handling : run (ticking clocks) s (handle settings route r visitor) = part at ran
  obtain ⟨handled, u⟩ := part
  cases ran
  refine ⟨hashed, ⟨row, member, token.trans hashed, read⟩, ?_, ?_⟩
  · intro named
    subst named
    rcases run_renameHandler keyed r handling with ⟨rfl, name, nickname, renamed⟩ | ⟨otherwise, same⟩
    · exact .inl ⟨⟨_, rfl, close_status _ _⟩, name, nickname, hashed ▸ renamed⟩
    · refine .inr ⟨fun response done => ?_, same⟩
      cases handled with
      | done value =>
        cases done
        rw [close_status]
        exact otherwise value rfl
      | failed e =>
        cases done
        rw [close_status]
        exact refusal_status e
      | crashed => cases done
  · intro other
    exact Backend.run_sessions (asks_handle settings r visitor other) handling

theorem Serves.ids {visitor : Visitor} (serves : Serves r route visitor before after outcome) :
    after.sessions.rows.map (·.id) = before.sessions.rows.map (·.id) := by
  by_cases named : route = .sessionName
  · rcases serves.renames named with ⟨_, name, _, rfl⟩ | ⟨_, rfl⟩
    · exact Store.rename_ids _ _ name
    · rfl
  · rw [serves.spares named]

theorem close_setCookies (route : Route) (r : Request) (response : Response) :
    (Server.close route r response).setCookies = response.setCookies := by
  unfold Server.close
  dsimp only
  split <;> split <;> rfl

theorem sets_cookie {answer : Procedure.Answering ports σ} {s t : σ} (go : Visitor → Operation Response) {judged : Judged}
    (set : judged.cookie = some cookie) (ran : run answer s (served go (.done judged)) = (.done response, t)) :
    cookie ∈ response.setCookies := by
  dsimp only [served, letIn] at ran
  rw [Procedure.run_map] at ran
  generalize run answer s (enter go judged.visitor) = part at ran
  obtain ⟨outcome, u⟩ := part
  cases outcome with
  | done before =>
    cases ran
    simp [Judged.close, set, Response.addCookie]
  | failed e => cases ran
  | crashed => cases ran

theorem answered_issued {later : Nat × Backend} {job : Server.Job} (keyed : SessionsKeyed b.store.sessions)
    (sent : Cookie.token? cookies = none)
    (judged : run (ticking clocks) (0, b) (judge rules secure cookies) = (verdict, entered))
    (ran : run (ticking clocks) entered (served go verdict) = (outcome, later)) :
    (∃ entropy new, Welcomes rules secure clocks b (.ofEntropy entropy) new verdict entered ∧
      ∀ response, job.response? r (some outcome) = some response →
        Cookie.issue (.ofEntropy entropy) new.expiresAt secure ∈ response.setCookies) ∨
    (later.2.store.sessions = b.store.sessions ∧
      ((∃ e, outcome = .done (Refusal.ofError e).response) ∨ outcome = .crashed)) := by
  rcases run_judge_new keyed sent judged with ⟨entropy, new, welcomes⟩ | ⟨without, same⟩
  · refine .inl ⟨entropy, new, welcomes, fun response answered => ?_⟩
    cases outcome with
    | failed e => cases answered
    | crashed => cases answered
    | done before =>
      cases answered
      rw [close_setCookies]
      cases verdict with
      | done found => exact sets_cookie _ (welcomes.cookie found rfl) ran
      | failed e => exact absurd rfl (welcomes.unfailing e)
      | crashed => cases ran
  · right
    cases verdict with
    | done found => exact absurd rfl (without found)
    | failed e =>
      cases ran
      exact ⟨same, .inl ⟨e, rfl⟩⟩
    | crashed =>
      cases ran
      exact ⟨same, .inr rfl⟩

def ann : Session := ⟨1, Token.hash ⟨"abc"⟩, ⟨1, "ann", ""⟩, .epoch, ⟨1000000000, by decide⟩⟩

def visited : Backend :=
  { Service.Comments.onePost with store := { sessions := ⟨[⟨1, ann.tokenHash, ann.identity, 0, 1000⟩], 1⟩ } }

def returning : Request where
  method := "GET"
  target := .ofText "/api/session"
  headers := [("cookie", "session_token=abc".toUTF8.toList)]
  body := .empty

end Http.Gate
end Forum
