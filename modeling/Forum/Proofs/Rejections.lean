import Forum.Proofs.Admission

namespace Forum
open Backend (ticking)
open Procedure (run runUntil)
open Service (Operation Question)
variable {clocks : Nat → Instant} {b : Backend} {token : Token}

theorem Backend.ticking_findSession_failed {s : Nat × Backend} {hash : TokenHash} {e : Error}
    (failed : (ticking clocks s (.findSession hash)).1 = .failed e) :
    s.2.mishap .findSession = some (.error e) ∨
      s.2.mishap .findSession = none ∧ ∃ fault, e = .database fault ∧ s.2.store.findSession hash = .error fault := by
  simp only [ticking, answer_prompt (show delay _ (.findSession hash) = 0 from rfl), answerNow] at failed
  change (meeting (s.2.mishap .findSession) (reading _ (s.2.store.findSession hash)) _).1 = _ at failed
  generalize s.2.mishap .findSession = mishap at failed ⊢
  rcases mishap with _ | e | text
  · generalize s.2.store.findSession hash = found at failed ⊢
    cases found with
    | ok session => cases failed
    | error fault =>
      cases failed
      exact .inr ⟨rfl, fault, rfl, rfl⟩
  · cases failed
    exact .inl rfl
  · cases failed

-- Only a script has a lookup report an expiry: a table that is gone and a row that cannot be read are faults of the
-- database.
theorem Backend.unscripted_unexpired (unscripted : b.script .findSession = none) :
    b.mishap .findSession ≠ some (.error .expired) ∧
      ∀ clocks n hash, (ticking clocks (n, b) (.findSession hash)).1 ≠ .failed .expired := by
  have mishap : b.mishap .findSession ≠ some (.error .expired) := by
    intro reported
    unfold Backend.mishap Script.orElse at reported
    rw [unscripted, Option.none_or] at reported
    obtain ⟨_, _, fault⟩ := Option.map_eq_some_iff.mp reported
    cases fault
  refine ⟨mishap, ?_⟩
  intro clocks n hash failed
  rcases Backend.ticking_findSession_failed failed with reported | ⟨_, _, fault, _⟩
  · exact mishap reported
  · cases fault

namespace Service.Sessions

theorem run_find_failed {s t : Nat × Backend} {e : Error} (given : token.isEmpty = false)
    (ran : run (ticking clocks) s (find token) = (.failed e, t)) :
    e = .expired ↔ s.2.mishap .findSession = some (.error .expired) ∨ s.2.mishap .findSession = none ∧
      ∃ session, s.2.store.findSession token.hash = .ok (some session) ∧ session.expiresAt ≤ clocks (s.1 + 1) := by
  obtain ⟨later, done_iff⟩ := Backend.ticking_findSession clocks s token.hash
  have asked : run (ticking clocks) s ((Service.ask (.findSession token.hash)).during "get session") =
      ((ticking clocks s (.findSession token.hash)).1.during "get session", (ticking clocks s (.findSession token.hash)).2) := by
    rw [Procedure.run_during, Backend.run_ask]
  unfold find at ran
  rw [if_neg (by simp [given])] at ran
  change run _ s (Procedure.bind _ _) = _ at ran
  rw [Procedure.run_bind, asked, later] at ran
  generalize replied : (ticking clocks s (.findSession token.hash)).1 = reply at ran
  cases reply with
  | done found =>
    obtain ⟨calm, known⟩ := (done_iff found).mp replied
    cases found with
    | none =>
      cases ran
      simp [calm, known]
    | some session =>
      have read := (Backend.run_now clocks _ _).symm.trans ran
      split at read
      · cases read
      · rename_i ended
        cases read
        have past : session.expiresAt ≤ clocks (s.1 + 1) := Int.not_lt.mp ended
        simp [calm, known, past]
  | failed fault =>
    cases ran
    rcases Backend.ticking_findSession_failed replied with met | ⟨calm, fault, rfl, unreadable⟩
    · rw [met]
      cases fault <;> simp [Error.during]
    · simp [Error.during, calm, unreadable]
  | crashed => cases ran

end Service.Sessions

namespace Http
variable {settings settings' : Settings} {clocks clocks' : Nat → Instant} {b b' : Backend} {r r' : Request} {job job' : Server.Job}
  {token token' : Token} {outcome outcome' : Outcome Response} {later later' : Nat × Backend}

namespace Gate

-- A request whose token the gate rejects, for whatever reason. It is done in time, and the clock shows
-- `clocks n` at its `n`-th question. Of the port of the lookup it is known only that it does not report
-- an expiry of its own: that is for the service to find out.
structure Rejects (settings : Settings) (clocks : Nat → Instant) (b : Backend) (r : Request) (job : Server.Job) (token : Token)
    (outcome : Outcome Response) (later : Nat × Backend) : Prop where
  routed : Server.job? settings r = some job
  behind : job.route ≠ .health
  sent : Cookie.token? (r.values "cookie") = some token
  storage : b.mishap .findSession ≠ some (.error .expired)
  rejected : ∃ e t, run (ticking clocks) (0, b) (Service.Sessions.find token) = (.failed e, t)
  ended : ∃ isUp, runUntil isUp (ticking clocks) (0, b) job.operation = (some outcome, later)

def Lapsed (clocks : Nat → Instant) (b : Backend) (token : Token) : Prop :=
  b.mishap .findSession = none ∧ ∃ row session, b.store.sessions.rows.find? (·.tokenHash = token.hash) = some row ∧
    row.read = .ok session ∧ session.expiresAt ≤ clocks 1

def turnedAway (cookies : List String) : Response := { Refusal.unauthorized.response with setCookies := cookies }

structure Clears (settings : Settings) (clocks : Nat → Instant) (b : Backend) (token : Token) (cookies : List String) : Prop where
  one_iff : cookies = [Cookie.clear settings.secureCookies] ↔ Lapsed clocks b token
  none_iff : cookies = [] ↔ ¬Lapsed clocks b token

theorem gated_operation (routed : Server.job? settings r = some job) (behind : job.route ≠ .health) :
    job.operation = Server.gated settings job.route r := by
  obtain ⟨route, _, rfl⟩ := Option.map_eq_some_iff.mp routed
  cases route with
  | health => exact absurd rfl behind
  | _ => rfl

theorem answer_job (routed : Server.job? settings r = some job) : (Server.answer settings b r).1 = job.response? r (job.run b).1 := by
  unfold Server.answer
  rw [routed]
  rfl

theorem seen_failed (secure : Bool) (token : Token) (e : Error) :
    seen secure token (.error e) = .error (turnedAway (if e = .expired then [Cookie.clear secure] else [])) := by
  cases e <;> rfl

theorem lapsed_iff {s : Nat × Backend} {e : Error} (storage : b.mishap .findSession ≠ some (.error .expired))
    (given : token.isEmpty = false) (failed : run (ticking clocks) (0, b) (Service.Sessions.find token) = (.failed e, s)) :
    e = .expired ↔ Lapsed clocks b token := by
  rw [Service.Sessions.run_find_failed given failed]
  constructor
  · rintro (reported | ⟨calm, session, found, past⟩)
    · exact absurd reported storage
    · rcases Store.findSession_ok found with ⟨none, _⟩ | ⟨row, _, same, first, read⟩
      · cases none
      · cases same
        exact ⟨calm, row, session, first, read, past⟩
  · rintro ⟨calm, row, session, first, read, past⟩
    exact .inr ⟨calm, session, Store.findSession_row first read, past⟩

theorem Rejects.answered (rejects : Rejects settings clocks b r job token outcome later) :
    ∃ cookies, outcome = .done (turnedAway cookies) ∧ later.2.store = b.store ∧ Clears settings clocks b token cookies := by
  obtain ⟨e, t, failed⟩ := rejects.rejected
  obtain ⟨isUp, ended⟩ := rejects.ended
  have given := Cookie.isEmpty_token? rejects.sent
  have looked : run (ticking clocks) (0, b) (look settings.secureCookies token) =
      (.done (seen settings.secureCookies token (.error e)), t) := by
    unfold look
    rw [Procedure.run_map, Procedure.run_attempt, failed]
    rfl
  have judged : run (ticking clocks) (0, b) (judge (sessionRules settings) settings.secureCookies (r.values "cookie")) =
      (.done ⟨none, seen settings.secureCookies token (.error e)⟩, t) := by
    simp only [judge, rejects.sent]
    rw [Procedure.run_map, looked]
    rfl
  have ran := Procedure.runUntil_some ended
  rw [gated_operation rejects.routed rejects.behind, Server.gated, run_gated _ judged, seen_failed] at ran
  cases ran
  refine ⟨_, rfl, (Service.Sessions.run_find given failed).1, ?_⟩
  have lapsed := lapsed_iff rejects.storage given failed
  have differ : [Cookie.clear settings.secureCookies] ≠ [] := List.cons_ne_nil _ _
  by_cases expired : e = .expired
  · rw [if_pos expired]
    exact ⟨⟨fun _ => lapsed.mp expired, fun _ => rfl⟩, ⟨fun none => absurd none differ, fun without => absurd (lapsed.mp expired) without⟩⟩
  · rw [if_neg expired]
    have without : ¬Lapsed clocks b token := fun past => expired (lapsed.mpr past)
    exact ⟨⟨fun one => absurd one.symm differ, fun past => absurd past without⟩, ⟨fun _ => without, fun _ => rfl⟩⟩

theorem close_turnedAway (route : Route) (r : Request) (cookies : List String) :
    (Server.close route r (turnedAway cookies)).status = 401 ∧ (Server.close route r (turnedAway cookies)).setCookies = cookies ∧
      (Server.close route r (turnedAway cookies)).body =
        if r.method = "HEAD" then .empty else Refusal.unauthorized.response.body := by
  unfold Server.close
  dsimp only
  split <;> split <;> exact ⟨rfl, rfl, rfl⟩

-- Nobody can tell from a rejection what it was for, except that the cookie of a session that has lapsed
-- is cleared. A request by HEAD is answered without any body.
theorem rejections_alike (first : Rejects settings clocks b r job token outcome later)
    (second : Rejects settings' clocks' b' r' job' token' outcome' later') :
    ∃ response response' sent sent' : Response,
      outcome = .done response ∧ job.response? r (some outcome) = some sent ∧
      outcome' = .done response' ∧ job'.response? r' (some outcome') = some sent' ∧
      response.status = response'.status ∧ response.body = response'.body ∧
      sent.status = sent'.status ∧ ((r.method = "HEAD" ↔ r'.method = "HEAD") → sent.body = sent'.body) ∧
      later.2.store = b.store ∧ later'.2.store = b'.store ∧
      Clears settings clocks b token sent.setCookies ∧ Clears settings' clocks' b' token' sent'.setCookies := by
  obtain ⟨cookies, rfl, untouched, clears⟩ := first.answered
  obtain ⟨cookies', rfl, untouched', clears'⟩ := second.answered
  obtain ⟨status, set, body⟩ := close_turnedAway job.route r cookies
  obtain ⟨status', set', body'⟩ := close_turnedAway job'.route r' cookies'
  refine ⟨_, _, _, _, rfl, rfl, rfl, rfl, rfl, rfl, status.trans status'.symm, ?_, untouched, untouched', ?_, ?_⟩
  · intro methods
    simp only [body, body', methods]
  · rw [set]
    exact clears
  · rw [set']
    exact clears'

def lapsing : Backend := { visited with clock := ⟨2000000000, by decide⟩ }

def stranger : Request := { returning with headers := [("cookie", "session_token=forged".toUTF8.toList)] }

theorem rejects_lapsing {r : Request} (token : Token)
    (routed : Server.job? {} r = some ⟨.session, Server.gated {} .session r, some 15000⟩)
    (sent : Cookie.token? (r.values "cookie") = some token)
    (rejected : ∃ e, (run (ticking fun _ => lapsing.clock) (0, lapsing) (Service.Sessions.find token)).1 = .failed e)
    (done : (Server.Job.run ⟨.session, Server.gated {} .session r, some 15000⟩ lapsing).1 = some outcome) :
    ∃ later, Rejects {} (fun _ => lapsing.clock) lapsing r ⟨.session, Server.gated {} .session r, some 15000⟩ token outcome
      later := by
  obtain ⟨e, failed⟩ := rejected
  obtain ⟨m, ended⟩ := Server.Job.run_standing ⟨.session, Server.gated {} .session r, some 15000⟩ lapsing rfl
  rw [done] at ended
  have storage : lapsing.mishap .findSession ≠ some (.error .expired) := (Backend.unscripted_unexpired rfl).1
  exact ⟨_, routed, nofun, sent, storage, ⟨e, _, Prod.ext failed rfl⟩, _, ended⟩

theorem rejections_alike_lapsing :
    ∃ sent sent', (Server.answer {} lapsing returning).1 = some sent ∧ (Server.answer {} lapsing stranger).1 = some sent' ∧
      sent.status = sent'.status ∧ sent.body = sent'.body ∧ sent.setCookies = [Cookie.clear true] ∧ sent'.setCookies = [] := by
  have done : ((Server.Job.mk .session (Server.gated {} .session returning) (some 15000)).run lapsing).1.isSome = true := by
    decide +kernel
  have done' : ((Server.Job.mk .session (Server.gated {} .session stranger) (some 15000)).run lapsing).1.isSome = true := by
    decide +kernel
  obtain ⟨outcome, returned⟩ := Option.isSome_iff_exists.mp done
  obtain ⟨outcome', returned'⟩ := Option.isSome_iff_exists.mp done'
  obtain ⟨later, first⟩ := rejects_lapsing ⟨"abc"⟩ rfl (by decide +kernel) ⟨.expired, by decide +kernel⟩ returned
  obtain ⟨later', second⟩ := rejects_lapsing ⟨"forged"⟩ rfl (by decide +kernel) ⟨.notFound "session", by decide +kernel⟩ returned'
  obtain ⟨_, _, sent, sent', _, given, _, given', _, _, status, body, _, _, clears, clears'⟩ := rejections_alike first second
  have lapsed : Lapsed (fun _ => lapsing.clock) lapsing ⟨"abc"⟩ := by
    refine ⟨rfl, _, ann, List.find?_cons_of_pos ?_, rfl, by decide⟩
    exact decide_eq_true rfl
  have unknown : ¬Lapsed (fun _ => lapsing.clock) lapsing ⟨"forged"⟩ := by
    rintro ⟨_, row, _, first, _⟩
    have none : lapsing.store.sessions.rows.find? (·.tokenHash = Token.hash ⟨"forged"⟩) = none := by decide +kernel
    cases none.symm.trans first
  refine ⟨sent, sent', ?_, ?_, status, body Iff.rfl, clears.one_iff.mpr lapsed, clears'.none_iff.mpr unknown⟩
  · rw [answer_job first.routed, returned, given]
  · rw [answer_job second.routed, returned', given']

end Gate

end Http

end Forum
