import Forum.Proofs.Cookies
import Forum.Proofs.Rejections
import Forum.Proofs.Tokens

namespace Forum
open Backend (ticking)
open Procedure (Asks run runUntil)
open Service (Operation Question SessionRules hall opened)

-- A store whose sessions have those ids; one of them was stored as it is, and may have been renamed.
structure Store.Retains (ids : List Int) (id : Int) (new : NewSession) (s : Store) : Prop where
  keyed : SessionsKeyed s.sessions
  known : s.sessions.rows.map (·.id) = ids
  keeps : s.Keeps id new

def Service.Question.Steady (q : Question) : Prop :=
  q.Aside ∨ ∃ hash now name, q = .updateSession hash (Sessions.renameEdit now name)

theorem Service.Question.Aside.steady (q : Question) (aside : q.Aside) : q.Steady := .inl aside

namespace Store.Retains
variable {s t : Store} {ids : List Int} {id : Int} {new : NewSession}

theorem same (retains : s.Retains ids id new) (sessions : t.sessions = s.sessions) : t.Retains ids id new where
  keyed := sessions ▸ retains.keyed
  known := sessions ▸ retains.known
  keeps := by
    unfold Keeps
    rw [sessions]
    exact retains.keeps

theorem rename (retains : s.Retains ids id new) (hash : TokenHash) (name : String) :
    (s.rename hash name).Retains ids id new where
  keyed := retains.keyed.renamed hash name
  known := (s.rename_ids hash name).trans retains.known
  keeps := retains.keeps.later ⟨.map fun row _ => row.becomes_rename hash name, .refl .refl _, .refl Eq.refl _⟩

end Store.Retains

namespace Backend
variable {clocks : Nat → Instant} {s t : Nat × Backend} {ids : List Int} {id : Int} {new : NewSession} {p : Operation α}

theorem ticking_retains (s : Nat × Backend) (q : Question) (steady : q.Steady) (retains : s.2.store.Retains ids id new) :
    (ticking clocks s q).2.2.store.Retains ids id new := by
  rcases steady with aside | ⟨hash, now, name, rfl⟩
  · exact retains.same (ticking_sessions clocks s aside)
  · rcases ticking_rename clocks s retains.keyed hash now name with ⟨_, renamed⟩ | ⟨_, same⟩
    · rw [renamed]
      exact retains.rename hash name
    · rw [same]
      exact retains

theorem run_retains (asks : p.Asks Question.Steady) (ran : Procedure.run (ticking clocks) s p = (outcome, t))
    (retains : s.2.store.Retains ids id new) : t.2.store.Retains ids id new := by
  have kept : (Procedure.run (ticking clocks) s p).2.2.store.Retains ids id new :=
    asks.run_keeps (K := fun t : Nat × Backend => t.2.store.Retains ids id new) ticking_retains retains
  rwa [ran] at kept

theorem runUntil_retains {isUp : Nat × Backend → Bool} (asks : p.Asks Question.Steady)
    (ended : Procedure.runUntil isUp (ticking clocks) s p = (ending, t)) (retains : s.2.store.Retains ids id new) :
    t.2.store.Retains ids id new := by
  have kept : (Procedure.runUntil isUp (ticking clocks) s p).2.2.store.Retains ids id new :=
    asks.runUntil_keeps (K := fun t : Nat × Backend => t.2.store.Retains ids id new) ticking_retains retains
  rwa [ended] at kept

end Backend

namespace Http

theorem steady_rename (rules : SessionRules) (visitor : Gate.Visitor) (r : Request) :
    (Handlers.rename rules visitor r).Asks Question.Steady := by
  unfold Handlers.rename
  split
  · exact .fail _
  · refine Asks.bind ?_ fun _ => .done _
    unfold Service.Sessions.rename
    split
    · exact .fail _
    · refine Asks.bind (Procedure.asks_call (.inl trivial)) fun now => ?_
      exact Asks.during _ (Procedure.asks_call (.inr ⟨_, now, _, rfl⟩))

theorem steady_handle (settings : Settings) (route : Route) (r : Request) (visitor : Gate.Visitor) :
    (handle settings route r visitor).Asks Question.Steady := by
  by_cases naming : route = .sessionName
  · subst naming
    unfold handle
    split
    · exact .done _
    · exact steady_rename _ visitor r
  · exact (asks_handle settings r visitor naming).mono Question.Aside.steady

namespace Gate
variable {settings : Settings} {clocks : Nat → Instant} {b : Backend} {r : Request} {job : Server.Job}
  {token : Token} {later : Nat × Backend} {go : Visitor → Operation Response} {ids : List Int} {id : Int} {new : NewSession}

theorem steady_answering {operation : Operation Response} (asks : operation.Asks Question.Steady) :
    (answering operation).Asks Question.Steady := by
  refine Asks.bind asks.attempt fun caught => ?_
  cases caught with
  | ok response => exact .done _
  | error e => exact .done _

theorem steady_enter (asks : ∀ visitor, (go visitor).Asks Question.Steady) (found : Except Response Visitor) :
    (enter go found).Asks Question.Steady := by
  cases found with
  | ok visitor => exact steady_answering (asks visitor)
  | error response => exact .done _

theorem steady_served (asks : ∀ visitor, (go visitor).Asks Question.Steady) (verdict : Outcome Judged) :
    (served go verdict).Asks Question.Steady := by
  cases verdict with
  | done judged => exact Asks.bind (steady_enter asks judged.visitor) fun _ => .done _
  | failed e => exact .done _
  | crashed => exact .crash

theorem steady_gated (sent : Cookie.token? (r.values "cookie") = some token) (route : Route) :
    (Server.gated settings route r).Asks Question.Steady := by
  unfold Server.gated
  apply steady_answering
  rw [pass_sent sent, requireSession_eq]
  refine Asks.bind ?_ fun found => steady_enter (steady_handle settings route r) found
  refine Asks.bind (Asks.attempt ?_) fun _ => .done _
  exact (Service.asks_find token).mono fun q plain => .inl (Question.Plain.aside q plain)

-- A request behind the gate, which ends in time or is given up. The clock shows `clocks n` at its `n`-th
-- question.
structure Attends (settings : Settings) (clocks : Nat → Instant) (b : Backend) (r : Request) (job : Server.Job)
    (ending : Option (Outcome Response)) (later : Nat × Backend) : Prop where
  routed : Server.job? settings r = some job
  behind : job.route ≠ .health
  ended : ∃ isUp, runUntil isUp (ticking clocks) (0, b) job.operation = (ending, later)

structure Opens (settings : Settings) (clocks : Nat → Instant) (b : Backend) (response? : Option Response)
    (later : Nat × Backend) (token : Token) (new : NewSession) : Prop where
  hashed : new.tokenHash = token.hash
  created : new.createdAt = clocks 2
  expires : (clocks 2).add? (sessionRules settings).ttl = some new.expiresAt
  retains : later.2.store.Retains (b.store.sessions.rows.map (·.id) ++ [b.store.sessions.lastId + 1])
    (b.store.sessions.lastId + 1) new
  cookie : ∀ response, response? = some response →
    Cookie.issue token new.expiresAt settings.secureCookies ∈ response.setCookies

structure Resumes (settings : Settings) (clocks : Nat → Instant) (b : Backend) (r : Request) (route : Route) (visitor : Visitor)
    (verdict : Outcome Judged) (entered : Nat × Backend) (outcome : Outcome Response) (later : Nat × Backend) : Prop where
  judged : run (ticking clocks) (0, b) (judge (sessionRules settings) settings.secureCookies (r.values "cookie")) = (verdict, entered)
  ran : run (ticking clocks) entered (served (handle settings route r) verdict) = (outcome, later)
  untouched : entered.2.store = b.store
  admits_iff : ∀ other, Admits verdict other ↔
    other = visitor ∧ b.mishap .findSession = none ∧ visitor.session.IsLiveAt (clocks 1)
  serves : Admits verdict visitor → Serves r route visitor b.store later.2.store outcome

theorem Attends.ran {outcome : Outcome Response} (attends : Attends settings clocks b r job (some outcome) later)
    (judged : run (ticking clocks) (0, b) (judge (sessionRules settings) settings.secureCookies (r.values "cookie")) =
      (verdict, entered)) :
    run (ticking clocks) entered (served (handle settings job.route r) verdict) = (outcome, later) := by
  obtain ⟨isUp, ended⟩ := attends.ended
  have ran := Procedure.runUntil_some ended
  rwa [gated_operation attends.routed attends.behind, Server.gated, run_gated _ judged] at ran

theorem Welcomes.retains {rules : SessionRules} {secure : Bool} {new : NewSession}
    (welcomes : Welcomes rules secure clocks b token new verdict entered) (keyed : SessionsKeyed b.store.sessions) :
    entered.2.store.Retains (b.store.sessions.rows.map (·.id) ++ [b.store.sessions.lastId + 1])
      (b.store.sessions.lastId + 1) new where
  keyed := welcomes.added ▸ keyed.insert welcomes.unknown
  known := by
    rw [welcomes.added]
    simp [Table.insert, NewSession.row]
  keeps := by
    refine ⟨new.identity.name, ?_⟩
    rw [welcomes.added]
    exact List.mem_append_right _ (List.mem_singleton_self _)

theorem Attends.opens {outcome : Outcome Response} (attends : Attends settings clocks b r job (some outcome) later)
    (keyed : SessionsKeyed b.store.sessions) (sent : Cookie.token? (r.values "cookie") = none) :
    (∃ entropy new, Opens settings clocks b (job.response? r (some outcome)) later (.ofEntropy entropy) new) ∨
      (later.2.store.sessions = b.store.sessions ∧
        ∀ response, job.response? r (some outcome) = some response → response.setCookies = []) := by
  generalize judged : run (ticking clocks) (0, b)
    (judge (sessionRules settings) settings.secureCookies (r.values "cookie")) = part
  obtain ⟨verdict, entered⟩ := part
  have ran := attends.ran judged
  rcases answered_issued keyed sent judged ran with ⟨entropy, new, welcomes, cookie⟩ | ⟨same, refused⟩
  · refine .inl ⟨entropy, new, welcomes.hashed, welcomes.created, welcomes.expires, ?_, cookie⟩
    exact Backend.run_retains (steady_served (steady_handle settings job.route r) verdict) ran (welcomes.retains keyed)
  · refine .inr ⟨same, fun response answered => ?_⟩
    rcases refused with ⟨e, rfl⟩ | rfl
    · cases answered
      rw [close_setCookies]
      rfl
    · cases answered

theorem Attends.retains {ending : Option (Outcome Response)} (attends : Attends settings clocks b r job ending later)
    (sent : Cookie.token? (r.values "cookie") = some token) (retains : b.store.Retains ids id new) :
    later.2.store.Retains ids id new := by
  obtain ⟨isUp, ended⟩ := attends.ended
  rw [gated_operation attends.routed attends.behind] at ended
  exact Backend.runUntil_retains (steady_gated sent job.route) ended retains

theorem Attends.resumes {outcome : Outcome Response} (attends : Attends settings clocks b r job (some outcome) later)
    (sent : Cookie.token? (r.values "cookie") = some token) (hashed : new.tokenHash = token.hash)
    (retains : b.store.Retains ids id new) :
    ∃ session verdict entered, new.Reads id session ∧
      Resumes settings clocks b r job.route ⟨token, session⟩ verdict entered outcome later := by
  generalize judged : run (ticking clocks) (0, b)
    (judge (sessionRules settings) settings.secureCookies (r.values "cookie")) = part
  obtain ⟨verdict, entered⟩ := part
  have ran := attends.ran judged
  have recognises := run_judge_token retains.keyed sent judged
  obtain ⟨session, reads, found⟩ := retains.keeps.findSession retains.keyed
  rw [hashed] at found
  refine ⟨session, verdict, entered, reads, ?_⟩
  exact {
    judged := judged
    ran := ran
    untouched := recognises.untouched
    admits_iff := by
      intro other
      rw [recognises.admits_iff, ← retains.keyed.findSession_iff, found]
      constructor
      · rintro ⟨rfl, calm, same, live⟩
        cases same
        exact ⟨rfl, calm, live⟩
      · rintro ⟨rfl, calm, live⟩
        exact ⟨rfl, calm, rfl, live⟩
    serves := by
      rintro ⟨cookie, rfl⟩
      rw [← recognises.untouched]
      rw [← recognises.untouched] at found
      have keyed : SessionsKeyed entered.2.store.sessions := recognises.untouched ▸ retains.keyed
      exact serves_admitted keyed (keyed.findSession_iff.mp found) ran }

-- The cookie that a first response sets comes back as the token, wherever it stands among others. Whatever
-- goes on in between, the request that brings it has no session issued, and while the session lasts it is
-- served for that session.
theorem cookies_come_back (settings : Settings) :
    (∀ entropy expires secure headers,
      Cookie.Carries (Cookie.pair (Cookie.issue (.ofEntropy entropy) expires secure)) headers →
        Cookie.token? headers = some (.ofEntropy entropy)) ∧
    ∀ {clocks b r job outcome later}, SessionsKeyed b.store.sessions → Attends settings clocks b r job (some outcome) later →
      Cookie.token? (r.values "cookie") = none →
      (∃ entropy new, Opens settings clocks b (job.response? r (some outcome)) later (.ofEntropy entropy) new ∧
        ∀ {moves : List (hall settings.rules).Move} {clocks' r' job' ending later'},
          let d := (Venue.play (opened settings.rules later.2) moves).shared
          Attends settings clocks' d r' job' ending later' →
          Cookie.Carries (Cookie.pair (Cookie.issue (.ofEntropy entropy) new.expiresAt settings.secureCookies))
            (r'.values "cookie") →
          later'.2.store.sessions.rows.map (·.id) = d.store.sessions.rows.map (·.id) ∧
          ∀ outcome', ending = some outcome' →
            ∃ session verdict entered, new.Reads (b.store.sessions.lastId + 1) session ∧
              Resumes settings clocks' d r' job'.route ⟨.ofEntropy entropy, session⟩ verdict entered outcome' later') ∨
      (later.2.store.sessions = b.store.sessions ∧
        ∀ response, job.response? r (some outcome) = some response → response.setCookies = []) := by
  refine ⟨fun entropy _ _ _ => Cookie.token?_issued entropy, ?_⟩
  intro clocks b r job outcome later keyed attends sent
  rcases attends.opens keyed sent with ⟨entropy, new, opens⟩ | none
  · refine .inl ⟨entropy, new, opens, ?_⟩
    intro moves clocks' r' job' ending later' d returns carries
    have comes := Cookie.token?_issued entropy carries
    have continues := Service.continues_play (Service.staged_opened settings.rules later.2) opens.retains.keyed moves
    have retains : d.store.Retains (d.store.sessions.rows.map (·.id)) (b.store.sessions.lastId + 1) new :=
      ⟨continues.keyed, rfl, opens.retains.keeps.later continues.grown⟩
    refine ⟨(returns.retains comes retains).known, ?_⟩
    rintro outcome' rfl
    exact returns.resumes comes opens.hashed retains
  · exact .inr none

def newcomer : Request := { returning with headers := [] }

def regular : Request :=
  { returning with headers := [("cookie", "theme=a=b".toUTF8.toList),
      ("cookie", "; lang;\t session_token=AAAAAAAAAAAAAAAAAAAAAAAAAAAAAAAAAAAAAAAAAAA ; session_token2=x".toUTF8.toList)] }

def blank : Token := .ofEntropy (.replicate _ 0)

def visit (r : Request) : Server.Job := ⟨.session, Server.gated Service.plain .session r, some 15000⟩

def begun : Backend := ((visit newcomer).run Service.bare).2

def meanwhile : List (hall Service.plain.rules).Move := [.start (.rename blank "eve"), .step 0, .step 0]

def resumed : Backend := (Venue.play (opened Service.plain.rules begun) meanwhile).shared

theorem carries_regular : Cookie.Carries (Cookie.named (List.replicate 43 'A')) (regular.values "cookie") := by
  let others : List (List Char) := ["theme=a=b".toList, [], " lang".toList]
  let last : List Char := " session_token2=x".toList
  let mine : List Char := "\t ".toList ++ Cookie.named (List.replicate 43 'A') ++ " ".toList
  have sent : regular.values "cookie" = [["theme=a=b".toList], [[], " lang".toList, mine, last]].map Cookie.header := by
    decide +kernel
  have parts : [["theme=a=b".toList], [[], " lang".toList, mine, last]].flatten = others ++ mine :: [last] := rfl
  have foreign : ∀ part ∈ others ++ [last], Cookie.Foreign part := by
    have plain : ((others ++ [last]).all fun part =>
        Cookie.IsPart part ∧ ((Cookie.read part).all fun e => e.1 ≠ Cookie.name.toList) = true) = true := by
      decide +kernel
    intro part member
    obtain ⟨whole, other⟩ := of_decide_eq_true (List.all_eq_true.mp plain part member)
    refine whole.foreign fun e reads => ?_
    rw [reads] at other
    exact of_decide_eq_true other
  rw [sent]
  refine .among parts foreign ?_ ?_
  · simp [Cookie.IsPadding]
  · simp [Cookie.IsPadding]

-- What comes of both visits, worked out at once: hashing the token again for each of these takes long.
theorem visits_regular :
    ((visit newcomer).run Service.bare).1.isSome ∧ ((visit regular).run resumed).1.isSome ∧
      (((visit newcomer).response? newcomer ((visit newcomer).run Service.bare).1).map
        fun response => response.setCookies.map Cookie.pair) = some [Cookie.named (List.replicate 43 'A')] ∧
      begun.store.sessions.rows.length = 1 ∧ resumed.store.sessions.rows.map (·.id) = [1] ∧
      (resumed.mishap .findSession).isNone ∧
      ((Service.bare.clock.add? (sessionRules Service.plain).ttl).all fun t => resumed.clock < t.floor) := by
  decide +kernel

theorem cookies_come_back_regular :
    ∃ visitor verdict entered,
      run (ticking fun _ => resumed.clock) (0, resumed)
        (judge (sessionRules Service.plain) Service.plain.secureCookies (regular.values "cookie")) = (verdict, entered) ∧
      Admits verdict visitor ∧ visitor.token = blank ∧ visitor.session.id = 1 ∧
      ((visit regular).run resumed).2.store.sessions.rows.map (·.id) = [1] := by
  have keyed : SessionsKeyed Service.bare.store.sessions := ⟨.nil, .nil, by intro row member; cases member⟩
  obtain ⟨m, ended⟩ := Server.Job.run_standing (visit newcomer) Service.bare rfl
  obtain ⟨n, ended'⟩ := Server.Job.run_standing (visit regular) resumed rfl
  obtain ⟨answered, answered', pairs, added, known, calm, lasts⟩ := visits_regular
  obtain ⟨outcome, first⟩ := Option.isSome_iff_exists.mp answered
  obtain ⟨outcome', second⟩ := Option.isSome_iff_exists.mp answered'
  have attends : Attends Service.plain (fun _ => Service.bare.clock) Service.bare newcomer (visit newcomer) (some outcome) (m, begun) :=
    ⟨rfl, nofun, _, first ▸ ended⟩
  have returns : Attends Service.plain (fun _ => resumed.clock) resumed regular (visit regular) (some outcome')
      (n, ((visit regular).run resumed).2) :=
    ⟨rfl, nofun, _, second ▸ ended'⟩
  obtain ⟨reads, comes⟩ := cookies_come_back Service.plain
  have came := comes keyed attends rfl
  dsimp only at came
  rcases came with ⟨entropy, new, opens, again⟩ | ⟨same, _⟩
  · rw [first] at pairs
    obtain ⟨response, given, set⟩ := Option.map_eq_some_iff.mp pairs
    have kept : Cookie.pair (Cookie.issue (.ofEntropy entropy) new.expiresAt Service.plain.secureCookies) =
        Cookie.named (List.replicate 43 'A') :=
      List.mem_singleton.mp (set ▸ List.mem_map_of_mem (opens.cookie response given))
    have carries := carries_regular
    rw [← kept] at carries
    obtain ⟨ids, serves⟩ := @again meanwhile _ _ _ _ _ returns carries
    dsimp only at ids
    unfold resumed at known
    obtain ⟨session, verdict, entered, ⟨name, rfl⟩, resumes⟩ := serves outcome' rfl
    have sent : Cookie.token? (regular.values "cookie") = some blank := by decide +kernel
    rw [opens.expires] at lasts
    refine ⟨_, verdict, entered, resumes.judged, (resumes.admits_iff _).mpr ⟨rfl, ?_, ?_⟩, ?_, rfl, ids.trans known⟩
    · exact Option.isNone_iff_eq_none.mp calm
    · exact of_decide_eq_true lasts
    · exact Option.some.inj ((reads _ _ _ _ carries).symm.trans sent)
  · rw [same] at added
    cases added

end Gate
end Http
end Forum
