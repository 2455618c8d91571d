import Forum.Proofs.Ticking

namespace Forum
open Service (Operation Question SessionRules Issued ports)

namespace Backend

structure Supplies (b after : Backend) : Prop where
  holds : after.calls.holds = b.calls.holds
  draws : after.calls.draws = b.calls.draws
  entropy : after.entropy = b.entropy

namespace Supplies

theorem refl (b : Backend) : Supplies b b := ⟨rfl, rfl, rfl⟩

theorem trans {b c d : Backend} (first : Supplies b c) (second : Supplies c d) : Supplies b d :=
  ⟨second.holds.trans first.holds, second.draws.trans first.draws, second.entropy.trans first.entropy⟩

end Supplies

theorem supplies_housekeeping (b : Backend) (q : Question) (housekeeping : q.Housekeeping) : Supplies b (b.answerNow q).2 := by
  cases q with
  | now => exact .refl b
  | archiveExpired cutoff =>
    obtain ⟨store, same⟩ := b.archiveExpired_noted cutoff
    rw [same]
    exact ⟨rfl, rfl, rfl⟩
  | _ => exact housekeeping.elim

theorem supplies_pass (b : Backend) (millis : Nat) : Supplies b (b.pass millis) := by
  refine pass_sweeps (K := Supplies b) ?_ ?_ millis (.refl b)
  · exact fun c q housekeeping supplies => supplies.trans (supplies_housekeeping c q housekeeping)
  · exact fun _ _ _ supplies => ⟨supplies.holds, supplies.draws, supplies.entropy⟩

theorem ticking_provideIdentity (clocks : Nat → Instant) (s : Nat × Backend) (hold : Span) :
    (ticking clocks s (.provideIdentity hold)).2.2.calls.holds = s.2.calls.holds ++ [hold] ∧
      (ticking clocks s (.provideIdentity hold)).2.2.calls.draws = s.2.calls.draws ∧
      (ticking clocks s (.provideIdentity hold)).2.2.entropy = s.2.entropy := by
  let b : Backend := { s.2 with clock := clocks s.1 }
  let noted : Backend := { b with calls := { b.calls with holds := b.calls.holds ++ [hold] } }
  have provided : (b.provideIdentity hold).2 = noted := by
    rcases meeting_cases (noted.mishap .identity) (.done (noted.provide noted.calls.holds.length), noted) noted with
      ⟨_, met⟩ | ⟨same, _⟩
    · exact congrArg Prod.snd met
    · exact same
  have supplies := supplies_pass (b.provideIdentity hold).2 b.identityDelay
  rw [provided] at supplies
  change (Backend.pass (b.provideIdentity hold).2 b.identityDelay).calls.holds = _ ∧
    (Backend.pass (b.provideIdentity hold).2 b.identityDelay).calls.draws = _ ∧
    (Backend.pass (b.provideIdentity hold).2 b.identityDelay).entropy = _
  rw [provided]
  exact ⟨supplies.holds, supplies.draws, supplies.entropy⟩

theorem ticking_drawEntropy (clocks : Nat → Instant) {s : Nat × Backend} (calm : s.2.mishap .entropy = none) :
    ∃ calls : Calls, calls.holds = s.2.calls.holds ∧
      ticking clocks s .drawEntropy = (.done (s.2.entropy s.2.calls.draws), s.1 + 1, { s.2 with clock := clocks s.1, calls }) := by
  refine ⟨{ s.2.calls with draws := s.2.calls.draws + 1 }, rfl, ?_⟩
  have calm : ∀ calls, Backend.mishap { s.2 with clock := clocks s.1, calls } .entropy = none := fun _ => calm
  simp only [ticking, answer_prompt (show delay _ .drawEntropy = 0 from rfl), answerNow, meeting, calm]

theorem ticking_storeSession_calm (clocks : Nat → Instant) {s : Nat × Backend} (new : NewSession)
    (calm : s.2.mishap .storeSession = none) :
    ticking clocks s (.storeSession new) =
      match s.2.store.addSession new with
      | .ok (id, store) => (.done id, s.1 + 1, { s.2 with clock := clocks s.1, store })
      | .error fault => (.failed (.database fault), s.1 + 1, { s.2 with clock := clocks s.1 }) := by
  have calm : Backend.mishap { s.2 with clock := clocks s.1 } .storeSession = none := calm
  simp only [ticking, answer_prompt (show delay _ (.storeSession new) = 0 from rfl), answerNow, meeting, calm]
  cases s.2.store.addSession new <;> rfl

end Backend

theorem Store.addSession_fresh {s : Store} {new : NewSession} (fresh : ∀ row ∈ s.sessions.rows, row.tokenHash ≠ new.tokenHash) :
    s.addSession new = if new.createdAt.millis < new.expiresAt.millis
      then .ok (s.sessions.lastId + 1, { s with sessions := (s.sessions.insert new.row).2 }) else .error .expiryOrder := by
  have unknown : ¬(s.sessions.rows.any (·.tokenHash = new.tokenHash)) = true := by simpa using fresh
  unfold addSession
  dsimp only
  by_cases ordered : new.createdAt.millis < new.expiresAt.millis
  · rw [if_pos ordered, if_neg (Int.not_le.mpr ordered), if_neg unknown]
    rfl
  · rw [if_neg ordered, if_pos (Int.not_lt.mp ordered)]

namespace Service.Sessions
open Backend (ticking)
open Procedure (run)

def stored (issued : Issued) : Outcome Int → Operation Issued
  | .done _ => .done issued
  | .failed e => .fail (e.during "store session")
  | .crashed => .crash

def stamped (token : Token) (identity : Identity) (now : Instant) : Option Instant → Operation Issued
  | some expiresAt => .ask (.storeSession ⟨token.hash, identity, now, expiresAt⟩) (stored ⟨token, expiresAt⟩)
  | none => .crash

def dated (rules : SessionRules) (token : Token) (identity : Identity) : Outcome Instant → Operation Issued
  | .done now => stamped token identity now (now.add? rules.ttl)
  | .failed e => .fail e
  | .crashed => .crash

def drawn (rules : SessionRules) (identity : Identity) : Outcome Token.Entropy → Operation Issued
  | .done entropy => .ask .now (dated rules (.ofEntropy entropy) identity)
  | .failed e => .fail e
  | .crashed => .crash

def provided (rules : SessionRules) : Outcome Identity → Operation Issued
  | .done identity => .ask .drawEntropy (drawn rules identity)
  | .failed e => .fail (unavailable e)
  | .crashed => .crash

theorem issue_eq (rules : SessionRules) :
    issue rules = if rules.ttl.nanos < 0 then .fail (.invalidInput "session ttl must be positive")
      else .ask (.provideIdentity rules.ttl) (provided rules) := by
  unfold issue provideIdentity
  split
  · rfl
  · change Procedure.ask _ _ = Procedure.ask _ _
    congr 1
    funext reply
    cases reply with
    | done identity =>
      change Procedure.ask _ _ = Procedure.ask _ _
      congr 1
      funext reply
      cases reply with
      | done entropy =>
        change Procedure.ask _ _ = Procedure.ask _ _
        congr 1
        funext reply
        cases reply with
        | done now =>
          change (Procedure.orCrash (Instant.add? now rules.ttl)).bind _ =
            stamped (.ofEntropy entropy) identity now (Instant.add? now rules.ttl)
          cases Instant.add? now rules.ttl with
          | none => rfl
          | some expiresAt =>
            change Procedure.ask _ _ = Procedure.ask _ _
            congr 1
            funext reply
            cases reply <;> rfl
        | failed e => rfl
        | crashed => rfl
      | failed e => rfl
      | crashed => rfl
    | failed e => rfl
    | crashed => rfl

inductive Ends (new : Identity → NewSession) (issued : Issued) (before : Table SessionRow) :
    Outcome Identity → Outcome Issued → Table SessionRow → Prop
  | unavailable {e : Error} {text : String} (same : unavailable e = .identityUnavailable text) :
      Ends new issued before (.failed e) (.failed (.identityUnavailable text)) before
  | crashed : Ends new issued before .crashed .crashed before
  | stored {identity : Identity} (ordered : (new identity).createdAt.millis < (new identity).expiresAt.millis) :
      Ends new issued before (.done identity) (.done issued) (before.insert (new identity).row).2
  | refused {identity : Identity} (unordered : ¬(new identity).createdAt.millis < (new identity).expiresAt.millis) :
      Ends new issued before (.done identity) (.failed (.internal "store session" (.database .expiryOrder))) before

namespace Ends
variable {new : Identity → NewSession} {issued : Issued} {before after : Table SessionRow} {answered : Outcome Identity}
  {outcome : Outcome Issued}

theorem unprovided (ends : Ends new issued before answered outcome after) :
    (∀ e, answered = .failed e → ∃ text, outcome = .failed (.identityUnavailable text)) ∧
      (answered = .crashed → outcome = .crashed) := by
  cases ends with
  | unavailable same => exact ⟨fun _ _ => ⟨_, rfl⟩, nofun⟩
  | crashed => exact ⟨nofun, fun _ => rfl⟩
  | stored ordered => exact ⟨nofun, nofun⟩
  | refused unordered => exact ⟨nofun, nofun⟩

theorem provided (ends : Ends new issued before answered outcome after) {identity : Identity} (same : answered = .done identity) :
    (outcome = .done issued ↔ (new identity).createdAt.millis < (new identity).expiresAt.millis) ∧
      (¬(new identity).createdAt.millis < (new identity).expiresAt.millis →
        outcome = .failed (.internal "store session" (.database .expiryOrder))) := by
  cases ends with
  | unavailable => cases same
  | crashed => cases same
  | stored ordered =>
    cases same
    exact ⟨⟨fun _ => ordered, fun _ => rfl⟩, fun unordered => absurd ordered unordered⟩
  | refused unordered =>
    cases same
    exact ⟨⟨nofun, fun ordered => absurd ordered unordered⟩, fun _ => rfl⟩

theorem added (ends : Ends new issued before answered outcome after) :
    ((∀ other, outcome ≠ .done other) → after = before) ∧ ∀ other, outcome = .done other → other = issued ∧
      ∃ identity, answered = .done identity ∧ after = (before.insert (new identity).row).2 := by
  cases ends with
  | @stored identity ordered =>
    refine ⟨fun failed => absurd rfl (failed issued), ?_⟩
    intro other same
    cases same
    exact ⟨rfl, identity, rfl, rfl⟩
  | _ =>
    refine ⟨fun _ => rfl, ?_⟩
    intro other returned
    cases returned

end Ends

section
variable {rules : SessionRules} {clocks : Nat → Instant} {s t : Nat × Backend} {expires : Instant} {outcome : Outcome Issued}

theorem unavailable_identity (e : Error) : ∃ text, unavailable e = .identityUnavailable text := by
  cases e <;> exact ⟨_, rfl⟩

theorem run_identified (identity : Identity) (entropic : s.2.mishap .entropy = none) (storing : s.2.mishap .storeSession = none)
    (sum : (clocks (s.1 + 1)).add? rules.ttl = some expires)
    (fresh : ∀ row ∈ s.2.store.sessions.rows, row.tokenHash ≠ (Token.ofEntropy (s.2.entropy s.2.calls.draws)).hash)
    (ran : run (ticking clocks) s (provided rules (.done identity)) = (outcome, t)) :
    let token := Token.ofEntropy (s.2.entropy s.2.calls.draws)
    t.2.calls.holds = s.2.calls.holds ∧
      Ends (⟨token.hash, ·, clocks (s.1 + 1), expires⟩) ⟨token, expires⟩ s.2.store.sessions (.done identity) outcome
        t.2.store.sessions := by
  intro token
  obtain ⟨calls, held, drew⟩ := Backend.ticking_drawEntropy clocks entropic
  change run (ticking clocks) (ticking clocks s .drawEntropy).2 (drawn rules identity (ticking clocks s .drawEntropy).1) = _ at ran
  rw [drew] at ran
  let u : Nat × Backend := (s.1 + 1, { s.2 with clock := clocks s.1, calls })
  change run (ticking clocks) (ticking clocks u .now).2 (dated rules token identity (ticking clocks u .now).1) = _ at ran
  rw [Backend.ticking_now] at ran
  let v : Nat × Backend := (u.1 + 1, { u.2 with clock := clocks (s.1 + 1) })
  change run (ticking clocks) v (stamped token identity (clocks (s.1 + 1)) ((clocks (s.1 + 1)).add? rules.ttl)) = _ at ran
  rw [sum] at ran
  let new : NewSession := ⟨token.hash, identity, clocks (s.1 + 1), expires⟩
  change run (ticking clocks) (ticking clocks v (.storeSession new)).2
    (stored ⟨token, expires⟩ (ticking clocks v (.storeSession new)).1) = _ at ran
  have storing : v.2.mishap .storeSession = none := storing
  have fresh : ∀ row ∈ v.2.store.sessions.rows, row.tokenHash ≠ new.tokenHash := fresh
  rw [Backend.ticking_storeSession_calm clocks new storing, Store.addSession_fresh fresh] at ran
  by_cases ordered : new.createdAt.millis < new.expiresAt.millis
  · rw [if_pos ordered] at ran
    cases ran
    exact ⟨held, .stored ordered⟩
  · rw [if_neg ordered] at ran
    cases ran
    exact ⟨held, .refused ordered⟩

theorem run_issue_ends (lasting : ¬rules.ttl.nanos < 0) (entropic : s.2.mishap .entropy = none)
    (storing : s.2.mishap .storeSession = none) (sum : (clocks (s.1 + 2)).add? rules.ttl = some expires)
    (fresh : ∀ row ∈ s.2.store.sessions.rows, row.tokenHash ≠ (Token.ofEntropy (s.2.entropy s.2.calls.draws)).hash)
    (ran : run (ticking clocks) s (issue rules) = (outcome, t)) :
    let token := Token.ofEntropy (s.2.entropy s.2.calls.draws)
    t.2.calls.holds = s.2.calls.holds ++ [rules.ttl] ∧
      Ends (⟨token.hash, ·, clocks (s.1 + 2), expires⟩) ⟨token, expires⟩ s.2.store.sessions
        (ticking clocks s (.provideIdentity rules.ttl)).1 outcome t.2.store.sessions := by
  intro token
  rw [issue_eq, if_neg lasting] at ran
  change run (ticking clocks) (ticking clocks s (.provideIdentity rules.ttl)).2
    (provided rules (ticking clocks s (.provideIdentity rules.ttl)).1) = _ at ran
  obtain ⟨held, draws, entropy⟩ := Backend.ticking_provideIdentity clocks s rules.ttl
  obtain ⟨asked, mishap, sessions⟩ := ticking_passes clocks s (q := .provideIdentity rules.ttl) trivial
  generalize (ticking clocks s (.provideIdentity rules.ttl)).2 = u at ran held draws entropy asked mishap sessions
  have counted : u.1 + 1 = s.1 + 2 := by omega
  rw [← held, ← sessions]
  generalize (ticking clocks s (.provideIdentity rules.ttl)).1 = answered at ran ⊢
  cases answered with
  | failed e =>
    cases ran
    obtain ⟨text, same⟩ := unavailable_identity e
    refine ⟨rfl, ?_⟩
    rw [same]
    exact .unavailable same
  | crashed =>
    cases ran
    exact ⟨rfl, .crashed⟩
  | done identity =>
    have ends := run_identified identity (by rw [mishap]; exact entropic) (by rw [mishap]; exact storing)
      (by rw [counted]; exact sum) (by rw [sessions, entropy, draws]; exact fresh) ran
    rwa [entropy, draws, counted] at ends

-- How issuing a session ends, for every lifetime of sessions, every clock and every answer of the identity
-- provider, if entropy can be drawn and the database refuses only what its schema forbids.
theorem issue_for_every_ttl (entropic : s.2.mishap .entropy = none) (storing : s.2.mishap .storeSession = none)
    (sum : (clocks (s.1 + 2)).add? rules.ttl = some expires)
    (fresh : ∀ row ∈ s.2.store.sessions.rows, row.tokenHash ≠ (Token.ofEntropy (s.2.entropy s.2.calls.draws)).hash)
    (ran : run (ticking clocks) s (issue rules) = (outcome, t)) :
    let token := Token.ofEntropy (s.2.entropy s.2.calls.draws)
    let answered := (ticking clocks s (.provideIdentity rules.ttl)).1
    (rules.ttl.nanos < 0 → outcome = .failed (.invalidInput "session ttl must be positive") ∧ t = s) ∧
    (0 ≤ rules.ttl.nanos →
      t.2.calls.holds = s.2.calls.holds ++ [rules.ttl] ∧
      (∀ e, answered = .failed e → ∃ text, outcome = .failed (.identityUnavailable text)) ∧
      (answered = .crashed → outcome = .crashed) ∧
      ∀ identity, answered = .done identity →
        (outcome = .done ⟨token, expires⟩ ↔ (clocks (s.1 + 2)).millis < expires.millis) ∧
        (¬(clocks (s.1 + 2)).millis < expires.millis → outcome = .failed (.internal "store session" (.database .expiryOrder)))) ∧
    ((∀ issued, outcome ≠ .done issued) → t.2.store.sessions = s.2.store.sessions) ∧
    (∀ issued, outcome = .done issued → issued = ⟨token, expires⟩ ∧ ∃ identity, answered = .done identity ∧
      t.2.store.sessions.rows = s.2.store.sessions.rows ++
        [⟨s.2.store.sessions.lastId + 1, token.hash, identity, (clocks (s.1 + 2)).millis, expires.millis⟩]) := by
  intro token answered
  by_cases negative : rules.ttl.nanos < 0
  · rw [issue_eq, if_pos negative] at ran
    cases ran
    refine ⟨fun _ => ⟨rfl, rfl⟩, fun lasting => absurd negative (Int.not_lt.mpr lasting), fun _ => rfl, ?_⟩
    intro issued returned
    cases returned
  · obtain ⟨held, ends⟩ := run_issue_ends negative entropic storing sum fresh ran
    obtain ⟨kept, added⟩ := ends.added
    obtain ⟨unavailable, crashed⟩ := ends.unprovided
    refine ⟨fun lapsed => absurd lapsed negative, fun _ => ⟨held, unavailable, crashed, fun _ given => ends.provided given⟩, kept, ?_⟩
    intro issued returned
    obtain ⟨same, identity, given, inserted⟩ := added issued returned
    rw [inserted]
    exact ⟨same, identity, given, rfl⟩

end

-- One nanosecond is long enough for a session that begins at the end of a millisecond.
theorem issue_for_every_ttl_nanosecond :
    let clocks : Nat → Instant := fun _ => ⟨999999, by decide⟩
    let token := Token.ofEntropy (.replicate _ 0)
    ∃ t, run (ticking clocks) (0, Comments.onePost) (issue { ttl := ⟨1⟩ }) = (.done ⟨token, ⟨1000000, by decide⟩⟩, t) ∧
      t.2.calls.holds = [⟨1⟩] ∧ t.2.store.sessions.rows = [⟨1, token.hash, ⟨1, "", ""⟩, 0, 1⟩] := by
  intro clocks token
  have sum : (clocks (0 + 2)).add? ⟨1⟩ = some ⟨1000000, by decide⟩ := rfl
  obtain ⟨outcome, t, ran⟩ : ∃ outcome t, run (ticking clocks) (0, Comments.onePost) (issue { ttl := ⟨1⟩ }) = (outcome, t) :=
    ⟨_, _, rfl⟩
  obtain ⟨_, lasting, _, added⟩ := issue_for_every_ttl rfl rfl sum (by simp [Comments.onePost]) ran
  obtain ⟨held, _, _, given⟩ := lasting (by decide)
  have returned := (given ⟨1, "", ""⟩ rfl).1.mpr (by decide)
  obtain ⟨_, identity, same, rows⟩ := added _ returned
  cases same
  exact ⟨t, ran.trans (Prod.ext returned rfl), held, rows⟩

end Service.Sessions
end Forum
