import Forum.Proofs.Errands
import Forum.Proofs.Sessions

namespace Forum
open Service (Operation Question ports)

namespace Backend
variable {b : Backend} {q : Question} {K : Backend → Prop}

theorem archiveExpired_noted (b : Backend) (cutoff : Instant) : ∃ store,
    (b.answerNow (.archiveExpired cutoff)).2 = { b with store, calls := { b.calls with sweeps := b.calls.sweeps + 1 } } := by
  let noted : Backend := { b with calls := { b.calls with sweeps := b.calls.sweeps + 1 } }
  rcases meeting_cases (b.mishap .archiveExpired) (noted.writing (.ok (b.store.archiveExpired cutoff))) noted with ⟨_, met⟩ | ⟨same, _⟩
  · exact ⟨_, congrArg Prod.snd met⟩
  · exact ⟨_, same⟩

theorem pass_sweeps (kept : ∀ b q, Question.Housekeeping q → K b → K (b.answerNow q).2)
    (apart : ∀ (b : Backend) timer sweeper, K b → K { b with timer, sweeper }) (millis : Nat) (holds : K b) :
    K (b.pass millis) := by
  have swept : ∀ count (b : Backend), K b → K (b.sweepTimes count) := by
    intro count
    induction count with
    | zero => exact fun _ holds => holds
    | succ count ih => exact fun _ holds => ih _ (Service.housekeeping_sweep.run_keeps kept holds)
  unfold pass
  dsimp only
  split
  · exact apart b _ b.sweeper holds
  · exact swept _ _ (apart b _ _ holds)

theorem pass_keeps (kept : ∀ b q, Question.Plain q → K b → K (b.answerNow q).2)
    (apart : ∀ (b : Backend) timer sweeper, K b → K { b with timer, sweeper }) (millis : Nat) (holds : K b) :
    K (b.pass millis) :=
  pass_sweeps (fun b q housekeeping => kept b q (housekeeping.plain q)) apart millis holds

theorem answer_frame (b : Backend) (q : Question) : Frame b (b.answer q).2 := by
  refine pass_keeps (K := Frame b) ?_ ?_ _ (answerNow_frame b q)
  · exact fun c q _ frame => frame.trans (answerNow_frame c q)
  · exact fun _ _ _ frame => ⟨frame.clock, frame.script, frame.gone, frame.sweepFirst⟩

theorem answer_sessions (b : Backend) (aside : q.Aside) : (b.answer q).2.store.sessions = b.store.sessions := by
  have kept : ∀ (c : Backend) (q : Question), q.Aside → (c.answerNow q).2.store.sessions = c.store.sessions := by
    intro c q aside
    exact (answerNow_effect c aside.lawful).sessions aside
  refine pass_keeps (K := fun c => c.store.sessions = b.store.sessions) ?_ ?_ _ (kept b q aside)
  · exact fun c q plain same => (kept c q (plain.aside q)).trans same
  · exact fun _ _ _ same => same

-- Answers questions while time goes by: at question `n` the clock shows `clocks n`.
def ticking (clocks : Nat → Instant) : Procedure.Answering ports (Nat × Backend) := fun s q =>
  let (reply, after) := { s.2 with clock := clocks s.1 }.answer q
  (reply, s.1 + 1, after)

theorem ticking_mishap (clocks : Nat → Instant) (s : Nat × Backend) (q : Question) :
    (ticking clocks s q).2.2.mishap = s.2.mishap :=
  (answer_frame { s.2 with clock := clocks s.1 } q).mishap

theorem ticking_now (clocks : Nat → Instant) (s : Nat × Backend) :
    ticking clocks s .now = (.done (clocks s.1), s.1 + 1, { s.2 with clock := clocks s.1 }) := by
  simp only [ticking, answer_now]

theorem run_now (clocks : Nat → Instant) (s : Nat × Backend) (f : Instant → Operation α) :
    Procedure.run (ticking clocks) s (Service.ask .now >>= f) =
      Procedure.run (ticking clocks) (s.1 + 1, { s.2 with clock := clocks s.1 }) (f (clocks s.1)) := by
  change Procedure.run (ticking clocks) (ticking clocks s .now).2 ((Procedure.ofOutcome (ticking clocks s .now).1).bind f) = _
  rw [ticking_now]
  rfl

theorem ticking_findSession (clocks : Nat → Instant) (s : Nat × Backend) (hash : TokenHash) :
    (ticking clocks s (.findSession hash)).2 = (s.1 + 1, { s.2 with clock := clocks s.1 }) ∧
      ∀ found : Option Session, (ticking clocks s (.findSession hash)).1 = .done found ↔
        s.2.mishap .findSession = none ∧ s.2.store.findSession hash = .ok found := by
  simp only [ticking, answer_prompt (show delay _ (.findSession hash) = 0 from rfl), answerNow]
  rw [show Backend.mishap { s.2 with clock := clocks s.1 } .findSession = s.2.mishap .findSession from rfl]
  rcases s.2.mishap .findSession with _ | e | text
  · refine ⟨rfl, fun found => ?_⟩
    simp only [meeting, reading, true_and]
    cases s.2.store.findSession hash with
    | ok session => exact ⟨fun same => by cases same; rfl, fun same => by cases same; rfl⟩
    | error fault => simp
  · exact ⟨rfl, by simp [meeting]⟩
  · exact ⟨rfl, by simp [meeting]⟩

theorem ticking_sessions (clocks : Nat → Instant) (s : Nat × Backend) (aside : q.Aside) :
    (ticking clocks s q).2.2.store.sessions = s.2.store.sessions :=
  answer_sessions { s.2 with clock := clocks s.1 } aside

theorem run_sessions {clocks : Nat → Instant} {s t : Nat × Backend} {p : Operation α} {outcome : Outcome α}
    (asks : p.Asks Question.Aside) (ran : Procedure.run (ticking clocks) s p = (outcome, t)) :
    t.2.store.sessions = s.2.store.sessions := by
  have kept : (Procedure.run (ticking clocks) s p).2.2.store.sessions = s.2.store.sessions :=
    asks.run_keeps (K := fun t => t.2.store.sessions = s.2.store.sessions)
      (fun u q aside same => (ticking_sessions clocks u aside).trans same) rfl
  rwa [ran] at kept

theorem run_ask (clocks : Nat → Instant) (s : Nat × Backend) (q : Question) :
    Procedure.run (ticking clocks) s (Service.ask q) = ticking clocks s q := by
  unfold Service.ask
  exact Procedure.run_call (ticking clocks) s q

theorem ticking_effect (clocks : Nat → Instant) (s : Nat × Backend) (lawful : q.Lawful) (prompt : ∀ b, delay b q = 0) :
    Effect { s.2 with clock := clocks s.1 } q (ticking clocks s q).1 (ticking clocks s q).2.2.store := by
  simp only [ticking, answer_prompt (prompt _)]
  exact answerNow_effect _ lawful

theorem ticking_storeSession (clocks : Nat → Instant) (s : Nat × Backend) (new : NewSession) :
    (∃ id, (ticking clocks s (.storeSession new)).1 = .done id ∧
        s.2.store.addSession new = .ok (id, (ticking clocks s (.storeSession new)).2.2.store)) ∨
      ((∀ id, (ticking clocks s (.storeSession new)).1 ≠ .done id) ∧
        (ticking clocks s (.storeSession new)).2.2.store = s.2.store) := by
  have effect := ticking_effect clocks s (q := .storeSession new) trivial fun _ => rfl
  generalize (ticking clocks s (.storeSession new)).1 = reply at effect ⊢
  generalize (ticking clocks s (.storeSession new)).2.2.store = store at effect ⊢
  cases effect with
  | read calm => cases calm
  | refused without => exact .inr ⟨without, rfl⟩
  | issued added => exact .inl ⟨_, rfl, added⟩

theorem ticking_rename (clocks : Nat → Instant) (s : Nat × Backend) (keyed : SessionsKeyed s.2.store.sessions)
    (hash : TokenHash) (now : Instant) (name : String) :
    ((ticking clocks s (.updateSession hash (Service.Sessions.renameEdit now name))).1 = .done () ∧
        (ticking clocks s (.updateSession hash (Service.Sessions.renameEdit now name))).2.2.store = s.2.store.rename hash name) ∨
      ((∀ a, (ticking clocks s (.updateSession hash (Service.Sessions.renameEdit now name))).1 ≠ .done a) ∧
        (ticking clocks s (.updateSession hash (Service.Sessions.renameEdit now name))).2.2.store = s.2.store) := by
  have effect := ticking_effect clocks s (q := .updateSession hash (Service.Sessions.renameEdit now name)) ⟨now, name, rfl⟩
    fun _ => rfl
  generalize ticking clocks s (.updateSession hash (Service.Sessions.renameEdit now name)) = answered at effect ⊢
  obtain ⟨reply, t⟩ := answered
  dsimp only at effect ⊢
  generalize t.2.store = store at effect ⊢
  cases effect with
  | read calm => cases calm
  | refused without => exact .inr ⟨without, rfl⟩
  | edited written =>
    obtain ⟨_, _, _, _, _, _, same⟩ := keyed.rename written
    exact .inl ⟨rfl, same⟩

theorem runUntil_counted {counting : Procedure.Answering ports (Nat × Backend)}
    (same : ∀ n b q, K b → counting (n, b) q = ((b.answer q).1, n + 1, (b.answer q).2)) (kept : ∀ b q, K b → K (b.answer q).2)
    (isUp : Backend → Bool) (p : Operation α) (n : Nat) (holds : K b) :
    ∃ m, Procedure.runUntil (fun s => isUp s.2) counting (n, b) p =
      ((Procedure.runUntil isUp answer b p).1, m, (Procedure.runUntil isUp answer b p).2) := by
  induction p generalizing n b with
  | ask q next ih =>
    unfold Procedure.runUntil
    split
    · exact ⟨n, rfl⟩
    · rw [same n b q holds]
      exact ih _ (n + 1) (kept b q holds)
  | _ =>
    unfold Procedure.runUntil
    split <;> exact ⟨n, rfl⟩

theorem runUntil_standing (isUp : Backend → Bool) (p : Operation α) (n : Nat) (b : Backend) :
    ∃ m, Procedure.runUntil (fun s => isUp s.2) (ticking fun _ => b.clock) (n, b) p =
      ((Procedure.runUntil isUp answer b p).1, m, (Procedure.runUntil isUp answer b p).2) := by
  refine runUntil_counted (K := fun c => c.clock = b.clock) ?_ ?_ isUp p n rfl
  · intro n c q same
    rw [ticking, ← same]
  · exact fun c q same => (answer_frame c q).clock.trans same

end Backend

namespace Service.Sessions
open Backend (ticking)
open Procedure (run)
variable {clocks : Nat → Instant} {s t : Nat × Backend} {token : Token}

theorem run_find (given : token.isEmpty = false) (ran : run (ticking clocks) s (find token) = (found, t)) :
    t.2.store = s.2.store ∧ ∀ session, found = .done session ↔ s.2.mishap .findSession = none ∧
      s.2.store.findSession token.hash = .ok (some session) ∧ session.IsLiveAt (clocks (s.1 + 1)) := by
  obtain ⟨later, done_iff⟩ := Backend.ticking_findSession clocks s token.hash
  unfold find at ran
  rw [if_neg (by simp [given])] at ran
  rcases Procedure.run_bind_cases ran with ⟨reply, u, asked, ran⟩ | ⟨stopped, asked, without, refused⟩
  · obtain ⟨rfl, replied_iff⟩ := Procedure.run_call_during asked
    obtain ⟨calm, known⟩ := (done_iff reply).mp ((replied_iff reply).mp rfl)
    rw [later] at ran
    cases reply with
    | none =>
      cases ran
      refine ⟨rfl, fun session => ?_⟩
      simp [known]
    | some session =>
      have read := (Backend.run_now clocks _ _).symm.trans ran
      simp only [known, calm, true_and, Except.ok.injEq, Option.some.injEq]
      split at read
      · rename_i live
        cases read
        refine ⟨rfl, fun other => ⟨fun same => ?_, fun same => ?_⟩⟩
        · cases same
          exact ⟨rfl, live⟩
        · rw [same.1]
      · rename_i ended
        cases read
        refine ⟨rfl, fun other => ⟨nofun, fun same => ?_⟩⟩
        cases same.1
        exact absurd same.2 ended
  · obtain ⟨rfl, replied_iff⟩ := Procedure.run_call_during asked
    rw [later]
    refine ⟨rfl, fun session => ⟨fun done => absurd done (refused session), ?_⟩⟩
    intro seen
    exact absurd ((replied_iff _).mpr ((done_iff _).mpr ⟨seen.1, seen.2.1⟩)) (without _)

structure Passes (count : Nat) (s t : Nat × Backend) : Prop where
  asked : t.1 = s.1 + count
  mishap : t.2.mishap = s.2.mishap
  sessions : t.2.store.sessions = s.2.store.sessions

theorem ticking_passes (clocks : Nat → Instant) (s : Nat × Backend) {q : Question} (aside : q.Aside) :
    Passes 1 s (ticking clocks s q).2 where
  asked := rfl
  mishap := Backend.ticking_mishap clocks s q
  sessions := Backend.ticking_sessions clocks s aside

theorem passes_provideIdentity (hold : Span) (ran : run (ticking clocks) s (provideIdentity hold) = (outcome, t)) :
    Passes 1 s t := by
  have later : (ticking clocks s (.provideIdentity hold)).2 = t := by
    rw [← Backend.run_ask]
    rcases Procedure.run_bind_cases ran with ⟨found, u, tried, ran⟩ | ⟨_, tried, _⟩
    · have same := congrArg Prod.snd ((Procedure.run_attempt _ _ _).symm.trans tried)
      cases found with
      | ok identity => cases ran; exact same
      | error e => cases ran; exact same
    · exact congrArg Prod.snd ((Procedure.run_attempt _ _ _).symm.trans tried)
  exact later ▸ ticking_passes clocks s trivial

structure Issues (rules : SessionRules) (clocks : Nat → Instant) (s t : Nat × Backend) (token : Token) (new : NewSession) : Prop where
  given : token.isEmpty = false
  hashed : new.tokenHash = token.hash
  created : new.createdAt = clocks (s.1 + 2)
  expires : (clocks (s.1 + 2)).add? rules.ttl = some new.expiresAt
  unknown : ∀ row ∈ s.2.store.sessions.rows, row.tokenHash ≠ new.tokenHash
  added : t.2.store.sessions = (s.2.store.sessions.insert new.row).2
  asked : t.1 = s.1 + 4
  mishap : t.2.mishap = s.2.mishap

theorem run_issue (ran : run (ticking clocks) s (issue rules) = (issued, t)) :
    (∃ entropy new, issued = .done ⟨.ofEntropy entropy, new.expiresAt⟩ ∧ Issues rules clocks s t (.ofEntropy entropy) new) ∨
      ((∀ i, issued ≠ .done i) ∧ t.2.store.sessions = s.2.store.sessions) := by
  unfold issue at ran
  split at ran
  · cases ran
    exact .inr ⟨by simp, rfl⟩
  · rcases Procedure.run_bind_cases ran with ⟨identity, u, provided, ran⟩ | ⟨_, provided, _, refused⟩
    · have given := passes_provideIdentity _ provided
      have drawn := ticking_passes clocks u (q := .drawEntropy) trivial
      rcases Procedure.run_bind_cases ran with ⟨entropy, v, drew, ran⟩ | ⟨_, drew, _, refused⟩
      · have dated := (Backend.run_now clocks _ _).symm.trans ran
        rw [Backend.run_ask] at drew
        rw [drew] at drawn
        have third : v.1 = s.1 + 2 := by rw [drawn.asked, given.asked]
        rw [third] at dated
        have before := drawn.sessions.trans given.sessions
        rcases Procedure.run_bind_cases dated with ⟨expiresAt, w, summed, ran⟩ | ⟨_, summed, _, refused⟩
        · obtain ⟨rfl, sum_iff⟩ := Procedure.run_orCrash summed
          rcases Procedure.run_bind_cases ran with ⟨id, x, stored, ran⟩ | ⟨_, stored, without, refused⟩
          · obtain ⟨later, replied_iff⟩ := Procedure.run_call_during stored
            rcases Backend.ticking_storeSession clocks _ _ with ⟨other, replied, added⟩ | ⟨failed, _⟩
            · obtain ⟨_, unknown, _, written⟩ := Store.addSession_ok added
              cases ran
              refine .inl ⟨entropy, ⟨(Token.ofEntropy entropy).hash, identity, clocks (s.1 + 2), expiresAt⟩, rfl, ?_⟩
              rw [← later] at written
              exact {
                given := Token.isEmpty_ofEntropy entropy
                hashed := rfl
                created := rfl
                expires := (sum_iff expiresAt).mp rfl
                unknown := before ▸ unknown
                added := (congrArg Store.sessions written).trans (by rw [before])
                asked := by rw [later]; rfl
                mishap := by rw [later, Backend.ticking_mishap]; exact drawn.mishap.trans given.mishap }
            · exact absurd ((replied_iff id).mp rfl) (failed id)
          · obtain ⟨rfl, replied_iff⟩ := Procedure.run_call_during stored
            rcases Backend.ticking_storeSession clocks _ _ with ⟨other, replied, added⟩ | ⟨_, same⟩
            · exact absurd ((replied_iff other).mpr replied) (without other)
            · exact .inr ⟨refused, (congrArg Store.sessions same).trans before⟩
        · obtain ⟨rfl, _⟩ := Procedure.run_orCrash summed
          exact .inr ⟨refused, before⟩
      · rw [Backend.run_ask] at drew
        rw [drew] at drawn
        exact .inr ⟨refused, drawn.sessions.trans given.sessions⟩
    · exact .inr ⟨refused, (passes_provideIdentity _ provided).sessions⟩

theorem run_rename (keyed : SessionsKeyed s.2.store.sessions)
    (ran : run (ticking clocks) s (rename rules token name) = (outcome, t)) :
    (outcome = .done () ∧ t.2.store = s.2.store.rename token.hash name) ∨
      ((∀ a, outcome ≠ .done a) ∧ t.2.store = s.2.store) := by
  unfold rename at ran
  split at ran
  · cases ran
    exact .inr ⟨by simp, rfl⟩
  · have asked := (Backend.run_now clocks _ _).symm.trans ran
    obtain ⟨rfl, replied_iff⟩ := Procedure.run_call_during asked
    rcases Backend.ticking_rename clocks (s.1 + 1, { s.2 with clock := clocks s.1 }) keyed token.hash _ name with ⟨replied, renamed⟩ | ⟨failed, same⟩
    · exact .inl ⟨(replied_iff ()).mpr replied, renamed⟩
    · exact .inr ⟨fun a done => failed a ((replied_iff a).mp done), same⟩

end Service.Sessions

end Forum
