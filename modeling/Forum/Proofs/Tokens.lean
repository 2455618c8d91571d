import Forum.Proofs.Lifetimes
import Forum.Proofs.Traces

namespace Forum

namespace Instant

theorem lt_floor_iff_lt_iff {t : Instant} : (∀ u, u < t.floor ↔ u < t) ↔ t.floor = t := by
  constructor
  · intro same
    have here : ¬t.floor < t := fun before => Int.lt_irrefl _ ((same t.floor).mpr before)
    exact ext_nanos (Int.le_antisymm t.floor_le (Int.not_lt.mp here))
  · intro same u
    rw [same]

end Instant

def Store.Keeps (s : Store) (id : Int) (new : NewSession) : Prop :=
  ∃ name, NewSession.row { new with identity := { new.identity with name } } id ∈ s.sessions.rows

def NewSession.Reads (new : NewSession) (id : Int) (session : Session) : Prop :=
  ∃ name, session = ⟨id, new.tokenHash, { new.identity with name }, new.createdAt.floor, new.expiresAt.floor⟩

namespace Store.Keeps
variable {s t : Store} {id : Int} {new : NewSession}

theorem later (keeps : s.Keeps id new) (grown : s.Extends t) : t.Keeps id new := by
  obtain ⟨name, member⟩ := keeps
  obtain ⟨k, place⟩ := List.getElem?_of_mem member
  obtain ⟨row, there, became⟩ := grown.sessions k _ place
  refine ⟨row.identity.name, ?_⟩
  have same : row = NewSession.row { new with identity := { new.identity with name := row.identity.name } } id := became
  exact same ▸ List.mem_of_getElem? there

theorem findSession (keeps : s.Keeps id new) (keyed : SessionsKeyed s.sessions) :
    ∃ session, new.Reads id session ∧ s.findSession new.tokenHash = .ok (some session) := by
  obtain ⟨name, member⟩ := keeps
  exact ⟨_, ⟨name, rfl⟩, keyed.findSession_iff.mpr ⟨_, member, rfl, NewSession.read_row _ id⟩⟩

theorem updateSession_late (keeps : s.Keeps id new) (keyed : SessionsKeyed s.sessions) (late : new.expiresAt.floor ≤ now)
    (name : String) : s.updateSession new.tokenHash (Service.Sessions.renameEdit now name) = .error .expired := by
  obtain ⟨session, ⟨_, rfl⟩, found⟩ := keeps.findSession keyed
  have past : ¬now < new.expiresAt.floor := Int.not_lt.mpr late
  simp only [Store.updateSession_found, found, Service.Sessions.renameEdit, Session.IsLiveAt, past, not_false_eq_true, if_true]

end Store.Keeps

namespace Backend
variable {b : Backend} {hash : TokenHash}

theorem answerNow_findSession {found : Option Session} (works : b.mishap .findSession = none)
    (read : b.store.findSession hash = .ok found) : b.answerNow (.findSession hash) = (.done found, b) := by
  simp only [answerNow, works, meeting, reading, read]

theorem answerNow_updateSession (works : b.mishap .updateSession = none) (hash : TokenHash) (edit : Store.SessionEdit) :
    b.answerNow (.updateSession hash edit) = b.writing ((b.store.updateSession hash edit).map ((), ·)) := by
  change meeting (b.mishap .updateSession) _ _ = _
  rw [works]
  rfl

theorem answerNow_updateSession_mishap (fails : b.mishap .updateSession ≠ none) (edit : Store.SessionEdit) :
    (∀ a, (b.answerNow (.updateSession hash edit)).1 ≠ .done a) ∧ (b.answerNow (.updateSession hash edit)).2 = b := by
  rcases meeting_cases (b.mishap .updateSession) (b.writing ((b.store.updateSession hash edit).map ((), ·))) b with
    ⟨works, _⟩ | ⟨left, without⟩
  · exact absurd works fails
  · exact ⟨without, left⟩

theorem answerNow_updateSession_refused {edit : Store.SessionEdit} (refused : b.store.updateSession hash edit = .error e) :
    (b.answerNow (.updateSession hash edit)).2.store = b.store := by
  have effect : (b.writing ((b.store.updateSession hash edit).map ((), ·))).2 = b := by rw [refused]; rfl
  rcases meeting_cases (b.mishap .updateSession) (b.writing ((b.store.updateSession hash edit).map ((), ·))) b with
    ⟨_, through⟩ | ⟨left, _⟩
  · exact congrArg (·.store) ((congrArg Prod.snd through).trans effect)
  · exact congrArg (·.store) left

end Backend

namespace Service
open Board (Entry)
open Venue (Reaches)

namespace Sessions
variable {rules : SessionRules} {token : Token} {name : String} {id : Int} {new : NewSession} {mine : List Entry} {i : Nat}

structure Issuance (rules : SessionRules) (i : Nat) (mine : List Entry) (issued : Issued) (id : Int) (new : NewSession) : Prop where
  given : issued.token.isEmpty = false
  hashed : new.tokenHash = issued.token.hash
  announced : issued.expiresAt = new.expiresAt
  expires : new.createdAt.add? rules.ttl = some new.expiresAt
  provided : ∃ s, ⟨i, .provideIdentity rules.ttl, s⟩ ∈ mine ∧ (s.answerNow (.provideIdentity rules.ttl)).1 = .done new.identity
  read : ∃ s, ⟨i, .now, s⟩ ∈ mine ∧ s.clock = new.createdAt
  stored : ∃ s, ⟨i, .storeSession new, s⟩ ∈ mine ∧ (s.answerNow (.storeSession new)).1 = .done id

theorem provideIdentity_done {identity : Identity} (reaches : Reaches Backend.answerNow i (provideIdentity hold) mine (.done identity)) :
    ∃ s, mine = [⟨i, .provideIdentity hold, s⟩] ∧ (s.answerNow (.provideIdentity hold)).1 = .done identity := by
  obtain ⟨early, late, found, rfl, asked, rest⟩ := reaches.bind_done
  cases found with
  | error e => cases rest
  | ok provided =>
    obtain ⟨s, rfl, replied⟩ := asked.attempt_done.call_done
    cases rest
    exact ⟨s, rfl, replied⟩

theorem issue_done (reaches : Reaches Backend.answerNow i (issue rules) mine (.done issued)) :
    ∃ id new, Issuance rules i mine issued id new := by
  unfold issue at reaches
  split at reaches
  · cases reaches
  · obtain ⟨_, _, identity, rfl, providing, drawing⟩ := reaches.bind_done
    obtain ⟨_, _, entropy, rfl, _, dating⟩ := drawing.bind_done
    obtain ⟨_, _, now, rfl, reading, summing⟩ := dating.bind_done
    obtain ⟨_, _, expiresAt, rfl, adding, storing⟩ := summing.bind_done
    obtain ⟨_, _, id, rfl, storing, ending⟩ := storing.bind_done
    obtain ⟨s, rfl, provided⟩ := provideIdentity_done providing
    obtain ⟨t, rfl, read⟩ := reading.call_done
    obtain ⟨rfl, sum⟩ := adding.orCrash_done
    obtain ⟨u, rfl, stored⟩ := storing.during_done.call_done
    cases ending
    refine ⟨id, ⟨(Token.ofEntropy entropy).hash, identity, now, expiresAt⟩, ?_⟩
    exact {
      given := Token.isEmpty_ofEntropy entropy
      hashed := rfl
      announced := rfl
      expires := sum
      provided := ⟨s, by simp, provided⟩
      read := ⟨t, by simp, by cases read; rfl⟩
      stored := ⟨u, by simp, stored⟩ }

-- Where a lookup of a stored session can stand: it is answered by the instant that it read.
inductive Finding (hash : TokenHash) (id : Int) (new : NewSession) (i : Nat) : List Entry → Operation Session → Prop
  | load : Finding hash id new i [] (.ask (.findSession hash) next)
  | clock : Finding hash id new i [⟨i, .findSession hash, s⟩] (.ask .now next)
  | live (reads : new.Reads id session) (live : u.clock < new.expiresAt.floor) :
      Finding hash id new i [⟨i, .findSession hash, s⟩, ⟨i, .now, u⟩] (.done session)
  | expired (past : new.expiresAt.floor ≤ u.clock) :
      Finding hash id new i [⟨i, .findSession hash, s⟩, ⟨i, .now, u⟩] (.fail .expired)

theorem finding_reached (given : token.isEmpty = false)
    (finds : ∀ s, ⟨i, .findSession token.hash, s⟩ ∈ mine →
      ∃ session, new.Reads id session ∧ (s.answerNow (.findSession token.hash)).1 = .done (some session))
    (reaches : Reaches Backend.answerNow i (find token) mine rest) : Finding token.hash id new i mine rest := by
  unfold find at reaches
  rw [if_neg (by simp [given])] at reaches
  cases reaches with
  | here => exact .load
  | asked reaches =>
    rename_i s mine
    obtain ⟨session, reads, found⟩ := finds s List.mem_cons_self
    rw [found] at reaches
    cases reaches with
    | here => exact .clock
    | asked reaches =>
      rename_i u mine
      change Reaches _ i (if session.IsLiveAt u.clock then Procedure.done session else .fail .expired) mine rest at reaches
      have expires : session.expiresAt = new.expiresAt.floor := by
        obtain ⟨name, rfl⟩ := reads
        rfl
      split at reaches
      · rename_i live
        cases reaches
        exact .live reads (expires ▸ live)
      · rename_i past
        cases reaches
        exact .expired (expires ▸ Int.not_lt.mp past)

def Fits (rules : SessionRules) (name : String) : Prop := rules.minName ≤ name.length ∧ name.length ≤ rules.maxName

instance (rules : SessionRules) (name : String) : Decidable (Fits rules name) := inferInstanceAs (Decidable (_ ∧ _))

def settled (reply : Outcome Unit) : Operation Unit := .ofOutcome (reply.during "update identity")

theorem settled_done {reply : Outcome Unit} : settled reply = .done () ↔ reply = .done () := by
  cases reply <;> simp [settled, Outcome.during, Procedure.ofOutcome]

inductive Renaming (rules : SessionRules) (token : Token) (name : String) (i : Nat) : List Entry → Operation Unit → Prop
  | unfit (unfit : ¬Fits rules name) : Renaming rules token name i [] (.fail (.invalidInput (nameLengthText rules)))
  | clock (fits : Fits rules name) (waits : rest = .ask .now next) : Renaming rules token name i [] rest
  | update (fits : Fits rules name) :
      Renaming rules token name i [⟨i, .now, u⟩] (.ask (.updateSession token.hash (renameEdit u.clock name)) settled)
  | complete (fits : Fits rules name) (ended : rest = settled (s.answerNow (.updateSession token.hash (renameEdit u.clock name))).1) :
      Renaming rules token name i [⟨i, .now, u⟩, ⟨i, .updateSession token.hash (renameEdit u.clock name), s⟩] rest

theorem renaming_reached (reaches : Reaches Backend.answerNow i (rename rules token name) mine rest) :
    Renaming rules token name i mine rest := by
  unfold rename at reaches
  split at reaches
  · rename_i outside
    have unfit : ¬Fits rules name := by
      intro fits
      have low := fits.1
      have high := fits.2
      omega
    cases reaches
    exact .unfit unfit
  · rename_i inside
    have fits : Fits rules name := ⟨by omega, by omega⟩
    cases reaches with
    | here => exact .clock fits rfl
    | asked reaches =>
      rename_i u mine
      have updating : (Procedure.call (I := ports) (.updateSession token.hash (renameEdit u.clock name))).during "update identity" =
          .ask (.updateSession token.hash (renameEdit u.clock name)) settled := by
        change Procedure.ask _ _ = _
        congr 1
        funext reply
        cases reply <;> rfl
      change Reaches _ i ((Procedure.call (I := ports) (.updateSession token.hash (renameEdit u.clock name))).during
        "update identity") mine rest at reaches
      rw [updating] at reaches
      cases reaches with
      | here => exact .update fits
      | asked reaches =>
        obtain ⟨rfl, ended⟩ := reaches.ended
        exact .complete fits ended

theorem Renaming.late (stands : Renaming rules token name i mine rest) (hashed : new.tokenHash = token.hash)
    (late : ∀ e ∈ mine, SessionsKeyed e.before.store.sessions ∧ e.before.store.Keeps id new ∧
      new.expiresAt.floor ≤ e.before.clock) :
    (∀ e ∈ mine, (e.before.answerNow e.question).2.store = e.before.store) ∧
      ((∀ e ∈ mine, e.before.mishap .updateSession = none) →
        rest.Asking ∨ rest = .fail .expired ∨ rest = .fail (.invalidInput (nameLengthText rules))) := by
  cases stands with
  | unfit => exact ⟨by simp, fun _ => .inr (.inr rfl)⟩
  | clock _ waits => exact ⟨by simp, fun _ => .inl ⟨_, _, waits⟩⟩
  | update => exact ⟨by simp [Backend.answerNow], fun _ => .inl ⟨_, _, rfl⟩⟩
  | complete fits ended =>
    rename_i u s
    obtain ⟨_, _, past⟩ := late _ List.mem_cons_self
    obtain ⟨keyed, keeps, _⟩ := late _ (List.mem_cons_of_mem _ (List.mem_singleton_self _))
    have refused := keeps.updateSession_late keyed past name
    rw [hashed] at refused
    refine ⟨?_, ?_⟩
    · intro e member
      rcases List.mem_cons.mp member with rfl | last
      · rfl
      · rw [List.mem_singleton.mp last]
        exact Backend.answerNow_updateSession_refused refused
    · intro works
      have calm := works _ (List.mem_cons_of_mem _ (List.mem_singleton_self _))
      have replied := Backend.answerNow_updateSession calm token.hash (renameEdit u.clock name)
      rw [refused] at replied
      rw [ended, replied]
      exact .inr (.inl rfl)

end Sessions

section
variable {rules : Rules} {b : Backend} {issued : Issued} {id : Int} {new : NewSession} {moves : List (hall rules).Move}

theorem log_extended (rules : Rules) (keyed : SessionsKeyed b.store.sessions) (moves : List (hall rules).Move) :
    let c := Venue.play (opened rules b) moves
    SessionsKeyed c.shared.store.sessions ∧ ∀ e ∈ c.log, (e.before.answerNow e.question).2.store.Extends c.shared.store := by
  refine Venue.play_keeps_staged (P := fun c : (hall rules).Crowd => SessionsKeyed c.shared.store.sessions ∧
    ∀ e ∈ c.log, (e.before.answerNow e.question).2.store.Extends c.shared.store) (stages rules) moves ?_ ?_ ?_
    (staged_opened rules b) ⟨keyed, by simp [opened]⟩
  · intro c e kept
    exact kept
  · intro c i e q next waits stage kept
    obtain ⟨keyed, kept⟩ := kept
    have effect := Backend.answerNow_effect c.shared stage.lawful
    refine ⟨effect.keyed stage.lawful keyed, ?_⟩
    intro f member
    rcases List.mem_append.mp member with old | new
    · exact (kept f old).trans (effect.extends stage.lawful keyed)
    · rw [List.mem_singleton.mp new]
      exact .refl _
  · intro c x kept
    obtain ⟨keyed, kept⟩ := kept
    have same : (Venue.elapse c x).shared.store = c.shared.store := Board.shift_store x c.shared
    exact ⟨same ▸ keyed, same ▸ kept⟩

theorem keeps_stored {s : Backend} (replied : (s.answerNow (.storeSession new)).1 = .done id) :
    (s.answerNow (.storeSession new)).2.store.Keeps id new := by
  have effect := Backend.answerNow_effect s (q := .storeSession new) trivial
  generalize (s.answerNow (.storeSession new)).2.store = after at effect ⊢
  rw [replied] at effect
  cases effect with
  | read calm => cases calm
  | refused without => exact absurd rfl (without id)
  | issued added =>
    obtain ⟨_, _, rfl, rfl⟩ := Store.addSession_ok added
    exact ⟨new.identity.name, List.mem_append_right _ (List.mem_singleton_self _)⟩

end

-- None of the questions of a call met a store that fails at some port.
def Works {rules : Rules} (c : (hall rules).Crowd) (port : Port) (i : Nat) : Prop := ∀ e ∈ c.asked i, e.before.mishap port = none

-- A crowd whose store has kept the session of a token since it was issued.
structure Keeping {rules : Rules} (c : (hall rules).Crowd) (token : Token) (id : Int) (new : NewSession) : Prop where
  staged : Venue.Staged (Stage rules) c
  reached : Venue.Staged (fun i e mine rest => Reaches Backend.answerNow i (Errand.body rules e) mine rest) c
  keyed : SessionsKeyed c.shared.store.sessions
  given : token.isEmpty = false
  hashed : new.tokenHash = token.hash
  keeps : c.shared.store.Keeps id new

theorem keeping_issued {rules : Rules} {b : Backend} {issued : Issued} {moves : List (hall rules).Move}
    (keyed : SessionsKeyed b.store.sessions)
    (issues : (Venue.play (opened rules b) moves).flights[k]? = some ⟨.issue, .done issued⟩) :
    ∃ id new, Sessions.Issuance rules.session k ((Venue.play (opened rules b) moves).asked k) issued id new ∧
      Keeping (Venue.play (opened rules b) moves) issued.token id new := by
  have reached := Venue.staged_reaches (c := opened rules b) rfl rfl moves
  obtain ⟨id, new, issuance⟩ := Sessions.issue_done (reached.stands k _ issues)
  obtain ⟨s, member, replied⟩ := issuance.stored
  obtain ⟨keyed, extended⟩ := log_extended rules keyed moves
  refine ⟨id, new, issuance, ?_⟩
  exact {
    staged := Venue.play_staged (stages rules) moves (staged_opened rules b)
    reached := reached
    keyed := keyed
    given := issuance.given
    hashed := issuance.hashed
    keeps := (keeps_stored replied).later (extended _ (Venue.mem_asked.mp member).1) }

namespace Keeping
variable {rules : Rules} {c : (hall rules).Crowd} {token : Token} {id : Int} {new : NewSession} {moves : List (hall rules).Move}

theorem play (keeping : Keeping c token id new) (moves : List (hall rules).Move) : Keeping (Venue.play c moves) token id new where
  staged := Venue.play_staged (stages rules) moves keeping.staged
  reached := Venue.play_staged (Venue.reaches_stages _) moves keeping.reached
  keyed := (continues_play keeping.staged keeping.keyed moves).keyed
  given := keeping.given
  hashed := keeping.hashed
  keeps := keeping.keeps.later (continues_play keeping.staged keeping.keyed moves).grown

theorem asked (keeping : Keeping c token id new) (later : c.flights.length ≤ j) (asked : e ∈ (Venue.play c moves).asked j) :
    SessionsKeyed e.before.store.sessions ∧ e.before.store.Keeps id new := by
  obtain ⟨keyed, grown⟩ := history_extends keeping.staged keeping.keyed (Venue.asked_later keeping.staged moves later asked)
  exact ⟨keyed, keeping.keeps.later grown⟩

theorem finding (keeping : Keeping c token id new) (later : c.flights.length ≤ j)
    (finds : (Venue.play c moves).flights[j]? = some ⟨.find token, rest⟩) (works : Works (Venue.play c moves) .findSession j) :
    Sessions.Finding token.hash id new j ((Venue.play c moves).asked j) rest := by
  refine Sessions.finding_reached keeping.given ?_ ((keeping.play moves).reached.stands j _ finds)
  intro s member
  obtain ⟨keyed, keeps⟩ := keeping.asked later member
  obtain ⟨session, reads, found⟩ := keeps.findSession keyed
  rw [keeping.hashed] at found
  refine ⟨session, reads, ?_⟩
  rw [Backend.answerNow_findSession (works _ member) found]

theorem past (keeping : Keeping c token id new) (forward : Venue.Along Forward c moves) (later : c.flights.length ≤ j)
    (finds : (Venue.play c moves).flights[j]? = some ⟨.find token, .fail .expired⟩) (works : Works (Venue.play c moves) .findSession j) :
    new.expiresAt.floor ≤ (Venue.play c moves).shared.clock := by
  have stands := keeping.finding later finds works
  generalize asked : (Venue.play c moves).asked j = mine at stands
  cases stands with
  | expired past =>
    rename_i s u
    have member : ⟨j, .now, u⟩ ∈ (Venue.play c moves).asked j := by simp [asked]
    exact Instant.le_trans past (history_between forward (Venue.asked_later keeping.staged moves later member)).2

theorem find_late (keeping : Keeping c token id new) {late : List (hall rules).Move}
    (past : new.expiresAt.floor ≤ (Venue.play c moves).shared.clock) (forward : Venue.Along Forward (Venue.play c moves) late)
    (later : c.flights.length ≤ j) (finds : (Venue.play c (moves ++ late)).flights[j]? = some ⟨.find token, rest⟩)
    (works : Works (Venue.play c (moves ++ late)) .findSession j) :
    (Venue.play c moves).flights[j]? = some ⟨.find token, rest⟩ ∨ rest.Asking ∨ rest = .fail .expired := by
  have stands := keeping.finding later finds works
  generalize asked : (Venue.play c (moves ++ late)).asked j = mine at stands
  cases stands with
  | load => exact .inr (.inl ⟨_, _, rfl⟩)
  | clock => exact .inr (.inl ⟨_, _, rfl⟩)
  | expired => exact .inr (.inr rfl)
  | live reads live =>
    rename_i session s u
    left
    rw [Venue.play_append, Venue.asked_play] at asked
    -- The lookup found the session, so it read the clock before the end: it asked nothing since, or
    -- the clock would have been past it.
    rcases List.eq_nil_or_concat ((Venue.history (Venue.play c moves) late).filter (·.call = j)) with none | ⟨front, e, last⟩
    · rw [none, List.append_nil] at asked
      have known : j < (Venue.play c moves).flights.length := by
        have member : ⟨j, .now, u⟩ ∈ (Venue.play c moves).asked j := by simp [asked]
        exact (keeping.play moves).staged.known _ (Venue.mem_asked.mp member).1
      rw [Venue.play_append, Venue.play_idle known none] at finds
      exact finds
    · have member : ⟨j, .now, u⟩ ∈ Venue.history (Venue.play c moves) late := by
        have ends := congrArg List.getLast? asked
        simp only [last, List.concat_eq_append, ← List.append_assoc, List.getLast?_concat, List.getLast?_cons_cons,
          List.getLast?_singleton, Option.some.injEq] at ends
        have member : e ∈ (Venue.history (Venue.play c moves) late).filter (·.call = j) := by simp [last]
        exact ends ▸ (List.mem_filter.mp member).1
      have read := (history_between forward member).1
      exact absurd live (Int.not_lt.mpr (Instant.le_trans past read))

theorem rename_late (keeping : Keeping c token id new) {late : List (hall rules).Move}
    (past : new.expiresAt.floor ≤ c.shared.clock) (forward : Venue.Along Forward c late)
    (later : c.flights.length ≤ j) (renames : (Venue.play c late).flights[j]? = some ⟨.rename token name, rest⟩) :
    (∀ e ∈ (Venue.play c late).asked j, (e.before.answerNow e.question).2.store = e.before.store) ∧
      (Works (Venue.play c late) .updateSession j → rest.Asking ∨ rest = .fail .expired ∨
        rest = .fail (.invalidInput (Sessions.nameLengthText rules.session))) := by
  have stands := Sessions.renaming_reached ((keeping.play late).reached.stands j _ renames)
  have asked : ∀ e ∈ (Venue.play c late).asked j, SessionsKeyed e.before.store.sessions ∧ e.before.store.Keeps id new ∧
      new.expiresAt.floor ≤ e.before.clock := by
    intro e member
    obtain ⟨keyed, keeps⟩ := keeping.asked later member
    exact ⟨keyed, keeps, Instant.le_trans past (history_between forward (Venue.asked_later keeping.staged late later member)).1⟩
  exact stands.late keeping.hashed asked

end Keeping

-- What becomes of a token is decided when it is issued. Whatever happens next, and however the clock is
-- set, a lookup that reads the clock before the instant that was stored then finds the session that was
-- stored then, and any other lookup is told that it has expired. Under a clock that never goes back the
-- first such answer is final: lookups that had not ended by then end in the same way, and renames
-- that begin later fail and write nothing.
theorem token_fate_fixed (rules : Rules) {b : Backend} (keyed : SessionsKeyed b.store.sessions) (moves : List (hall rules).Move)
    {k : Nat} {issued : Issued} (issues : (Venue.play (opened rules b) moves).flights[k]? = some ⟨.issue, .done issued⟩) :
    let c := Venue.play (opened rules b) moves
    ∃ id new, Sessions.Issuance rules.session k (c.asked k) issued id new ∧
      (∀ more j rest, let d := Venue.play c more
        c.flights.length ≤ j → d.flights[j]? = some ⟨.find issued.token, rest⟩ → Works d .findSession j →
          Sessions.Finding issued.token.hash id new j (d.asked j) rest) ∧
      ∀ more late i, let d := Venue.play c more
        let f := Venue.play d late
        Venue.Along Forward c (more ++ late) → c.flights.length ≤ i →
        d.flights[i]? = some ⟨.find issued.token, .fail .expired⟩ → Works d .findSession i →
          (∀ j rest, c.flights.length ≤ j → f.flights[j]? = some ⟨.find issued.token, rest⟩ → Works f .findSession j →
            d.flights[j]? = some ⟨.find issued.token, rest⟩ ∨ rest.Asking ∨ rest = .fail .expired) ∧
          ∀ j name rest, d.flights.length ≤ j → f.flights[j]? = some ⟨.rename issued.token name, rest⟩ →
            (∀ e ∈ f.asked j, (e.before.answerNow e.question).2.store = e.before.store) ∧
            (Works f .updateSession j → rest.Asking ∨ rest = .fail .expired ∨
              rest = .fail (.invalidInput (Sessions.nameLengthText rules.session))) := by
  intro c
  obtain ⟨id, new, issuance, keeping⟩ := keeping_issued keyed issues
  refine ⟨id, new, issuance, ?_, ?_⟩
  · intro more j rest d later finds works
    exact keeping.finding later finds works
  · intro more late i d f forward later finds works
    obtain ⟨early, onward⟩ := (Venue.along_append more late).mp forward
    have past := keeping.past early later finds works
    refine ⟨?_, ?_⟩
    · intro j rest later finds works
      have same : f = Venue.play c (more ++ late) := (Venue.play_append c more late).symm
      rw [same] at finds works
      exact keeping.find_late past onward later finds works
    · intro j name rest later renames
      exact (keeping.play more).rename_late past onward later renames

def issuing : List (hall seconds).Move := [.start .issue, .step 0, .step 0, .step 0, .step 0]

def firstToken : Token := .ofEntropy (.replicate _ 0)

def weekLater : Instant := ⟨604800000000000, by decide⟩

def lookups : List (hall seconds).Move :=
  [.start (.find firstToken), .step 1, .step 1, .change (.clock weekLater), .start (.find firstToken), .step 2, .step 2]

theorem issuing_issues : (Venue.play (opened seconds bare) issuing).flights[0]? = some ⟨.issue, .done ⟨firstToken, weekLater⟩⟩ := rfl

def lookedUp (c : (hall seconds).Crowd) : Bool :=
  c.log.all (·.before.mishap .findSession = none) &&
    match c.flights with
    | [_, ⟨.find token, .done _⟩, ⟨.find again, .fail .expired⟩] => token = firstToken && again = firstToken
    | _ => false

theorem lookedUp_lookups : lookedUp (Venue.play (Venue.play (opened seconds bare) issuing) lookups) = true := by decide +kernel

theorem lookedUp_flights {c : (hall seconds).Crowd} (looked : lookedUp c = true) :
    (∀ i, Works c .findSession i) ∧
      ∃ first session, c.flights = [first, ⟨.find firstToken, .done session⟩, ⟨.find firstToken, .fail .expired⟩] := by
  simp only [lookedUp, Bool.and_eq_true, List.all_eq_true, decide_eq_true_eq] at looked
  obtain ⟨works, ended⟩ := looked
  refine ⟨fun i e member => works e (Venue.mem_asked.mp member).1, ?_⟩
  split at ended
  · rename_i flights
    simp only [Bool.and_eq_true, decide_eq_true_eq] at ended
    obtain ⟨rfl, rfl⟩ := ended
    exact ⟨_, _, flights⟩
  · cases ended

theorem token_fate_fixed_week :
    let c := Venue.play (opened seconds bare) issuing
    let d := Venue.play c lookups
    let f := Venue.play d [.start (.rename firstToken "Summer"), .step 3, .step 3]
    SessionsKeyed bare.store.sessions ∧ c.flights[0]? = some ⟨.issue, .done ⟨firstToken, weekLater⟩⟩ ∧
      ∃ id new session rest, Sessions.Issuance seconds.session 0 (c.asked 0) ⟨firstToken, weekLater⟩ id new ∧
        d.flights[1]? = some ⟨.find firstToken, .done session⟩ ∧
        Sessions.Finding firstToken.hash id new 1 (d.asked 1) (.done session) ∧
        d.flights[2]? = some ⟨.find firstToken, .fail .expired⟩ ∧
        f.flights[3]? = some ⟨.rename firstToken "Summer", rest⟩ ∧
        ∀ e ∈ f.asked 3, (e.before.answerNow e.question).2.store = e.before.store := by
  intro c d f
  have keyed : SessionsKeyed bare.store.sessions := ⟨.nil, .nil, by intro row member; cases member⟩
  obtain ⟨works, first, session, flights⟩ := lookedUp_flights lookedUp_lookups
  have found : d.flights[1]? = some ⟨.find firstToken, .done session⟩ := by rw [flights]; rfl
  have past : d.flights[2]? = some ⟨.find firstToken, .fail .expired⟩ := by rw [flights]; rfl
  have begins : (Venue.start d (.rename firstToken "Summer")).flights[3]? =
      some ⟨.rename firstToken "Summer", Sessions.rename seconds.session firstToken "Summer"⟩ := by
    unfold Venue.start
    rw [flights]
    rfl
  have moved : f = Venue.play (Venue.start d (.rename firstToken "Summer")) [.step 3, .step 3] :=
    Venue.play_append d [.start (.rename firstToken "Summer")] [.step 3, .step 3]
  obtain ⟨rest, renames⟩ := Venue.play_call [.step 3, .step 3] begins
  rw [← moved] at renames
  obtain ⟨id, new, issuance, finding, fate⟩ := token_fate_fixed seconds keyed issuing issuing_issues
  have forward : Venue.Along Forward c (lookups ++ [.start (.rename firstToken "Summer"), .step 3, .step 3]) := by
    refine ⟨.start _, .step 1, .step 1, .change ?_, .start _, .step 2, .step 2, .start _, .step 3, .step 3, trivial⟩
    rw [clock_step, clock_step]
    decide
  have late := fate lookups _ 2 forward (by decide) past (works 2)
  have known : d.flights.length ≤ 3 := by rw [flights]; exact Nat.le_refl 3
  exact ⟨keyed, issuing_issues, id, new, session, rest, issuance, found, finding lookups 1 _ (by decide) found (works 1), past,
    renames, (late.2 3 "Summer" rest known renames).1⟩

def Resolves (b : Backend) (token : Token) (now : Instant) : Prop :=
  ∃ session after, Backend.run { b with clock := now } (Sessions.find token) = (.done session, after)

theorem run_find_kept {b : Backend} {token : Token} {session : Session} (given : token.isEmpty = false)
    (works : b.mishap .findSession = none) (found : b.store.findSession token.hash = .ok (some session)) :
    b.run (Sessions.find token) = (if session.IsLiveAt b.clock then .done session else .failed .expired, b) := by
  have asked : b.answer (.findSession token.hash) = (.done (some session), b) :=
    (Backend.answer_prompt rfl).trans (Backend.answerNow_findSession works found)
  unfold Backend.run Sessions.find
  rw [if_neg (by simp [given])]
  change Procedure.run (I := ports) Backend.answer b (.ask (.findSession token.hash) _) = _
  rw [Procedure.run, asked]
  change Procedure.run (I := ports) Backend.answer b (.ask .now _) = _
  rw [Procedure.run, Backend.answer_now]
  change Procedure.run (I := ports) Backend.answer b (if session.IsLiveAt b.clock then .done session else .fail .expired) = _
  split <;> rfl

theorem resolves_iff {b : Backend} {token : Token} {session : Session} (given : token.isEmpty = false)
    (works : b.mishap .findSession = none) (found : b.store.findSession token.hash = .ok (some session)) (now : Instant) :
    Resolves b token now ↔ now < session.expiresAt := by
  unfold Resolves
  rw [run_find_kept (b := { b with clock := now }) given works found]
  by_cases live : session.IsLiveAt now
  · rw [if_pos live]
    exact iff_of_true ⟨session, _, rfl⟩ live
  · rw [if_neg live]
    refine iff_of_false ?_ live
    intro resolved
    obtain ⟨_, _, same⟩ := resolved
    cases congrArg Prod.fst same

-- The expiry that is announced with a token is not rounded, and the one that is stored is. They are the
-- same, and lookups succeed at just the instants before the announced one, if and only if that is a whole millisecond.
theorem announced_expiry_exact_iff (rules : Rules) {b : Backend} (keyed : SessionsKeyed b.store.sessions)
    (moves : List (hall rules).Move) {k : Nat} {issued : Issued}
    (issues : (Venue.play (opened rules b) moves).flights[k]? = some ⟨.issue, .done issued⟩) :
    let c := Venue.play (opened rules b) moves
    ∃ id new, Sessions.Issuance rules.session k (c.asked k) issued id new ∧
      ∀ more, let d := (Venue.play c more).shared
        ∃ session, d.store.findSession issued.token.hash = .ok (some session) ∧ new.Reads id session ∧
          session.expiresAt = issued.expiresAt.floor ∧
          (session.expiresAt = issued.expiresAt ↔ issued.expiresAt.nanos % 1000000 = 0) ∧
          (d.mishap .findSession = none →
            (∀ now, Resolves d issued.token now ↔ now < issued.expiresAt.floor) ∧
            ((∀ now, Resolves d issued.token now ↔ now < issued.expiresAt) ↔ issued.expiresAt.nanos % 1000000 = 0)) := by
  intro c
  obtain ⟨id, new, issuance, keeping⟩ := keeping_issued keyed issues
  refine ⟨id, new, issuance, ?_⟩
  intro more d
  have later := keeping.play more
  obtain ⟨session, reads, found⟩ := later.keeps.findSession later.keyed
  rw [later.hashed] at found
  have rounded : session.expiresAt = issued.expiresAt.floor := by
    obtain ⟨name, rfl⟩ := reads
    rw [issuance.announced]
  refine ⟨session, found, reads, rounded, ?_, ?_⟩
  · rw [rounded]
    exact Instant.floor_eq_iff
  · intro works
    have resolves := resolves_iff later.given works found
    rw [rounded] at resolves
    refine ⟨resolves, ?_⟩
    rw [← Instant.floor_eq_iff, ← Instant.lt_floor_iff_lt_iff]
    exact forall_congr' fun now => iff_congr (resolves now) Iff.rfl

theorem announced_expiry_exact_iff_week :
    let c := Venue.play (opened seconds bare) issuing
    SessionsKeyed bare.store.sessions ∧ c.flights[0]? = some ⟨.issue, .done ⟨firstToken, weekLater⟩⟩ ∧
      ∀ now, Resolves c.shared firstToken now ↔ now < weekLater := by
  intro c
  have keyed : SessionsKeyed bare.store.sessions := ⟨.nil, .nil, by intro row member; cases member⟩
  obtain ⟨id, new, _, exact_iff⟩ := announced_expiry_exact_iff seconds keyed issuing issuing_issues
  obtain ⟨_, _, _, _, _, resolves⟩ := exact_iff []
  exact ⟨keyed, issuing_issues, (resolves rfl).2.mpr rfl⟩

def offset : Backend := { bare with clock := ⟨999999, by decide⟩ }

def offsetWeekLater : Instant := ⟨604800000999999, by decide⟩

-- A token that is issued amid a millisecond is announced to be good for longer than it is.
theorem announced_expiry_rounded :
    let c := Venue.play (opened seconds offset) issuing
    c.flights[0]? = some ⟨.issue, .done ⟨firstToken, offsetWeekLater⟩⟩ ∧
      (∃ session, c.shared.store.findSession firstToken.hash = .ok (some session) ∧ session.expiresAt ≠ offsetWeekLater) ∧
      weekLater < offsetWeekLater ∧ ¬Resolves c.shared firstToken weekLater := by
  intro c
  have keyed : SessionsKeyed offset.store.sessions := ⟨.nil, .nil, by intro row member; cases member⟩
  have issues : c.flights[0]? = some ⟨.issue, .done ⟨firstToken, offsetWeekLater⟩⟩ := rfl
  obtain ⟨id, new, issuance, keeping⟩ := keeping_issued keyed issues
  obtain ⟨session, ⟨name, rfl⟩, found⟩ := keeping.keeps.findSession keeping.keyed
  rw [keeping.hashed] at found
  have resolves := resolves_iff keeping.given rfl found weekLater
  rw [← issuance.announced] at resolves found
  have rounded : offsetWeekLater.floor ≠ offsetWeekLater := by decide
  have before : ¬weekLater < offsetWeekLater.floor := by decide
  exact ⟨issues, ⟨_, found, rounded⟩, by decide, fun resolved => before (resolves.mp resolved)⟩

end Service
end Forum
