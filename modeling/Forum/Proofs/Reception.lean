import Forum.Proofs.Identities
import Forum.Proofs.Tokens

namespace Forum.Reception
open Procedure (ofOutcome)
open Service (SessionRules Issued)
open Identity (Reservation)

-- What issuing a session asks when identities come out of a pool: questions to the backend, and
-- questions to the desk of the identity provider.
abbrev ports : Interface := ⟨Service.Question ⊕ Identity.Question, Sum.elim Service.Question.Value Identity.Question.Value⟩

def atBackend (q : Service.Question) : Procedure ports q.Value := .call (I := ports) (.inl q)

def atDesk (q : Identity.Question) : Procedure ports q.Value := .call (I := ports) (.inr q)

def resolve : (q : Service.Question) → Procedure ports q.Value
  | .provideIdentity hold => (Identity.provide hold).through atDesk
  | q => atBackend q

def issue (rules : SessionRules) : Procedure ports Issued := (Service.Sessions.issue rules).through resolve

structure House where
  backend : Backend
  desk : Identity.Desk

def House.timed (h : House) : Identity.Desk := { h.desk with clock := h.backend.clock }

def answer : Procedure.Answering ports House
  | h, .inl q => ((h.backend.answerNow q).1, { h with backend := (h.backend.answerNow q).2 })
  | h, .inr q => ((h.timed.answer q).1, { h with desk := (h.timed.answer q).2 })

inductive Change
  | backend (shift : Board.Shift)
  | server (server : Identity.Server)
  | reclaim (listing : List (Nat × Instant))

def change : Change → House → House
  | .backend x, h => { h with backend := Board.shift x h.backend }
  | .server server, h => { h with desk := { h.desk with server } }
  | .reclaim listing, h => { h with desk := Identity.turn (.reclaim listing) h.timed }

abbrev reception (rules : SessionRules) : Venue ports House :=
  ⟨Unit, fun _ => Issued, fun _ => issue rules, answer, Change, change⟩

abbrev Entry := Asked ports House

def opened (rules : SessionRules) (h : House) : (reception rules).Crowd := { shared := h }

def stored (issued : Issued) : Outcome Int → Procedure ports Issued
  | .done _ => .done issued
  | .failed e => .fail (e.during "store session")
  | .crashed => .crash

def newSession (token : Token) (identity : Identity) (now expiresAt : Instant) : NewSession :=
  ⟨token.hash, identity, now, expiresAt⟩

def stamped (token : Token) (identity : Identity) (now : Instant) : Option Instant → Procedure ports Issued
  | some expiresAt => .ask (.inl (.storeSession (newSession token identity now expiresAt))) (stored ⟨token, expiresAt⟩)
  | none => .crash

def dated (rules : SessionRules) (token : Token) (identity : Identity) : Outcome Instant → Procedure ports Issued
  | .done now => stamped token identity now (now.add? rules.ttl)
  | .failed e => .fail e
  | .crashed => .crash

def drawn (rules : SessionRules) (identity : Identity) : Outcome Token.Entropy → Procedure ports Issued
  | .done entropy => .ask (.inl .now) (dated rules (.ofEntropy entropy) identity)
  | .failed e => .fail e
  | .crashed => .crash

def released (e : Error) : Outcome Unit → Procedure ports Issued
  | .done () => .fail (Service.Sessions.unavailable e)
  | .failed e => .fail (Service.Sessions.unavailable e)
  | .crashed => .crash

def fetched (rules : SessionRules) (r : Reservation) : Outcome Identity → Procedure ports Issued
  | .done identity => .ask (.inl .drawEntropy) (drawn rules identity)
  | .failed e => .ask (.inr (.release r)) (released e)
  | .crashed => .crash

def allocated (rules : SessionRules) : Outcome Reservation → Procedure ports Issued
  | .done r => .ask (.inr (.fetch r.id)) (fetched rules r)
  | .failed e => .fail (Service.Sessions.unavailable e)
  | .crashed => .crash

theorem issue_eq (rules : SessionRules) :
    issue rules =
      if rules.ttl.nanos < 0 then .fail (.invalidInput "session ttl must be positive")
      else .ask (.inr (.allocate rules.ttl)) (allocated rules) := by
  unfold issue Service.Sessions.issue Service.Sessions.provideIdentity
  split
  · rfl
  · change Procedure.ask _ _ = Procedure.ask _ _
    congr 1
    funext reply
    cases reply with
    | done r =>
      change Procedure.ask _ _ = Procedure.ask _ _
      congr 1
      funext reply
      cases reply with
      | done identity =>
        change Procedure.ask _ _ = Procedure.ask _ _
        congr 1
        funext reply
        cases reply with
        | done entropy =>
          change Procedure.ask _ _ = Procedure.ask _ _
          congr 1
          funext reply
          cases reply with
          | done now =>
            change Procedure.through (I := Service.ports) resolve ((Procedure.orCrash (Instant.add? now rules.ttl)).bind _) =
              stamped (.ofEntropy entropy) identity now (Instant.add? now rules.ttl)
            cases Instant.add? now rules.ttl with
            | none => rfl
            | some expiresAt =>
              change Procedure.ask _ _ = Procedure.ask _ _
              congr 1
              funext reply
              cases reply <;> rfl
          | failed e => rfl
          | crashed => rfl
        | failed e => rfl
        | crashed => rfl
      | failed e =>
        change Procedure.ask _ _ = Procedure.ask _ _
        congr 1
        funext reply
        cases reply <;> rfl
      | crashed => rfl
    | failed e => rfl
    | crashed => rfl

-- Where a call can stand: it takes one id, before anything else, gives it back only if it was told no
-- character, and stores a session that begins when it read the clock.
inductive Issuing (rules : SessionRules) (i : Nat) : List Entry → Procedure ports Issued → Prop
  | allocate : Issuing rules i [] (.ask (.inr (.allocate rules.ttl)) (allocated rules))
  | fetch (r : Reservation) : Issuing rules i mine (.ask (.inr (.fetch r.id)) (fetched rules r))
  | release (asked : ⟨i, .inr (.fetch r.id), t⟩ ∈ mine) (failed : t.timed.fetch r.id = .error e) :
      Issuing rules i mine (.ask (.inr (.release r)) (released e))
  | draw (identity : Identity) : Issuing rules i mine (.ask (.inl .drawEntropy) (drawn rules identity))
  | date (token : Token) (identity : Identity) : Issuing rules i mine (.ask (.inl .now) (dated rules token identity))
  | store (sum : new.createdAt.add? rules.ttl = some new.expiresAt) (issued : Issued) :
      Issuing rules i mine (.ask (.inl (.storeSession new)) (stored issued))
  | complete (outcome : Outcome Issued) (ended : rest = ofOutcome outcome) : Issuing rules i mine rest

theorem issues (rules : SessionRules) : Venue.Stages (V := reception rules) fun i _ => Issuing rules i where
  opened := by
    intro i call
    change Issuing rules i [] (issue rules)
    rw [issue_eq]
    split
    · exact .complete (.failed _) rfl
    · exact .allocate
  asked := by
    intro i call mine q next s stage
    cases stage with
    | allocate =>
      change Issuing rules i _ (allocated rules (s.timed.allocate rules.ttl).1)
      cases (s.timed.allocate rules.ttl).1 with
      | done r => exact .fetch r
      | failed e => exact .complete (.failed _) rfl
      | crashed => exact .complete .crashed rfl
    | fetch r =>
      change Issuing rules i _ (fetched rules r (.ofExcept (s.timed.fetch r.id)))
      cases failed : s.timed.fetch r.id with
      | ok identity => exact .draw identity
      | error e => exact .release (List.mem_append_right _ (List.mem_singleton_self _)) failed
    | release asked failed => exact .complete (.failed _) rfl
    | draw identity =>
      change Issuing rules i _ (drawn rules identity (s.backend.answerNow .drawEntropy).1)
      cases (s.backend.answerNow .drawEntropy).1 with
      | done entropy => exact .date _ identity
      | failed e => exact .complete (.failed _) rfl
      | crashed => exact .complete .crashed rfl
    | date token identity =>
      change Issuing rules i _ (stamped token identity s.backend.clock (s.backend.clock.add? rules.ttl))
      cases sum : s.backend.clock.add? rules.ttl with
      | none => exact .complete .crashed rfl
      | some expiresAt => exact .store sum _
    | store sum issued =>
      rename_i new
      change Issuing rules i _ (stored issued (s.backend.answerNow (.storeSession new)).1)
      cases (s.backend.answerNow (.storeSession new)).1 with
      | done id => exact .complete (.done issued) rfl
      | failed e => exact .complete (.failed _) rfl
      | crashed => exact .complete .crashed rfl
    | complete _ ended => exact absurd ended.symm (Procedure.ofOutcome_ne_ask _)

theorem issuing_opened (rules : SessionRules) (h : House) :
    Venue.Staged (V := reception rules) (fun i _ => Issuing rules i) (opened rules h) where
  known := by simp [opened]
  stands := by simp [opened]

def Takes (rules : SessionRules) (log : List Entry) (i id : Nat) (taken until' : Instant) : Prop :=
  ∃ s r, ⟨i, .inr (.allocate rules.ttl), s⟩ ∈ log ∧ (s.timed.allocate rules.ttl).1 = .done r ∧ r.id = id ∧
    s.backend.clock = taken ∧ taken.add? rules.ttl = some until'

def Stores (log : List Entry) (i : Nat) (row : Int) (new : NewSession) : Prop :=
  ∃ s, ⟨i, .inl (.storeSession new), s⟩ ∈ log ∧ (s.backend.answerNow (.storeSession new)).1 = .done row

def Lives (rules : SessionRules) (c : (reception rules).Crowd) (i id : Nat) : Prop :=
  ∃ taken until' row new session, Takes rules c.log i id taken until' ∧ Stores c.log i row new ∧
    c.shared.backend.store.findSession new.tokenHash = .ok (some session) ∧ session.id = row ∧
    session.IsLiveAt c.shared.backend.clock

def Outstays (rules : SessionRules) (c : (reception rules).Crowd) (i id : Nat) : Prop :=
  Lives rules c i id ∧ ∃ taken until', Takes rules c.log i id taken until' ∧ until' ≤ c.shared.backend.clock

-- A character that is asked for is told, and an id that is asked for comes off the free list.
def Fulfilled : Entry → Prop
  | ⟨_, .inr (.fetch id), h⟩ => ∃ identity, h.timed.fetch id = .ok identity
  | ⟨_, .inr (.allocate _), h⟩ => h.desk.pool.free ≠ []
  | _ => True

instance (e : Entry) : Decidable (Fulfilled e) :=
  match e with
  | ⟨_, .inr (.fetch id), h⟩ =>
    match told : h.timed.fetch id with
    | .ok identity => isTrue ⟨identity, told⟩
    | .error e => isFalse fun ⟨identity, other⟩ => by cases told.symm.trans other
  | ⟨_, .inr (.allocate _), h⟩ => inferInstanceAs (Decidable (h.desk.pool.free ≠ []))
  | ⟨_, .inr (.release _), _⟩ => isTrue trivial
  | ⟨_, .inl _, _⟩ => isTrue trivial

structure Smooth {rules : SessionRules} (c : (reception rules).Crowd) (m : (reception rules).Move) : Prop where
  forward : c.shared.backend.clock ≤ (Venue.move c m).shared.backend.clock
  fulfilled : ∀ e ∈ Venue.logged c m, Fulfilled e

instance {rules : SessionRules} (c : (reception rules).Crowd) (m : (reception rules).Move) : Decidable (Smooth c m) :=
  decidable_of_iff (c.shared.backend.clock ≤ (Venue.move c m).shared.backend.clock ∧ ∀ e ∈ Venue.logged c m, Fulfilled e)
    ⟨fun both => ⟨both.1, both.2⟩, fun smooth => ⟨smooth.forward, smooth.fulfilled⟩⟩

section
variable {rules : SessionRules} {log : List Entry} {e : Entry} {i id : Nat} {row : Int} {new : NewSession}
  {taken until' : Instant}

theorem Takes.concat (takes : Takes rules (log ++ [e]) i id taken until') :
    Takes rules log i id taken until' ∨
      ∃ r, e = ⟨i, .inr (.allocate rules.ttl), e.before⟩ ∧ (e.before.timed.allocate rules.ttl).1 = .done r ∧ r.id = id ∧
        e.before.backend.clock = taken ∧ taken.add? rules.ttl = some until' := by
  obtain ⟨s, r, member, took, rest⟩ := takes
  rcases List.mem_append.mp member with old | new
  · exact .inl ⟨s, r, old, took, rest⟩
  · cases List.mem_singleton.mp new
    exact .inr ⟨r, rfl, took, rest⟩

theorem Stores.concat (stores : Stores (log ++ [e]) i row new) :
    Stores log i row new ∨
      e = ⟨i, .inl (.storeSession new), e.before⟩ ∧ (e.before.backend.answerNow (.storeSession new)).1 = .done row := by
  obtain ⟨s, member, replied⟩ := stores
  rcases List.mem_append.mp member with old | new
  · exact .inl ⟨s, old, replied⟩
  · cases List.mem_singleton.mp new
    exact .inr ⟨rfl, replied⟩

end

-- What holds of the pool and the log on a smooth run. An id is off the free list until its reservation
-- is over, so whoever is handed it again is handed it later.
structure Reserving (rules : SessionRules) (h : House) (log : List Entry) : Prop where
  keyed : h.desk.pool.Keyed
  sound : h.desk.pool.NoTwice
  told : ∀ i id s, ⟨i, .inr (.fetch id), s⟩ ∈ log → ∃ identity, s.timed.fetch id = .ok identity
  past : ∀ i id taken until', Takes rules log i id taken until' → taken ≤ h.backend.clock
  held : ∀ i id taken until', Takes rules log i id taken until' → h.backend.clock < until' → h.desk.pool.Holds id until'
  apart : ∀ i j id taken until' taken' until'', i ≠ j → Takes rules log i id taken until' →
    Takes rules log j id taken' until'' → until' ≤ taken' ∨ until'' ≤ taken

namespace Reserving
variable {rules : SessionRules} {h h' : House} {log : List Entry} {e : Entry} {i id : Nat} {taken until' : Instant}

theorem concat (reserving : Reserving rules h log) (pool : h'.desk.pool = h.desk.pool)
    (clock : h'.backend.clock = h.backend.clock)
    (told : ∀ id, e.question = .inr (.fetch id) → ∃ identity, e.before.timed.fetch id = .ok identity)
    (old : ∀ i id taken until', Takes rules (log ++ [e]) i id taken until' → Takes rules log i id taken until') :
    Reserving rules h' (log ++ [e]) := by
  refine ⟨pool ▸ reserving.keyed, pool ▸ reserving.sound, ?_, ?_, ?_, ?_⟩
  · intro i id s member
    rcases List.mem_append.mp member with known | new
    · exact reserving.told i id s known
    · cases List.mem_singleton.mp new
      exact told id rfl
  · intro i id taken until' takes
    exact clock ▸ reserving.past i id taken until' (old i id taken until' takes)
  · intro i id taken until' takes early
    exact pool ▸ reserving.held i id taken until' (old i id taken until' takes) (clock ▸ early)
  · intro i j id taken until' taken' until'' other takes takes'
    exact reserving.apart i j id taken until' taken' until'' other (old i id taken until' takes) (old j id taken' until'' takes')

theorem lapsed (reserving : Reserving rules h log) (takes : Takes rules log i id taken until') (free : id ∈ h.desk.pool.free) :
    until' ≤ h.backend.clock := by
  by_contra early
  exact (reserving.held i id taken until' takes (Int.not_le.mp early)).2 free

theorem allocate (reserving : Reserving rules h log) (spare : h.desk.pool.free ≠ []) :
    Reserving rules { h with desk := (h.timed.allocate rules.ttl).2 } (log ++ [⟨i, .inr (.allocate rules.ttl), h⟩]) := by
  have keyed : h.timed.pool.Keyed := reserving.keyed
  have sound : h.timed.pool.NoTwice := reserving.sound
  rcases Identity.Desk.allocate_cases h.timed rules.ttl with ⟨failed, same⟩ | ⟨expiry, sum, took, pool⟩
  · rw [same]
    refine reserving.concat rfl rfl (by simp) ?_
    intro j id taken until' takes
    rcases takes.concat with old | ⟨r, _, took, _⟩
    · exact old
    · exact absurd took (failed r)
  · have free : ∀ r, (h.timed.allocate rules.ttl).1 = .done r → r.id ∈ h.desk.pool.free := by
      intro r done
      cases took.symm.trans done
      exact Identity.Pool.allocate_free (p := h.timed.pool) spare _ _ _
    have after : (h.timed.allocate rules.ttl).2.pool.NoTwice := pool ▸ sound.allocate _ _ _
    refine ⟨pool ▸ keyed.allocate _ _ _, after, ?_, ?_, ?_, ?_⟩
    · intro j id s member
      rcases List.mem_append.mp member with known | new
      · exact reserving.told j id s known
      · cases List.mem_singleton.mp new
    · intro j id taken until' takes
      rcases takes.concat with old | ⟨_, _, _, _, now, _⟩
      · exact reserving.past j id taken until' old
      · exact now ▸ Instant.le_refl _
    · intro j id taken until' takes early
      rcases takes.concat with old | ⟨r, _, done, same, now, sum'⟩
      · -- The id comes off the free list, and what is still reserved is not there.
        have other : (h.timed.pool.allocate h.timed.clock expiry (h.timed.draws h.timed.allocations)).1.id ≠ id := by
          intro same
          exact Int.not_le.mpr early (reserving.lapsed old (same ▸ free _ took))
        have holds : h.timed.pool.Holds id until' := reserving.held j id taken until' old early
        exact pool ▸ holds.allocate other
      · cases took.symm.trans done
        subst same now
        cases sum.symm.trans sum'
        have held := Identity.Pool.allocate_holds h.timed.pool h.timed.clock expiry (h.timed.draws h.timed.allocations)
        rw [← pool] at held
        refine ⟨held, ?_⟩
        intro waiting
        rw [after.apart _ waiting] at held
        cases held
    · intro j k id taken until' taken' until'' other takes takes'
      rcases takes.concat with old | ⟨r, asked, done, same, now, _⟩
      · rcases takes'.concat with old' | ⟨r, _, done, same, now, _⟩
        · exact reserving.apart j k id taken until' taken' until'' other old old'
        · exact .inl (now ▸ reserving.lapsed old (same ▸ free r done))
      · rcases takes'.concat with old' | ⟨_, asked', _⟩
        · exact .inr (now ▸ reserving.lapsed old' (same ▸ free r done))
        · cases asked
          cases asked'
          exact absurd rfl other

theorem change (reserving : Reserving rules h log) (x : Change) (forward : h.backend.clock ≤ (change x h).backend.clock) :
    Reserving rules (Reception.change x h) log := by
  have past : ∀ i id taken until', Takes rules log i id taken until' → taken ≤ (Reception.change x h).backend.clock := by
    intro i id taken until' takes
    exact Instant.le_trans (reserving.past i id taken until' takes) forward
  cases x with
  | backend x =>
    refine ⟨reserving.keyed, reserving.sound, reserving.told, past, ?_, reserving.apart⟩
    intro i id taken until' takes early
    exact reserving.held i id taken until' takes (Int.lt_of_le_of_lt forward early)
  | server server => exact ⟨reserving.keyed, reserving.sound, reserving.told, past, reserving.held, reserving.apart⟩
  | reclaim listing =>
    have keyed : h.timed.pool.Keyed := reserving.keyed
    refine ⟨Identity.Desk.keyed_turn keyed (.reclaim listing), Identity.Desk.noTwice_turn (d := h.timed) reserving.sound keyed (.reclaim listing),
      reserving.told, past, ?_, reserving.apart⟩
    intro i id taken until' takes early
    exact Identity.Desk.holds_turn (d := h.timed) (reserving.held i id taken until' takes early) keyed early (.reclaim listing)

end Reserving

structure Keeping (rules : SessionRules) (b : Backend) (log : List Entry) : Prop where
  keyed : SessionsKeyed b.store.sessions
  dated : ∀ i row new, Stores log i row new → new.createdAt.add? rules.ttl = some new.expiresAt
  kept : ∀ i row new, Stores log i row new → b.store.Keeps row new

namespace Keeping
variable {rules : SessionRules} {h : House} {log : List Entry} {i : Nat}

theorem desk (keeping : Keeping rules h.backend log) (q : Identity.Question) :
    Keeping rules h.backend (log ++ [⟨i, .inr q, h⟩]) := by
  refine ⟨keeping.keyed, ?_, ?_⟩
  · intro j row new stores
    rcases stores.concat with old | ⟨asked, _⟩
    · exact keeping.dated j row new old
    · cases asked
  · intro j row new stores
    rcases stores.concat with old | ⟨asked, _⟩
    · exact keeping.kept j row new old
    · cases asked

theorem backend (keeping : Keeping rules h.backend log) {q : Service.Question} (lawful : q.Lawful)
    (dated : ∀ new, q = .storeSession new → new.createdAt.add? rules.ttl = some new.expiresAt) :
    Keeping rules (h.backend.answerNow q).2 (log ++ [⟨i, .inl q, h⟩]) := by
  have effect := Backend.answerNow_effect h.backend lawful
  refine ⟨effect.keyed lawful keeping.keyed, ?_, ?_⟩
  · intro j row new stores
    rcases stores.concat with old | ⟨asked, _⟩
    · exact keeping.dated j row new old
    · cases asked
      exact dated new rfl
  · intro j row new stores
    rcases stores.concat with old | ⟨asked, replied⟩
    · exact (keeping.kept j row new old).later (effect.extends lawful keeping.keyed)
    · cases asked
      exact Service.keeps_stored replied

theorem change (keeping : Keeping rules h.backend log) (x : Change) : Keeping rules (Reception.change x h).backend log := by
  cases x with
  | backend x =>
    have same : (Board.shift x h.backend).store = h.backend.store := Board.shift_store x h.backend
    refine ⟨?_, keeping.dated, ?_⟩
    · change SessionsKeyed (Board.shift x h.backend).store.sessions
      exact same ▸ keeping.keyed
    · change ∀ i row new, Stores log i row new → (Board.shift x h.backend).store.Keeps row new
      exact same ▸ keeping.kept
  | server server => exact keeping
  | reclaim listing => exact keeping

theorem found {session : Session} (keeping : Keeping rules h.backend log) (stores : Stores log i row new)
    (found : h.backend.store.findSession new.tokenHash = .ok (some session)) : session.expiresAt = new.expiresAt.floor := by
  obtain ⟨_, ⟨_, rfl⟩, same⟩ := (keeping.kept i row new stores).findSession keeping.keyed
  cases same.symm.trans found
  rfl

end Keeping

theorem takes_concat_other {rules : SessionRules} {log : List Entry} {e : Entry} (other : ∀ hold, e.question ≠ .inr (.allocate hold)) :
    ∀ i id taken until', Takes rules (log ++ [e]) i id taken until' → Takes rules log i id taken until' := by
  intro i id taken until' takes
  rcases takes.concat with old | ⟨_, asked, _⟩
  · exact old
  · exact absurd (congrArg Asked.question asked) (other rules.ttl)

section
variable {rules : SessionRules} {c : (reception rules).Crowd} {i id : Nat}

theorem Keeping.lives (keeping : Keeping rules c.shared.backend c.log) (takes : Takes rules c.log i id taken until')
    (stores : Stores c.log i row new) (live : c.shared.backend.clock < new.expiresAt.floor) : Lives rules c i id := by
  obtain ⟨session, ⟨name, rfl⟩, found⟩ := (keeping.kept i row new stores).findSession keeping.keyed
  exact ⟨taken, until', row, new, _, takes, stores, found, rfl, live⟩

theorem Lives.takes (lives : Lives rules c i id) : ∃ taken until', Takes rules c.log i id taken until' := by
  obtain ⟨taken, until', _, _, _, takes, _⟩ := lives
  exact ⟨taken, until', takes⟩

theorem reserving_move {m : (reception rules).Move} (staged : Venue.Staged (fun i _ => Issuing rules i) c)
    (reserving : Reserving rules c.shared c.log) (keeping : Keeping rules c.shared.backend c.log) (smooth : Smooth c m) :
    Reserving rules (Venue.move c m).shared (Venue.move c m).log ∧
      Keeping rules (Venue.move c m).shared.backend (Venue.move c m).log := by
  obtain ⟨forward, fulfilled⟩ := smooth
  rcases Venue.move_cases c m with ⟨_, same, _⟩ | ⟨i, call, q, next, waits, same, one⟩ | ⟨x, same, _⟩ | ⟨same, _⟩
  · rw [same]
    exact ⟨reserving, keeping⟩
  · rw [same]
    rw [one, List.forall_mem_singleton] at fulfilled
    have stage : Issuing rules i (c.asked i) (.ask q next) := staged.stands i _ waits
    generalize asked : c.asked i = mine at stage
    cases stage with
    | allocate => exact ⟨reserving.allocate fulfilled, keeping.desk _⟩
    | fetch r =>
      refine ⟨reserving.concat rfl rfl ?_ (takes_concat_other (by simp)), keeping.desk _⟩
      intro id same
      cases same
      exact fulfilled
    | release member failed =>
      -- On a smooth run there is no release.
      obtain ⟨identity, told⟩ := reserving.told _ _ _ (Venue.mem_asked.mp (asked ▸ member)).1
      cases failed.symm.trans told
    | draw identity =>
      refine ⟨reserving.concat rfl (c.shared.backend.answerNow_frame _).clock (by simp) (takes_concat_other (by simp)), ?_⟩
      exact keeping.backend trivial (by simp)
    | date token identity =>
      refine ⟨reserving.concat rfl (c.shared.backend.answerNow_frame _).clock (by simp) (takes_concat_other (by simp)), ?_⟩
      exact keeping.backend trivial (by simp)
    | store sum issued =>
      refine ⟨reserving.concat rfl (c.shared.backend.answerNow_frame _).clock (by simp) (takes_concat_other (by simp)), ?_⟩
      refine keeping.backend trivial ?_
      intro new stores
      cases stores
      exact sum
    | complete _ ended => exact absurd ended.symm (Procedure.ofOutcome_ne_ask _)
  · rw [same] at forward ⊢
    exact ⟨reserving.change x forward, keeping.change x⟩
  · rw [same]
    exact ⟨reserving, keeping⟩

theorem reserving_play {moves : List (reception rules).Move} (staged : Venue.Staged (fun i _ => Issuing rules i) c)
    (reserving : Reserving rules c.shared c.log) (keeping : Keeping rules c.shared.backend c.log)
    (smooth : Venue.Along Smooth c moves) :
    Reserving rules (Venue.play c moves).shared (Venue.play c moves).log ∧
      Keeping rules (Venue.play c moves).shared.backend (Venue.play c moves).log := by
  suffices all : Venue.Staged (fun i _ => Issuing rules i) (Venue.play c moves) ∧
      Reserving rules (Venue.play c moves).shared (Venue.play c moves).log ∧
      Keeping rules (Venue.play c moves).shared.backend (Venue.play c moves).log from all.2
  refine Venue.play_keeps_along (P := fun c : (reception rules).Crowd => Venue.Staged (fun i _ => Issuing rules i) c ∧
    Reserving rules c.shared c.log ∧ Keeping rules c.shared.backend c.log) ?_ smooth ⟨staged, reserving, keeping⟩
  intro c m smooth all
  obtain ⟨staged, reserving, keeping⟩ := all
  exact ⟨Venue.play_staged (issues rules) [m] staged, reserving_move staged reserving keeping smooth⟩

end

theorem reserving_reached (begun : Identity.Desk.open? root size order clock draws server = .ok d)
    (whole : order.Perm (Identity.Pool.ids size.toNat)) {b : Backend} (keyed : SessionsKeyed b.store.sessions)
    {rules : SessionRules} {c : (reception rules).Crowd} {moves : List (reception rules).Move}
    (reached : c = Venue.play (opened rules ⟨b, d⟩) moves) (smooth : Venue.Along Smooth (opened rules ⟨b, d⟩) moves) :
    Reserving rules c.shared c.log ∧ Keeping rules c.shared.backend c.log := by
  have distinct : order.Nodup := whole.nodup_iff.mpr (by simp [Identity.Pool.ids, List.nodup_range'])
  have fresh : d.pool = .fresh order := Identity.pool_opened begun
  subst reached
  refine reserving_play (issuing_opened rules ⟨b, d⟩) ?_ ?_ smooth
  · exact ⟨fresh ▸ Identity.Pool.keyed_fresh order, fresh ▸ Identity.Pool.noTwice_fresh distinct, by simp [opened],
      by simp [opened, Takes], by simp [opened, Takes], by simp [opened, Takes]⟩
  · exact ⟨keyed, by simp [opened, Stores], by simp [opened, Stores]⟩

-- Sessions that live at the same time share an id exactly if one of them has outstayed the reservation
-- of its id. For as long as a session outstays it, for so long it lagged behind when it was dated later
-- than its id was taken; so no two share an id if every session is dated when its id is taken.
theorem sharers_outstay (begun : Identity.Desk.open? root size order clock draws server = .ok d)
    (whole : order.Perm (Identity.Pool.ids size.toNat)) {b : Backend} (keyed : SessionsKeyed b.store.sessions)
    (rules : SessionRules) {c : (reception rules).Crowd} {moves : List (reception rules).Move}
    (reached : c = Venue.play (opened rules ⟨b, d⟩) moves) (smooth : Venue.Along Smooth (opened rules ⟨b, d⟩) moves) :
    ((∃ i j id, i ≠ j ∧ Lives rules c i id ∧ Lives rules c j id) ↔
      ∃ i j id, i ≠ j ∧ Outstays rules c i id ∧ Lives rules c j id) ∧
    (∀ i id, Outstays rules c i id → ∃ taken until' row new, Takes rules c.log i id taken until' ∧ Stores c.log i row new ∧
      until' ≤ c.shared.backend.clock ∧ c.shared.backend.clock.nanos - until'.nanos < new.createdAt.nanos - taken.nanos) ∧
    ((∀ i id taken until' row new, Takes rules c.log i id taken until' → Stores c.log i row new → new.createdAt = taken) →
      ¬∃ i j id, i ≠ j ∧ Lives rules c i id ∧ Lives rules c j id) := by
  obtain ⟨reserving, keeping⟩ := reserving_reached begun whole keyed reached smooth
  have outstaying : (∃ i j id, i ≠ j ∧ Lives rules c i id ∧ Lives rules c j id) →
      ∃ i j id, i ≠ j ∧ Outstays rules c i id ∧ Lives rules c j id := by
    intro share
    obtain ⟨i, j, id, other, lives, lives'⟩ := share
    obtain ⟨taken, until', takes⟩ := lives.takes
    obtain ⟨taken', until'', takes'⟩ := lives'.takes
    -- Whichever took the id first, its reservation was over when the other one took it.
    rcases reserving.apart i j id taken until' taken' until'' other takes takes' with ended | ended
    · have ended := Instant.le_trans ended (reserving.past j id taken' until'' takes')
      exact ⟨i, j, id, other, ⟨lives, taken, until', takes, ended⟩, lives'⟩
    · have ended := Instant.le_trans ended (reserving.past i id taken until' takes)
      exact ⟨j, i, id, other.symm, ⟨lives', taken', until'', takes', ended⟩, lives⟩
  have lagging : ∀ i id, Outstays rules c i id → ∃ taken until' row new, Takes rules c.log i id taken until' ∧
      Stores c.log i row new ∧ until' ≤ c.shared.backend.clock ∧
      c.shared.backend.clock.nanos - until'.nanos < new.createdAt.nanos - taken.nanos := by
    intro i id outstays
    obtain ⟨⟨_, _, row, new, session, _, stores, found, _, live⟩, taken, until', takes, ended⟩ := outstays
    refine ⟨taken, until', row, new, takes, stores, ended, ?_⟩
    -- Session and reservation last equally long, so they end as far apart as they begin.
    have expires : c.shared.backend.clock < new.expiresAt.floor := keeping.found stores found ▸ live
    have rounded : new.expiresAt.floor ≤ new.expiresAt := new.expiresAt.floor_le
    have dated := Instant.add?_nanos (keeping.dated i row new stores)
    obtain ⟨_, _, _, _, _, _, sum⟩ := takes
    have reserved := Instant.add?_nanos sum
    have early : c.shared.backend.clock.nanos < new.expiresAt.nanos := Int.lt_of_lt_of_le expires rounded
    omega
  refine ⟨⟨outstaying, ?_⟩, lagging, ?_⟩
  · intro share
    obtain ⟨i, j, id, other, outstays, lives⟩ := share
    exact ⟨i, j, id, other, outstays.1, lives⟩
  · intro punctual share
    obtain ⟨i, _, id, _, outstays, _⟩ := outstaying share
    obtain ⟨taken, until', row, new, takes, stores, ended, lag⟩ := lagging i id outstays
    have ended : until'.nanos ≤ c.shared.backend.clock.nanos := ended
    rw [punctual i id taken until' row new takes stores] at lag
    omega

def hurried : SessionRules := { ttl := .ofMillis 10 }

def lobby : House :=
  ⟨{ Service.bare with entropy := fun n => .replicate _ n.toUInt8 }, { Identity.oneId with server := Identity.telling }⟩

def fiveMillis : Instant := ⟨5000000, by decide⟩

def tenMillis : Instant := ⟨10000000, by decide⟩

def fifteenMillis : Instant := ⟨15000000, by decide⟩

def twentyMillis : Instant := ⟨20000000, by decide⟩

-- The first call takes the id at once but is told its character after 5 ms, so its session lives for
-- 15 ms. After 10 ms its reservation is over and reclaimed, and the second call gets the same id.
def handover : List (reception hurried).Move :=
  [.start (), .step 0, .change (.backend (.clock fiveMillis)), .step 0, .step 0, .step 0, .step 0,
   .change (.backend (.clock tenMillis)), .change (.reclaim [(1, tenMillis)]), .start (), .step 1, .step 1, .step 1, .step 1,
   .step 1]

def taken? (rules : SessionRules) (e : Entry) : Option (Nat × Nat × Instant × Option Instant) :=
  match e.question with
  | .inr (.allocate hold) =>
    match (e.before.timed.allocate hold).1 with
    | .done r => if hold = rules.ttl then some (e.call, r.id, e.before.backend.clock, e.before.backend.clock.add? hold) else none
    | _ => none
  | _ => none

def stored? (e : Entry) : Option (Nat × Int × Instant) :=
  match e.question with
  | .inl (.storeSession new) =>
    match (e.before.backend.answerNow (.storeSession new)).1 with
    | .done row => some (e.call, row, new.expiresAt)
    | _ => none
  | _ => none

theorem takes_of_taken? {rules : SessionRules} {log : List Entry} {id : Nat} {taken until' : Instant}
    (found : (i, id, taken, some until') ∈ log.filterMap (taken? rules)) : Takes rules log i id taken until' := by
  obtain ⟨⟨j, q, h⟩, member, found⟩ := List.mem_filterMap.mp found
  unfold taken? at found
  dsimp only at found
  split at found
  · split at found
    · rename_i r took
      split at found
      · rename_i same
        subst same
        simp only [Option.some.injEq, Prod.mk.injEq] at found
        obtain ⟨rfl, rfl, rfl, sum⟩ := found
        exact ⟨h, r, member, took, rfl, rfl, sum⟩
      · cases found
    · cases found
  · cases found

theorem stores_of_stored? {log : List Entry} (found : (i, row, expiresAt) ∈ log.filterMap stored?) :
    ∃ new, Stores log i row new ∧ new.expiresAt = expiresAt := by
  obtain ⟨⟨j, q, h⟩, member, found⟩ := List.mem_filterMap.mp found
  unfold stored? at found
  dsimp only at found
  split at found
  · rename_i new
    split at found
    · rename_i row' replied
      simp only [Option.some.injEq, Prod.mk.injEq] at found
      obtain ⟨rfl, rfl, rfl⟩ := found
      exact ⟨new, ⟨h, member, replied⟩, rfl⟩
    · cases found
  · cases found

theorem handover_runs :
    Venue.Along Smooth (opened hurried lobby) handover ∧
      (Venue.play (opened hurried lobby) handover).log.filterMap (taken? hurried) =
        [(0, 1, .epoch, some tenMillis), (1, 1, tenMillis, some twentyMillis)] ∧
      (Venue.play (opened hurried lobby) handover).log.filterMap stored? = [(0, 1, fifteenMillis), (1, 2, twentyMillis)] ∧
      (Venue.play (opened hurried lobby) handover).shared.backend.clock = tenMillis := by
  decide +kernel

theorem lobby_opened : Identity.Desk.open? "" 1 [1] .epoch Identity.oneId.draws Identity.telling = .ok lobby.desk := rfl

theorem lobby_keyed : SessionsKeyed lobby.backend.store.sessions := ⟨List.nodup_nil, List.nodup_nil, fun _ member => by cases member⟩

theorem lives_handover :
    Lives hurried (Venue.play (opened hurried lobby) handover) 0 1 ∧
      Lives hurried (Venue.play (opened hurried lobby) handover) 1 1 := by
  obtain ⟨smooth, takes, stores, now⟩ := handover_runs
  obtain ⟨_, keeping⟩ := reserving_reached lobby_opened (.refl _) lobby_keyed rfl smooth
  have first := takes_of_taken? (takes ▸ List.mem_cons_self)
  have second := takes_of_taken? (takes ▸ List.mem_cons_of_mem _ List.mem_cons_self)
  obtain ⟨new, stored, expires⟩ := stores_of_stored? (stores ▸ List.mem_cons_self)
  obtain ⟨new', stored', expires'⟩ := stores_of_stored? (stores ▸ List.mem_cons_of_mem _ List.mem_cons_self)
  refine ⟨keeping.lives first stored ?_, keeping.lives second stored' ?_⟩
  · rw [now, expires]
    decide
  · rw [now, expires']
    decide

theorem sharers_outstay_handover :
    Identity.Desk.open? "" 1 [1] .epoch Identity.oneId.draws Identity.telling = .ok lobby.desk ∧ [1].Perm (Identity.Pool.ids 1) ∧
      SessionsKeyed lobby.backend.store.sessions ∧ Venue.Along Smooth (opened hurried lobby) handover ∧
      ∃ i j id, i ≠ j ∧ Outstays hurried (Venue.play (opened hurried lobby) handover) i id ∧
        Lives hurried (Venue.play (opened hurried lobby) handover) j id := by
  have exactly := (sharers_outstay lobby_opened (.refl _) lobby_keyed hurried rfl handover_runs.1).1
  exact ⟨lobby_opened, .refl _, lobby_keyed, handover_runs.1,
    exactly.mp ⟨0, 1, 1, by decide, lives_handover.1, lives_handover.2⟩⟩

-- Two sessions with the same id, although no character was refused and there was an id to spare each time.
theorem live_sessions_share :
    Identity.Desk.open? "" 1 [1] .epoch Identity.oneId.draws Identity.telling = .ok lobby.desk ∧
      Venue.Along Smooth (opened hurried lobby) handover ∧
      ∃ i j id, i ≠ j ∧ Lives hurried (Venue.play (opened hurried lobby) handover) i id ∧
        Lives hurried (Venue.play (opened hurried lobby) handover) j id :=
  ⟨lobby_opened, handover_runs.1, 0, 1, 1, by decide, lives_handover.1, lives_handover.2⟩

end Forum.Reception
