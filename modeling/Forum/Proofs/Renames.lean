import Forum.Proofs.Admission
import Forum.Proofs.Tokens
import Mathlib.Data.List.Chain

namespace Forum

theorem SessionRow.read_rename {row : SessionRow} {session : Session} (read : row.read = .ok session) (name : String) :
    (row.rename row.tokenHash name).read = .ok { session with identity := { session.identity with name } } := by
  obtain ⟨created, expires, createdAt, expiresAt, rfl⟩ := SessionRow.read_iff.mp read
  rw [rename, if_pos rfl]
  exact SessionRow.read_iff.mpr ⟨created, expires, createdAt, expiresAt, rfl⟩

namespace Store
variable {s : Store} {hash : TokenHash} {session : Session}

theorem rename_rename (s : Store) (hash : TokenHash) (first second : String) :
    (s.rename hash first).rename hash second = s.rename hash second := by
  have rows : (s.sessions.rows.map (SessionRow.rename hash first)).map (SessionRow.rename hash second) =
      s.sessions.rows.map (SessionRow.rename hash second) := by
    rw [List.map_map]
    refine List.map_congr_left fun row _ => ?_
    by_cases same : row.tokenHash = hash
    · simp [SessionRow.rename, same]
    · simp [SessionRow.rename, same]
  simp only [rename, rows]

end Store

namespace SessionsKeyed
variable {s : Store} {hash : TokenHash} {session : Session}

theorem rename_self (keyed : SessionsKeyed s.sessions) (found : s.findSession hash = .ok (some session)) :
    s.rename hash session.identity.name = s := by
  obtain ⟨row, member, rfl, read⟩ := keyed.findSession_iff.mp found
  have same : ∀ other ∈ s.sessions.rows, other.rename row.tokenHash session.identity.name = other := by
    intro other also
    unfold SessionRow.rename
    split
    · rename_i token
      cases List.inj_on_of_nodup_map keyed.tokens also member token
      rw [(SessionRow.read_ok read).2.2]
    · rfl
  simp only [Store.rename, List.map_congr_left same, List.map_id']

theorem findSession_rename (keyed : SessionsKeyed s.sessions) (found : s.findSession hash = .ok (some session)) (name : String) :
    (s.rename hash name).findSession hash = .ok (some { session with identity := { session.identity with name } }) := by
  obtain ⟨row, member, rfl, read⟩ := keyed.findSession_iff.mp found
  refine (keyed.renamed row.tokenHash name).findSession_iff.mpr ⟨row.rename row.tokenHash name, List.mem_map_of_mem member, ?_, ?_⟩
  · simp [SessionRow.rename]
  · exact SessionRow.read_rename read name

theorem updateSession_eq (keyed : SessionsKeyed s.sessions) (found : s.findSession hash = .ok (some session))
    (live : session.IsLiveAt now) (name : String) :
    s.updateSession hash (Service.Sessions.renameEdit now name) =
      if session.identity.name = name then .error (.invalidInput "no fields changed") else .ok (s.rename hash name) := by
  obtain ⟨row, member, rfl, read⟩ := keyed.findSession_iff.mp found
  obtain ⟨sameId, _, sameIdentity⟩ := SessionRow.read_ok read
  simp only [Store.updateSession_found, found, Service.Sessions.renameEdit, live, not_true, if_false]
  by_cases same : session.identity.name = name
  · simp only [same, if_true]
  · simp only [same, if_false]
    rw [Store.rename, ← keyed.rename_rows member name, Store.identify, sameId, sameIdentity]

end SessionsKeyed

namespace Service
open Board (Entry)
open Venue (Reaches)

structure Attempt where
  call : Nat
  name : String
  succeeds : Bool

namespace Attempt

def rest (a : Attempt) : Operation Unit := if a.succeeds then .done () else .fail (.invalidInput "no fields changed")

def given (attempts : List Attempt) : List String := (attempts.filter (·.succeeds)).map (·.name)

def nameAfter (initial : String) (attempts : List Attempt) : String := (given attempts).getLast?.getD initial

theorem rest_ended (a : Attempt) : ∃ outcome, a.rest = .ofOutcome outcome := by
  unfold rest
  split
  · exact ⟨.done (), rfl⟩
  · exact ⟨.failed _, rfl⟩

theorem rest_done (a : Attempt) : a.rest = .done () ↔ a.succeeds = true := by
  unfold rest
  split <;> simp_all

theorem given_concat (attempts : List Attempt) (a : Attempt) :
    given (attempts ++ [a]) = given attempts ++ if a.succeeds then [a.name] else [] := by
  simp only [given, List.filter_append, List.map_append]
  cases won : a.succeeds <;> simp [won]

theorem nameAfter_concat (initial : String) (attempts : List Attempt) (a : Attempt) :
    nameAfter initial (attempts ++ [a]) = if a.succeeds then a.name else nameAfter initial attempts := by
  simp only [nameAfter, given_concat]
  cases a.succeeds <;> simp

end Attempt

def attempt? (e : Entry) : Option Nat :=
  match e.question with
  | .updateSession _ _ => if e.before.mishap .updateSession = none then some e.call else none
  | _ => none

-- Renames of one session while it is live, with nothing else going on.
inductive Contends {rules : Rules} (token : Token) (session : Session) : (hall rules).Move → Prop
  | start (name : String) : Contends token session (.start (.rename token name))
  | step (i : Nat) : Contends token session (.step i)
  | clock (live : session.IsLiveAt now) : Contends token session (.change (.clock now))
  | script (script : Script) : Contends token session (.change (.script script))

-- The renames of a session one after another, each judged by the name that the last successful one left.
structure Contest (rules : Rules) (s : Store) (token : Token) (session : Session) (c : (hall rules).Crowd)
    (attempts : List Attempt) : Prop where
  reached : Venue.Staged (fun i e mine rest => Reaches Backend.answerNow i (Errand.body rules e) mine rest) c
  renames : ∀ f ∈ c.flights, ∃ name, f.call = .rename token name
  alive : session.IsLiveAt c.shared.clock
  lived : ∀ e ∈ c.log, session.IsLiveAt e.before.clock
  order : c.log.filterMap attempt? = attempts.map (·.call)
  ended : ∀ a ∈ attempts, Sessions.Fits rules.session a.name ∧ c.flights[a.call]? = some ⟨.rename token a.name, a.rest⟩
  once : (attempts.map (·.call)).Nodup
  judged : ∀ k a, attempts[k]? = some a →
    (a.succeeds = true ↔ a.name ≠ Attempt.nameAfter session.identity.name (attempts.take k))
  chain : (session.identity.name :: Attempt.given attempts).IsChain (· ≠ ·)
  store : c.shared.store = s.rename token.hash (Attempt.nameAfter session.identity.name attempts)

namespace Contest
variable {rules : Rules} {s : Store} {token : Token} {session : Session} {c : (hall rules).Crowd} {attempts : List Attempt}

theorem opened {b : Backend} (keyed : SessionsKeyed b.store.sessions) (found : b.store.findSession token.hash = .ok (some session))
    (live : session.IsLiveAt b.clock) : Contest rules b.store token session (opened rules b) [] where
  reached := ⟨by simp [Service.opened], by simp [Service.opened]⟩
  renames := by simp [Service.opened]
  alive := live
  lived := by simp [Service.opened]
  order := rfl
  ended := by simp
  once := .nil
  judged := by simp
  chain := by simp [Attempt.given]
  store := (keyed.rename_self found).symm

theorem start (contest : Contest rules s token session c attempts) (name : String) :
    Contest rules s token session (Venue.start c (.rename token name)) attempts where
  reached := contest.reached.start (Venue.reaches_stages _) _
  renames := by
    intro f member
    rcases List.mem_append.mp member with old | new
    · exact contest.renames f old
    · rw [List.mem_singleton.mp new]
      exact ⟨name, rfl⟩
  alive := contest.alive
  lived := contest.lived
  order := contest.order
  ended := by
    intro a member
    obtain ⟨fits, returned⟩ := contest.ended a member
    exact ⟨fits, by rw [Venue.start_others (List.getElem?_eq_some_iff.mp returned).1, returned]⟩
  once := contest.once
  judged := contest.judged
  chain := contest.chain
  store := contest.store

theorem elapse (contest : Contest rules s token session c attempts) {x : Board.Shift}
    (alive : session.IsLiveAt (Board.shift x c.shared).clock) : Contest rules s token session (Venue.elapse c x) attempts where
  reached := contest.reached.elapse x
  renames := contest.renames
  alive := alive
  lived := contest.lived
  order := contest.order
  ended := contest.ended
  once := contest.once
  judged := contest.judged
  chain := contest.chain
  store := (Board.shift_store x c.shared).trans contest.store

section
variable {i : Nat} {name : String} {q : Question} {next : Outcome q.Value → Operation Unit}

theorem asked_lived (contest : Contest rules s token session c attempts) :
    session.IsLiveAt (Venue.ask c i (.rename token name) q next).shared.clock ∧
      ∀ e ∈ (Venue.ask c i (.rename token name) q next).log, session.IsLiveAt e.before.clock := by
  refine ⟨?_, ?_⟩
  · change session.IsLiveAt (c.shared.answerNow q).2.clock
    rw [(Backend.answerNow_frame c.shared q).clock]
    exact contest.alive
  · intro e member
    rcases List.mem_append.mp member with old | new
    · exact contest.lived e old
    · rw [List.mem_singleton.mp new]
      exact contest.alive

theorem asked_renames (contest : Contest rules s token session c attempts) :
    ∀ f ∈ (Venue.ask c i (.rename token name) q next).flights, ∃ name, f.call = .rename token name := by
  intro f member
  rcases List.mem_or_eq_of_mem_set member with old | rfl
  · exact contest.renames f old
  · exact ⟨name, rfl⟩

theorem asked_ended (contest : Contest rules s token session c attempts)
    (waits : c.flights[i]? = some ⟨.rename token name, .ask q next⟩) (member : a ∈ attempts) :
    a.call ≠ i ∧ Sessions.Fits rules.session a.name ∧
      (Venue.ask c i (.rename token name) q next).flights[a.call]? = some ⟨.rename token a.name, a.rest⟩ := by
  obtain ⟨fits, returned⟩ := contest.ended a member
  have other : a.call ≠ i := by
    intro same
    obtain ⟨outcome, ended⟩ := a.rest_ended
    rw [same, waits, ended] at returned
    cases outcome <;> cases returned
  exact ⟨other, fits, by rw [Venue.ask_others (Ne.symm other), returned]⟩

theorem calm (contest : Contest rules s token session c attempts)
    (waits : c.flights[i]? = some ⟨.rename token name, .ask q next⟩) (apart : attempt? ⟨i, q, c.shared⟩ = none)
    (store : (c.shared.answerNow q).2.store = c.shared.store) :
    Contest rules s token session (Venue.ask c i (.rename token name) q next) attempts where
  reached := contest.reached.ask (Venue.reaches_stages _) waits
  renames := contest.asked_renames
  alive := contest.asked_lived.1
  lived := contest.asked_lived.2
  order := by
    simp only [Venue.ask, List.filterMap_append, List.filterMap_cons, apart, List.filterMap_nil, List.append_nil]
    exact contest.order
  ended := fun a member => (contest.asked_ended waits member).2
  once := contest.once
  judged := contest.judged
  chain := contest.chain
  store := store.trans contest.store

theorem concat (contest : Contest rules s token session c attempts)
    (waits : c.flights[i]? = some ⟨.rename token name, .ask q next⟩) (comes : attempt? ⟨i, q, c.shared⟩ = some i)
    (fits : Sessions.Fits rules.session name) {won : Bool} (returns : next (c.shared.answerNow q).1 = (Attempt.mk i name won).rest)
    (judged : won = true ↔ name ≠ Attempt.nameAfter session.identity.name attempts)
    (store : (c.shared.answerNow q).2.store =
      s.rename token.hash (if won then name else Attempt.nameAfter session.identity.name attempts)) :
    Contest rules s token session (Venue.ask c i (.rename token name) q next) (attempts ++ [⟨i, name, won⟩]) where
  reached := contest.reached.ask (Venue.reaches_stages _) waits
  renames := contest.asked_renames
  alive := contest.asked_lived.1
  lived := contest.asked_lived.2
  order := by
    simp only [Venue.ask, List.filterMap_append, List.filterMap_cons, comes, List.filterMap_nil, contest.order,
      List.map_append, List.map_cons, List.map_nil]
  ended := by
    intro a member
    rcases List.mem_append.mp member with old | new
    · exact (contest.asked_ended waits old).2
    · rw [List.mem_singleton.mp new]
      exact ⟨fits, (Venue.ask_flight waits).trans (congrArg (fun rest => some (Venue.Flight.mk _ rest)) returns)⟩
  once := by
    rw [List.map_append, List.nodup_append]
    refine ⟨contest.once, List.nodup_singleton _, ?_⟩
    intro call member other new
    obtain ⟨a, old, rfl⟩ := List.mem_map.mp member
    rw [List.mem_singleton.mp new]
    exact (contest.asked_ended waits old).1
  judged := by
    intro k a found
    rcases Nat.lt_trichotomy k attempts.length with old | rfl | beyond
    · rw [List.getElem?_append_left old] at found
      rw [List.take_append_of_le_length (Nat.le_of_lt old)]
      exact contest.judged k a found
    · rw [List.getElem?_concat_length, Option.some.injEq] at found
      subst found
      rw [List.take_left]
      exact judged
    · rw [List.getElem?_eq_none (by rw [List.length_append]; exact beyond)] at found
      cases found
  chain := by
    rw [Attempt.given_concat]
    cases won with
    | false => simpa using contest.chain
    | true =>
      rw [if_pos rfl, ← List.cons_append, List.isChain_append]
      -- A name is only added by a success, which was judged by the name that the chain ends in.
      refine ⟨contest.chain, .singleton _, ?_⟩
      intro x last y head same
      rw [List.getLast?_cons, Option.mem_some_iff] at last
      cases head
      exact judged.mp rfl (same.symm.trans last.symm)
  store := by
    rw [Attempt.nameAfter_concat]
    exact store

theorem comes (contest : Contest rules s token session c attempts) {now : Instant}
    (keyed : SessionsKeyed s.sessions) (found : s.findSession token.hash = .ok (some session))
    (waits : c.flights[i]? = some ⟨.rename token name,
      .ask (.updateSession token.hash (Sessions.renameEdit now name)) Sessions.settled⟩)
    (fits : Sessions.Fits rules.session name) (live : session.IsLiveAt now) (works : c.shared.mishap .updateSession = none) :
    ∃ won, Contest rules s token session
      (Venue.ask c i (.rename token name) (.updateSession token.hash (Sessions.renameEdit now name)) Sessions.settled)
      (attempts ++ [⟨i, name, won⟩]) := by
  have rekeyed : SessionsKeyed c.shared.store.sessions := contest.store ▸ keyed.renamed token.hash _
  have current := keyed.findSession_rename found (Attempt.nameAfter session.identity.name attempts)
  rw [← contest.store] at current
  have written := rekeyed.updateSession_eq current live name
  have replied := Backend.answerNow_updateSession works token.hash (Sessions.renameEdit now name)
  have comes : attempt? ⟨i, .updateSession token.hash (Sessions.renameEdit now name), c.shared⟩ = some i := if_pos works
  rw [written] at replied
  by_cases same : Attempt.nameAfter session.identity.name attempts = name
  · rw [if_pos same] at replied
    refine ⟨false, contest.concat waits comes fits ?_ ?_ ?_⟩
    · rw [replied]
      rfl
    · simp [same]
    · rw [replied]
      exact contest.store
  · rw [if_neg same] at replied
    refine ⟨true, contest.concat waits comes fits ?_ ?_ ?_⟩
    · rw [replied]
      rfl
    · simp [Ne.symm same]
    · rw [replied]
      change c.shared.store.rename token.hash name = _
      rw [contest.store, Store.rename_rename]
      rfl

theorem move (contest : Contest rules s token session c attempts) (keyed : SessionsKeyed s.sessions)
    (found : s.findSession token.hash = .ok (some session)) (contends : Contends token session m) :
    ∃ attempts, Contest rules s token session (Venue.move c m) attempts := by
  cases contends with
  | start name => exact ⟨attempts, contest.start name⟩
  | clock live => exact ⟨attempts, contest.elapse live⟩
  | script script => exact ⟨attempts, contest.elapse contest.alive⟩
  | step i =>
    rcases Venue.move_step_cases c i with ⟨e, q, next, waits, same⟩ | same
    · rw [same]
      obtain ⟨name, rfl⟩ := contest.renames _ (List.mem_of_getElem? waits)
      have stands := Sessions.renaming_reached (contest.reached.stands i _ waits)
      generalize asked : c.asked i = mine at stands
      cases stands with
      | clock _ asks =>
        cases asks
        exact ⟨attempts, contest.calm waits rfl rfl⟩
      | update fits =>
        rename_i u
        have member : ⟨i, .now, u⟩ ∈ c.asked i := by simp [asked]
        have live := contest.lived _ (Venue.mem_asked.mp member).1
        cases works : c.shared.mishap .updateSession with
        | none =>
          obtain ⟨won, contest⟩ := contest.comes keyed found waits fits live works
          exact ⟨_, contest⟩
        | some mishap =>
          refine ⟨attempts, contest.calm waits ?_ ?_⟩
          · simp [attempt?, works]
          · have fails : c.shared.mishap .updateSession ≠ none := by simp [works]
            exact congrArg (·.store) (Backend.answerNow_updateSession_mishap fails _).2
      | complete _ ended => exact absurd ended.symm (Procedure.ofOutcome_ne_ask _)
    · rw [same]
      exact ⟨attempts, contest⟩

end

theorem stands (contest : Contest rules s token session c attempts) {rest : Operation Unit}
    (flight : c.flights[i]? = some ⟨.rename token name, rest⟩) :
    i ∈ attempts.map (·.call) ∨
      (¬Sessions.Fits rules.session name ∧ rest = .fail (.invalidInput (Sessions.nameLengthText rules.session))) ∨
      (Sessions.Fits rules.session name ∧ (rest.Asking ∨ ¬Works c .updateSession i ∧ rest ≠ .done ())) := by
  have stands := Sessions.renaming_reached (contest.reached.stands i _ flight)
  generalize asked : c.asked i = mine at stands
  cases stands with
  | unfit unfit => exact .inr (.inl ⟨unfit, rfl⟩)
  | clock fits waits => exact .inr (.inr ⟨fits, .inl ⟨_, _, waits⟩⟩)
  | update fits => exact .inr (.inr ⟨fits, .inl ⟨_, _, rfl⟩⟩)
  | complete fits ended =>
    rename_i u t
    have member : ⟨i, .updateSession token.hash (Sessions.renameEdit u.clock name), t⟩ ∈ c.asked i := by simp [asked]
    by_cases works : t.mishap .updateSession = none
    · left
      rw [← contest.order]
      exact List.mem_filterMap.mpr ⟨_, (Venue.mem_asked.mp member).1, if_pos works⟩
    · refine .inr (.inr ⟨fits, .inr ⟨fun all => works (all _ member), ?_⟩⟩)
      intro done
      exact (Backend.answerNow_updateSession_mishap works _).1 () (Sessions.settled_done.mp (ended.symm.trans done))

theorem returned (contest : Contest rules s token session c attempts) (i : Nat) (name : String) :
    c.flights[i]? = some ⟨.rename token name, .done ()⟩ ↔ ∃ a ∈ attempts, a.call = i ∧ a.name = name ∧ a.succeeds = true := by
  constructor
  · intro flight
    rcases contest.stands flight with judged | ⟨_, failed⟩ | ⟨_, ⟨_, _, asks⟩ | ⟨_, other⟩⟩
    · obtain ⟨a, member, rfl⟩ := List.mem_map.mp judged
      have same := (contest.ended a member).2.symm.trans flight
      simp only [Option.some.injEq, Venue.Flight.mk.injEq, Errand.rename.injEq, true_and] at same
      obtain ⟨rfl, done⟩ := same
      exact ⟨a, member, rfl, rfl, a.rest_done.mp (eq_of_heq done)⟩
    · cases failed
    · cases asks
    · exact absurd rfl other
  · intro won
    obtain ⟨a, member, rfl, rfl, succeeds⟩ := won
    rw [(contest.ended a member).2, Attempt.rest, if_pos succeeds]

theorem one_succeeds (contest : Contest rules s token session c attempts) (new : name ≠ session.identity.name)
    (tried : attempts ≠ []) (same : ∀ a ∈ attempts, a.name = name) :
    ∃! i : Nat, c.flights[i]? = some ⟨.rename token name, .done ()⟩ := by
  have first : ∃ a ∈ attempts, a.succeeds = true := by
    obtain ⟨a, rest, rfl⟩ := List.exists_cons_of_ne_nil tried
    refine ⟨a, List.mem_cons_self, (contest.judged 0 a rfl).mpr ?_⟩
    rw [same a List.mem_cons_self]
    exact new
  have winners : ∃ a, attempts.filter (·.succeeds) = [a] := by
    have chain := contest.chain
    have named : ∀ a ∈ attempts.filter (·.succeeds), a.name = name := fun a member => same a (List.mem_filter.mp member).1
    unfold Attempt.given at chain
    rcases won : attempts.filter (·.succeeds) with _ | ⟨a, _ | ⟨b, rest⟩⟩
    · obtain ⟨a, member, succeeds⟩ := first
      exact absurd (List.mem_filter.mpr ⟨member, succeeds⟩) (won ▸ List.not_mem_nil)
    · exact ⟨a, won⟩
    · rw [won] at chain named
      have differs : a.name ≠ b.name := by simp_all
      exact absurd ((named a (by simp)).trans (named b (by simp)).symm) differs
  obtain ⟨a, won⟩ := winners
  have only : ∀ b, b ∈ attempts ∧ b.succeeds = true ↔ b = a := by
    intro b
    rw [← List.mem_singleton (b := a), ← won, List.mem_filter]
  obtain ⟨member, succeeds⟩ := (only a).mpr rfl
  refine ⟨a.call, (contest.returned _ _).mpr ⟨a, member, rfl, same a member, succeeds⟩, ?_⟩
  intro i flight
  obtain ⟨b, member, rfl, _, succeeds⟩ := (contest.returned _ _).mp flight
  rw [(only b).mp ⟨member, succeeds⟩]

end Contest

-- However renames of one live session interleave, they take effect one after another, in the order in
-- which they come to the rows. One that has a fit name succeeds if and only if the session goes by
-- another name by then, and the store at the end is the first one under the name that the last one left.
theorem renames_serialized (rules : Rules) {b : Backend} {token : Token} {session : Session}
    (keyed : SessionsKeyed b.store.sessions) (found : b.store.findSession token.hash = .ok (some session))
    (live : session.IsLiveAt b.clock) {moves : List (hall rules).Move}
    (contends : Venue.Along (fun _ => Contends token session) (opened rules b) moves) :
    let c := Venue.play (opened rules b) moves
    ∃ attempts : List Attempt, c.log.filterMap attempt? = attempts.map (·.call) ∧ (attempts.map (·.call)).Nodup ∧
      (∀ k a, attempts[k]? = some a →
        Sessions.Fits rules.session a.name ∧ c.flights[a.call]? = some ⟨.rename token a.name, a.rest⟩ ∧
        (a.succeeds = true ↔ a.name ≠ Attempt.nameAfter session.identity.name (attempts.take k))) ∧
      (∀ (i : Nat) name rest, c.flights[i]? = some ⟨.rename token name, rest⟩ → i ∈ attempts.map (·.call) ∨
        (¬Sessions.Fits rules.session name ∧ rest = .fail (.invalidInput (Sessions.nameLengthText rules.session))) ∨
        (Sessions.Fits rules.session name ∧ (rest.Asking ∨ ¬Works c .updateSession i ∧ rest ≠ .done ()))) ∧
      (∀ (i : Nat) name, c.flights[i]? = some ⟨.rename token name, .done ()⟩ ↔
        ∃ a ∈ attempts, a.call = i ∧ a.name = name ∧ a.succeeds = true) ∧
      c.shared.store = b.store.rename token.hash (Attempt.nameAfter session.identity.name attempts) ∧
      (session.identity.name :: Attempt.given attempts).IsChain (· ≠ ·) ∧
      ∀ name, name ≠ session.identity.name → attempts ≠ [] → (∀ a ∈ attempts, a.name = name) →
        ∃! i : Nat, c.flights[i]? = some ⟨.rename token name, .done ()⟩ := by
  intro c
  obtain ⟨attempts, contest⟩ : ∃ attempts, Contest rules b.store token session c attempts := by
    refine Venue.play_keeps_along (P := fun c => ∃ attempts, Contest rules b.store token session c attempts) ?_ contends
      ⟨[], .opened keyed found live⟩
    intro d m contends contest
    obtain ⟨attempts, contest⟩ := contest
    exact contest.move keyed found contends
  refine ⟨attempts, contest.order, contest.once, ?_, ?_, contest.returned, contest.store, contest.chain, ?_⟩
  · intro k a place
    obtain ⟨fits, returned⟩ := contest.ended a (List.mem_of_getElem? place)
    exact ⟨fits, returned, contest.judged k a place⟩
  · intro i name rest flight
    exact contest.stands flight
  · intro name new tried same
    exact contest.one_succeeds new tried same

def twoRenames : List (hall seconds).Move :=
  [.start (.rename ⟨"abc"⟩ "Summer"), .start (.rename ⟨"abc"⟩ "Summer"), .step 0, .step 1, .step 1, .step 0]

theorem renames_serialized_two :
    let c := Venue.play (opened seconds Http.Gate.visited) twoRenames
    SessionsKeyed Http.Gate.visited.store.sessions ∧
      Http.Gate.visited.store.findSession (Token.hash ⟨"abc"⟩) = .ok (some Http.Gate.ann) ∧
      Http.Gate.ann.IsLiveAt Http.Gate.visited.clock ∧
      Venue.Along (fun _ => Contends ⟨"abc"⟩ Http.Gate.ann) (opened seconds Http.Gate.visited) twoRenames ∧
      ∃! i : Nat, c.flights[i]? = some ⟨.rename ⟨"abc"⟩ "Summer", .done ()⟩ := by
  intro c
  have keyed : SessionsKeyed Http.Gate.visited.store.sessions :=
    ⟨by simp [Http.Gate.visited], by simp [Http.Gate.visited], by simp [Http.Gate.visited]⟩
  have found : Http.Gate.visited.store.findSession (Token.hash ⟨"abc"⟩) = .ok (some Http.Gate.ann) :=
    keyed.findSession_iff.mpr ⟨_, List.mem_singleton_self _, rfl, rfl⟩
  have live : Http.Gate.ann.IsLiveAt Http.Gate.visited.clock := by decide
  have contends : Venue.Along (fun _ => Contends ⟨"abc"⟩ Http.Gate.ann) (opened seconds Http.Gate.visited) twoRenames :=
    ⟨.start _, .start _, .step 0, .step 1, .step 1, .step 0, trivial⟩
  obtain ⟨attempts, order, _, judged, _, _, _, _, once⟩ := renames_serialized seconds keyed found live contends
  have tried : (Venue.play (opened seconds Http.Gate.visited) twoRenames).log.filterMap attempt? = [1, 0] := by decide +kernel
  rw [tried] at order
  refine ⟨keyed, found, live, contends, once "Summer" (by decide) ?_ ?_⟩
  · intro none
    rw [none] at order
    cases order
  · intro a member
    obtain ⟨k, place⟩ := List.getElem?_of_mem member
    obtain ⟨_, returned, _⟩ := judged k a place
    have call : a.call = 1 ∨ a.call = 0 := by simpa [← order] using List.mem_map_of_mem (f := Attempt.call) member
    have begun : (Venue.play (opened seconds Http.Gate.visited) (twoRenames.take 2)).flights[a.call]? =
        some ⟨.rename ⟨"abc"⟩ "Summer", Sessions.rename seconds.session ⟨"abc"⟩ "Summer"⟩ := by
      rcases call with call | call
      · rw [call]
        rfl
      · rw [call]
        rfl
    obtain ⟨rest, flight⟩ := Venue.play_call (twoRenames.drop 2) begun
    rw [← Venue.play_append, List.take_append_drop] at flight
    have same := returned.symm.trans flight
    simp only [Option.some.injEq, Venue.Flight.mk.injEq, Errand.rename.injEq, true_and] at same
    exact same.1

end Service
end Forum
