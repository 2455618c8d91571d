import Forum.Proofs.Effects
import Mathlib.Data.List.Nodup

namespace Forum
variable {id : Int} {hash : TokenHash}

def NewSession.row (new : NewSession) (id : Int) : SessionRow :=
  ⟨id, new.tokenHash, new.identity, new.createdAt.millis, new.expiresAt.millis⟩

def SessionRow.rename (hash : TokenHash) (name : String) (row : SessionRow) : SessionRow :=
  if row.tokenHash = hash then { row with identity := { row.identity with name } } else row

theorem SessionRow.read_iff {row : SessionRow} {session : Session} :
    row.read = .ok session ↔ ∃ created expires, readInstant 5 row.createdAt = .ok created ∧
      readInstant 6 row.expiresAt = .ok expires ∧ session = ⟨row.id, row.tokenHash, row.identity, created, expires⟩ := by
  unfold SessionRow.read
  cases readInstant 5 row.createdAt with
  | error fault => simp [bind, Except.bind]
  | ok createdAt =>
    cases readInstant 6 row.expiresAt with
    | error fault => simp [bind, Except.bind]
    | ok expiresAt => simp [bind, Except.bind, pure, Except.pure, eq_comm]

theorem SessionRow.read_ok {row : SessionRow} {session : Session} (read : row.read = .ok session) :
    session.id = row.id ∧ session.tokenHash = row.tokenHash ∧ session.identity = row.identity := by
  obtain ⟨created, expires, _, _, rfl⟩ := SessionRow.read_iff.mp read
  exact ⟨rfl, rfl, rfl⟩

theorem NewSession.read_row (new : NewSession) (id : Int) :
    (new.row id).read = .ok ⟨id, new.tokenHash, new.identity, new.createdAt.floor, new.expiresAt.floor⟩ := by
  simp only [SessionRow.read, NewSession.row, readInstant, Instant.ofMillis?_millis, bind, Except.bind, pure, Except.pure]

-- On a connection that nobody is using, what was not committed leaves the store as it was, so an update
-- is what becomes of the session that is found.
theorem Connection.updateSession_free (s : Store) (hash : TokenHash) (edit : Store.SessionEdit) :
    Connection.updateSession { store := s } hash edit =
      match s.findSession hash with
      | .error fault => (.error (.database fault), { store := s })
      | .ok none => (.error (.notFound "session"), { store := s })
      | .ok (some session) =>
        match edit session with
        | .error e => (.error e, { store := s })
        | .ok none => (.ok (), { store := s })
        | .ok (some edited) => (.ok (), { store := s.identify edited.id edited.identity }) := by
  simp only [Connection.updateSession, Connection.begin]
  cases s.findSession hash with
  | error fault => rfl
  | ok found =>
    cases found with
    | none => rfl
    | some session =>
      dsimp only
      cases edit session with
      | error e => rfl
      | ok edited => cases edited <;> rfl

namespace Store

theorem updateSession_found (s : Store) (hash : TokenHash) (edit : SessionEdit) :
    s.updateSession hash edit =
      match s.findSession hash with
      | .error fault => .error (.database fault)
      | .ok none => .error (.notFound "session")
      | .ok (some session) =>
        match edit session with
        | .error e => .error e
        | .ok none => .ok s
        | .ok (some edited) => .ok (s.identify edited.id edited.identity) := by
  rw [updateSession, Connection.updateSession_free]
  cases s.findSession hash with
  | error fault => rfl
  | ok found =>
    cases found with
    | none => rfl
    | some session =>
      dsimp only
      cases edit session with
      | error e => rfl
      | ok edited => cases edited <;> rfl

def rename (s : Store) (hash : TokenHash) (name : String) : Store :=
  { s with sessions := { s.sessions with rows := s.sessions.rows.map (SessionRow.rename hash name) } }

theorem rename_ids (s : Store) (hash : TokenHash) (name : String) :
    (s.rename hash name).sessions.rows.map (·.id) = s.sessions.rows.map (·.id) := by
  simp only [rename, List.map_map]
  apply List.map_congr_left
  intro row _
  dsimp only [Function.comp, SessionRow.rename]
  split <;> rfl

theorem findSession_ok {s : Store} {found : Option Session} (read : s.findSession hash = .ok found) :
    (found = none ∧ s.sessions.rows.find? (·.tokenHash = hash) = none) ∨
      ∃ row session, found = some session ∧ s.sessions.rows.find? (·.tokenHash = hash) = some row ∧ row.read = .ok session := by
  unfold findSession at read
  split at read
  · rename_i row first
    cases known : row.read with
    | error fault => simp [known, Except.map] at read
    | ok session =>
      rw [known] at read
      cases read
      exact .inr ⟨row, session, rfl, first, known⟩
  · rename_i none
    cases read
    exact .inl ⟨rfl, none⟩

theorem findSession_row {s : Store} {row : SessionRow} {session : Session}
    (first : s.sessions.rows.find? (·.tokenHash = hash) = some row) (read : row.read = .ok session) :
    s.findSession hash = .ok (some session) := by
  simp only [findSession, first, read, Except.map]

theorem addSession_ok {s after : Store} (added : s.addSession new = .ok (id, after)) :
    new.createdAt.millis < new.expiresAt.millis ∧ (∀ row ∈ s.sessions.rows, row.tokenHash ≠ new.tokenHash) ∧
      id = s.sessions.lastId + 1 ∧ after = { s with sessions := (s.sessions.insert new.row).2 } := by
  unfold addSession at added
  dsimp only at added
  split at added
  · cases added
  · rename_i ordered
    split at added
    · cases added
    · rename_i unknown
      cases added
      exact ⟨Int.not_le.mp ordered, by simpa using unknown, rfl, rfl⟩

theorem renameEdit_ok {session : Session} {edited : Option Session}
    (edits : Service.Sessions.renameEdit now name session = .ok edited) :
    session.IsLiveAt now ∧ edited = some { session with identity := { session.identity with name } } := by
  unfold Service.Sessions.renameEdit at edits
  split at edits
  · cases edits
  · rename_i live
    split at edits
    · cases edits
    · cases edits
      exact ⟨by simpa using live, rfl⟩

theorem updateSession_renameEdit {s after : Store}
    (written : s.updateSession hash (Service.Sessions.renameEdit now name) = .ok after) :
    ∃ row session, s.sessions.rows.find? (·.tokenHash = hash) = some row ∧ row.read = .ok session ∧ session.IsLiveAt now ∧
      after = { s with sessions := { s.sessions with rows := s.sessions.rows.map fun other =>
        if other.id = row.id then { other with identity := { row.identity with name } } else other } } := by
  rw [updateSession_found] at written
  split at written
  · cases written
  · cases written
  · rename_i session found
    rcases findSession_ok found with ⟨none, _⟩ | ⟨row, _, same, first, read⟩
    · cases none
    · cases same
      obtain ⟨sameId, _, sameIdentity⟩ := SessionRow.read_ok read
      split at written
      · cases written
      · rename_i edits
        cases (renameEdit_ok edits).2
      · rename_i edits
        obtain ⟨live, edited⟩ := renameEdit_ok edits
        cases edited
        cases written
        refine ⟨row, session, first, read, live, ?_⟩
        simp only [identify, sameId, sameIdentity]

end Store

-- What the database enforces of sessions: an id of its own from a counter, and a token of its own.
structure SessionsKeyed (t : Table SessionRow) : Prop where
  ids : (t.rows.map (·.id)).Nodup
  tokens : (t.rows.map (·.tokenHash)).Nodup
  issued : ∀ row ∈ t.rows, row.id ≤ t.lastId

namespace SessionsKeyed
variable {t : Table SessionRow}

theorem same_row (keyed : SessionsKeyed t) {row other : SessionRow} (member : row ∈ t.rows) (also : other ∈ t.rows)
    (same : row.id = other.id) : row = other :=
  List.inj_on_of_nodup_map keyed.ids member also same

theorem find?_token (keyed : SessionsKeyed t) {row : SessionRow} (member : row ∈ t.rows) :
    t.rows.find? (·.tokenHash = row.tokenHash) = some row := by
  cases first : t.rows.find? (·.tokenHash = row.tokenHash) with
  | none => simpa using List.find?_eq_none.mp first row member
  | some other =>
    have token : other.tokenHash = row.tokenHash := by simpa using List.find?_some first
    rw [List.inj_on_of_nodup_map keyed.tokens (List.mem_of_find?_eq_some first) member token]

theorem findSession_iff {s : Store} (keyed : SessionsKeyed s.sessions) {session : Session} :
    s.findSession hash = .ok (some session) ↔ ∃ row ∈ s.sessions.rows, row.tokenHash = hash ∧ row.read = .ok session := by
  constructor
  · intro found
    rcases Store.findSession_ok found with ⟨none, _⟩ | ⟨row, _, same, first, read⟩
    · cases none
    · cases same
      exact ⟨row, List.mem_of_find?_eq_some first, by simpa using List.find?_some first, read⟩
  · intro known
    obtain ⟨row, member, rfl, read⟩ := known
    exact Store.findSession_row (keyed.find?_token member) read

theorem insert (keyed : SessionsKeyed t) {new : NewSession} (unknown : ∀ row ∈ t.rows, row.tokenHash ≠ new.tokenHash) :
    SessionsKeyed (t.insert new.row).2 where
  ids := by
    simp only [Table.insert, List.map_append, List.map_singleton, List.nodup_append]
    refine ⟨keyed.ids, by simp, ?_⟩
    intro old member fresh last same
    obtain ⟨row, known, rfl⟩ := List.mem_map.mp member
    have bound := keyed.issued row known
    simp only [NewSession.row, List.mem_singleton] at last
    omega
  tokens := by
    simp only [Table.insert, List.map_append, List.map_singleton, List.nodup_append]
    refine ⟨keyed.tokens, by simp, ?_⟩
    intro old member fresh last same
    obtain ⟨row, known, rfl⟩ := List.mem_map.mp member
    simp only [NewSession.row, List.mem_singleton] at last
    exact unknown row known (same.trans last)
  issued := by
    intro row member
    simp only [Table.insert, List.mem_append, List.mem_singleton] at member ⊢
    rcases member with old | rfl
    · have bound := keyed.issued row old
      omega
    · exact Int.le_refl _

theorem map (keyed : SessionsKeyed t) {f : SessionRow → SessionRow} (ids : ∀ row, (f row).id = row.id)
    (tokens : ∀ row, (f row).tokenHash = row.tokenHash) : SessionsKeyed { t with rows := t.rows.map f } where
  ids := by
    simp only [List.map_map, Function.comp_def, ids]
    exact keyed.ids
  tokens := by
    simp only [List.map_map, Function.comp_def, tokens]
    exact keyed.tokens
  issued := by
    intro row member
    obtain ⟨old, known, rfl⟩ := List.mem_map.mp member
    rw [ids]
    exact keyed.issued old known

theorem rename_rows (keyed : SessionsKeyed t) {row : SessionRow} (member : row ∈ t.rows) (name : String) :
    (t.rows.map fun other => if other.id = row.id then { other with identity := { row.identity with name } } else other) =
      t.rows.map (SessionRow.rename row.tokenHash name) := by
  apply List.map_congr_left
  intro other also
  unfold SessionRow.rename
  by_cases same : other.id = row.id
  · cases keyed.same_row also member same
    rw [if_pos rfl, if_pos rfl]
  · have differs : other.tokenHash ≠ row.tokenHash := by
      intro token
      exact same (congrArg _ (List.inj_on_of_nodup_map keyed.tokens also member token))
    rw [if_neg same, if_neg differs]

theorem renamed {s : Store} (keyed : SessionsKeyed s.sessions) (hash : TokenHash) (name : String) :
    SessionsKeyed (s.rename hash name).sessions := by
  refine keyed.map ?_ ?_
  · intro row
    unfold SessionRow.rename
    split <;> rfl
  · intro row
    unfold SessionRow.rename
    split <;> rfl

theorem rename {s after : Store} (keyed : SessionsKeyed s.sessions)
    (written : s.updateSession hash (Service.Sessions.renameEdit now name) = .ok after) :
    ∃ row session, row ∈ s.sessions.rows ∧ row.tokenHash = hash ∧ row.read = .ok session ∧ session.IsLiveAt now ∧
      after = s.rename hash name := by
  obtain ⟨row, session, first, read, live, rfl⟩ := Store.updateSession_renameEdit written
  have member := List.mem_of_find?_eq_some first
  have token : row.tokenHash = hash := by simpa using List.find?_some first
  refine ⟨row, session, member, token, read, live, ?_⟩
  rw [Store.rename, ← token, keyed.rename_rows member name]

end SessionsKeyed

theorem Backend.Effect.keyed {b : Backend} {q : Service.Question} {reply : Outcome q.Value} {after : Store} (lawful : q.Lawful)
    (effect : b.Effect q reply after) (keyed : SessionsKeyed b.store.sessions) : SessionsKeyed after.sessions := by
  cases effect with
  | issued added =>
    obtain ⟨_, unknown, _, rfl⟩ := Store.addSession_ok added
    exact keyed.insert unknown
  | edited written =>
    obtain ⟨now, name, rfl⟩ := lawful
    obtain ⟨_, _, _, _, _, _, rfl⟩ := keyed.rename written
    exact keyed.renamed _ name
  | commented =>
    rcases Backend.sweptFirst_cases b with same | ⟨cutoff, _, same⟩
    · simp only [Store.commented, same]
      exact keyed
    · simp only [Store.commented, same]
      exact keyed
  | _ => exact keyed

end Forum
