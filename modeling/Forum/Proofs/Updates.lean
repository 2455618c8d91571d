import Forum.Proofs.Sessions

namespace Forum
variable {s : Store} {hash : TokenHash} {row : SessionRow} {id : Int}

def Store.identifyHolder (s : Store) (hash : TokenHash) (identity : Identity) : Store :=
  let write := fun row : SessionRow => if row.tokenHash = hash then { row with identity } else row
  { s with sessions := { s.sessions with rows := s.sessions.rows.map write } }

theorem Store.findSession_absent (absent : ∀ row ∈ s.sessions.rows, row.tokenHash ≠ hash) : s.findSession hash = .ok none := by
  have none : s.sessions.rows.find? (·.tokenHash = hash) = none := by simpa [List.find?_eq_none] using absent
  simp only [findSession, none]

namespace SessionsKeyed

theorem findSession_unreadable (keyed : SessionsKeyed s.sessions) (member : row ∈ s.sessions.rows) (read : row.read = .error fault) :
    s.findSession row.tokenHash = .error fault := by
  simp only [Store.findSession, keyed.find?_token member, read]
  rfl

theorem identify_iff (keyed : SessionsKeyed s.sessions) (member : row ∈ s.sessions.rows) (identity : Identity) :
    s.identify id identity = s.identifyHolder row.tokenHash identity ↔
      id = row.id ∨ (row.identity = identity ∧ ∀ other ∈ s.sessions.rows, other.id = id → other.identity = identity) := by
  -- Both write row by row, so they agree exactly if they do so at each row.
  have rows : s.identify id identity = s.identifyHolder row.tokenHash identity ↔
      ∀ other ∈ s.sessions.rows, (if other.id = id then { other with identity } else other) =
        if other.tokenHash = row.tokenHash then { other with identity } else other := by
    simp only [Store.identify, Store.identifyHolder, Store.mk.injEq, Table.mk.injEq, and_true, List.map_inj_left]
  have holder : ∀ other ∈ s.sessions.rows, other.tokenHash = row.tokenHash ↔ other = row := by
    intro other also
    exact ⟨List.inj_on_of_nodup_map keyed.tokens also member, congrArg _⟩
  rw [rows]
  constructor
  · intro same
    by_cases own : id = row.id
    · exact .inl own
    refine .inr ⟨?_, ?_⟩
    · have kept := same row member
      rw [if_neg (Ne.symm own), if_pos rfl] at kept
      exact congrArg SessionRow.identity kept
    · intro other also named
      have differs : other ≠ row := fun equal => own (named ▸ congrArg SessionRow.id equal)
      have changed := same other also
      rw [if_pos named, if_neg (mt (holder other also).mp differs)] at changed
      exact (congrArg SessionRow.identity changed).symm
  · intro either other also
    by_cases equal : other = row
    · subst equal
      rw [if_pos rfl]
      rcases either with own | ⟨has, _⟩
      · rw [if_pos own.symm]
      · split
        · rfl
        · rw [← has]
    · rw [if_neg (mt (holder other also).mp equal)]
      split
      · rename_i named
        rcases either with own | ⟨_, have'⟩
        · exact absurd (keyed.same_row also member (named.trans own)) equal
        · rw [← have' other also named]
      · rfl

end SessionsKeyed

-- What an update by token comes to, whatever its callback makes of the session. Without a session, or
-- with one that cannot be read, the callback has no part in it; a refusal of the callback is handed on;
-- and otherwise its identity is written by the id that it has left. So that goes to the holder of the
-- token and to nobody else exactly if the callback has kept the id, or changes nobody's identity.
theorem updates_holder_iff (keyed : SessionsKeyed s.sessions) (hash : TokenHash) (edit : Store.SessionEdit) :
    let ran := Connection.updateSession { store := s } hash edit
    (∃ t, ran.2.begin = .ok t) ∧
    ((∀ row ∈ s.sessions.rows, row.tokenHash ≠ hash) → ran = (.error (.notFound "session"), { store := s })) ∧
    ∀ row ∈ s.sessions.rows, row.tokenHash = hash →
      (∀ fault, row.read = .error fault → ran = (.error (.database fault), { store := s })) ∧
      ∀ session, row.read = .ok session →
        (∀ e, edit session = .error e → ran = (.error e, { store := s })) ∧
        (edit session = .ok none → ran = (.ok (), { store := s })) ∧
        ∀ edited, edit session = .ok (some edited) →
          ran = (.ok (), { store := s.identify edited.id edited.identity }) ∧
          (ran.2.store = s.identifyHolder hash edited.identity ↔
            edited.id = row.id ∨ (row.identity = edited.identity ∧
              ∀ other ∈ s.sessions.rows, other.id = edited.id → other.identity = edited.identity)) := by
  intro ran
  have comes : ran = _ := Connection.updateSession_free s hash edit
  refine ⟨?_, ?_, ?_⟩
  · refine Connection.begin_free ?_
    rw [comes]
    split
    · rfl
    · rfl
    · split <;> rfl
  · intro absent
    rw [comes, Store.findSession_absent absent]
  · intro row member token
    subst token
    constructor
    · intro fault read
      rw [comes, keyed.findSession_unreadable member read]
    · intro session read
      rw [keyed.findSession_iff.mpr ⟨row, member, rfl, read⟩] at comes
      dsimp only at comes
      refine ⟨?_, ?_, ?_⟩
      · intro e refuses
        rw [comes, refuses]
      · intro declines
        rw [comes, declines]
      · intro edited edits
        rw [edits] at comes
        rw [comes]
        exact ⟨rfl, keyed.identify_iff member edited.identity⟩

def neighbours : Store where
  sessions := ⟨[⟨1, ⟨"one"⟩, ⟨7, "Birdperson", ""⟩, 0, 1000⟩, ⟨2, ⟨"two"⟩, ⟨8, "Squanchy", ""⟩, 0, 1000⟩], 2⟩

def posingAs (id : Int) (name : String) : Store.SessionEdit := fun session =>
  .ok (some { session with id, identity := { session.identity with name } })

theorem keyed_neighbours : SessionsKeyed neighbours.sessions := ⟨by decide, by decide, by decide⟩

theorem updates_holder_iff_neighbours :
    SessionsKeyed neighbours.sessions ∧
      (Connection.updateSession { store := neighbours } ⟨"one"⟩ (posingAs 1 "Phoenix")).2.store =
        neighbours.identifyHolder ⟨"one"⟩ ⟨7, "Phoenix", ""⟩ ∧
      (Connection.updateSession { store := neighbours } ⟨"one"⟩ (posingAs 2 "Phoenix")).2.store ≠
        neighbours.identifyHolder ⟨"one"⟩ ⟨7, "Phoenix", ""⟩ := by
  have known : (⟨1, ⟨"one"⟩, ⟨7, "Birdperson", ""⟩, 0, 1000⟩ : SessionRow) ∈ neighbours.sessions.rows := List.mem_cons_self
  have keeping := updates_holder_iff keyed_neighbours ⟨"one"⟩ (posingAs 1 "Phoenix")
  have posing := updates_holder_iff keyed_neighbours ⟨"one"⟩ (posingAs 2 "Phoenix")
  refine ⟨keyed_neighbours, ?_, ?_⟩
  · exact (((keeping.2.2 _ known rfl).2 _ rfl).2.2 _ rfl).2.mpr (.inl rfl)
  · intro same
    rcases (((posing.2.2 _ known rfl).2 _ rfl).2.2 _ rfl).2.mp same with own | ⟨has, _⟩
    · exact absurd own (by decide)
    · exact absurd has (by decide)

-- The update by the token of the first session says that it is done. The first session has its identity
-- still, and the second one has lost its own.
theorem neighbour_overwritten :
    (Connection.updateSession { store := neighbours } ⟨"one"⟩ (posingAs 2 "Phoenix")).1 = .ok () ∧
      (Connection.updateSession { store := neighbours } ⟨"one"⟩ (posingAs 2 "Phoenix")).2.store.sessions.rows =
        [⟨1, ⟨"one"⟩, ⟨7, "Birdperson", ""⟩, 0, 1000⟩, ⟨2, ⟨"two"⟩, ⟨7, "Phoenix", ""⟩, 0, 1000⟩] := by
  exact ⟨rfl, rfl⟩

end Forum
