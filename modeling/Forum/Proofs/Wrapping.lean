import Forum.Proofs.Secrecy

namespace Forum
open Http (Refusal)

namespace Error
variable {α : Type} {e : Error}

-- What `during` leaves as it is: a rejection, or a failure that says already what was being done.
def IsSettled (e : Error) : Prop := e.kind = .internal → ∃ operation source, e = internal operation source

theorem during_settled (settled : e.IsSettled) (operation : String) : e.during operation = e := by
  cases e with
  | invalidInput | notFound | expired | notAuthorized | conflict | internal => rfl
  | _ =>
    obtain ⟨_, _, wrapped⟩ := settled rfl
    cases wrapped

theorem during_bare (bare : ¬e.IsSettled) (operation : String) : e.during operation = internal operation e := by
  cases e with
  | invalidInput | notFound | expired | notAuthorized | conflict => exact absurd nofun bare
  | internal inner source => exact absurd (fun _ => ⟨inner, source, rfl⟩) bare
  | _ => rfl

theorem kind_bare (bare : ¬e.IsSettled) : e.kind = .internal := (Classical.not_imp.mp bare).1

-- The operations that an error meets on its way out, the innermost first.
def duringAll (operations : List String) (e : Error) : Error :=
  operations.foldl (fun e operation => e.during operation) e

theorem duringAll_cons (e : Error) (first : String) (rest : List String) : e.duringAll (first :: rest) = e.during first := by
  induction rest with
  | nil => rfl
  | cons second rest ih =>
    -- The first operation leaves nothing to be wrapped by the second.
    calc e.duringAll (first :: second :: rest)
      _ = ((e.during first).during second).duringAll rest := rfl
      _ = (e.during first).duringAll rest := by rw [during_during]
      _ = e.during first := ih

theorem isExpired_eq_kind (e : Error) : e.isExpired = (e.kind == .expired) := by
  cases e <;> rfl

-- All that an error is due to, from the outside in. Below a failure that a library reported come the causes
-- which that library gives, here `beneath`; the other failures are known by their texts alone.
def causes (beneath : Error → List α) : Error → List (Error ⊕ α)
  | internal _ source => .inl source :: source.causes beneath
  | database fault => (beneath (database fault)).map .inr
  | transport text => (beneath (transport text)).map .inr
  | serialization text => (beneath (serialization text)).map .inr
  | _ => []

theorem filterMap_causes (beneath : Error → List α) (e : Error) : (e.causes beneath).filterMap Sum.getLeft? = e.sources := by
  induction e with
  | internal operation source ih => simp [causes, sources, ih]
  | _ => simp [causes, sources, List.filterMap_map]

theorem causes_during (beneath : Error → List α) (e : Error) (operation : String) :
    (e.during operation).causes beneath = e.causes beneath ∨
    (e.during operation).causes beneath = .inl e :: e.causes beneath := by
  by_cases settled : e.IsSettled
  · rw [during_settled settled]
    exact .inl rfl
  · rw [during_bare settled]
    exact .inr rfl

theorem sources_during (e : Error) (operation : String) :
    (e.during operation).sources = e.sources ∨ (e.during operation).sources = e :: e.sources := by
  let beneath : Error → List Empty := fun _ => []
  rw [← filterMap_causes beneath, ← filterMap_causes beneath]
  rcases e.causes_during beneath operation with same | longer
  · exact .inl (congrArg _ same)
  · exact .inr (congrArg _ longer)

theorem length_lengthened {chain lengthened : List α} {a : α} (one : lengthened = chain ∨ lengthened = a :: chain) :
    lengthened.length ≤ chain.length + 1 := by
  rcases one with rfl | rfl
  · exact Nat.le_succ _
  · exact Nat.le_refl _

theorem alike_during (e : Error) (operation : String) : (e.during operation).Alike e := by
  by_cases settled : e.IsSettled
  · exact .inl (during_settled settled operation)
  · exact .inr ⟨(kind_during operation e).trans (kind_bare settled), kind_bare settled⟩

-- What a response says of an error: a rejection of what was asked for speaks for itself, a session that does not
-- count is all one, and of a failure nothing is told.
def told (e : Error) : String :=
  match e with
  | invalidInput _ | notFound _ | conflict _ => e.message
  | expired | notAuthorized => "unauthorized"
  | internal .. | identityUnavailable _ | imageStorage _ | entropy _ | database _ | lockPoisoned | transport _
  | serialization _ | transactionAborted _ => "internal server error"

theorem message_ofError (e : Error) : (Refusal.ofError e).message = e.told := by
  cases e <;> rfl

-- An error that has come out through operations is as if it had met the innermost of them alone, which puts its
-- name before a failure that had none and leaves all else. Neither what kind of error it is nor the response to it
-- depends on them.
theorem wrapped_once (beneath : Error → List α) (e : Error) (first : String) (rest : List String) :
    let wrapped := e.duringAll (first :: rest)
    wrapped = e.during first ∧
    (e.IsSettled → wrapped = e) ∧ (¬e.IsSettled → wrapped = .internal first e) ∧
    wrapped.kind = e.kind ∧ wrapped.isNotFound = e.isNotFound ∧ wrapped.isExpired = e.isExpired ∧
    wrapped.sources.length ≤ e.sources.length + 1 ∧
    (wrapped.causes beneath).length ≤ (e.causes beneath).length + 1 ∧
    Refusal.ofError wrapped = Refusal.ofError e ∧ (Refusal.ofError wrapped).message = e.told := by
  intro wrapped
  have once : wrapped = e.during first := e.duringAll_cons first rest
  have kind : wrapped.kind = e.kind := once ▸ kind_during first e
  have alike : Refusal.ofError wrapped = Refusal.ofError e := once ▸ Refusal.ofError_alike (e.alike_during first)
  refine ⟨once, ?_, ?_, kind, ?_, ?_, ?_, ?_, alike, ?_⟩
  · intro settled
    rw [once, during_settled settled]
  · intro bare
    rw [once, during_bare bare]
  · unfold isNotFound
    rw [kind]
  · rw [isExpired_eq_kind, isExpired_eq_kind, kind]
  · rw [once]
    exact length_lengthened (e.sources_during first)
  · rw [once]
    exact length_lengthened (e.causes_during beneath first)
  · rw [alike, message_ofError]

example : (duringAll ["store session", "create post"] lockPoisoned).message = "store session: Database lock poisoned" := by
  decide

end Error
end Forum
