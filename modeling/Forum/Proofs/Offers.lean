import Forum.Proofs.Returning

namespace Forum.Http
open Procedure (Asks)
open Service (Operation Question SessionRules)

namespace Cookie
variable {part value : List Char} {parts : List (List Char)} {headers : List (List UInt8)}
  {counts : List Char → Bool}

def partsOf (headers : List (List UInt8)) : List (List Char) :=
  (headers.filterMap Header.text?).flatMap (Text.splitAll ';')

def Offers (part value : List Char) : Prop := ∃ raw, Text.trimChars part = named raw ∧ value = Text.trimChars raw

def First (counts : List Char → Bool) (parts : List (List Char)) (value : List Char) : Prop :=
  ∃ early part late, parts = early ++ part :: late ∧ (Offers part value ∧ counts value = true) ∧
    ∀ other ∈ early, ∀ offered, Offers other offered → counts offered = false

def anyValue (_ : List Char) : Bool := true

def filled (value : List Char) : Bool := !value.isEmpty

structure Overlooked (headers : List (List UInt8)) : Prop where
  cleared : First anyValue (partsOf headers) []
  sent : ∃ part ∈ partsOf headers, ∃ value, Offers part value ∧ filled value = true

def offer? (part : List Char) : Option (List Char) :=
  (read part).bind fun (key, raw) => if key = name.toList then some (Text.trimChars raw) else none

theorem offer?_eq_some : offer? part = some value ↔ Offers part value := by
  unfold offer? Offers
  constructor
  · intro offered
    obtain ⟨⟨key, raw⟩, reads, kept⟩ := Option.bind_eq_some_iff.mp offered
    dsimp only at kept
    split at kept
    · rename_i same
      subst same
      exact ⟨raw, splitPair_eq reads, (Option.some.inj kept).symm⟩
    · cases kept
  · rintro ⟨raw, same, rfl⟩
    have reads : read part = some (name.toList, raw) := by
      rw [read, same]
      exact splitPair_append (by decide) raw
    rw [reads]
    exact congrArg some rfl

theorem find?_offer (parts : List (List Char)) :
    ((parts.filterMap read).find? (·.1 = name.toList)).map (fun e => Text.trimChars e.2) = parts.findSome? offer? := by
  induction parts with
  | nil => rfl
  | cons part rest ih =>
    rw [List.findSome?_cons, ← ih]
    unfold offer?
    cases reads : read part with
    | none =>
      rw [List.filterMap_cons_none reads]
      rfl
    | some e =>
      rw [List.filterMap_cons_some reads]
      by_cases same : e.1 = name.toList
      · rw [List.find?_cons_of_pos (by simp [same])]
        simp [same]
      · rw [List.find?_cons_of_neg (by simp [same])]
        simp [same]

theorem token?_eq (headers : List (List UInt8)) :
    token? headers = ((partsOf headers).findSome? offer?).bind fun value => if value = [] then none else some ⟨.ofList value⟩ := by
  have read : ∀ texts : List (List Char), texts.flatMap pairs = (texts.flatMap (Text.splitAll ';')).filterMap read := by
    intro texts
    induction texts with
    | nil => rfl
    | cons text rest ih =>
      rw [List.flatMap_cons, List.flatMap_cons, List.filterMap_append, ih]
      rfl
  rw [token?, read, ← find?_offer]
  rfl

theorem first_iff : First counts parts value ↔ parts.findSome? (fun part => (offer? part).filter counts) = some value := by
  have passes : ∀ part value, (offer? part).filter counts = some value ↔ Offers part value ∧ counts value = true := by
    intro part value
    rw [Option.filter_eq_some_iff, offer?_eq_some]
  have passed : ∀ part, (offer? part).filter counts = none ↔ ∀ offered, Offers part offered → counts offered = false := by
    intro part
    simp only [← offer?_eq_some]
    cases offer? part <;> simp
  rw [List.findSome?_eq_some_iff]
  simp only [passes, passed, First]

theorem First.unique {other : List Char} (one : First counts parts value) (two : First counts parts other) : value = other :=
  Option.some.inj ((first_iff.mp one).symm.trans (first_iff.mp two))

theorem exists_first (known : part ∈ parts) (offers : Offers part value) (counted : counts value = true) :
    ∃ first, First counts parts first := by
  simp only [first_iff, ← Option.isSome_iff_exists, List.findSome?_isSome_iff]
  refine ⟨part, known, ?_⟩
  rw [offer?_eq_some.mpr offers]
  simp [Option.filter, counted]

theorem First.filled (first : First anyValue parts value) (isFilled : Cookie.filled value = true) :
    First Cookie.filled parts value := by
  obtain ⟨early, part, late, whole, ⟨offers, _⟩, before⟩ := first
  refine ⟨early, part, late, whole, ⟨offers, isFilled⟩, ?_⟩
  intro other member offered others
  exact absurd (before other member offered others) (by simp [anyValue])

theorem token?_iff {token : Token} : token? headers = some token ↔
    ∃ value, First anyValue (partsOf headers) value ∧ filled value = true ∧ token = ⟨.ofList value⟩ := by
  have search : (partsOf headers).findSome? offer? = (partsOf headers).findSome? fun part => (offer? part).filter anyValue := by
    congr 1
    funext part
    cases offer? part <;> rfl
  rw [token?_eq, search]
  simp only [first_iff, Option.bind_eq_some_iff]
  apply exists_congr
  intro value
  apply and_congr_right
  intro _
  cases value <;> simp [filled, eq_comm]

theorem token?_filled_iff (headers : List (List UInt8)) :
    (∀ token, token? headers = some token ↔ ∃ value, First filled (partsOf headers) value ∧ token = ⟨.ofList value⟩) ↔
      ¬Overlooked headers := by
  constructor
  · intro taken overlooked
    obtain ⟨part, known, value, offers, isFilled⟩ := overlooked.sent
    obtain ⟨first, sent⟩ := exists_first known offers isFilled
    obtain ⟨other, cleared, isFilled', _⟩ := token?_iff.mp ((taken _).mpr ⟨first, sent, rfl⟩)
    rw [← overlooked.cleared.unique cleared] at isFilled'
    cases isFilled'
  · intro seen token
    rw [token?_iff]
    constructor
    · rintro ⟨value, first, isFilled, same⟩
      exact ⟨value, first.filled isFilled, same⟩
    · rintro ⟨value, sent, same⟩
      have ⟨early, part, late, whole, ⟨offers, isFilled⟩, _⟩ := sent
      have known : part ∈ partsOf headers := whole ▸ List.mem_append_right early List.mem_cons_self
      obtain ⟨first, found⟩ : ∃ first, First anyValue (partsOf headers) first := exists_first known offers rfl
      have kept : filled first = true := by
        cases first with
        | nil => exact absurd ⟨found, part, known, value, offers, isFilled⟩ seen
        | cons c rest => rfl
      have agree := (found.filled kept).unique sent
      subst agree
      exact ⟨first, found, kept, same⟩

theorem token?_unsent (unsent : ∀ value, First anyValue (partsOf headers) value → value = []) : token? headers = none := by
  rw [Option.eq_none_iff_forall_ne_some]
  intro token taken
  obtain ⟨value, first, isFilled, _⟩ := token?_iff.mp taken
  rw [unsent value first] at isFilled
  cases isFilled

end Cookie

namespace Gate
open Cookie (First anyValue filled partsOf Overlooked)

-- The token that a visitor sends is taken, and no session is stored for their request, unless an empty
-- session cookie stands before all others: then the visitor is issued one, as if they had sent none.
theorem sent_token_taken_iff (headers : List (List UInt8)) :
    ((∀ token, Cookie.token? headers = some token ↔
        ∃ value, First filled (partsOf headers) value ∧ token = ⟨.ofList value⟩) ↔ ¬Overlooked headers) ∧
    (∀ value, First anyValue (partsOf headers) value → filled value = true →
      Cookie.token? headers = some ⟨.ofList value⟩ ∧
      (∀ rules secure go, pass rules secure headers go = requireSession secure ⟨.ofList value⟩ go) ∧
      ∀ settings route r, r.values "cookie" = headers → (Server.gated settings route r).Asks Question.Steady) ∧
    ((∀ value, First anyValue (partsOf headers) value → value = []) →
      Cookie.token? headers = none ∧
      ∀ rules secure go, pass rules secure headers go = do
        let issued ← Service.Sessions.issue rules
        let response ← requireSession secure issued.token go
        return response.addCookie (Cookie.issue issued.token issued.expiresAt secure)) := by
  refine ⟨Cookie.token?_filled_iff headers, ?_, ?_⟩
  · intro value first isFilled
    have taken := Cookie.token?_iff.mpr ⟨value, first, isFilled, rfl⟩
    refine ⟨taken, ?_, ?_⟩
    · intro rules secure go
      exact pass_sent taken
    · intro settings route r same
      exact steady_gated (same ▸ taken) route
  · intro unsent
    have none := Cookie.token?_unsent unsent
    refine ⟨none, ?_⟩
    intro rules secure go
    exact pass_unsent none

def clearedFirst : List (List UInt8) := ["session_token=; session_token=abc".toUTF8.toList]

theorem sent_token_overlooked :
    First filled (partsOf clearedFirst) "abc".toList ∧ Cookie.token? clearedFirst = none ∧ Overlooked clearedFirst := by
  have sent : First filled (partsOf clearedFirst) "abc".toList := Cookie.first_iff.mpr (by decide +kernel)
  have cleared : First anyValue (partsOf clearedFirst) [] := Cookie.first_iff.mpr (by decide +kernel)
  have ⟨early, part, late, whole, offers, _⟩ := sent
  exact ⟨sent, by decide +kernel, cleared, part, whole ▸ List.mem_append_right early List.mem_cons_self, _, offers⟩

end Gate
end Forum.Http
