import Forum.Http.Cookie
import Mathlib.Data.List.Basic

namespace Forum

namespace Text
section
variable {α : Type}

theorem splitAll_intercalate [DecidableEq α] {separator : α} {parts : List (List α)} (none : ∀ part ∈ parts, separator ∉ part)
    (some : parts ≠ []) : splitAll separator (List.intercalate [separator] parts) = parts := by
  induction parts with
  | nil => exact absurd rfl some
  | cons first rest ih =>
    cases rest with
    | nil =>
      rw [List.intercalate_singleton]
      exact splitAll_of_notMem (none first List.mem_cons_self)
    | cons second rest =>
      rw [List.intercalate_cons_cons, List.append_assoc, List.singleton_append,
        splitAll_append (none first List.mem_cons_self),
        ih (fun part member => none part (List.mem_cons_of_mem _ member)) (List.cons_ne_nil _ _)]

theorem mem_intercalate {x : α} {between : List α} {parts : List (List α)} (member : x ∈ List.intercalate between parts) :
    x ∈ between ∨ ∃ part ∈ parts, x ∈ part := by
  induction parts with
  | nil => cases member
  | cons first rest ih =>
    cases rest with
    | nil =>
      rw [List.intercalate_singleton] at member
      exact .inr ⟨first, List.mem_cons_self, member⟩
    | cons second rest =>
      simp only [List.intercalate_cons_cons, List.mem_append] at member
      rcases member with (here | apart) | later
      · exact .inr ⟨first, List.mem_cons_self, here⟩
      · exact .inl apart
      · rcases ih later with apart | ⟨part, known, among⟩
        · exact .inl apart
        · exact .inr ⟨part, List.mem_cons_of_mem _ known, among⟩

end

end Text

namespace Http

namespace Header

def ofChars (cs : List Char) : List UInt8 := cs.map (·.toNat.toUInt8)

theorem text?_ofChars {cs : List Char} (allowed : ∀ c ∈ cs, Allows c) : text? (ofChars cs) = some cs := by
  have small : ∀ c, Allows c → c.toNat.toUInt8.toNat = c.toNat := by
    intro c allows
    have bound : c.toNat < 256 := by
      rcases allows with rfl | ⟨_, high⟩
      · decide
      · omega
    simpa using Nat.mod_eq_of_lt bound
  have printable : ((ofChars cs).all fun b => b = 9 || (32 ≤ b && b < 127)) = true := by
    simp only [ofChars, List.all_map, List.all_eq_true, Function.comp_apply, Bool.or_eq_true, Bool.and_eq_true,
      decide_eq_true_eq]
    intro c member
    have allows := allowed c member
    have same := small c allows
    rcases allows with rfl | ⟨low, high⟩
    · exact .inl rfl
    · right
      simp only [UInt8.le_iff_toNat_le, UInt8.lt_iff_toNat_lt, same]
      exact ⟨low, high⟩
  have back : (ofChars cs).map (fun b => Char.ofNat b.toNat) = cs := by
    rw [ofChars, List.map_map]
    refine (List.map_congr_left ?_).trans (List.map_id cs)
    intro c member
    rw [Function.comp_apply, small c (allowed c member), Char.ofNat_toNat]
    rfl
  rw [text?, if_pos printable, back]

theorem IsValue.append {s t : String} (one : IsValue s) (two : IsValue t) : IsValue (s ++ t) := by
  intro c member
  rw [String.toList_append] at member
  rcases List.mem_append.mp member with first | second
  · exact one c first
  · exact two c second

theorem allows_digit {c : Char} (digit : c.isDigit = true) : Allows c := by
  have bounds : 48 ≤ c.toNat ∧ c.toNat ≤ 57 := by
    simpa [Char.isDigit, UInt32.le_iff_toNat_le] using digit
  right
  omega

theorem isValue_padded (width n : Nat) : IsValue (Text.padded width n) := by
  intro c member
  rw [Text.padded, String.toList_ofList] at member
  apply allows_digit
  rcases List.mem_append.mp member with zero | digit
  · rw [List.eq_of_mem_replicate zero]
    rfl
  · exact Nat.isDigit_of_mem_toDigits (by decide) (by decide) digit

theorem isValue_yearText (year : Int) : IsValue (yearText year) := by
  unfold yearText
  split
  · exact isValue_padded _ _
  · refine IsValue.append ?_ (isValue_padded _ _)
    split <;> decide

theorem isValue_weekdayName (day : Int) : IsValue (Date.weekdayName day) := by
  unfold Date.weekdayName
  split <;> decide

theorem isValue_monthName (month : Nat) : IsValue (Date.monthName month) := by
  unfold Date.monthName
  split <;> decide

theorem isValue_cookieDate (t : Instant) : IsValue t.cookieDate := by
  have blank : IsValue " " := by decide
  have colon : IsValue ":" := by decide
  have day := ((isValue_weekdayName t.day).append (by decide : IsValue ", ")).append (isValue_padded 2 t.civil.date.day)
  have month := (day.append blank).append (isValue_monthName t.civil.date.month)
  have year := (month.append blank).append (isValue_yearText t.civil.date.year)
  have hour := (year.append blank).append (isValue_padded 2 t.civil.hour)
  have minute := (hour.append colon).append (isValue_padded 2 t.civil.minute)
  have second := (minute.append colon).append (isValue_padded 2 t.civil.second)
  exact second.append (by decide : IsValue " GMT")

end Header

namespace Cookie

def pair (setCookie : String) : List Char := setCookie.toList.takeWhile (· ≠ ';')

def named (value : List Char) : List Char := name.toList ++ '=' :: value

-- A part of a Cookie header, between two semicolons.
structure IsPart (part : List Char) : Prop where
  allowed : ∀ c ∈ part, Header.Allows c
  single : ';' ∉ part

-- A part that is about another cookie, or about none.
structure Foreign (part : List Char) : Prop extends IsPart part where
  other : ∀ value, Text.trimChars part ≠ named value

def IsPadding (cs : List Char) : Prop := ∀ c ∈ cs, c = ' ' ∨ c = '\t'

def header (parts : List (List Char)) : List UInt8 := Header.ofChars (List.intercalate [';'] parts)

-- Cookie headers with a pair somewhere among parts that are about other cookies.
inductive Carries (pair : List Char) : List (List UInt8) → Prop
  | among {headers : List (List (List Char))} {early late : List (List Char)} {lead trail : List Char}
      (parts : headers.flatten = early ++ (lead ++ pair ++ trail) :: late) (foreign : ∀ part ∈ early ++ late, Foreign part)
      (before : IsPadding lead) (after : IsPadding trail) : Carries pair (headers.map header)

theorem isPart_iff {part : List Char} : IsPart part ↔ (part.all fun c => Header.Allows c ∧ c ≠ ';') = true := by
  simp only [List.all_eq_true, decide_eq_true_eq]
  constructor
  · intro whole c member
    exact ⟨whole.allowed c member, fun same => whole.single (same ▸ member)⟩
  · intro each
    exact ⟨fun c member => (each c member).1, fun member => (each ';' member).2 rfl⟩

instance (part : List Char) : Decidable (IsPart part) := decidable_of_iff _ isPart_iff.symm

theorem IsPart.append {first second : List Char} (one : IsPart first) (two : IsPart second) : IsPart (first ++ second) := by
  rw [isPart_iff, List.all_append, isPart_iff.mp one, isPart_iff.mp two]
  rfl

theorem IsPadding.blank {cs : List Char} (padding : IsPadding cs) : ∀ c ∈ cs, Text.isBlank c = true := by
  intro c member
  rcases padding c member with rfl | rfl <;> rfl

theorem IsPadding.isPart {cs : List Char} (padding : IsPadding cs) : IsPart cs where
  allowed := by
    intro c member
    rcases padding c member with rfl | rfl <;> decide
  single := by
    intro member
    rcases padding _ member with same | same <;> cases same

def read (part : List Char) : Option (List Char × List Char) := splitPair (Text.trimChars part)

theorem splitPair_eq {cs key value : List Char} (split : splitPair cs = some (key, value)) : cs = key ++ '=' :: value := by
  unfold splitPair at split
  split at split
  · rename_i sign rest dropped
    cases split
    have stopped := List.head?_dropWhile_not (· ≠ '=') cs
    rw [dropped] at stopped
    have same : sign = '=' := by simpa using stopped
    calc
      cs = cs.takeWhile (· ≠ '=') ++ cs.dropWhile (· ≠ '=') := List.takeWhile_append_dropWhile.symm
      _ = cs.takeWhile (· ≠ '=') ++ '=' :: value := by rw [dropped, same]
  · cases split

theorem splitPair_append {key : List Char} (none : '=' ∉ key) (value : List Char) :
    splitPair (key ++ '=' :: value) = some (key, value) := by
  have before : ∀ c ∈ key, decide (c ≠ '=') = true := by
    intro c member
    exact decide_eq_true fun same => none (same ▸ member)
  rw [splitPair, List.dropWhile_append_of_pos before, List.takeWhile_append_of_pos before]
  simp

section
variable {parts : List (List Char)} {value : List Char}

theorem pairs_intercalate (each : ∀ part ∈ parts, IsPart part) :
    pairs (List.intercalate [';'] parts) = parts.filterMap read := by
  cases parts with
  | nil => rfl
  | cons first rest =>
    have split := Text.splitAll_intercalate (fun part member => (each part member).single) (List.cons_ne_nil first rest)
    rw [pairs, split]
    rfl

theorem text?_header (each : ∀ part ∈ parts, IsPart part) :
    Header.text? (header parts) = some (List.intercalate [';'] parts) := by
  apply Header.text?_ofChars
  intro c member
  rcases Text.mem_intercalate member with separator | ⟨part, known, among⟩
  · rw [List.mem_singleton.mp separator]
    decide
  · exact (each part known).allowed c among

theorem flatMap_pairs {headers : List (List (List Char))} (each : ∀ parts ∈ headers, ∀ part ∈ parts, IsPart part) :
    ((headers.map header).filterMap Header.text?).flatMap pairs = headers.flatten.filterMap read := by
  induction headers with
  | nil => rfl
  | cons parts rest ih =>
    have here : ∀ part ∈ parts, IsPart part := each parts List.mem_cons_self
    rw [List.map_cons, List.filterMap_cons_some (text?_header here), List.flatMap_cons, pairs_intercalate here,
      ih (fun parts member => each parts (List.mem_cons_of_mem _ member)), List.flatten_cons, List.filterMap_append]

theorem find?_foreign (foreign : ∀ part ∈ parts, Foreign part) :
    (parts.filterMap read).find? (·.1 = name.toList) = none := by
  rw [List.find?_eq_none]
  intro e member key
  obtain ⟨part, known, reads⟩ := List.mem_filterMap.mp member
  obtain ⟨_, value⟩ := e
  obtain rfl := of_decide_eq_true key
  exact (foreign part known).other value (splitPair_eq reads)

theorem IsPart.foreign {part : List Char} (whole : IsPart part) (other : ∀ e ∈ read part, e.1 ≠ name.toList) : Foreign part where
  toIsPart := whole
  other := by
    intro value same
    refine other (name.toList, value) ?_ rfl
    rw [read, same]
    exact splitPair_append (by decide) value

theorem named_bare (bare : ∀ c ∈ value, Text.isBlank c = false) : ∀ c ∈ named value, Text.isBlank c = false := by
  have key : (name.toList.all fun c => !Text.isBlank c) = true := by decide
  intro c member
  rcases List.mem_append.mp member with within | rest
  · simpa using List.all_eq_true.mp key c within
  · rcases List.mem_cons.mp rest with rfl | among
    · rfl
    · exact bare c among

theorem read_named {lead trail : List Char} (before : IsPadding lead) (after : IsPadding trail)
    (bare : ∀ c ∈ value, Text.isBlank c = false) : read (lead ++ named value ++ trail) = some (name.toList, value) := by
  have trimmed : Text.trimChars (lead ++ named value ++ trail) = named value := by
    apply Text.trimChars_padded before.blank after.blank
    · simp [named]
    · exact named_bare bare
  rw [read, trimmed]
  exact splitPair_append (by decide) value

theorem Carries.token?_eq {headers : List (List UInt8)} (carries : Carries (named value) headers) (whole : IsPart (named value))
    (filled : value ≠ []) (bare : ∀ c ∈ value, Text.isBlank c = false) : token? headers = some ⟨.ofList value⟩ := by
  cases carries with
  | @among headers early late lead trail parts foreign before after =>
    have each : ∀ part ∈ headers.flatten, IsPart part := by
      intro part member
      rw [parts, List.mem_append, List.mem_cons] at member
      rcases member with one | rfl | other
      · exact (foreign part (List.mem_append_left _ one)).toIsPart
      · exact (before.isPart.append whole).append after.isPart
      · exact (foreign part (List.mem_append_right _ other)).toIsPart
    have found : (headers.flatten.filterMap read).find? (·.1 = name.toList) = some (name.toList, value) := by
      rw [parts, List.filterMap_append, List.filterMap_cons_some (read_named before after bare), List.find?_append,
        find?_foreign fun part member => foreign part (List.mem_append_left _ member), Option.none_or,
        List.find?_cons_of_pos (by simp)]
    have trimmed : Text.trimChars value = value := by
      have padded : Text.trimChars ([] ++ value ++ []) = value :=
        Text.trimChars_padded (by simp) (by simp) filled bare
      rwa [List.nil_append, List.append_nil] at padded
    rw [token?, flatMap_pairs fun parts known part member => each part (List.mem_flatten.mpr ⟨parts, known, member⟩), found]
    simp [trimmed, filled]

end

theorem plain_digit {c : Char} (digit : c ∈ Token.alphabet) : Text.isBlank c = false ∧ Header.Allows c ∧ c ≠ ';' := by
  have all : (Token.alphabet.all fun c => Text.isBlank c = false ∧ Header.Allows c ∧ c ≠ ';') = true := by decide
  exact of_decide_eq_true (List.all_eq_true.mp all c digit)

section
variable (entropy : Token.Entropy)

theorem bare_token : ∀ c ∈ Token.digits entropy.toList, Text.isBlank c = false :=
  fun _ member => (plain_digit (Token.mem_alphabet_of_mem_digits member)).1

theorem isPart_token : IsPart (named (Token.digits entropy.toList)) := by
  have key : IsPart (name.toList ++ ['=']) := by decide
  have value : IsPart (Token.digits entropy.toList) := by
    rw [isPart_iff, List.all_eq_true]
    intro c member
    exact decide_eq_true (plain_digit (Token.mem_alphabet_of_mem_digits member)).2
  have parts : named (Token.digits entropy.toList) = (name.toList ++ ['=']) ++ Token.digits entropy.toList :=
    (List.append_assoc name.toList ['='] _).symm
  rw [parts]
  exact key.append value

theorem pair_issue (expires : Instant) (secure : Bool) :
    pair (issue (.ofEntropy entropy) expires secure) = named (Token.digits entropy.toList) := by
  have whole : ∀ c ∈ named (Token.digits entropy.toList), decide (c ≠ ';') = true := by
    intro c member
    exact decide_eq_true fun same => (isPart_token entropy).single (same ▸ member)
  have rest : ∃ attributes, (issue (.ofEntropy entropy) expires secure).toList =
      named (Token.digits entropy.toList) ++ ';' :: attributes := by
    refine ⟨(" Path=/; Expires=" ++ expires.cookieDate ++ "; HttpOnly;" ++
      (if secure then " Secure;" else "") ++ " SameSite=Lax").toList, ?_⟩
    simp [issue, named, Token.ofEntropy]
  obtain ⟨attributes, issued⟩ := rest
  rw [pair, issued, List.takeWhile_append_of_pos whole]
  simp

theorem isValue_token : Header.IsValue (Token.ofEntropy entropy).plain := by
  intro c member
  rw [Token.ofEntropy, String.toList_ofList] at member
  exact (plain_digit (Token.mem_alphabet_of_mem_digits member)).2.1

-- No session is lost to a cookie that cannot be sent.
theorem issue?_ofEntropy (expires : Instant) (secure : Bool) :
    issue? (.ofEntropy entropy) expires secure = some (issue (.ofEntropy entropy) expires secure) := by
  have key : Header.IsValue (name ++ "=") := by decide
  have path := (key.append (isValue_token entropy)).append (by decide : Header.IsValue "; Path=/; Expires=")
  have dated := (path.append (Header.isValue_cookieDate expires)).append (by decide : Header.IsValue "; HttpOnly;")
  have secured := dated.append (t := if secure then " Secure;" else "") (by cases secure <;> decide)
  exact if_pos (secured.append (by decide : Header.IsValue " SameSite=Lax"))

theorem token?_issued {expires : Instant} {secure : Bool} {headers : List (List UInt8)}
    (carries : Carries (pair (issue (.ofEntropy entropy) expires secure)) headers) :
    token? headers = some (.ofEntropy entropy) := by
  have filled : Token.digits entropy.toList ≠ [] := by
    have given := Token.isEmpty_ofEntropy entropy
    simpa [Token.isEmpty, Token.ofEntropy] using given
  rw [pair_issue] at carries
  exact carries.token?_eq (isPart_token entropy) filled (bare_token entropy)

end

end Cookie
end Http
end Forum
