import Mathlib
import Forum.Text.Blank
import Forum.Settings

namespace Forum

namespace Text

theorem digits?_eq {cs : List Char} (digits : ∀ c ∈ cs, c.isDigit = true) (value : Nat) :
    digits? value cs = some (Nat.ofDigitChars 10 cs value) := by
  induction cs generalizing value with
  | nil => rfl
  | cons c rest ih =>
    have shifted : value * 10 + (c.toNat - 48) = 10 * value + (c.toNat - '0'.toNat) := by
      rw [Nat.mul_comm]
      rfl
    rw [digits?, if_pos (digits c List.mem_cons_self), ih (fun d member => digits d (List.mem_cons_of_mem _ member)),
      Nat.ofDigitChars_cons, shifted]

theorem digit_not_blank {c : Char} (digit : c.isDigit = true) : isBlank c = false := by
  have range : 48 ≤ c.toNat ∧ c.toNat ≤ 57 := by
    simpa [Char.isDigit, UInt32.le_iff_toNat_le] using digit
  simp only [isBlank, Bool.or_eq_false_iff, Bool.and_eq_false_iff, decide_eq_false_iff_not, beq_eq_false_iff_ne]
  omega

theorem unsigned?_repr {limit n : Nat} (small : n ≤ limit) : unsigned? limit (trimChars (toString n).toList) = some n := by
  have digits : ∀ c ∈ Nat.toDigits 10 n, c.isDigit = true := fun c => Nat.isDigit_of_mem_toDigits (by decide) (by decide)
  have written : (toString n).toList = [] ++ Nat.toDigits 10 n ++ [] := by
    simp
  have trimmed : trimChars (toString n).toList = Nat.toDigits 10 n := by
    rw [written]
    exact trimChars_padded (by simp) (by simp) Nat.toDigits_ne_nil fun c member => digit_not_blank (digits c member)
  have read : natural? (Nat.toDigits 10 n) = some n := by
    unfold natural?
    split
    · rename_i empty
      exact absurd empty Nat.toDigits_ne_nil
    · rw [digits?_eq digits, Nat.ofDigitChars_toDigits (by decide) (by decide)]
  rw [trimmed, unsigned?]
  · simp [read, small]
  · intro rest plus
    exact absurd (digits '+' (plus ▸ List.mem_cons_self)) (by decide)

end Text

namespace Settings

inductive Kind
  | text
  | natural
  | integer
  | truth

namespace Kind

def Value : Kind → Type
  | .text => String
  | .natural => Nat
  | .integer => Int
  | .truth => Bool

def ofItem? : (kind : Kind) → Toml.Item → Option kind.Value
  | .text => Field.text
  | .natural => Field.natural
  | .integer => Field.integer
  | .truth => Field.truth

-- Texts are taken as they are. Other values may stand between white space.
def ofVariable? : (kind : Kind) → String → Option kind.Value
  | .text => some
  | .natural => fun raw => Text.unsigned? Text.maxUnsigned64 (Text.trimChars raw.toList)
  | .integer => fun raw => Text.integer? (Text.trimChars raw.toList)
  | .truth => fun raw => Text.truth? (Text.trimChars raw.toList)

end Kind

inductive Key
  | addr
  | databasePath
  | sessionTtl
  | postGrace
  | commentGrace
  | sweepInterval
  | requestTimeout
  | identityUrl
  | identityPoolSize
  | identityReclaim
  | storageUrl
  | storageCodeLength
  | secureCookies
deriving DecidableEq

namespace Key

def all : List Key :=
  [.addr, .databasePath, .sessionTtl, .postGrace, .commentGrace, .sweepInterval, .requestTimeout, .identityUrl, .identityPoolSize,
    .identityReclaim, .storageUrl, .storageCodeLength, .secureCookies]

theorem mem_all (k : Key) : k ∈ all := by cases k <;> decide

def kind : Key → Kind
  | .addr | .databasePath | .identityUrl | .storageUrl => .text
  | .identityPoolSize => .integer
  | .secureCookies => .truth
  | _ => .natural

def inFile : Key → String
  | .addr => "addr"
  | .databasePath => "database_path"
  | .sessionTtl => "session_ttl_secs"
  | .postGrace => "post_grace_secs"
  | .commentGrace => "comment_grace_secs"
  | .sweepInterval => "sweep_interval_secs"
  | .requestTimeout => "request_timeout_secs"
  | .identityUrl => "identity_url"
  | .identityPoolSize => "identity_pool_size"
  | .identityReclaim => "identity_reclaim_secs"
  | .storageUrl => "storage_url"
  | .storageCodeLength => "storage_code_length"
  | .secureCookies => "secure_cookies"

def inEnvironment : Key → String
  | .addr => "FORUM_ADDR"
  | .databasePath => "FORUM_DATABASE_PATH"
  | .sessionTtl => "FORUM_SESSION_TTL"
  | .postGrace => "FORUM_POST_GRACE"
  | .commentGrace => "FORUM_COMMENT_GRACE"
  | .sweepInterval => "FORUM_SWEEP_INTERVAL"
  | .requestTimeout => "FORUM_REQUEST_TIMEOUT"
  | .identityUrl => "FORUM_IDENTITY_URL"
  | .identityPoolSize => "FORUM_IDENTITY_POOL"
  | .identityReclaim => "FORUM_IDENTITY_RECLAIM"
  | .storageUrl => "FORUM_STORAGE_URL"
  | .storageCodeLength => "FORUM_STORAGE_CODE_LENGTH"
  | .secureCookies => "FORUM_SECURE_COOKIES"

end Key

def get (s : Settings) : (k : Key) → k.kind.Value
  | .addr => s.addr
  | .databasePath => s.databasePath
  | .sessionTtl => s.sessionTtlSecs
  | .postGrace => s.postGraceSecs
  | .commentGrace => s.commentGraceSecs
  | .sweepInterval => s.sweepIntervalSecs
  | .requestTimeout => s.requestTimeoutSecs
  | .identityUrl => s.identityUrl
  | .identityPoolSize => s.identityPoolSize
  | .identityReclaim => s.identityReclaimSecs
  | .storageUrl => s.storageUrl
  | .storageCodeLength => s.storageCodeLength
  | .secureCookies => s.secureCookies

namespace Key

def given? (k : Key) (env : Environment) : Option k.kind.Value := (env k.inEnvironment).bind k.kind.ofVariable?

def filed? (k : Key) (entries : Toml.Entries) : Option k.kind.Value := (entries.lookup k.inFile).bind k.kind.ofItem?

-- What a setting should be: the variable goes before the file, and the file before the default.
def preferred (k : Key) (entries : Toml.Entries) (env : Environment) : k.kind.Value :=
  ((k.given? env).or (k.filed? entries)).getD (({} : Settings).get k)

end Key

def WellTyped (entries : Toml.Entries) : Prop := ∀ k : Key, ∀ item ∈ entries.lookup k.inFile, (k.kind.ofItem? item).isSome = true

instance (entries : Toml.Entries) : Decidable (WellTyped entries) :=
  decidable_of_iff (∀ k ∈ Key.all, ∀ item ∈ entries.lookup k.inFile, (k.kind.ofItem? item).isSome = true)
    ⟨fun each k => each k k.mem_all, fun each k _ => each k⟩

inductive File.Holds : File → Toml.Entries → Prop
  | absent : Holds .absent []
  | bytes (decoded : Text.Utf8.decode? content = some text) (parsed : Toml.ofText? text = some entries) :
      Holds (.bytes content) entries

def unchecked (path : String) (file : File) (env : Environment) : Except Fault Settings :=
  (ofFile path file).map (·.withEnvironment env)

structure Valid (s : Settings) : Prop where
  sessionTtl : 0 < s.sessionTtlSecs
  sweepInterval : 0 < s.sweepIntervalSecs
  requestTimeout : 0 < s.requestTimeoutSecs
  identityReclaim : 0 < s.identityReclaimSecs
  sessionTtl_le : s.sessionTtlSecs ≤ 3153600000
  postGrace_le : s.postGraceSecs ≤ 3153600000
  commentGrace_le : s.commentGraceSecs ≤ 3153600000
  poolSize : 1 ≤ s.identityPoolSize

section
variable {s t : Settings} {entries : Toml.Entries} {env : Environment} {path : String} {file : File}

theorem ext_get (same : ∀ k, s.get k = t.get k) : s = t := by
  cases s
  cases t
  simp only [mk.injEq]
  exact ⟨same .addr, same .databasePath, same .sessionTtl, same .postGrace, same .commentGrace, same .sweepInterval,
    same .requestTimeout, same .identityUrl, same .identityPoolSize, same .identityReclaim, same .storageUrl,
    same .storageCodeLength, same .secureCookies⟩

theorem override_eq (parse : List Char → Option α) (setTo : Option String) (before : α) :
    Field.override parse setTo before = (setTo.bind fun raw => parse (Text.trimChars raw.toList)).getD before := by
  cases setTo <;> rfl

theorem get_withEnvironment (s : Settings) (env : Environment) (k : Key) :
    (s.withEnvironment env).get k = (k.given? env).getD (s.get k) := by
  have text : ∀ (setTo : Option String) (before : String), setTo.getD before = (setTo.bind some).getD before := by simp
  cases k with
  | addr | databasePath | identityUrl | storageUrl => exact text _ _
  | _ => exact override_eq _ _ _

theorem check_iff : s.check = none ↔ s.Valid := by
  rw [check_eq_none_iff]
  simp only [positives, lifetimes, List.mem_cons, List.not_mem_nil, or_false, forall_eq_or_imp, forall_eq]
  constructor
  · rintro ⟨⟨session, sweep, timeout, reclaim⟩, ⟨session_le, post_le, comment_le⟩, pool⟩
    exact ⟨session, sweep, timeout, reclaim, session_le, post_le, comment_le, pool⟩
  · intro valid
    exact ⟨⟨valid.sessionTtl, valid.sweepInterval, valid.requestTimeout, valid.identityReclaim⟩,
      ⟨valid.sessionTtl_le, valid.postGrace_le, valid.commentGrace_le⟩, valid.poolSize⟩

theorem read_typed {accept : Toml.Item → Option α} {key : String} (typed : ∀ item ∈ entries.lookup key, (accept item).isSome = true)
    (fallback : α) : Field.read accept entries key fallback = some (((entries.lookup key).bind accept).getD fallback) := by
  unfold Field.read
  cases found : entries.lookup key with
  | none => rfl
  | some item =>
    obtain ⟨value, accepted⟩ := Option.isSome_iff_exists.mp (typed item found)
    simp [accepted]

theorem typed_of_read {accept : Toml.Item → Option α} {key : String} {fallback value : α}
    (read : Field.read accept entries key fallback = some value) : ∀ item ∈ entries.lookup key, (accept item).isSome = true := by
  intro item found
  unfold Field.read at read
  rw [Option.mem_def.mp found] at read
  exact Option.isSome_of_eq_some read

def ofValues (value : (k : Key) → k.kind.Value) : Settings where
  addr := value .addr
  databasePath := value .databasePath
  sessionTtlSecs := value .sessionTtl
  postGraceSecs := value .postGrace
  commentGraceSecs := value .commentGrace
  sweepIntervalSecs := value .sweepInterval
  requestTimeoutSecs := value .requestTimeout
  identityUrl := value .identityUrl
  identityPoolSize := value .identityPoolSize
  identityReclaimSecs := value .identityReclaim
  storageUrl := value .storageUrl
  storageCodeLength := value .storageCodeLength
  secureCookies := value .secureCookies

theorem get_ofValues (value : (k : Key) → k.kind.Value) (k : Key) : (ofValues value).get k = value k := by cases k <;> rfl

def filed (entries : Toml.Entries) : Settings := ofValues fun k => (k.filed? entries).getD (({} : Settings).get k)

theorem bind_of_some {x : Option α} {a : α} (some : x = some a) (f : α → Option β) : x.bind f = f a := by rw [some]; rfl

theorem ofEntries?_typed (typed : WellTyped entries) : ofEntries? entries = some (filed entries) := by
  have reads := fun k => read_typed (typed k) (({} : Settings).get k)
  refine (bind_of_some (reads .addr) _).trans ?_
  refine (bind_of_some (reads .databasePath) _).trans ?_
  refine (bind_of_some (reads .sessionTtl) _).trans ?_
  refine (bind_of_some (reads .postGrace) _).trans ?_
  refine (bind_of_some (reads .commentGrace) _).trans ?_
  refine (bind_of_some (reads .sweepInterval) _).trans ?_
  refine (bind_of_some (reads .requestTimeout) _).trans ?_
  refine (bind_of_some (reads .identityUrl) _).trans ?_
  refine (bind_of_some (reads .identityPoolSize) _).trans ?_
  refine (bind_of_some (reads .identityReclaim) _).trans ?_
  refine (bind_of_some (reads .storageUrl) _).trans ?_
  refine (bind_of_some (reads .storageCodeLength) _).trans ?_
  refine (bind_of_some (reads .secureCookies) _).trans ?_
  rfl

theorem wellTyped_of_ofEntries? (read : ofEntries? entries = some s) : WellTyped entries := by
  obtain ⟨_, addr, read⟩ := Option.bind_eq_some_iff.mp read
  obtain ⟨_, databasePath, read⟩ := Option.bind_eq_some_iff.mp read
  obtain ⟨_, sessionTtl, read⟩ := Option.bind_eq_some_iff.mp read
  obtain ⟨_, postGrace, read⟩ := Option.bind_eq_some_iff.mp read
  obtain ⟨_, commentGrace, read⟩ := Option.bind_eq_some_iff.mp read
  obtain ⟨_, sweepInterval, read⟩ := Option.bind_eq_some_iff.mp read
  obtain ⟨_, requestTimeout, read⟩ := Option.bind_eq_some_iff.mp read
  obtain ⟨_, identityUrl, read⟩ := Option.bind_eq_some_iff.mp read
  obtain ⟨_, identityPoolSize, read⟩ := Option.bind_eq_some_iff.mp read
  obtain ⟨_, identityReclaim, read⟩ := Option.bind_eq_some_iff.mp read
  obtain ⟨_, storageUrl, read⟩ := Option.bind_eq_some_iff.mp read
  obtain ⟨_, storageCodeLength, read⟩ := Option.bind_eq_some_iff.mp read
  obtain ⟨_, secureCookies, read⟩ := Option.bind_eq_some_iff.mp read
  intro k
  cases k with
  | addr => exact typed_of_read addr
  | databasePath => exact typed_of_read databasePath
  | sessionTtl => exact typed_of_read sessionTtl
  | postGrace => exact typed_of_read postGrace
  | commentGrace => exact typed_of_read commentGrace
  | sweepInterval => exact typed_of_read sweepInterval
  | requestTimeout => exact typed_of_read requestTimeout
  | identityUrl => exact typed_of_read identityUrl
  | identityPoolSize => exact typed_of_read identityPoolSize
  | identityReclaim => exact typed_of_read identityReclaim
  | storageUrl => exact typed_of_read storageUrl
  | storageCodeLength => exact typed_of_read storageCodeLength
  | secureCookies => exact typed_of_read secureCookies

theorem File.Holds.ofFile (holds : file.Holds entries) (path : String) :
    Settings.ofFile path file = if WellTyped entries then .ok (filed entries) else .error (.unparsable path) := by
  cases holds with
  | absent =>
    have typed : WellTyped [] := by decide
    rw [if_pos typed]
    exact congrArg Except.ok (Option.some.inj (ofEntries?_typed typed))
  | @bytes content text entries decoded parsed =>
    simp only [Settings.ofFile, decoded, parsed, Option.bind_some]
    by_cases typed : WellTyped entries
    · rw [if_pos typed, ofEntries?_typed typed]
    · rw [if_neg typed]
      cases read : ofEntries? entries with
      | none => rfl
      | some s => exact absurd (wellTyped_of_ofEntries? read) typed

theorem get_preferred (entries : Toml.Entries) (env : Environment) (k : Key) :
    ((filed entries).withEnvironment env).get k = k.preferred entries env := by
  rw [get_withEnvironment, filed, get_ofValues, Key.preferred]
  cases k.given? env <;> rfl

theorem inEnvironment_inj {k k' : Key} (same : k.inEnvironment = k'.inEnvironment) : k = k' :=
  List.inj_on_of_nodup_map (by decide : (Key.all.map Key.inEnvironment).Nodup) k.mem_all k'.mem_all same

theorem given?_update {k k' : Key} (other : k' ≠ k) (env : Environment) (setTo : Option String) :
    k'.given? (Function.update env k.inEnvironment setTo) = k'.given? env := by
  rw [Key.given?, Function.update_of_ne fun same => other (inEnvironment_inj same), Key.given?]

theorem withEnvironment_unreadable {k : Key} {raw : String} (unreadable : k.kind.ofVariable? raw = none) (s : Settings)
    (env : Environment) :
    s.withEnvironment (Function.update env k.inEnvironment (some raw)) = s.withEnvironment (Function.update env k.inEnvironment none) := by
  apply ext_get
  intro k'
  rw [get_withEnvironment, get_withEnvironment]
  by_cases same : k' = k
  · subst same
    simp [Key.given?, unreadable]
  · rw [given?_update same, given?_update same]

theorem unchecked_ok_iff : unchecked path file env = .ok s ↔ ∃ before, ofFile path file = .ok before ∧ before.withEnvironment env = s := by
  unfold unchecked
  cases ofFile path file <;> simp [Except.map]

theorem File.Holds.get (holds : file.Holds entries) (given : unchecked path file env = .ok s) (k : Key) :
    s.get k = k.preferred entries env := by
  obtain ⟨before, read, rfl⟩ := unchecked_ok_iff.mp given
  rw [holds.ofFile] at read
  split at read
  · cases read
    exact get_preferred entries env k
  · cases read

theorem load_unchecked (given : unchecked path file env = .ok s) :
    (load path file env = .ok s ↔ s.Valid) ∧ (¬s.Valid → ∃ fault, load path file env = .error fault) := by
  obtain ⟨before, read, rfl⟩ := unchecked_ok_iff.mp given
  rw [load_of_file read, ← check_iff]
  cases (before.withEnvironment env).check <;> simp

end

-- Settings are loaded by precedence: each is what its variable says, if that can be read, else what the file
-- has, else its default, whatever else is set. They are loaded if they are valid, and refused otherwise.
theorem load_by_precedence {file : File} {entries : Toml.Entries} (holds : file.Holds entries) (path : String) (env : Environment) :
    (WellTyped entries → ∃ s, unchecked path file env = .ok s ∧ (∀ k, s.get k = k.preferred entries env) ∧
      (load path file env = .ok s ↔ s.Valid) ∧ (¬s.Valid → ∃ fault, load path file env = .error fault)) ∧
    (¬WellTyped entries → load path file env = .error (.unparsable path)) ∧
    (∀ {file' entries'} env' s s', file'.Holds entries' → unchecked path file env = .ok s → unchecked path file' env' = .ok s' →
      ∀ k, entries'.lookup k.inFile = entries.lookup k.inFile → env' k.inEnvironment = env k.inEnvironment → s'.get k = s.get k) ∧
    ∀ (k : Key) raw, k.kind.ofVariable? raw = none →
      load path file (Function.update env k.inEnvironment (some raw)) = load path file (Function.update env k.inEnvironment none) := by
  refine ⟨?_, ?_, ?_, ?_⟩
  · intro typed
    have given : unchecked path file env = .ok ((filed entries).withEnvironment env) := by
      rw [unchecked, holds.ofFile, if_pos typed]
      rfl
    exact ⟨_, given, get_preferred entries env, load_unchecked given⟩
  · intro untyped
    unfold load
    rw [holds.ofFile, if_neg untyped]
    rfl
  · intro file' entries' env' s s' holds' given given' k sameEntry sameVariable
    rw [holds'.get given' k, holds.get given k, Key.preferred, Key.preferred, Key.given?, Key.given?, Key.filed?, Key.filed?,
      sameEntry, sameVariable]
  · intro k raw unreadable
    unfold load
    congr 1
    funext before
    rw [withEnvironment_unreadable unreadable]

def layered : String := "sweep_interval_secs = 30\nstorage_url = \"http://file\"\n"

def layers : Environment
  | "FORUM_SWEEP_INTERVAL" => some " 5 "
  | "FORUM_COMMENT_GRACE" => some "soon"
  | _ => none

theorem load_by_precedence_layered :
    let file : File := .bytes (Text.Utf8.encode layered)
    let s : Settings := { sweepIntervalSecs := 5, storageUrl := "http://file" }
    ∃ entries, file.Holds entries ∧ WellTyped entries ∧ (∀ k, s.get k = k.preferred entries layers) ∧
      load "forum.toml" file layers = .ok s := by
  intro file s
  have decoded : Text.Utf8.decode? (Text.Utf8.encode layered) = some layered := by decide +kernel
  have reads : (Toml.ofText? layered).any (fun entries => WellTyped entries) = true := by decide +kernel
  obtain ⟨entries, parsed, typed⟩ := (Option.any_eq_true _ _).mp reads
  have typed : WellTyped entries := of_decide_eq_true typed
  have holds : file.Holds entries := .bytes decoded parsed
  have loaded : load "forum.toml" file layers = .ok s := by decide +kernel
  obtain ⟨t, _, preferred, accepts, refuses⟩ := (load_by_precedence holds "forum.toml" layers).1 typed
  have valid : t.Valid := by
    by_contra invalid
    obtain ⟨fault, refused⟩ := refuses invalid
    cases loaded.symm.trans refused
  cases loaded.symm.trans (accepts.mpr valid)
  exact ⟨entries, holds, typed, preferred, loaded⟩

-- Lengths of time that are no lifetimes.
inductive Interval
  | sweep
  | timeout
  | reclaim

namespace Interval

def key : Interval → Key
  | .sweep => .sweepInterval
  | .timeout => .requestTimeout
  | .reclaim => .identityReclaim

def secs (s : Settings) : Interval → Nat
  | .sweep => s.sweepIntervalSecs
  | .timeout => s.requestTimeoutSecs
  | .reclaim => s.identityReclaimSecs

end Interval

def lasting (s : Settings) (n : Nat) : Interval → Settings
  | .sweep => { s with sweepIntervalSecs := n }
  | .timeout => { s with requestTimeoutSecs := n }
  | .reclaim => { s with identityReclaimSecs := n }

def durations (s : Settings) : List Nat :=
  [s.sessionTtlSecs, s.postGraceSecs, s.commentGraceSecs, s.sweepIntervalSecs, s.requestTimeoutSecs, s.identityReclaimSecs]

section
variable {s : Settings} {path : String} {file : File} {env : Environment} {n : Nat}

theorem Valid.lasting (valid : s.Valid) (positive : 0 < n) (i : Interval) : (s.lasting n i).Valid := by
  obtain ⟨session, sweep, timeout, reclaim, session_le, post_le, comment_le, pool⟩ := valid
  cases i with
  | sweep => exact ⟨session, positive, timeout, reclaim, session_le, post_le, comment_le, pool⟩
  | timeout => exact ⟨session, sweep, positive, reclaim, session_le, post_le, comment_le, pool⟩
  | reclaim => exact ⟨session, sweep, timeout, positive, session_le, post_le, comment_le, pool⟩

theorem withEnvironment_lasting (small : n ≤ Text.maxUnsigned64) (s : Settings) (env : Environment) (i : Interval) :
    s.withEnvironment (Function.update env i.key.inEnvironment (some (toString n))) = (s.withEnvironment env).lasting n i := by
  have set : ∀ before, Field.override (Text.unsigned? Text.maxUnsigned64) (some (toString n)) before = n := by
    intro before
    rw [override_eq, Option.bind_some, Text.unsigned?_repr small, Option.getD_some]
  cases i <;>
    simp only [withEnvironment, Settings.lasting, Interval.key, Key.inEnvironment, Function.update_apply, String.reduceEq,
      if_false, if_true, set]

-- The durations of settings that were loaded are all at most 100 years exactly if the intervals are.
theorem durations_bounded_iff (loaded : load path file env = .ok s) :
    ((∀ secs ∈ s.durations, secs ≤ maxSecs) ↔ ∀ i, Interval.secs s i ≤ maxSecs) ∧
    (∀ i n path' file' env', 0 < n → unchecked path' file' env' = .ok (s.lasting n i) →
      load path' file' env' = .ok (s.lasting n i)) ∧
    ∀ i n, 0 < n → n ≤ Text.maxUnsigned64 →
      load path file (Function.update env i.key.inEnvironment (some (toString n))) = .ok (s.lasting n i) := by
  obtain ⟨before, read, rfl, passed⟩ := load_eq_ok_iff.mp loaded
  have valid := check_iff.mp passed
  refine ⟨?_, ?_, ?_⟩
  · constructor
    · intro bounded i
      apply bounded
      cases i <;> simp [durations, Interval.secs]
    · intro intervals secs member
      simp only [durations, List.mem_cons, List.not_mem_nil, or_false] at member
      rcases member with rfl | rfl | rfl | rfl | rfl | rfl
      · exact valid.sessionTtl_le
      · exact valid.postGrace_le
      · exact valid.commentGrace_le
      · exact intervals .sweep
      · exact intervals .timeout
      · exact intervals .reclaim
  · intro i n path' file' env' positive given
    exact (load_unchecked given).1.mpr (valid.lasting positive i)
  · intro i n positive small
    have given : unchecked path file (Function.update env i.key.inEnvironment (some (toString n))) =
        .ok ((before.withEnvironment env).lasting n i) :=
      unchecked_ok_iff.mpr ⟨before, read, withEnvironment_lasting small before env i⟩
    exact (load_unchecked given).1.mpr (valid.lasting positive i)

theorem durations_bounded_iff_plain :
    let env : Environment := fun _ => none
    load "forum.toml" .absent env = .ok {} ∧ (∀ secs ∈ durations {}, secs ≤ maxSecs) ∧
      load "forum.toml" .absent (Function.update env "FORUM_IDENTITY_RECLAIM" (some (toString Text.maxUnsigned64))) =
        .ok { identityReclaimSecs := 18446744073709551615 } := by
  intro env
  have loaded : load "forum.toml" .absent env = .ok {} := rfl
  obtain ⟨bounded, _, longest⟩ := durations_bounded_iff loaded
  refine ⟨loaded, bounded.mpr ?_, longest .reclaim Text.maxUnsigned64 (by decide) (Nat.le_refl _)⟩
  intro i
  cases i <;> decide

def rarely : Environment
  | "FORUM_SWEEP_INTERVAL" => some "3153600001"
  | _ => none

theorem sweep_interval_unbounded :
    let s : Settings := { sweepIntervalSecs := 3153600001 }
    load "forum.toml" .absent rarely = .ok s ∧ ¬∀ secs ∈ s.durations, secs ≤ maxSecs :=
  ⟨rfl, by decide⟩

end
end Settings
end Forum
