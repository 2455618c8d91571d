import Forum.Json
import Forum.Settings.Toml
import Forum.Text.Blank
import Forum.Text.Utf8
namespace Forum

structure Settings where
  addr : String := "0.0.0.0:8080"
  databasePath : String := "forum.db"
  sessionTtlSecs : Nat := 7 * 24 * 60 * 60
  postGraceSecs : Nat := 600
  commentGraceSecs : Nat := 900
  sweepIntervalSecs : Nat := 60
  requestTimeoutSecs : Nat := 15
  identityUrl : String := "https://rickandmortyapi.com/api"
  identityPoolSize : Int := 826
  identityReclaimSecs : Nat := 300
  storageUrl : String := "http://localhost:6969"
  storageCodeLength : Nat := 6
  secureCookies : Bool := true
deriving DecidableEq, Repr

namespace Settings

inductive Fault
  | unreadable (path : String)
  | unparsable (path : String)
  | notPositive (field : String)
  | tooLong (field : String)
  | emptyPool
deriving DecidableEq, Repr

def maxSecs : Nat := 100 * 365 * 24 * 60 * 60

def Fault.message : Fault → String
  | unreadable path => "Failed to read config file " ++ path
  | unparsable path => "Failed to parse config file " ++ path
  | notPositive field => field ++ " must be greater than zero"
  | tooLong field => field ++ " must be at most " ++ toString maxSecs ++ " seconds"
  | emptyPool => "identity_pool_size must be at least 1"

inductive File
  | absent
  | unreadable
  | bytes (content : List UInt8)

abbrev Environment := String → Option String

namespace Field

def read (accept : Toml.Item → Option α) (entries : Toml.Entries) (key : String) (fallback : α) : Option α :=
  match entries.lookup key with
  | none => some fallback
  | some item => accept item

def text : Toml.Item → Option String
  | .text s => some s
  | _ => none

def integer : Toml.Item → Option Int
  | .integer n => some n
  | _ => none

def natural : Toml.Item → Option Nat
  | .integer n => if 0 ≤ n then some n.toNat else none
  | _ => none

def truth : Toml.Item → Option Bool
  | .truth b => some b
  | _ => none

-- A variable that can be read, after white space around it is dropped; else what was there before.
def override (parse : List Char → Option α) (setTo : Option String) (before : α) : α :=
  ((setTo.map fun raw => Text.trimChars raw.toList).bind parse).getD before

end Field

def ofEntries? (entries : Toml.Entries) : Option Settings := do
  let d : Settings := {}
  return {
    addr := ← Field.read Field.text entries "addr" d.addr
    databasePath := ← Field.read Field.text entries "database_path" d.databasePath
    sessionTtlSecs := ← Field.read Field.natural entries "session_ttl_secs" d.sessionTtlSecs
    postGraceSecs := ← Field.read Field.natural entries "post_grace_secs" d.postGraceSecs
    commentGraceSecs := ← Field.read Field.natural entries "comment_grace_secs" d.commentGraceSecs
    sweepIntervalSecs := ← Field.read Field.natural entries "sweep_interval_secs" d.sweepIntervalSecs
    requestTimeoutSecs := ← Field.read Field.natural entries "request_timeout_secs" d.requestTimeoutSecs
    identityUrl := ← Field.read Field.text entries "identity_url" d.identityUrl
    identityPoolSize := ← Field.read Field.integer entries "identity_pool_size" d.identityPoolSize
    identityReclaimSecs := ← Field.read Field.natural entries "identity_reclaim_secs" d.identityReclaimSecs
    storageUrl := ← Field.read Field.text entries "storage_url" d.storageUrl
    storageCodeLength := ← Field.read Field.natural entries "storage_code_length" d.storageCodeLength
    secureCookies := ← Field.read Field.truth entries "secure_cookies" d.secureCookies }

def withEnvironment (s : Settings) (env : Environment) : Settings :=
  let natural := Text.unsigned? Text.maxUnsigned64
  { addr := (env "FORUM_ADDR").getD s.addr
    databasePath := (env "FORUM_DATABASE_PATH").getD s.databasePath
    sessionTtlSecs := Field.override natural (env "FORUM_SESSION_TTL") s.sessionTtlSecs
    postGraceSecs := Field.override natural (env "FORUM_POST_GRACE") s.postGraceSecs
    commentGraceSecs := Field.override natural (env "FORUM_COMMENT_GRACE") s.commentGraceSecs
    sweepIntervalSecs := Field.override natural (env "FORUM_SWEEP_INTERVAL") s.sweepIntervalSecs
    requestTimeoutSecs := Field.override natural (env "FORUM_REQUEST_TIMEOUT") s.requestTimeoutSecs
    identityUrl := (env "FORUM_IDENTITY_URL").getD s.identityUrl
    identityPoolSize := Field.override Text.integer? (env "FORUM_IDENTITY_POOL") s.identityPoolSize
    identityReclaimSecs := Field.override natural (env "FORUM_IDENTITY_RECLAIM") s.identityReclaimSecs
    storageUrl := (env "FORUM_STORAGE_URL").getD s.storageUrl
    storageCodeLength := Field.override natural (env "FORUM_STORAGE_CODE_LENGTH") s.storageCodeLength
    secureCookies := Field.override Text.truth? (env "FORUM_SECURE_COOKIES") s.secureCookies }

def positives (s : Settings) : List (String × Nat) :=
  [("session_ttl_secs", s.sessionTtlSecs), ("sweep_interval_secs", s.sweepIntervalSecs),
    ("request_timeout_secs", s.requestTimeoutSecs), ("identity_reclaim_secs", s.identityReclaimSecs)]

def lifetimes (s : Settings) : List (String × Nat) :=
  [("session_ttl_secs", s.sessionTtlSecs), ("post_grace_secs", s.postGraceSecs),
    ("comment_grace_secs", s.commentGraceSecs)]

def check (s : Settings) : Option Fault :=
  match s.positives.find? (·.2 = 0) with
  | some (field, _) => some (.notPositive field)
  | none =>
    match s.lifetimes.find? (maxSecs < ·.2) with
    | some (field, _) => some (.tooLong field)
    | none => if s.identityPoolSize < 1 then some .emptyPool else none

def ofFile (path : String) : File → Except Fault Settings
  | .absent => .ok {}
  | .unreadable => .error (.unreadable path)
  | .bytes content =>
    match Text.Utf8.decode? content with
    | none => .error (.unreadable path)
    | some text =>
      match (Toml.ofText? text).bind ofEntries? with
      | none => .error (.unparsable path)
      | some settings => .ok settings

def load (path : String) (file : File) (env : Environment) : Except Fault Settings := do
  let settings := (← ofFile path file).withEnvironment env
  match settings.check with
  | some fault => .error fault
  | none => .ok settings

theorem check_eq_none_iff {s : Settings} :
    s.check = none ↔ (∀ entry ∈ s.positives, 0 < entry.2) ∧ (∀ entry ∈ s.lifetimes, entry.2 ≤ maxSecs) ∧ 1 ≤ s.identityPoolSize := by
  have positive : s.positives.find? (·.2 = 0) = none ↔ ∀ entry ∈ s.positives, 0 < entry.2 := by
    simp only [List.find?_eq_none, decide_eq_true_eq, Nat.pos_iff_ne_zero, ne_eq]
  have bounded : s.lifetimes.find? (maxSecs < ·.2) = none ↔ ∀ entry ∈ s.lifetimes, entry.2 ≤ maxSecs := by
    simp only [List.find?_eq_none, decide_eq_true_eq, Nat.not_lt]
  rw [← positive, ← bounded]
  unfold check
  cases s.positives.find? (·.2 = 0) with
  | some entry => simp
  | none =>
    cases s.lifetimes.find? (maxSecs < ·.2) with
    | some entry => simp
    | none =>
      by_cases empty : s.identityPoolSize < 1
      · simp [empty]
      · simp [empty, Int.not_lt.mp empty]

-- What a file gives is loaded with what the environment changes, if that passes the check.
theorem load_of_file {path : String} {file : File} {before : Settings} (read : ofFile path file = .ok before) (env : Environment) :
    load path file env =
      match (before.withEnvironment env).check with
      | some fault => .error fault
      | none => .ok (before.withEnvironment env) := by
  unfold load
  rw [read]
  rfl

theorem load_eq_ok_iff {path : String} {file : File} {env : Environment} {s : Settings} :
    load path file env = .ok s ↔ ∃ before, ofFile path file = .ok before ∧ before.withEnvironment env = s ∧ s.check = none := by
  cases read : ofFile path file with
  | error fault =>
    have refused : load path file env = .error fault := by
      unfold load
      rw [read]
      rfl
    simp [refused]
  | ok before =>
    rw [load_of_file read]
    constructor
    · intro loaded
      split at loaded
      · cases loaded
      · rename_i passed
        cases loaded
        exact ⟨before, rfl, rfl, passed⟩
    · rintro ⟨_, same, rfl, passed⟩
      cases same
      rw [passed]

def toJson (s : Settings) : Json :=
  .record [("addr", .text s.addr), ("database_path", .text s.databasePath),
    ("session_ttl_secs", .integer s.sessionTtlSecs), ("post_grace_secs", .integer s.postGraceSecs),
    ("comment_grace_secs", .integer s.commentGraceSecs), ("sweep_interval_secs", .integer s.sweepIntervalSecs),
    ("request_timeout_secs", .integer s.requestTimeoutSecs), ("identity_url", .text s.identityUrl),
    ("identity_pool_size", .integer s.identityPoolSize), ("identity_reclaim_secs", .integer s.identityReclaimSecs),
    ("storage_url", .text s.storageUrl), ("storage_code_length", .integer s.storageCodeLength),
    ("secure_cookies", .truth s.secureCookies)]

def path (env : Environment) : String := (env "FORUM_CONFIG").getD "forum.toml"

-- A lifetime. Even unchecked settings give at most `maxSecs`.
def lifetime (secs : Nat) : Span := .ofSeconds (min secs maxSecs : Nat)

def sessionTtl (s : Settings) : Span := lifetime s.sessionTtlSecs
def postGrace (s : Settings) : Span := lifetime s.postGraceSecs
def commentGrace (s : Settings) : Span := lifetime s.commentGraceSecs

end Settings
end Forum
