import Forum.Identity.Provider
import Forum.ImageStore
import Forum.Settings
import Forum.Text.Split
namespace Forum.Launch

inductive AddressFault
  | noPort
  | badPort
deriving DecidableEq, Repr

def AddressFault.message : AddressFault → String
  | noPort => "invalid socket address"
  | badPort => "invalid port value"

def splitAddress (addr : String) : Except AddressFault (String × Nat) :=
  match Text.splitLast? ':' addr.toList with
  | none => .error .noPort
  | some (host, port) =>
    match Text.unsigned? 65535 port with
    | some port => .ok (.ofList host, port)
    | none => .error .badPort

inductive Fault
  | settings (fault : Settings.Fault)
  | error (error : Error)
  | address (fault : AddressFault)

def Fault.message : Fault → String
  | settings fault => fault.message
  | error e => e.message
  | address fault => fault.message

structure Host where
  environment : Settings.Environment
  file : String → Settings.File
  database : String → Option DatabaseFault

def wire (s : Settings) : Except Fault Settings :=
  if s.identityPoolSize < 1 then .error (.error (.invalidInput "identity pool must not be empty"))
  else
    match ImageStore.open? s.storageUrl s.storageCodeLength with
    | .error e => .error (.error e)
    | .ok _ =>
      match splitAddress s.addr with
      | .error fault => .error (.address fault)
      | .ok _ => .ok s

def start (h : Host) : Option String × Except Fault Settings :=
  let path := Settings.path h.environment
  match Settings.load path (h.file path) h.environment with
  | .error fault => (none, .error (.settings fault))
  | .ok s =>
    match h.database s.databasePath with
    | some fault => (none, .error (.error (.database fault)))
    | none => (some s.databasePath, wire s)

def logsJson (env : Settings.Environment) : Bool :=
  (env "FORUM_LOG_FORMAT").any fun v => v.toList.map Char.toLower = "json".toList

end Forum.Launch
