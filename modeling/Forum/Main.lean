import Forum.Http.Wire
import Forum.Http.Server
import Forum.Launch
import Std.Async.DNS
import Std.Async.Signal
import Std.Async.TCP
import Std.Async.Timer
namespace Forum
open Std.Async

namespace Machine

def now : IO Instant := do
  let stamp ← Std.Time.Timestamp.now
  return (Instant.ofNanos? stamp.toNanosecondsSinceUnixEpoch.val).getD .epoch

def random : IO Nat := do
  return (← IO.getRandomBytes 8).toList.foldl (fun n b => n * 256 + b.toNat) 0

def shuffled (xs : List Nat) : IO (List Nat) := do
  let mut order := xs.toArray
  for i in [0:order.size] do
    order := order.swapIfInBounds i ((← random) % (i + 1))
  return order.toList

-- Answers the questions of a procedure until it ends, or until its time is up.
def perform {I : Interface} (isUp : IO Bool) (answer : (q : I.Question) → IO (Outcome (I.Value q))) :
    Procedure I α → IO (Option (Outcome α))
  | .done a => return if ← isUp then none else some (.done a)
  | .fail e => return if ← isUp then none else some (.failed e)
  | .crash => return if ← isUp then none else some .crashed
  | .ask q next => do if ← isUp then return none else perform isUp answer (next (← answer q))

def performAll {I : Interface} (answer : (q : I.Question) → IO (Outcome (I.Value q))) (p : Procedure I α) : IO (Outcome α) := do
  return (← perform (return false) answer p).getD .crashed

partial def receiveAll (connection : TCP.Socket.Client) (bytes : ByteArray) : Async ByteArray := do
  match ← connection.recv? 65536 with
  | some more => receiveAll connection (bytes ++ more)
  | none => return bytes

def resolve (host : String) (port : Nat) : Async Std.Net.SocketAddress := do
  let socket (ip : Std.Net.IPAddr) : Std.Net.SocketAddress :=
    match ip with
    | .v4 addr => .v4 ⟨addr, port.toUInt16⟩
    | .v6 addr => .v6 ⟨addr, port.toUInt16⟩
  match (← DNS.getAddrInfo host (toString port))[0]? with
  | some ip => return socket ip
  | none => throw (IO.userError "no address is known for this host")

def exchange (address : Remote.Address) (bytes : ByteArray) : Async ByteArray := do
  let connection ← TCP.Socket.Client.mk
  let whole : Async ByteArray := do
    connection.connect (← resolve address.host address.port)
    connection.send bytes
    receiveAll connection .empty
  Async.race whole (do
    sleep 10000
    throw (IO.userError "the time for an answer is over"))

def askServer (method url : String) (data : ByteArray) : IO (Except String Remote.Reply) := do
  match Remote.Address.ofUrl? url with
  | none => return .error ("error sending request for url (" ++ url ++ ")")
  | some address =>
    try
      let bytes ← (exchange address (Http.Wire.ask method address data)).block
      return match Http.Wire.reply? bytes with
        | some reply => .ok reply
        | none => .error ("error reading reply of url (" ++ url ++ ")")
    catch e => return .error ("error sending request for url (" ++ url ++ "): " ++ toString e)

end Machine

structure Machine where
  settings : Settings
  startedAt : Nat
  backend : IO.Ref Backend
  desk : IO.Ref Identity.Desk
  images : ImageStore
  pending : IO.Ref Nat

namespace Machine

def provideIdentity (m : Machine) (hold : Span) : IO (Outcome Forum.Identity) :=
  performAll (I := Identity.ports) (fun
    | .allocate hold => do
      let clock ← now
      let picks ← (Vector.replicate Identity.attempts ()).mapM fun () => random
      let draws : Identity.Draws := ⟨picks, ← random⟩
      m.desk.modifyGet fun d => ({ d with clock, draws := fun _ => draws } : Identity.Desk).allocate hold
    | .fetch id => do
      let reply ← askServer "GET" ((← m.desk.get).address id) .empty
      return .ofExcept (({ ← m.desk.get with server := fun _ => reply } : Identity.Desk).fetch id)
    | .release reservation => m.desk.modifyGet fun d => d.answer (.release reservation)) (Identity.provide hold)

def upload (m : Machine) (owner : Int) (image : ByteArray) : IO (Outcome String) := do
  let numbers ← (List.range m.images.codeLength).mapM fun _ => random
  let code := m.images.codeOf fun i => numbers.getD i 0
  let put (url : String) (data : ByteArray) : IO (Outcome Nat) := do
    match ← askServer "PUT" url data with
    | .ok reply => return .done reply.status
    | .error text => return .failed (.transport text)
  performAll (I := ImageStore.ports) (fun
    | .putObject url data => put url data
    | .putBucket url => put url .empty) (m.images.upload owner code image)

def answer (m : Machine) : (q : Service.Question) → IO (Outcome q.Value)
  | .provideIdentity hold => m.provideIdentity hold
  | .upload owner image => m.upload owner image
  | q => do
    let clock ← now
    let timer := (← IO.monoMsNow) - m.startedAt
    let bytes ← (Vector.replicate Token.entropyBytes ()).mapM fun () => return (← random).toUInt8
    m.backend.modifyGet fun b => { b with clock, timer, entropy := fun _ => bytes }.direct q

def respond (m : Machine) (r : Http.Request) : IO (Option Http.Response) := do
  match Http.Server.job? m.settings r with
  | none => return some Http.Server.unknown
  | some job =>
    let start ← IO.monoMsNow
    let isUp : IO Bool := do
      match job.limit with
      | none => return false
      | some limit => return start + limit ≤ (← IO.monoMsNow)
    return job.response? r (← perform (I := Service.ports) isUp m.answer job.operation)

partial def receive (connection : TCP.Socket.Client) (bytes : ByteArray) : Async (Option Http.Request) := do
  let more : Async (Option Http.Request) := do
    match ← connection.recv? 65536 with
    | some data => receive connection (bytes ++ data)
    | none => return none
  match Http.Wire.headEnd? bytes with
  | none => if bytes.size < 65536 then more else return none
  | some stop =>
    match Http.Wire.Head.ofBytes? (bytes.extract 0 stop).toList with
    | none => return none
    | some head =>
      let size := min (head.bodySize?.getD 0) (Http.Handlers.maxBody + 1)
      if bytes.size < stop + size then more
      else return Http.Wire.request? head (bytes.extract stop (stop + size))

def converse (m : Machine) (connection : TCP.Socket.Client) : Async Unit := do
  m.pending.modify (· + 1)
  try
    let response ← match ← receive connection .empty with
      | some request => m.respond request
      | none => pure (some (.bare 400))
    match response with
    | some response => connection.send (Http.Wire.respond response)
    | none => pure ()
    connection.shutdown
  catch _ => pure ()
  m.pending.modify (· - 1)

partial def accept (m : Machine) (server : TCP.Socket.Server) (stops : Array Signal.Waiter) : Async Unit := do
  let stopped := stops.map fun stop => Selectable.case stop.selector fun () => return none
  match ← Selectable.one (stopped.push (.case server.acceptSelector fun connection => return some connection)) with
  | none => return ()
  | some connection =>
    background (m.converse connection)
    m.accept server stops

partial def settle (m : Machine) : Async Unit := do
  if (← m.pending.get) ≠ 0 then
    sleep 10
    m.settle

partial def every (millis : Nat) (work : IO Unit) : Async Unit := do
  sleep ⟨millis⟩
  work
  every millis work

def log (json : Bool) (message : String) : IO Unit := do
  let time ← now
  IO.println (if json then
      (Json.record [("timestamp", .instant time), ("level", .text "INFO"), ("message", .text message)]).render
    else time.text ++ " INFO " ++ message)

def serve (m : Machine) (json : Bool) (host : String) (port : Nat) : Async Unit := do
  let server ← TCP.Socket.Server.mk
  server.bind (← resolve host port)
  server.listen 128
  let stops ← #[Signal.sigint, Signal.sigterm].mapM fun signal => Signal.Waiter.mk signal false
  log json ("listening on " ++ m.settings.addr)
  background (every (m.settings.sweepIntervalSecs * 1000) do
    let _ ← performAll (I := Service.ports) m.answer Service.Posts.sweep)
  background (every (m.settings.identityReclaimSecs * 1000) do
    let clock ← now
    m.desk.modify fun d => { d with clock }.reclaim.2)
  m.accept server stops
  log json "shutting down"
  m.settle

def variableNames : List String :=
  ["CONFIG", "LOG_FORMAT", "ADDR", "DATABASE_PATH", "SESSION_TTL", "POST_GRACE", "COMMENT_GRACE", "SWEEP_INTERVAL",
    "REQUEST_TIMEOUT", "IDENTITY_URL", "IDENTITY_POOL", "IDENTITY_RECLAIM", "STORAGE_URL", "STORAGE_CODE_LENGTH",
    "SECURE_COOKIES"].map ("FORUM_" ++ ·)

def settingsFile (path : String) : IO Settings.File := do
  try return .bytes (← IO.FS.readBinFile path).toList
  catch
    | .noFileOrDirectory .. => return .absent
    | _ => return .unreadable

def ofSettings (settings : Settings) : ExceptT Error IO Machine := do
  let order ← shuffled (Identity.Pool.ids settings.identityPoolSize.toNat)
  let clock ← now
  let desk ← liftExcept (Identity.Desk.open? settings.identityUrl settings.identityPoolSize order clock
    (fun _ => ⟨.replicate _ 0, 0⟩) fun _ => .error "")
  let images ← liftExcept (ImageStore.open? settings.storageUrl settings.storageCodeLength)
  let backend : Backend :=
    { clock, entropy := fun _ => .replicate _ 0, provide := fun n => ⟨n, "", ""⟩, place := fun _ _ => "" }
  return { settings, startedAt := ← IO.monoMsNow, backend := ← IO.mkRef backend, desk := ← IO.mkRef desk, images,
           pending := ← IO.mkRef 0 }
where
  liftExcept {α : Type} : Except Error α → ExceptT Error IO α
    | .ok a => return a
    | .error e => throw e

end Machine

def fail (message : String) : IO UInt32 := do
  IO.eprintln ("Error: " ++ message)
  return 1

end Forum

def main : IO UInt32 := do
  let set ← Forum.Machine.variableNames.filterMapM fun name => do
    return (← IO.getEnv name).map (name, ·)
  let environment : Forum.Settings.Environment := fun name => set.lookup name
  let json := Forum.Launch.logsJson environment
  Forum.Machine.log json "forum v0.1.0"
  let file ← Forum.Machine.settingsFile (Forum.Settings.path environment)
  match (Forum.Launch.start ⟨environment, fun _ => file, fun _ => none⟩).2 with
  | .error fault => Forum.fail fault.message
  | .ok settings =>
    match Forum.Launch.splitAddress settings.addr with
    | .error fault => Forum.fail fault.message
    | .ok (host, port) =>
      match ← (Forum.Machine.ofSettings settings).run with
      | .error e => Forum.fail e.message
      | .ok machine =>
        try
          (machine.serve json host port).block
          return 0
        catch e => Forum.fail (toString e)
