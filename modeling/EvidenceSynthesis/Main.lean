import EvidenceSynthesis.CommandLine.Run
import Std.Async.DNS
import Std.Async.TCP
import Std.Async.Timer

/-!
# The program

The surroundings of the commands: the file system, the terminal and connections over
TCP.
-/

namespace EvidenceSynthesis.CommandLine.System

open Std.Async (Async)

/-! ### Files -/

/-- The error of a file that the system has reported. -/
def fileError : IO.Error → FileError
  | .noFileOrDirectory _ _ _ => .missing
  | .alreadyExists _ _ _ => .alreadyPresent
  | .inappropriateType _ 21 _ => .isDirectory
  | .inappropriateType _ _ _ => .notADirectory
  | .invalidArgument _ 36 _ => .nameTooLong
  | error => .other (toString error)

/-- The result of a step on files. -/
def catchFiles {α : Type} (step : IO α) : IO (Except FileError α) := do
  try
    return .ok (← step)
  catch error =>
    return .error (fileError error)

/-- How many octets are read at once. -/
def chunkSize : USize := 65536

/-- The number of octets that are left to read. -/
partial def countRest (handle : IO.FS.Handle) (counted : Nat) : IO Nat := do
  let chunk ← handle.read chunkSize
  if chunk.isEmpty then return counted else countRest handle (counted + chunk.size)

/-- The files of the system. -/
def files : FileAccess IO where
  isPresent path := do
    try
      let _ ← IO.FS.realPath path
      return true
    catch _ =>
      return false
  size path := catchFiles do countRest (← IO.FS.Handle.mk path .read) 0
  read path := catchFiles do return (← IO.FS.readBinFile path).toList
  write path octets := catchFiles (IO.FS.writeBinFile path ⟨octets.toArray⟩)
  ensure path := catchFiles do
    let _ ← IO.FS.Handle.mk path .append
    return ()
  remove path := catchFiles (IO.FS.removeFile path)
  rename source target := catchFiles (IO.FS.rename source target)
  createDirectories path := catchFiles (IO.FS.createDirAll path)

/-! ### Connections -/

/-- An address as the system takes it. -/
def socketAddress (address : Network.Address) : Std.Net.SocketAddress :=
  match address.host with
  | .v4 a b c d => .v4 ⟨⟨#v[a, b, c, d]⟩, address.service⟩
  | .v6 groups _ => .v6 ⟨⟨groups⟩, address.service⟩

/-- The address of a host that the system has found. -/
def foundAddress (service : UInt16) : Std.Net.IPAddr → Network.Address
  | .v4 host =>
    ⟨.v4 host.octets[0] host.octets[1] host.octets[2] host.octets[3], service⟩
  | .v6 host => ⟨.v6 host.segments 0, service⟩

/-- The addresses that a text stands for; names are looked up. -/
def resolve (s : String) : IO (Option (List Network.Address)) := do
  match Network.Address.numeric? s with
  | some addresses => return some addresses
  | none =>
    let some (host, service) := Network.Address.splitService? s.toList | return none
    let some service := Text.word? Word.bound16 service | return none
    try
      let found ← (Std.Async.DNS.getAddrInfo (String.ofList host) "").block
      return some (found.toList.map (foundAddress (UInt16.ofNat service)))
    catch _ =>
      return none

/-- Whether the octets hold a whole frame, or the start of one that is refused. -/
def isDecided (limit : Nat) (octets : ByteArray) : Bool :=
  if octets.size < Frame.headerSize then false
  else
    let length := Frame.statedLength (octets.get! 0) (octets.get! 1) (octets.get! 2)
      (octets.get! 3)
    length < 0 || (limit : Int) < length || Frame.headerSize + length.toNat ≤ octets.size

/-- Waits for octets for a time in milliseconds, or without end. -/
def receive (socket : Std.Async.TCP.Socket.Client) (timeout : Option Nat) :
    Async (Option ByteArray) :=
  match timeout with
  | none => socket.recv? chunkSize.toUInt64
  | some timeout => do
    let sleep ← Std.Async.Selector.sleep (.ofNat timeout)
    Std.Async.Selectable.one #[
      .case (socket.recvSelector chunkSize.toUInt64) pure,
      .case sleep fun _ => throw (.userError "timed out")]

/-- Receives octets up to the end of a frame. -/
partial def receiveFrame (socket : Std.Async.TCP.Socket.Client) (limit : Nat)
    (timeout : Option Nat) (octets : ByteArray) : Async ByteArray := do
  if isDecided limit octets then
    return octets
  else
    match ← receive socket timeout with
    | some chunk => receiveFrame socket limit timeout (octets ++ chunk)
    | none => return octets

/-- Answers one connection; gives the session after it. -/
def answer {σ : Type} (engine : Engine σ) (session : GuardedSession σ) (limit timeout : Nat)
    (socket : Std.Async.TCP.Socket.Client) : Async (GuardedSession σ) := do
  let received ←
    try
      receiveFrame socket limit (some timeout) ByteArray.empty
    catch _ =>
      pure ByteArray.empty
  let (octets, session) :=
    Connection.serve engine.generateGuarded limit received.toList session
  try
    socket.send ⟨octets.toArray⟩
    socket.shutdown
  catch _ =>
    pure ()
  return session

/-- Answers connections one at a time. -/
partial def acceptFrom {σ : Type} (engine : Engine σ) (session : GuardedSession σ)
    (limit timeout : Nat) (server : Std.Async.TCP.Socket.Server) : Async Unit := do
  let socket ← server.accept
  let session ← answer engine session limit timeout socket
  acceptFrom engine session limit timeout server

/-- Listens on an address and answers connections. -/
def serve {σ : Type} (address : Network.Address) (engine : Engine σ) (state : σ)
    (limit timeout : Nat) : IO (Except Failure Unit) := do
  try
    let server ← Std.Async.TCP.Socket.Server.mk
    server.bind (socketAddress address)
    server.listen 1024
    (acceptFrom engine (.fresh state) limit timeout server).block
    return .ok ()
  catch error =>
    return .error ((Failure.of (toString error)).within s!"Failed to bind {address.text}")

/-- Sends octets to an address and gives the frame that comes back. -/
def exchange (address : String) (timeout : Nat) (octets : Text.Octets) :
    IO (Except Failure Text.Octets) := do
  try
    let some (target :: _) ← resolve address
      | return .error (.of s!"connect to AST server at {address}")
    let socket ← Std.Async.TCP.Socket.Client.mk
    let received ← Async.block do
      let sleep := Std.Async.sleep (.ofNat timeout)
      Async.race (socket.connect (socketAddress target)) do
        sleep
        throw (.userError "timed out")
      socket.send ⟨octets.toArray⟩
      receiveFrame socket Frame.standardLimit none ByteArray.empty
    return .ok received.toList
  catch error =>
    return .error
      ((Failure.of (toString error)).within s!"connect to AST server at {address}")

/-! ### Surroundings -/

/-- Writes to a stream, which may be closed. -/
def writeTo (stream : IO.FS.Stream) (s : String) : IO Unit := do
  try
    stream.putStr s
    stream.flush
  catch _ =>
    pure ()

/-- The surroundings of the commands. -/
def environment : Environment IO where
  files := files
  variableContent name := IO.getEnv name
  freshSeed := do return (← IO.getRandomBytes 8).toUInt64LE!
  print s := do writeTo (← IO.getStdout) s
  report s := do writeTo (← IO.getStderr) s
  resolve := resolve
  serve := serve
  exchange := exchange

end EvidenceSynthesis.CommandLine.System

/-- Runs the command of the command line. -/
def main (arguments : List String) : IO UInt32 := do
  let environment := EvidenceSynthesis.CommandLine.System.environment
  let status ← EvidenceSynthesis.CommandLine.run environment arguments
  return status.code.toUInt32
