import BuildServer.Client.Wire
import BuildServer.Terminal.Basic
import Std.Async.DNS
import Std.Async.TCP
/-!
# The command line

Connects the program on the terminal to the files, the environment and the network around it. What
is shown and how the program ends is settled by `Terminal.run`.
-/

set_option autoImplicit false

open Std.Async

namespace BuildServer.Main

/-- The bytes that come on a connection until the other side closes it. -/
partial def receive (socket : TCP.Socket.Client) (seen : ByteArray) : Async ByteArray := do
  match ← socket.recv? 65536 with
  | some bytes => receive socket (seen ++ bytes)
  | none => return seen

/-- An address with the number of a service. -/
def atService (service : UInt16) : Std.Net.IPAddr → Std.Net.SocketAddress
  | .v4 addr => .v4 ⟨addr, service⟩
  | .v6 addr => .v6 ⟨addr, service⟩

/-- Sends bytes to a server and gives what it sends back. -/
def exchange (name : String) (service : UInt16) (bytes : ByteArray) : Async ByteArray := do
  let addresses ← DNS.getAddrInfo name (toString service)
  match addresses[0]? with
  | none => throw (IO.userError ("no address for " ++ name))
  | some address =>
    let socket ← TCP.Socket.Client.mk
    socket.connect (atService service address)
    socket.send bytes
    receive socket .empty

/-- Sends a request over the network. -/
def network : Transport IO := fun address request => do
  let failed := Except.error (Transport.failure address)
  match address.endpoint? with
  | none => return failed
  | some (name, service) =>
    try
      let bytes ← (exchange name service (request.wire address.server).toUTF8).block
      match (String.fromUTF8? bytes).bind Reply.ofWire? with
      | some reply => return .ok reply
      | none => return failed
    catch _ => return failed

/-- The text of a file, if there is such a file and it is a text. -/
def fileText? (name : String) : IO (Option String) := do
  try return some (← IO.FS.readFile name)
  catch _ => return none

/-- Runs the program with arguments and shows what it has to say. -/
def run (arguments : List String) : IO UInt32 := do
  let output ← IO.getStdout
  let force ← IO.getEnv "CLICOLOR_FORCE"
  let never ← IO.getEnv "NO_COLOR"
  let wanted ← IO.getEnv "CLICOLOR"
  let setting := fun (name : String) =>
    ([("CLICOLOR_FORCE", force), ("NO_COLOR", never), ("CLICOLOR", wanted)].lookup name).join
  let world : Terminal.World IO :=
    { send := network, fileText?, ink := .ofEnvironment setting (← output.isTty) }
  let ending ← Terminal.run world (← IO.getEnv "GANTRY_ORCHESTRATOR_URL") arguments
  output.putStr ending.outputText
  (← IO.getStderr).putStr ending.errorText
  return UInt32.ofNat ending.code

end BuildServer.Main

def main (arguments : List String) : IO UInt32 := BuildServer.Main.run arguments
