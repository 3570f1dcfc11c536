import BuildServer.Client.Address
import BuildServer.Server.Http
import BuildServer.Text.Digits
/-!
# Requests and replies on a connection

A request goes out as a line with its method and target, a line for each header, an empty line and
its body. The server closes the connection behind its reply, so that the body of a reply is all that
follows the first empty line.
-/

set_option autoImplicit false

namespace BuildServer

/-- The end of a line on a connection. -/
def lineEnd : String := "\r\n"

namespace WebAddress

/-- The host as the network knows it, and the number of the service, if a plain connection is asked
for. -/
def endpoint? (address : WebAddress) : Option (String × UInt16) := do
  let host ← address.host
  let name := match host with
    | .name text => text
    | .address address => address.toText
  if address.scheme == "http" then return (name, UInt16.ofNat (address.service.getD 80))
  else none

end WebAddress

namespace Request

/-- The headers of a request to a server. -/
def headers (r : Request) (server : String) : List (String × String) :=
  [("Host", server), ("Connection", "close"),
    ("Content-Length", toString r.body.utf8ByteSize)] ++
    (r.contentType.map fun kind => ("Content-Type", kind)).toList

/-- What is sent to a server. -/
def wire (r : Request) (server : String) : String :=
  let lines := (r.method ++ " " ++ r.target ++ " HTTP/1.0") ::
    (r.headers server).map fun header => header.1 ++ ": " ++ header.2
  String.join (lines.map (· ++ lineEnd)) ++ lineEnd ++ r.body

end Request

namespace Reply

/-- Reads what came from a server. -/
def ofWire? (s : String) : Option Reply := do
  match s.splitOn (lineEnd ++ lineEnd) with
  | first :: rest@(_ :: _) =>
    let status ← Text.decimalBelow? 1000 (← (first.splitOn " ")[1]?)
    return ⟨status, .text ((lineEnd ++ lineEnd).intercalate rest)⟩
  | _ => none

end Reply

end BuildServer
