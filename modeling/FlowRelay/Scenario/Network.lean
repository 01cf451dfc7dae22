import FlowRelay.Net.Address

/-!
# FlowRelay.Scenario.Network

A network of servers on the loopback interface, for relays to connect to.  Servers are known by name
and have endpoints of their own.  While the interface is down, servers can listen but nobody can
connect to them.
-/

namespace FlowRelay.Scenario

/-- What a server does. -/
inductive ServerKind where
  /-- It accepts TCP connections. -/
  | listening
  /-- Nobody listens: TCP connections are refused. -/
  | refusing
  /-- It receives datagrams. -/
  | datagrams
  /-- Nobody receives: datagrams are answered by an error. -/
  | unreachable
  deriving DecidableEq, Repr

/-- A server. -/
structure Server where
  name : String
  kind : ServerKind
  endpoint : Net.Endpoint

/-- The servers, and whether the interface between them and the relay is up. -/
structure Network where
  isUp : Bool
  servers : List Server

namespace Network

/-- The endpoint of the server with the given number. -/
def endpointOf (number : Nat) : Net.Endpoint := ⟨⟨127, 0, 0, 1⟩, UInt16.ofNat (20000 + number)⟩

/-- Set servers up.  To find out where nobody receives datagrams takes an interface that is up. -/
def ofServers? (isUp : Bool) (servers : List (String × ServerKind)) : Option Network :=
  if !isUp && servers.any (·.2 = .unreachable) then none
  else
    some
      { isUp
        servers := servers.zipIdx.map fun ((name, kind), number) =>
          ⟨name, kind, endpointOf number⟩ }

/-- The endpoint of a named server. -/
def endpoint? (n : Network) (name : String) : Option Net.Endpoint :=
  (n.servers.find? (·.name = name)).map Server.endpoint

/-- The server at an endpoint. -/
def serverAt? (n : Network) (e : Net.Endpoint) : Option Server :=
  n.servers.find? (·.endpoint = e)

/-- The name of the server at an endpoint, or the text of the endpoint. -/
def nameOf (n : Network) (e : Net.Endpoint) : String :=
  match n.serverAt? e with
  | some server => server.name
  | none => e.text

/-- Whether a TCP connection to an endpoint is accepted. -/
def accepts (n : Network) (e : Net.Endpoint) : Bool :=
  n.isUp && (n.serverAt? e).any (·.kind = .listening)

/-- Whether datagrams to an endpoint are answered by an error. -/
def rejects (n : Network) (e : Net.Endpoint) : Bool :=
  (n.serverAt? e).any (·.kind = .unreachable)

end Network

end FlowRelay.Scenario
