/-
Serving connections one after the other. What the network around the
server allows is a value of its own: at which hosts the server can
listen, and whether clients get through to it.
-/
import WireHttp.Address
import WireHttp.Connection.Rehearsal

namespace WireHttp

/-- The network around a server. -/
structure Network where
  /-- The hosts at which the server can listen. -/
  canListenAt : String → Bool
  /-- Clients can connect to the server. -/
  isReachable : Bool

/-- What keeps a client from connecting. -/
inductive ConnectError
  | networkUnreachable
  deriving DecidableEq, Repr

/-- The text of a `ConnectError`. -/
def ConnectError.message : ConnectError → String
  | networkUnreachable => "Network is unreachable (os error 101)"

/-- A server cannot listen at an address. -/
structure ListenError where
  address : String
  deriving DecidableEq, Repr

/-- The text of a `ListenError`. -/
def ListenError.message (e : ListenError) : String :=
  "binding " ++ e.address

-- ========================================================= listening

/-- Listens at an address, if it is one where the network lets it. -/
def Network.listen (n : Network) (address : String) : Except ListenError Address :=
  match (Address.read? address).filter (n.canListenAt ·.host) with
  | some a => .ok a
  | none => .error ⟨address⟩

-- ========================================================= clients

/-- A client that sends its bytes and then reads until the server closes
the connection. -/
structure Client where
  data : Bytes
  /-- It closes its writing side once it has sent everything. -/
  halfCloses : Bool := false
  deriving DecidableEq, Repr

/-- The bytes that a client reads from a server that echoes requests. An
idle connection is waited for until the server closes it. -/
def Client.reads (c : Client) (settings : Settings) : Bytes :=
  let echo (r : Request) : Plan := { outcome := .answered r.echo }
  let cues : List Rehearsal.Cue :=
    [.arrive (.bytes c.data)] ++ (if c.halfCloses then [.arrive .ended] else [])
      ++ [.advance settings.idleTimeout]
  (((Rehearsal.start settings {} echo).play cues).map (·.written)).flatten

/-- What each of the clients reads; nothing if one cannot connect. -/
def Network.serve (n : Network) (settings : Settings) (clients : List Client) :
    Except ConnectError (List Bytes) :=
  if clients.isEmpty || n.isReachable then .ok (clients.map (·.reads settings))
  else .error .networkUnreachable

end WireHttp
