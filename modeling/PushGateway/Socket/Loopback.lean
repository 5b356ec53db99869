import PushGateway.Delivery.World
import PushGateway.Socket.Poll
import PushGateway.Tunnel.Http
import PushGateway.Tunnel.Socks

namespace PushGateway

namespace Socket

/-- Tries the addresses of a host in turn. The last failure is the one that is reported. -/
def dial (host : String) (port : UInt16) (tries : List (Except IoError Unit)) : Except NetworkError Unit :=
  let address := host ++ ":" ++ Decimal.text port.toNat
  let rec go (last : Option IoError) : List (Except IoError Unit) → Except NetworkError Unit
    | [] =>
      match last with
      | some error => .error (.connectionFailed s!"{address}: {error.text}")
      | none => .error (.connectionFailed s!"{address}: no addresses")
    | .ok () :: _ => .ok ()
    | .error error :: later => go (some error) later
  go none tries

/-- A host that no route leads to. -/
def unreachable : IoError := ⟨.networkUnreachable, "Network is unreachable (os error 101)"⟩

/-- A host on which nothing listens at the port. -/
def connectionRefused : IoError := ⟨.connectionRefused, "Connection refused (os error 111)"⟩

/-- No time at all was given to connect or to read. -/
def noTimeGiven : IoError := ⟨.invalidInput, "cannot set a 0 duration timeout"⟩

/-- The credentials for a proxy. A password without a name is not used. -/
def credentials (user password : Option String) : Option Tunnel.Credentials :=
  user.map fun user => ⟨user, password.getD ""⟩

/-- What has to be negotiated before a connection to this endpoint carries bytes. -/
def negotiation (endpoint : Endpoint) : Negotiation Unit :=
  match endpoint.proxy with
  | .none => pure ()
  | .http .. => Tunnel.httpConnect endpoint.host endpoint.port
  | .socks _ _ user password => Tunnel.socksConnect endpoint.host endpoint.port (credentials user password)

/-- The host and port to which a socket is connected first. -/
def firstHop (endpoint : Endpoint) : String × UInt16 :=
  match endpoint.proxy with
  | .none => (endpoint.host, endpoint.port)
  | .http host port | .socks host port _ _ => (host, port)

end Socket

/-- What a listener on the same machine does with one connection: it sends bytes, and then either ends its
side or waits until the other is gone. -/
structure Loopback.Plan where
  send : Bytes
  hold : Bool
  deriving Repr, DecidableEq, Inhabited

/-- A connection over the loopback interface. -/
structure Loopback.Line where
  /-- What the listener has sent and nobody has read. -/
  inbound : Bytes
  hold : Bool
  isOpen : Bool
  /-- How long a read waits, if not for ever. -/
  limit : Option Duration
  received : Bytes
  deriving Repr, DecidableEq, Inhabited

/-- A listener on the same machine that takes one connection for each of its plans. -/
structure Loopback where
  plans : List Loopback.Plan
  /-- Every connection that was taken, also those on which no tunnel came about. -/
  lines : List Loopback.Line := []
  /-- The places in `lines` of the connections that came about. -/
  numbers : List Nat := []
  clock : Nat := 0
  deriving Repr, DecidableEq, Inhabited

namespace Loopback

namespace Line

/-- What the listener sends, seen by a reader that is told so when nothing comes in time. -/
def arrivals (line : Line) (late : Option IoError) : Inbound :=
  if line.hold && line.isOpen then .bytes line.inbound :: (late.map (Arrival.failure · false)).toList
  else [.bytes line.inbound]

/-- What a read comes to when nothing comes until its time is over. -/
def late (line : Line) : Option IoError :=
  line.limit.bind fun limit =>
    match Socket.readPolling limit 0 [⟨.error Socket.nothingYet, line.isOpen, limit.toNanos, 0⟩] with
    | some (.error error, _) => some error
    | _ => none

/-- Writes to the connection. -/
def write (bytes : Bytes) (line : Line) : Except IoError Unit × Line :=
  if line.isOpen then (.ok (), { line with received := line.received ++ bytes }) else (.error .closedHere, line)

/-- Reads exactly `want` bytes, each read waiting no longer than the read timeout. -/
def readExactly (want : Nat) (line : Line) : Except IoError Bytes × Line :=
  let (answer, rest) := (line.arrivals line.late).readExactly want
  (answer, { line with inbound := rest.remaining })

def shutDown (line : Line) : Line := { line with isOpen := false }

end Line

/-- Connects, and negotiates a tunnel where the endpoint asks for one. -/
def connect (endpoint : Endpoint) (l : Loopback) : Except NetworkError Unit × Loopback :=
  let (host, port) := Socket.firstHop endpoint
  if endpoint.connectTimeout = 0 then (Socket.dial host port [.error Socket.noTimeGiven], l)
  else
    match l.plans with
    | [] => (Socket.dial host port [.error Socket.connectionRefused], l)
    | plan :: plans =>
      let line : Line := ⟨plan.send, plan.hold, true, endpoint.readLimit, []⟩
      let peer : Peer := { inbound := line.arrivals Socket.nothingYet }
      let (result, peer) := (Socket.negotiation endpoint).against peer
      let line := { line with inbound := peer.inbound.remaining, received := peer.received }
      match result with
      | .ok () =>
        if endpoint.readTimeout = some 0 then
          (.error (.connectionFailed Socket.noTimeGiven.text), { l with plans, lines := l.lines ++ [line.shutDown] })
        else (.ok (), { l with plans, lines := l.lines ++ [line], numbers := l.numbers ++ [l.lines.length] })
      | .error problem => (.error problem.toNetworkError, { l with plans, lines := l.lines ++ [line.shutDown] })

def line? (conn : Nat) (l : Loopback) : Option Line := l.numbers[conn]?.bind fun i => l.lines[i]?

def onLine (conn : Nat) (change : Line → Line) (l : Loopback) : Loopback :=
  match l.numbers[conn]? with
  | some i => { l with lines := l.lines.modify i change }
  | none => l

def network : Network Loopback where
  now l := l.clock
  sleep d l := { l with clock := l.clock + d.toNanos }
  connect endpoint _ l := l.connect endpoint
  isOpen conn l := ((l.line? conn |>.map Line.isOpen).getD false, l)
  write conn bytes l :=
    match l.line? conn with
    | none => (.error .closedHere, l)
    | some line =>
      let (answer, line) := line.write bytes
      (answer, l.onLine conn fun _ => line)
  inbound conn l :=
    ((l.line? conn |>.map fun line => line.arrivals line.late).getD [], l.onLine conn fun line => { line with inbound := [] })
  shutDown conn l := l.onLine conn Line.shutDown
  watch _ _ l := (.ok (), l)

end Loopback
end PushGateway
