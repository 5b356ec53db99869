import PushGateway.Tunnel.Peer
import PushGateway.Text.Utf8
import PushGateway.NetworkError

namespace PushGateway

/-- The steps of a negotiation in which bytes are written or read. -/
inductive Tunnel.Stage
  | connectRequest | connectResponse | greeting | greetingReply | authentication | authenticationReply
  | socksRequest | socksReply | boundAddress
  deriving Repr, DecidableEq

def Tunnel.Stage.name : Tunnel.Stage → String
  | connectRequest => "CONNECT request"
  | connectResponse => "CONNECT response"
  | greeting => "SOCKS greeting"
  | greetingReply => "SOCKS greeting reply"
  | authentication => "SOCKS authentication"
  | authenticationReply => "SOCKS authentication reply"
  | socksRequest => "SOCKS connect request"
  | socksReply => "SOCKS connect reply"
  | boundAddress => "SOCKS bound address"

/-- Why a proxy did not open a tunnel. -/
inductive TunnelError
  | stream (stage : Tunnel.Stage) (cause : IoError)
  | responseTooLarge
  | responseCutShort
  | malformedResponse (line : String)
  | refused (line : String)
  | unexpectedVersion (version : UInt8)
  | noCommonMethod
  | unsupportedMethod (method : UInt8)
  | userNameTooLong
  | passwordTooLong
  | notAuthenticated
  | hostTooLong (host : String)
  | notConnected (code : UInt8)
  | unknownAddressType (code : UInt8)
  deriving Repr, DecidableEq

namespace TunnelError

def message : TunnelError → String
  | stream stage cause => s!"{stage.name}: {cause.text}"
  | responseTooLarge => "CONNECT response too large"
  | responseCutShort => "proxy closed the connection during CONNECT"
  | malformedResponse line => s!"malformed CONNECT response: {line}"
  | refused line => s!"tunnel refused: {line}"
  | unexpectedVersion version => s!"unexpected SOCKS version {version}"
  | noCommonMethod => "SOCKS proxy accepted none of the offered methods"
  | unsupportedMethod method => s!"SOCKS proxy chose unsupported method {method}"
  | userNameTooLong => "SOCKS username too long"
  | passwordTooLong => "SOCKS password too long"
  | notAuthenticated => "SOCKS authentication rejected"
  | hostTooLong host => s!"host name too long: {host}"
  | notConnected code => s!"SOCKS connect failed with reply code {code}"
  | unknownAddressType code => s!"unknown SOCKS address type {code}"

def toNetworkError (e : TunnelError) : NetworkError := .proxy e.message

end TunnelError

/-- A step of a negotiation with a proxy: it changes the far end and may fail. -/
abbrev Negotiation := ExceptT TunnelError (StateM Peer)

namespace Negotiation

def write (stage : Tunnel.Stage) (bytes : Bytes) : Negotiation Unit := fun peer =>
  match peer.writeAll bytes with
  | (.ok (), peer) => (.ok (), peer)
  | (.error cause, peer) => (.error (.stream stage cause), peer)

def flush (stage : Tunnel.Stage) : Negotiation Unit := fun peer =>
  match peer.flush with
  | (.ok (), peer) => (.ok (), peer)
  | (.error cause, peer) => (.error (.stream stage cause), peer)

def readExactly (stage : Tunnel.Stage) (want : Nat) : Negotiation Bytes := fun peer =>
  match peer.readExactly want with
  | (.ok bytes, peer) => (.ok bytes, peer)
  | (.error cause, peer) => (.error (.stream stage cause), peer)

/-- Runs the negotiation against a far end. -/
def against (negotiation : Negotiation Unit) (peer : Peer) : Except TunnelError Unit × Peer :=
  negotiation peer

end Negotiation
end PushGateway
