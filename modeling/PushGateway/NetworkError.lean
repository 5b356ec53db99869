import PushGateway.Text.Hex
import PushGateway.IoError

namespace PushGateway

/-- Why a delivery, a connection or a reading of the gateway's answers failed. -/
inductive NetworkError
  | encoding (text : String)
  | invalidHex (text : String)
  | connectionFailed (text : String)
  | tls (text : String)
  | proxy (text : String)
  | connectionClosed
  | timeout
  | sendFailed (text : String)
  | receiveFailed (text : String)
  | protocol (text : String)
  | notConnected
  /-- Every attempt failed, the last one for `cause`. -/
  | deliveryFailed (attempts : Nat) (cause : String)
  deriving Repr, DecidableEq, Inhabited

namespace NetworkError

def message : NetworkError → String
  | encoding text => s!"Encoding error: {text}"
  | invalidHex text => s!"Invalid hex: {text}"
  | connectionFailed text => s!"Connection failed: {text}"
  | tls text => s!"TLS error: {text}"
  | proxy text => s!"Proxy error: {text}"
  | connectionClosed => "Connection closed"
  | timeout => "Connection timeout"
  | sendFailed text => s!"Message send failed: {text}"
  | receiveFailed text => s!"Message receive failed: {text}"
  | protocol text => s!"Protocol error: {text}"
  | notConnected => "Transport not connected"
  | deliveryFailed attempts cause => s!"Delivery failed after {attempts} attempts: {cause}"

/-- No connection came about, as opposed to one that broke. -/
def isConnectError : NetworkError → Bool
  | connectionFailed _ | tls _ | proxy _ => true
  | _ => false

def ofHex (e : HexError) : NetworkError := invalidHex e.message

/-- What a failed read means to whoever waits for the bytes. -/
def ofRead (e : IoError) : NetworkError :=
  match e.kind with
  | .timedOut | .wouldBlock => timeout
  | .unexpectedEof => connectionClosed
  | _ => receiveFailed e.text

/-- What a failed write means to the sender. -/
def ofWrite (e : IoError) : NetworkError :=
  match e.kind with
  | .notConnected => notConnected
  | .brokenPipe | .connectionReset | .connectionAborted => connectionClosed
  | _ => sendFailed e.text

end NetworkError

/-- What the service as a whole can answer instead of a result. -/
inductive ServiceError
  | network (cause : NetworkError)
  | configuration (text : String)
  | payload (text : String)
  deriving Repr, DecidableEq, Inhabited

def ServiceError.message : ServiceError → String
  | network cause => s!"network error: {cause.message}"
  | configuration text => s!"configuration error: {text}"
  | payload text => s!"payload error: {text}"

end PushGateway
