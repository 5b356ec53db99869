import PushGateway.Duration
import PushGateway.Decimal.Digits

namespace PushGateway

/-- The way to a server: straight, or through a proxy that opens a tunnel. -/
inductive Proxy
  | none
  | http (host : String) (port : UInt16)
  | socks (host : String) (port : UInt16) (user password : Option String)
  deriving Repr, DecidableEq, Inhabited

/-- Where to connect to, how, and how long to wait. Times are in milliseconds; without a read timeout
a read waits until something comes. -/
structure Endpoint where
  host : String
  port : UInt16
  proxy : Proxy
  connectTimeout : UInt64
  readTimeout : Option UInt64
  deriving Repr, DecidableEq, Inhabited

namespace Endpoint

def gatewayPort : UInt16 := 2195

def feedbackPort : UInt16 := 2196

def productionGatewayHost : String := "gateway.push.apple.com"

def productionFeedbackHost : String := "feedback.push.apple.com"

def sandboxGatewayHost : String := "gateway.sandbox.push.apple.com"

def sandboxFeedbackHost : String := "feedback.sandbox.push.apple.com"

/-- A server that is reached straight, within ten seconds. -/
def direct (host : String) (port : UInt16) : Endpoint := ⟨host, port, .none, 10000, none⟩

def productionGateway : Endpoint := direct productionGatewayHost gatewayPort

def productionFeedback : Endpoint := direct productionFeedbackHost feedbackPort

def sandboxGateway : Endpoint := direct sandboxGatewayHost gatewayPort

def sandboxFeedback : Endpoint := direct sandboxFeedbackHost feedbackPort

def address (e : Endpoint) : String := e.host ++ ":" ++ Decimal.text e.port.toNat

def withProxy (proxy : Proxy) (e : Endpoint) : Endpoint := { e with proxy }

/-- Whole milliseconds are kept, modulo 2^64. -/
def withConnectTimeout (d : Duration) (e : Endpoint) : Endpoint :=
  { e with connectTimeout := UInt64.ofNat d.toMillis }

/-- Whole milliseconds are kept, modulo 2^64. -/
def withReadTimeout (d : Duration) (e : Endpoint) : Endpoint :=
  { e with readTimeout := some (UInt64.ofNat d.toMillis) }

/-- How long to wait for a connection. -/
def connectLimit (e : Endpoint) : Duration := .ofMillis e.connectTimeout

/-- How long a read waits, if not for ever. -/
def readLimit (e : Endpoint) : Option Duration := e.readTimeout.map .ofMillis

/-- The same way to another server. -/
def redirect (host : String) (port : UInt16) (e : Endpoint) : Endpoint := { e with host, port }

end Endpoint
end PushGateway
