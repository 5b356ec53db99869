import PushGateway.Settings.Endpoint
import PushGateway.Settings.Reconnect
import PushGateway.Text.Blank
import PushGateway.NetworkError

namespace PushGateway

/-- How often a notification is tried, and how long to wait between attempts after the second. -/
structure Retry where
  maxAttempts : UInt32 := 3
  delay : Duration := .seconds 1
  deriving Repr, DecidableEq, Inhabited

/-- There is always a first attempt. -/
def Retry.attempts (r : Retry) : Nat := max r.maxAttempts.toNat 1

/-- All that a push service is told before it starts. -/
structure Settings where
  gateway : Endpoint
  feedback : Endpoint
  retry : Retry := {}
  reconnect : ReconnectRule := .everyHalfHour
  errorDetection : Bool := true
  deriving Repr, DecidableEq, Inhabited

/-- The two servers of a push service. -/
inductive Settings.Side
  | gateway | feedback
  deriving Repr, DecidableEq

def Settings.Side.name : Settings.Side → String
  | gateway => "gateway"
  | feedback => "feedback"

/-- Why no service can be started. -/
inductive SettingsError
  | hostBlank (side : Settings.Side)
  | portZero (side : Settings.Side)
  | connectTimeoutZero (side : Settings.Side)
  | readTimeoutZero (side : Settings.Side)
  | noAttempts
  | noTransport
  deriving Repr, DecidableEq

namespace SettingsError

def message : SettingsError → String
  | hostBlank side => s!"{side.name} host is empty"
  | portZero side => s!"{side.name} port is 0"
  | connectTimeoutZero side => s!"{side.name} connect timeout is 0"
  | readTimeoutZero side => s!"{side.name} read timeout is 0"
  | noAttempts => "retry max_attempts must be at least 1"
  | noTransport => "no transport selected: call with_tls or with_plaintext"

def toServiceError (e : SettingsError) : ServiceError := .configuration e.message

end SettingsError

namespace Settings

def production : Settings := { gateway := .productionGateway, feedback := .productionFeedback }

def sandbox : Settings := { gateway := .sandboxGateway, feedback := .sandboxFeedback }

/-- Changes both endpoints alike. -/
def both (change : Endpoint → Endpoint) (s : Settings) : Settings :=
  { s with gateway := change s.gateway, feedback := change s.feedback }

def withProxy (proxy : Proxy) (s : Settings) : Settings := s.both (·.withProxy proxy)

def withConnectTimeout (d : Duration) (s : Settings) : Settings := s.both (·.withConnectTimeout d)

def withReadTimeout (d : Duration) (s : Settings) : Settings := s.both (·.withReadTimeout d)

/-- Takes the hosts and ports of other settings and keeps all else. -/
def retarget (s other : Settings) : Settings :=
  { s with
    gateway := s.gateway.redirect other.gateway.host other.gateway.port
    feedback := s.feedback.redirect other.feedback.host other.feedback.port }

def checkEndpoint (side : Side) (e : Endpoint) : Except SettingsError Unit :=
  if Text.isBlankText e.host then .error (.hostBlank side)
  else if e.port = 0 then .error (.portZero side)
  else if e.connectTimeout = 0 then .error (.connectTimeoutZero side)
  else if e.readTimeout = some 0 then .error (.readTimeoutZero side)
  else .ok ()

/-- Whether a service can be started, and if not the first reason. -/
def validate (s : Settings) : Except SettingsError Unit :=
  match checkEndpoint .gateway s.gateway with
  | .error problem => .error problem
  | .ok () =>
    match checkEndpoint .feedback s.feedback with
    | .error problem => .error problem
    | .ok () => if s.retry.maxAttempts = 0 then .error .noAttempts else .ok ()

end Settings
end PushGateway
