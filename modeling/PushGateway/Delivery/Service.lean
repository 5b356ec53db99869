import PushGateway.Delivery.Call
import PushGateway.Feedback.Fetch
import PushGateway.Settings.Setup

namespace PushGateway

/-- A push service: one client for the gateway, and the feedback server asked when needed. -/
structure Service where
  client : Client Reconnect
  settings : Settings
  deriving Repr, DecidableEq, Inhabited

/-- The notification that brings a payload to the device with a token in hexadecimal digits, under an identifier of its
own. The identifier is drawn even if the token is none. -/
def World.draft {σ : Type} (token : String) (payload : Bytes) (w : World σ) : Except HexError Notification × World σ :=
  let (identifier, w) := w.drawIdentifier
  (Notification.forHexToken (.enhanced identifier Notification.noExpiry) token payload, w)

theorem World.draft_fst {σ : Type} (token : String) (payload : Bytes) (w : World σ) :
    (w.draft token payload).1 =
      Notification.forHexToken (.enhanced w.identifier Notification.noExpiry) token payload := rfl

namespace Service

variable {σ : Type} (net : Network σ)

/-- Starts a service. No connection is made before the first send. -/
def start (setup : Setup) (listener : Listener) (w : World σ) : Except ServiceError Service :=
  match setup.finish with
  | .error problem => .error problem.toServiceError
  | .ok settings =>
    let manager : Manager Reconnect :=
      { endpoint := settings.gateway, policy := settings.reconnect.start (w.now net), listener,
        detection := settings.errorDetection }
    .ok ⟨⟨manager, settings.retry⟩, settings⟩

def wrap {α : Type} : Except NetworkError α → Except ServiceError α
  | .ok value => .ok value
  | .error error => .error (.network error)

/-- Sends a notification; the listener, if there is one, asks `inside` from within. -/
def push (n : Notification) (inside : List Call) (s : Service) (w : World σ) :
    Except ServiceError Unit × List Answer × Service × World σ :=
  let (result, answers, client, w) := s.client.sendHearing net n inside w
  (wrap result, answers, { s with client }, w)

/-- Sends a payload to the device with a token in hexadecimal digits, and answers with what was sent. -/
def pushTo (token : String) (payload : Bytes) (inside : List Call) (s : Service) (w : World σ) :
    Except ServiceError Notification × List Answer × Service × World σ :=
  match w.draft token payload with
  | (.error problem, w) => (.error (.network (.ofHex problem)), [], s, w)
  | (.ok n, w) =>
    match s.push net n inside w with
    | (.ok (), answers, s, w) => (.ok n, answers, s, w)
    | (.error error, answers, s, w) => (.error error, answers, s, w)

def feedback (s : Service) (w : World σ) : Except ServiceError (List Feedback.Record) × World σ :=
  let (result, w) := Feedback.fetch net s.settings.feedback w
  (wrap result, w)

def inactiveDevices (s : Service) (w : World σ) : Except ServiceError Feedback.Devices × World σ :=
  let (result, w) := Feedback.inactiveDevices net s.settings.feedback w
  (wrap result, w)

def testConnection (s : Service) (w : World σ) : Except ServiceError Unit × World σ :=
  let (result, w) := s.client.testConnection net w
  (wrap result, w)

def close (s : Service) (w : World σ) : Service × World σ :=
  let (client, w) := s.client.close net .client w
  ({ s with client }, w)

def state (s : Service) (w : World σ) : ConnectionState × World σ := s.client.state net .client w

def opened (s : Service) (w : World σ) : Nat × World σ := s.client.opened .client w

end Service
end PushGateway
