import PushGateway.Settings.Basic

namespace PushGateway

/-- A service in preparation. -/
structure Setup where
  settings : Settings := .production
  transportChosen : Bool := false
  deriving Repr, DecidableEq, Inhabited

/-- The things that can be said about a service in preparation. -/
inductive Setup.Choice
  | settings (settings : Settings)
  | production
  | sandbox
  | gateway (host : String) (port : UInt16)
  | feedback (host : String) (port : UInt16)
  | proxy (proxy : Proxy)
  | reconnect (rule : ReconnectRule)
  | errorDetection (enabled : Bool)
  | retry (retry : Retry)
  | readTimeout (d : Duration)
  | connectTimeout (d : Duration)
  | transport
  deriving Repr, DecidableEq

namespace Setup

def choose (setup : Setup) : Choice → Setup
  | .settings settings => { setup with settings }
  | .production => { setup with settings := setup.settings.retarget .production }
  | .sandbox => { setup with settings := setup.settings.retarget .sandbox }
  | .gateway host port =>
    { setup with settings := { setup.settings with gateway := setup.settings.gateway.redirect host port } }
  | .feedback host port =>
    { setup with settings := { setup.settings with feedback := setup.settings.feedback.redirect host port } }
  | .proxy proxy => { setup with settings := setup.settings.withProxy proxy }
  | .reconnect rule => { setup with settings := { setup.settings with reconnect := rule } }
  | .errorDetection enabled => { setup with settings := { setup.settings with errorDetection := enabled } }
  | .retry retry => { setup with settings := { setup.settings with retry } }
  | .readTimeout d => { setup with settings := setup.settings.withReadTimeout d }
  | .connectTimeout d => { setup with settings := setup.settings.withConnectTimeout d }
  | .transport => { setup with transportChosen := true }

def chooseAll (setup : Setup) (choices : List Choice) : Setup := choices.foldl choose setup

/-- The settings of the service, if it can be started. A missing transport comes before all else. -/
def finish (setup : Setup) : Except SettingsError Settings :=
  if setup.transportChosen then
    match setup.settings.validate with
    | .error problem => .error problem
    | .ok () => .ok setup.settings
  else .error .noTransport

end Setup
end PushGateway
