import PushGateway.Settings.Basic
import PushGateway.Json.Printer
import PushGateway.Json.Shape

namespace PushGateway

open Json (Reader RecordField RecordShape Variant)

/-- An absent value is written as `null`. -/
def Json.option {α : Type} (form : α → Json) : Option α → Json
  | none => .null
  | some value => form value

namespace Json.Reader

def word16 : Reader UInt16 := (natural 65535).map UInt16.ofNat

def word32 : Reader UInt32 := (natural 4294967295).map UInt32.ofNat

def word64 : Reader UInt64 := (natural 18446744073709551615).map UInt64.ofNat

end Json.Reader

namespace Duration

def toJson (d : Duration) : Json :=
  .record [("secs", .natural d.secs), ("nanos", .natural (UInt64.ofNat d.nanos.val))]

structure Draft where
  secs : Option UInt64 := none
  nanos : Option UInt32 := none

def shape : RecordShape Draft Duration where
  fields := [
    .of "secs" Draft.secs (fun d secs => { d with secs := some secs }) .word64,
    .of "nanos" Draft.nanos (fun d nanos => { d with nanos := some nanos }) .word32]
  closed := true
  empty := {}
  finish
    | ⟨some secs, some nanos⟩ => ofParts? secs nanos
    | _ => none

def reader : Reader Duration := shape.reader

end Duration

namespace Proxy

def toJson : Proxy → Json
  | none => .text "None"
  | http host port => .record [("HttpConnect", .record [("host", .text host), ("port", .natural port.toUInt64)])]
  | socks host port user password =>
    .record [("Socks5", .record [("host", .text host), ("port", .natural port.toUInt64),
      ("username", .option .text user), ("password", .option .text password)])]

structure Draft where
  host : Option String := Option.none
  port : Option UInt16 := Option.none
  user : Option (Option String) := Option.none
  password : Option (Option String) := Option.none

def Draft.hostField : RecordField Draft :=
  .of "host" Draft.host (fun d host => { d with host := some host }) .text

def Draft.portField : RecordField Draft :=
  .of "port" Draft.port (fun d port => { d with port := some port }) .word16

def httpShape : RecordShape Draft Proxy where
  fields := [Draft.hostField, Draft.portField]
  closed := false
  empty := {}
  finish
    | { host := some host, port := some port, .. } => some (http host port)
    | _ => Option.none

def socksShape : RecordShape Draft Proxy where
  fields := [
    Draft.hostField,
    Draft.portField,
    .of "username" Draft.user (fun d user => { d with user := some user }) (.optional .text),
    .of "password" Draft.password (fun d password => { d with password := some password }) (.optional .text)]
  closed := false
  empty := {}
  finish
    | { host := some host, port := some port, user, password } =>
      some (socks host port (user.getD Option.none) (password.getD Option.none))
    | _ => Option.none

def reader : Reader Proxy :=
  Variant.reader [("None", .plain none), ("HttpConnect", .holding httpShape.reader),
    ("Socks5", .holding socksShape.reader)]

end Proxy

namespace Endpoint

def toJson (e : Endpoint) : Json :=
  .record [("host", .text e.host), ("port", .natural e.port.toUInt64), ("proxy", e.proxy.toJson),
    ("connect_timeout_ms", .natural e.connectTimeout), ("read_timeout_ms", .option .natural e.readTimeout)]

structure Draft where
  host : Option String := none
  port : Option UInt16 := none
  proxy : Option Proxy := none
  connectTimeout : Option UInt64 := none
  readTimeout : Option (Option UInt64) := none

def shape : RecordShape Draft Endpoint where
  fields := [
    .of "host" Draft.host (fun d host => { d with host := some host }) .text,
    .of "port" Draft.port (fun d port => { d with port := some port }) .word16,
    .of "proxy" Draft.proxy (fun d proxy => { d with proxy := some proxy }) Proxy.reader,
    .of "connect_timeout_ms" Draft.connectTimeout (fun d time => { d with connectTimeout := some time }) .word64,
    .of "read_timeout_ms" Draft.readTimeout (fun d time => { d with readTimeout := some time })
      (.optional .word64)]
  closed := false
  empty := {}
  finish
    | ⟨some host, some port, some proxy, some connectTimeout, readTimeout⟩ =>
      some ⟨host, port, proxy, connectTimeout, readTimeout.getD none⟩
    | _ => none

def reader : Reader Endpoint := shape.reader

end Endpoint

namespace Retry

def toJson (r : Retry) : Json :=
  .record [("max_attempts", .natural r.maxAttempts.toUInt64), ("retry_delay", r.delay.toJson)]

structure Draft where
  maxAttempts : Option UInt32 := none
  delay : Option Duration := none

def shape : RecordShape Draft Retry where
  fields := [
    .of "max_attempts" Draft.maxAttempts (fun d n => { d with maxAttempts := some n }) .word32,
    .of "retry_delay" Draft.delay (fun d delay => { d with delay := some delay }) Duration.reader]
  closed := false
  empty := {}
  finish
    | ⟨some maxAttempts, some delay⟩ => some ⟨maxAttempts, delay⟩
    | _ => none

def reader : Reader Retry := shape.reader

end Retry

namespace ReconnectRule

def toJson : ReconnectRule → Json
  | never => .text "Never"
  | always => .text "Always"
  | afterSends uses => .record [("AfterSends", .natural uses.toUInt64)]
  | afterDuration age => .record [("AfterDuration", age.toJson)]

def reader : Reader ReconnectRule :=
  Variant.reader [("Never", .plain never), ("Always", .plain always),
    ("AfterSends", .holding (Reader.word32.map afterSends)),
    ("AfterDuration", .holding (Duration.reader.map afterDuration))]

end ReconnectRule

namespace Settings

def toJson (s : Settings) : Json :=
  .record [("gateway", s.gateway.toJson), ("feedback", s.feedback.toJson), ("retry", s.retry.toJson),
    ("reconnect", s.reconnect.toJson), ("error_detection", .bool s.errorDetection)]

structure Draft where
  gateway : Option Endpoint := none
  feedback : Option Endpoint := none
  retry : Option Retry := none
  reconnect : Option ReconnectRule := none
  errorDetection : Option Bool := none

def shape : RecordShape Draft Settings where
  fields := [
    .of "gateway" Draft.gateway (fun d gateway => { d with gateway := some gateway }) Endpoint.reader,
    .of "feedback" Draft.feedback (fun d feedback => { d with feedback := some feedback }) Endpoint.reader,
    .of "retry" Draft.retry (fun d retry => { d with retry := some retry }) Retry.reader,
    .of "reconnect" Draft.reconnect (fun d reconnect => { d with reconnect := some reconnect })
      ReconnectRule.reader,
    .of "error_detection" Draft.errorDetection (fun d enabled => { d with errorDetection := some enabled })
      .bool]
  closed := false
  empty := {}
  finish
    | ⟨some gateway, some feedback, some retry, some reconnect, some errorDetection⟩ =>
      some ⟨gateway, feedback, retry, reconnect, errorDetection⟩
    | _ => none

def reader : Reader Settings := shape.reader

end Settings
end PushGateway
