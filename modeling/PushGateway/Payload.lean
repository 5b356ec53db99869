import PushGateway.Json.Printer
import PushGateway.NetworkError
import PushGateway.Text.Utf8

namespace PushGateway

/-- What a notification tells the device, as far as it has been said. -/
structure Payload where
  alertBody : Option String := none
  badge : Option Int32 := none
  sound : Option String := none
  actionKey : Option String := none
  localizedKey : Option String := none
  localizedArguments : Option (List String) := none
  /-- What the application adds, by increasing name. -/
  custom : Json.Members := []

/-- The things that can be said about a notification. -/
inductive Payload.Part
  | alertBody (text : String)
  | badge (n : Int32)
  | clearBadge
  | sound (name : String)
  | actionKey (key : String)
  | noActionButton
  | localizedKey (key : String)
  | localizedArguments (arguments : List String)
  | custom (name : String) (value : Json)

namespace Payload

/-- The action key that stands for an alert without a button. -/
def noButton : String := "null"

/-- The name of the member that the system itself reads. -/
def systemName : String := "aps"

/-- What is said later replaces what was said before. -/
def say (p : Payload) : Part → Payload
  | .alertBody text => { p with alertBody := some text }
  | .badge n => { p with badge := some n }
  | .clearBadge => { p with badge := some 0 }
  | .sound name => { p with sound := some name }
  | .actionKey key => { p with actionKey := some key }
  | .noActionButton => { p with actionKey := some noButton }
  | .localizedKey key => { p with localizedKey := some key }
  | .localizedArguments arguments => { p with localizedArguments := some arguments }
  | .custom name value => { p with custom := Json.insert name value p.custom }

def ofParts (parts : List Part) : Payload := parts.foldl say {}

/-- Adds a member if there is a value for it. -/
def put {α : Type} (name : String) (form : α → Json) (value : Option α) (members : Json.Members) : Json.Members :=
  match value with
  | some value => Json.insert name (form value) members
  | none => members

/-- What is said about the alert besides its text. -/
def alertProperties (p : Payload) : Json.Members :=
  put "action-loc-key" .text p.actionKey <|
    put "loc-key" .text p.localizedKey <|
      put "loc-args" (fun arguments => .list (arguments.map .text)) p.localizedArguments []

/-- A text alone, or a record if there is more to say about the alert. -/
def alert (p : Payload) : Option Json :=
  match alertProperties p with
  | [] => p.alertBody.map .text
  | properties => some (.record (put "body" .text p.alertBody properties))

def system (p : Payload) : Json :=
  .record <|
    put "alert" id p.alert <|
      put "badge" (fun n => .whole (.ofInt32 n)) p.badge <|
        put "sound" .text p.sound []

/-- The whole payload. What an application puts under the name of the system's member is lost. -/
def toJson (p : Payload) : Json := .record (Json.insert systemName p.system p.custom)

def text (p : Payload) : String := p.toJson.compact

/-- The payload as text. Every value can be written, so that there is no error. -/
def build (p : Payload) : Except ServiceError String := .ok p.text

/-- The payload as a notification carries it. -/
def buildBytes (p : Payload) : Except ServiceError Bytes := p.build.map Text.utf8

end Payload
end PushGateway
