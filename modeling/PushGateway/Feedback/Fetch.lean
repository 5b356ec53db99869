import PushGateway.Feedback.Record
import PushGateway.Delivery.World

namespace PushGateway.Feedback

variable {σ : Type} (net : Network σ)

/-- Reads all records over a connection of its own, which is shut down in every case. -/
def fetch (endpoint : Endpoint) (w : World σ) : Except NetworkError (List Record) × World σ :=
  match w.connect net endpoint with
  | (.error error, w) => (.error error, w)
  | (.ok conn, w) =>
    let (inbound, w) := w.inbound net conn
    let w := w.shutDown net conn
    match readAll inbound with
    | (.ok records, _) => (.ok records, w)
    | (.error error, _) => (.error error.toNetworkError, w)

/-- Devices by their tokens in hexadecimal digits, each with a time. The tokens increase. -/
abbrev Devices := List (String × UInt32)

/-- Takes in one report; of several about a device the latest counts. -/
def Devices.report (token : String) (time : UInt32) : Devices → Devices
  | [] => [(token, time)]
  | (other, known) :: later =>
    if token < other then (token, time) :: (other, known) :: later
    else if token = other then (token, max known time) :: later
    else (other, known) :: report token time later

/-- The devices that records name, with the latest time of each. -/
def Devices.ofRecords (records : List Record) : Devices :=
  records.foldl (fun devices record => devices.report record.hexToken record.timestamp) []

def inactiveDevices (endpoint : Endpoint) (w : World σ) : Except NetworkError Devices × World σ :=
  match fetch net endpoint w with
  | (.ok records, w) => (.ok (.ofRecords records), w)
  | (.error error, w) => (.error error, w)

end PushGateway.Feedback
