import PushGateway.Text.Hex

namespace PushGateway

/-- The three ways in which a notification can be put on the wire, with what each carries
besides token and payload. -/
inductive Notification.Format
  | legacy
  | enhanced (identifier expiry : UInt32)
  | framed (identifier expiry : UInt32) (priority : UInt8)
  deriving Repr, DecidableEq, Inhabited

structure Notification where
  format : Notification.Format
  token : Bytes
  payload : Bytes
  deriving Repr, DecidableEq, Inhabited

namespace Notification

def defaultPriority : UInt8 := 10

/-- Delivered when that spares the device's battery. -/
def sparingPriority : UInt8 := 5

/-- Not kept for a device that cannot be reached at once. -/
def noExpiry : UInt32 := 0

namespace Format

/-- The first byte of a notification of this format. -/
def command : Format → UInt8
  | legacy => 0
  | enhanced .. => 1
  | framed .. => 2

def identifier? : Format → Option UInt32
  | legacy => none
  | enhanced identifier _ | framed identifier _ _ => some identifier

def expiry? : Format → Option UInt32
  | legacy => none
  | enhanced _ expiry | framed _ expiry _ => some expiry

def priority? : Format → Option UInt8
  | framed _ _ priority => some priority
  | _ => none

end Format

def legacy (token payload : Bytes) : Notification := ⟨.legacy, token, payload⟩

def enhanced (identifier expiry : UInt32) (token payload : Bytes) : Notification :=
  ⟨.enhanced identifier expiry, token, payload⟩

/-- A notification for the device whose token is written in hexadecimal digits. -/
def forHexToken (format : Format) (token : String) (payload : Bytes) : Except HexError Notification :=
  match Hex.decode token with
  | .error problem => .error problem
  | .ok token => .ok ⟨format, token, payload⟩

def hexToken (n : Notification) : String := Hex.encode n.token

/-- One line for a log: the token in full, of the payload only the size. -/
def summary (n : Notification) : String :=
  let identifier := match n.format.identifier? with
    | some identifier => s!" id={identifier},"
    | none => ""
  s!"Notification\x7bcommand={n.format.command},{identifier} token={n.hexToken}, payload={n.payload.length}B\x7d"

end Notification
end PushGateway
