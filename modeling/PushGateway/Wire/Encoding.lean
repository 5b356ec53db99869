import PushGateway.Notification

namespace PushGateway

/-- The two parts of a notification whose length is announced in 16 bits. -/
inductive Wire.Field
  | token | payload
  deriving Repr, DecidableEq

def Wire.Field.name : Wire.Field → String
  | token => "device token"
  | payload => "payload"

inductive EncodeError
  | fieldTooLong (field : Wire.Field) (length : Nat)
  | frameTooLong (length : Nat)
  deriving Repr, DecidableEq

def EncodeError.message : EncodeError → String
  | fieldTooLong field length => s!"{field.name} too long: {length} bytes (max {Bytes.fieldLimit})"
  | frameTooLong length => s!"frame too long: {length} bytes"

namespace Wire

/-- The kinds of item in a framed notification that have a meaning. -/
inductive ItemKind
  | token | payload | identifier | expiry | priority
  deriving Repr, DecidableEq

namespace ItemKind

def code : ItemKind → UInt8
  | token => 1
  | payload => 2
  | identifier => 3
  | expiry => 4
  | priority => 5

def ofCode? : UInt8 → Option ItemKind
  | 1 => some token
  | 2 => some payload
  | 3 => some identifier
  | 4 => some expiry
  | 5 => some priority
  | _ => none

@[simp] theorem ofCode?_code (kind : ItemKind) : ofCode? kind.code = some kind := by
  cases kind <;> rfl

end ItemKind

/-- Bytes behind their length. The length is written modulo 2^16. -/
def counted (bytes : Bytes) : Bytes :=
  Bytes.ofWord16 (UInt16.ofNat bytes.length) ++ bytes

@[simp] theorem length_counted (bytes : Bytes) : (counted bytes).length = bytes.length + 2 := by
  simp [counted, Nat.add_comm]

/-- One item of a frame: kind, length and content. -/
def item (code : UInt8) (bytes : Bytes) : Bytes := code :: counted bytes

/-- The items of a frame, in the order in which they are written. -/
def frameBody (identifier expiry : UInt32) (priority : UInt8) (token payload : Bytes) : Bytes :=
  item ItemKind.token.code token ++ item ItemKind.payload.code payload ++
    item ItemKind.identifier.code (Bytes.ofWord32 identifier) ++
    item ItemKind.expiry.code (Bytes.ofWord32 expiry) ++ item ItemKind.priority.code [priority]

/-- The bytes of a notification whose lengths fit. -/
def layout (n : Notification) : Bytes :=
  match n.format with
  | .legacy => n.format.command :: (counted n.token ++ counted n.payload)
  | .enhanced identifier expiry =>
    n.format.command :: (Bytes.ofWord32 identifier ++ Bytes.ofWord32 expiry ++ counted n.token ++
      counted n.payload)
  | .framed identifier expiry priority =>
    let body := frameBody identifier expiry priority n.token n.payload
    n.format.command :: (Bytes.ofWord32 (UInt32.ofNat body.length) ++ body)

/-- The length of the items of a frame. -/
def frameLength (n : Notification) : Nat :=
  5 * 3 + n.token.length + n.payload.length + 4 + 4 + 1

end Wire

namespace Notification

/-- The bytes of a notification on the wire. A token that is too long is reported before a payload. -/
def encode (n : Notification) : Except EncodeError Bytes :=
  if Bytes.fieldLimit < n.token.length then .error (.fieldTooLong .token n.token.length)
  else if Bytes.fieldLimit < n.payload.length then .error (.fieldTooLong .payload n.payload.length)
  else
    match n.format with
    | .framed .. =>
      let length := Wire.frameLength n
      if 4294967296 ≤ length then .error (.frameTooLong length) else .ok (Wire.layout n)
    | _ => .ok (Wire.layout n)

/-- The lengths of token and payload can each be announced in 16 bits. -/
def Fits (n : Notification) : Prop :=
  n.token.length ≤ Bytes.fieldLimit ∧ n.payload.length ≤ Bytes.fieldLimit
  deriving Decidable

/-- The length of the bytes of a notification, said without writing them. -/
def encodedLength (n : Notification) : Nat :=
  match n.format with
  | .legacy => 1 + 2 + 2 + (n.token.length + n.payload.length)
  | .enhanced .. => 1 + 4 + 4 + 2 + 2 + (n.token.length + n.payload.length)
  | .framed .. => 1 + 4 + 5 * 3 + (n.token.length + n.payload.length) + 4 + 4 + 1

end Notification
end PushGateway
