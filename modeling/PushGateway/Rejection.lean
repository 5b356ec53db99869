import PushGateway.Bytes

namespace PushGateway

/-- Why the gateway gave up a notification. -/
inductive Rejection.Status
  | noError | processingError | missingToken | missingTopic | missingPayload | invalidTokenSize
  | invalidTopicSize | invalidPayloadSize | invalidToken | shutdown | unknown
  | unrecognized (code : UInt8)
  deriving Repr, DecidableEq, Inhabited

/-- What the gateway says before it closes a connection. Everything sent after the
named notification is lost with it. -/
structure Rejection where
  status : Rejection.Status
  identifier : Option UInt32
  deriving Repr, DecidableEq, Inhabited

namespace Rejection

namespace Status

def ofCode (code : UInt8) : Status :=
  match code with
  | 0 => noError
  | 1 => processingError
  | 2 => missingToken
  | 3 => missingTopic
  | 4 => missingPayload
  | 5 => invalidTokenSize
  | 6 => invalidTopicSize
  | 7 => invalidPayloadSize
  | 8 => invalidToken
  | 10 => shutdown
  | 255 => unknown
  | code => unrecognized code

def code : Status → UInt8
  | noError => 0
  | processingError => 1
  | missingToken => 2
  | missingTopic => 3
  | missingPayload => 4
  | invalidTokenSize => 5
  | invalidTopicSize => 6
  | invalidPayloadSize => 7
  | invalidToken => 8
  | shutdown => 10
  | unknown => 255
  | unrecognized code => code

@[simp] theorem code_ofCode (c : UInt8) : (ofCode c).code = c := by
  unfold ofCode
  split <;> rfl

def name : Status → String
  | noError => "NoError"
  | processingError => "ProcessingError"
  | missingToken => "MissingDeviceToken"
  | missingTopic => "MissingTopic"
  | missingPayload => "MissingPayload"
  | invalidTokenSize => "InvalidTokenSize"
  | invalidTopicSize => "InvalidTopicSize"
  | invalidPayloadSize => "InvalidPayloadSize"
  | invalidToken => "InvalidToken"
  | shutdown => "Shutdown"
  | unknown => "Unknown"
  | unrecognized code => s!"Unrecognized({code})"

end Status

/-- The connection ended and the gateway did not say why. -/
def unexplained : Rejection := ⟨.unknown, none⟩

def text (r : Rejection) : String :=
  let whole := s!"{r.status.name} (status {r.status.code})"
  match r.identifier with
  | some identifier => s!"{whole} for notification {identifier}"
  | none => whole

/-- The first byte of every error frame. -/
def command : UInt8 := 8

/-- The number of bytes in an error frame. -/
def frameLength : Nat := 6

/-- Why bytes are no error frame. -/
inductive FrameError
  | unexpectedCommand (byte : UInt8)
  | wrongLength (length : Nat)
  deriving Repr, DecidableEq

def FrameError.message : FrameError → String
  | unexpectedCommand byte => s!"unexpected command byte {byte} in error frame"
  | wrongLength length => s!"error frame of {length} bytes"

/-- The bytes of an error frame: the command, a status code and the identifier of the notification. -/
def frame (code : UInt8) (identifier : UInt32) : Bytes :=
  command :: code :: Bytes.ofWord32 identifier

def ofFrame? : Bytes → Except FrameError Rejection
  | [first, code, a, b, c, d] =>
    if first = command then .ok ⟨.ofCode code, some (Bytes.word32 a b c d)⟩
    else .error (.unexpectedCommand first)
  | bytes => .error (.wrongLength bytes.length)

theorem ofFrame?_frame (code : UInt8) (identifier : UInt32) :
    ofFrame? (frame code identifier) = .ok ⟨.ofCode code, some identifier⟩ := by
  simp [frame, Bytes.ofWord32, ofFrame?]

/-- What can be said of an error frame that was cut short. -/
def ofPartialFrame : Bytes → Rejection
  | first :: code :: _ => if first = command then ⟨.ofCode code, none⟩ else unexplained
  | _ => unexplained

end Rejection
end PushGateway
