namespace PushGateway

/-- What kind of failure a stream reports. -/
inductive IoError.Kind
  | notFound | permissionDenied | connectionRefused | connectionReset | connectionAborted | hostUnreachable
  | networkUnreachable | notConnected | addrInUse | addrNotAvailable | networkDown | brokenPipe | alreadyExists
  | wouldBlock | invalidInput | invalidData | timedOut | writeZero | storageFull | interrupted | unsupported
  | unexpectedEof | outOfMemory | other
  deriving Repr, DecidableEq, Inhabited

/-- A failed read, write or flush of a stream, with its text. -/
structure IoError where
  kind : IoError.Kind
  text : String
  deriving Repr, DecidableEq, Inhabited

namespace IoError

/-- The connection was shut down on this side. -/
def closedHere : IoError := ⟨.notConnected, "connection closed"⟩

def readTimedOut : IoError := ⟨.timedOut, "read timed out"⟩

/-- The stream ended where a number of bytes was due. -/
def endedEarly : IoError := ⟨.unexpectedEof, "failed to fill whole buffer"⟩

/-- The stream took no more of what was to be written. -/
def tookNothing : IoError := ⟨.writeZero, "failed to write whole buffer"⟩

/-- Failures that say no more than that nothing came in time. -/
def isPoll (e : IoError) : Bool :=
  e.kind == .timedOut || e.kind == .wouldBlock

/-- Failures of a read after which more may come. -/
def isTransient (e : IoError) : Bool :=
  e.isPoll || e.kind == .interrupted

end IoError
end PushGateway
