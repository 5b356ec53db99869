import PushGateway.Monitor

namespace PushGateway

/-- A connection that exists in memory only. The far end can put bytes in and end its side; what is
written stays to be looked at. -/
structure Pipe where
  isOpen : Bool := true
  /-- The far end sends no more. -/
  farClosed : Bool := false
  inbound : Bytes := []
  written : Bytes := []
  /-- A read gives up after so many milliseconds. -/
  readTimeout : Option UInt64 := none
  deriving Repr, DecidableEq, Inhabited

namespace Pipe

/-- The far end sends bytes. -/
def push (bytes : Bytes) (p : Pipe) : Pipe := { p with inbound := p.inbound ++ bytes }

/-- The far end ends its side of the stream. -/
def closeFar (p : Pipe) : Pipe := { p with farClosed := true }

def shutDown (p : Pipe) : Pipe := { p with isOpen := false }

/-- One read. There is no answer where it has to wait for the far end. -/
def read (limit : Nat) (p : Pipe) : Option (Except IoError Bytes × Pipe) :=
  if !p.isOpen then some (.error .closedHere, p)
  else if !p.inbound.isEmpty then
    some (.ok (p.inbound.take limit), { p with inbound := p.inbound.drop limit })
  else if p.farClosed then some (.ok [], p)
  else none

/-- One read by someone who waits no longer than the timeout. Without a timeout there may be no answer. -/
def readWaiting (limit : Nat) (p : Pipe) : Option (Except IoError Bytes × Pipe) :=
  match p.read limit with
  | some found => some found
  | none => p.readTimeout.map fun _ => (.error .readTimedOut, p)

/-- All that the pipe delivers to a reader while the far end does nothing more. Without a timeout such a
reader might wait for ever; it is shown the end of the stream. -/
def arrivals (p : Pipe) : Inbound :=
  if !p.isOpen then [.failure .closedHere false]
  else if p.farClosed || p.readTimeout.isNone then [.bytes p.inbound]
  else [.bytes p.inbound, .failure .readTimedOut false]

theorem volume_read {limit : Nat} {p p' : Pipe} {answer : Except IoError Bytes}
    (taken : p.read limit = some (answer, p')) : p'.inbound.length ≤ p.inbound.length := by
  unfold read at taken
  split at taken
  · cases taken
    exact Nat.le_refl _
  · split at taken
    · cases taken
      simp only [List.length_drop]
      omega
    · split at taken <;> cases taken
      exact Nat.le_refl _

theorem volume_read_lt {limit : Nat} {p p' : Pipe} {answer : Except IoError Bytes}
    (taken : p.read limit = some (answer, p')) (more : goesOn answer) :
    p'.inbound.length < p.inbound.length := by
  unfold read at taken
  split at taken
  · cases taken
    exact absurd more (by decide)
  · split at taken
    · rename_i some
      cases taken
      cases stored : p.inbound with
      | nil => simp [stored] at some
      | cons b bs =>
        cases limit with
        | zero => simp [stored, goesOn] at more
        | succ limit =>
          simp only [List.drop_succ_cons, List.length_drop, List.length_cons]
          omega
    · split at taken <;> cases taken
      exact absurd more (by decide)

/-- A pipe as its monitor sees it. A read that times out is only tried again, so it counts as waiting. -/
def watch : Watch Pipe where
  read := read
  isOpen := isOpen
  shutDown := shutDown
  volume p := p.inbound.length
  volume_read := volume_read
  volume_read_lt := volume_read_lt

end Pipe
end PushGateway
