import PushGateway.Delivery.World

namespace PushGateway

/-- What comes of one write: the bytes are taken, they are taken and the connection closes, or it fails. -/
inductive Rehearsal.WritePlan
  | take
  | takeAndClose
  | fail (error : IoError)
  deriving Repr, DecidableEq, Inhabited

/-- What comes of one try to connect. A connection may be closed from the first. -/
inductive Rehearsal.ConnectPlan
  | refuse (error : NetworkError)
  | accept (writes : List Rehearsal.WritePlan) (closed : Bool)
  deriving Repr, DecidableEq, Inhabited

/-- What is left of the plan of one connection. -/
structure Rehearsal.Line where
  writes : List Rehearsal.WritePlan
  isOpen : Bool
  deriving Repr, DecidableEq, Inhabited

/-- A network in which the outcome of every connect and write is laid down beforehand. What is not laid
down succeeds. -/
structure Rehearsal where
  connects : List Rehearsal.ConnectPlan := []
  lines : List Rehearsal.Line := []
  clock : Nat := 0
  deriving Repr, DecidableEq, Inhabited

namespace Rehearsal

def connect (r : Rehearsal) : Except NetworkError Unit × Rehearsal :=
  match r.connects with
  | [] => (.ok (), { r with lines := r.lines ++ [⟨[], true⟩] })
  | .refuse error :: later => (.error error, { r with connects := later })
  | .accept writes closed :: later =>
    (.ok (), { r with connects := later, lines := r.lines ++ [⟨writes, !closed⟩] })

def isOpen (conn : Nat) (r : Rehearsal) : Bool := (r.lines[conn]?.map Line.isOpen).getD false

/-- What the next write to a line comes to. -/
def Line.write (line : Line) : Except IoError Unit × Line :=
  match line.writes with
  | [] => (.ok (), line)
  | .take :: later => (.ok (), { line with writes := later })
  | .takeAndClose :: later => (.ok (), ⟨later, false⟩)
  | .fail error :: later => (.error error, { line with writes := later })

def write (conn : Nat) (r : Rehearsal) : Except IoError Unit × Rehearsal :=
  match r.lines[conn]? with
  | none => (.error .closedHere, r)
  | some line =>
    let (answer, line) := line.write
    (answer, { r with lines := r.lines.set conn line })

def network : Network Rehearsal where
  now r := r.clock
  sleep d r := { r with clock := r.clock + d.toNanos }
  connect _ _ r := r.connect
  isOpen conn r := (r.isOpen conn, r)
  write conn _ r := r.write conn
  inbound _ r := ([], r)
  shutDown conn r := { r with lines := r.lines.modify conn fun line => { line with isOpen := false } }
  watch _ _ r := (.ok (), r)

end Rehearsal
end PushGateway
