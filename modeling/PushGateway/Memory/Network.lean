import PushGateway.Memory.Pipe
import PushGateway.Delivery.World

namespace PushGateway

/-- What the far end of the next connection does at once. -/
structure Memory.Script where
  inbound : Bytes
  closeFar : Bool
  deriving Repr, DecidableEq, Inhabited

/-- A monitor at work on a connection. -/
structure Memory.Watcher where
  conn : Nat
  listener : Listener
  monitor : Monitor
  deriving Repr, DecidableEq, Inhabited

/-- A network that exists in memory only. Connects and writes can be made to fail, and what the far ends of
coming connections do can be laid down beforehand. -/
structure Memory where
  pipes : List Pipe := []
  /-- The endpoint of every try to connect. -/
  endpoints : List Endpoint := []
  /-- How many of the next connects fail. -/
  connectFailures : Nat := 0
  /-- How many of the next writes fail, on whichever connections. -/
  writeFailures : Nat := 0
  scripts : List Memory.Script := []
  watchers : List Memory.Watcher := []
  clock : Nat := 0
  deriving Repr, DecidableEq, Inhabited

namespace Memory

def failConnects (count : Nat) (m : Memory) : Memory := { m with connectFailures := count }

def failWrites (count : Nat) (m : Memory) : Memory := { m with writeFailures := count }

def script (s : Script) (m : Memory) : Memory := { m with scripts := m.scripts ++ [s] }

/-- Changes one connection. -/
def onPipe (conn : Nat) (change : Pipe → Pipe) (m : Memory) : Memory :=
  { m with pipes := m.pipes.modify conn change }

/-- The pipe of a new connection, as the next script has it. -/
def nextPipe (endpoint : Endpoint) : List Script → Pipe × List Script
  | [] => ({ readTimeout := endpoint.readTimeout }, [])
  | s :: later =>
    ({ inbound := s.inbound, farClosed := s.closeFar, readTimeout := endpoint.readTimeout }, later)

def connect (endpoint : Endpoint) (m : Memory) : Except NetworkError Unit × Memory :=
  let m := { m with endpoints := m.endpoints ++ [endpoint] }
  match m.connectFailures with
  | failures + 1 =>
    (.error (.connectionFailed s!"mock connect to {endpoint.address} refused"),
      { m with connectFailures := failures })
  | 0 =>
    let (pipe, scripts) := nextPipe endpoint m.scripts
    (.ok (), { m with pipes := m.pipes ++ [pipe], scripts })

/-- The failure that is laid down for a write. -/
def brokenPipe : IoError := ⟨.brokenPipe, "injected write failure"⟩

/-- Writes to a connection. A failure that was laid down leaves it closed. -/
def write (conn : Nat) (bytes : Bytes) (m : Memory) : Except IoError Unit × Memory :=
  match m.pipes[conn]? with
  | none => (.error .closedHere, m)
  | some pipe =>
    if !pipe.isOpen then (.error .closedHere, m)
    else
      match m.writeFailures with
      | failures + 1 =>
        (.error brokenPipe, { m with writeFailures := failures }.onPipe conn Pipe.shutDown)
      | 0 => (.ok (), m.onPipe conn fun p => { p with written := p.written ++ bytes })

def isOpen (conn : Nat) (m : Memory) : Bool := (m.pipes[conn]?.map Pipe.isOpen).getD false

def arrivals (conn : Nat) (m : Memory) : Inbound := (m.pipes[conn]?.map Pipe.arrivals).getD []

def network : Network Memory where
  now m := m.clock
  sleep d m := { m with clock := m.clock + d.toNanos }
  connect endpoint _ m := m.connect endpoint
  isOpen conn m := (m.isOpen conn, m)
  write := write
  inbound conn m := (m.arrivals conn, m.onPipe conn fun p => { p with inbound := [] })
  shutDown conn m := m.onPipe conn Pipe.shutDown
  watch conn listener m := (.ok (), { m with watchers := m.watchers ++ [⟨conn, listener, Monitor.start⟩] })

/-- Whether a monitor of this connection is still at work. -/
def isWatched (conn : Nat) (m : Memory) : Bool :=
  m.watchers.any fun watcher => watcher.conn == conn && watcher.monitor != .gone

/-- Lets one monitor work until it has to wait. -/
def settleWatcher (watcher : Watcher) (w : World Memory) : Watcher × World Memory :=
  match w.outside.pipes[watcher.conn]? with
  | none => (watcher, w)
  | some pipe =>
    let (rejections, monitor, pipe) := watcher.monitor.run Pipe.watch false pipe
    let w := { w with outside := w.outside.onPipe watcher.conn fun _ => pipe }
    ({ watcher with monitor }, rejections.foldl (fun w r => w.tell watcher.listener (.closed r)) w)

/-- Lets all monitors work until they have to wait, in the order in which they were started. -/
def settle (w : World Memory) : World Memory :=
  let (watchers, w) := w.outside.watchers.foldl (fun (watchers, w) watcher =>
    let (watcher, w) := settleWatcher watcher w
    (watchers ++ [watcher], w)) ([], w)
  { w with outside := { w.outside with watchers } }

end Memory
end PushGateway
