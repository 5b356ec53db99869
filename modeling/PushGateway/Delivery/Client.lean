import PushGateway.Delivery.Manager
import PushGateway.Wire.Encoding

namespace PushGateway

/-- Sends notifications over the connection of a manager, one at a time. -/
structure Client (π : Type) where
  manager : Manager π
  retry : Retry := {}
  deriving Repr, DecidableEq, Inhabited

namespace Manager

variable {σ π : Type} [Policy π] (net : Network σ)

/-- One attempt: acquires a connection and writes the bytes. -/
def attempt (m : Manager π) (bytes : Bytes) (w : World σ) : Except NetworkError Unit × Manager π × World σ :=
  match m.acquire net w with
  | (.error error, m, w) => (.error error, m, w)
  | (.ok conn, m, w) =>
    match w.write net conn bytes with
    | (.ok (), w) => (.ok (), m, w)
    | (.error error, w) => (.error (.ofWrite error), m, w)

/-- Makes attempts until one succeeds; after `left` failures in a row the next one is the last. A failed
attempt leaves no connection behind. The first repetition follows at once, each later one after a
delay. -/
def deliver (bytes : Bytes) (delay : Duration) : (left made : Nat) → Manager π → World σ →
    Except NetworkError Unit × Manager π × World σ
  | left, made, m, w =>
    match m.attempt net bytes w with
    | (.ok (), m, w) => (.ok (), m, w)
    | (.error error, m, w) =>
      let (m, w) := m.close net w
      match left with
      | 0 => (.error error, m, w)
      | left + 1 =>
        let w := if made = 0 then w else w.sleep net delay
        deliver bytes delay left (made + 1) m w

end Manager

namespace Client

variable {σ π : Type} [Policy π] (net : Network σ)

/-- What a client answers when its attempts have come to an end. -/
def conclude (attempts : Nat) : Except NetworkError Unit → Except NetworkError Unit
  | .ok () => .ok ()
  | .error error => .error (.deliveryFailed attempts error.message)

/-- What a listener is told then. -/
def report (n : Notification) : Except NetworkError Unit → Event
  | .ok () => .sent n
  | .error error => .sendFailed n error

/-- The attempts of one send, made under the client's lock. -/
def attempts (lock : Lock) (bytes : Bytes) (c : Client π) (w : World σ) :
    Except NetworkError Unit × Client π × World σ :=
  let w := w.note (.locked lock)
  let (result, manager, w) := c.manager.deliver net bytes c.retry.delay (c.retry.attempts - 1) 0 w
  (result, { c with manager }, w.note (.unlocked lock))

/-- Sends a notification. What cannot be written down is refused at once. Otherwise the listener
hears of the outcome, once, after the lock is given back. -/
def send (lock : Lock) (n : Notification) (c : Client π) (w : World σ) :
    Except NetworkError Unit × Client π × World σ :=
  match n.encode with
  | .error error => (.error (.encoding error.message), c, w)
  | .ok bytes =>
    let (result, after, w) := c.attempts net lock bytes w
    (conclude c.retry.attempts result, after, w.tell c.manager.listener (report n result))

/-- Whether anyone hears of the outcome of a send. -/
def isHeard (n : Notification) (c : Client π) : Bool :=
  match n.encode, c.manager.listener with
  | .ok _, .application => true
  | _, _ => false

/-- Shuts down the connection. The next send makes a new one. -/
def close (lock : Lock) (c : Client π) (w : World σ) : Client π × World σ :=
  let (manager, w) := c.manager.close net (w.note (.locked lock))
  ({ c with manager }, w.note (.unlocked lock))

def state (lock : Lock) (c : Client π) (w : World σ) : ConnectionState × World σ :=
  let (state, w) := c.manager.state net (w.note (.locked lock))
  (state, w.note (.unlocked lock))

def opened (lock : Lock) (c : Client π) (w : World σ) : Nat × World σ :=
  (c.manager.opened, (w.note (.locked lock)).note (.unlocked lock))

/-- A client of its own for a connection check: no monitor, nobody listening. -/
def checker (c : Client π) (w : World σ) : Client π × World σ :=
  let w := w.note (.locked .client)
  let manager := { c.manager.copy net w with detection := false, listener := .nobody }
  ({ manager, retry := c.retry }, w.note (.unlocked .client))

/-- Checks that the server takes connections, by an empty notification over a connection of its own. -/
def testConnection (c : Client π) (w : World σ) : Except NetworkError Unit × World σ :=
  let (check, w) := c.checker net w
  let (result, check, w) := check.send net .check (.legacy [] []) w
  let (_, w) := check.close net .check w
  (result, w)

end Client
end PushGateway
