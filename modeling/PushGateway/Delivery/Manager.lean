import PushGateway.Delivery.World

namespace PushGateway

inductive ConnectionState
  | disconnected
  | connecting
  | established
  deriving Repr, DecidableEq, Inhabited

/-- The connection that a manager holds. -/
structure Held where
  conn : Nat
  /-- Whether a monitor was started for it. -/
  monitored : Bool
  deriving Repr, DecidableEq, Inhabited

/-- Keeps at most one connection to a server, makes it when it is needed, and replaces it when it has
closed or when the rule says so. -/
structure Manager (π : Type) where
  endpoint : Endpoint
  policy : π
  listener : Listener
  /-- Whether new connections get a monitor. -/
  detection : Bool := true
  slot : Option Held := none
  phase : ConnectionState := .disconnected
  /-- How many connections it has made. -/
  opened : Nat := 0
  deriving Repr, DecidableEq, Inhabited

namespace Manager

variable {σ π : Type} [Policy π] (net : Network σ)

/-- Shuts down the connection that is held, if there is one. -/
def close (m : Manager π) (w : World σ) : Manager π × World σ :=
  let w := match m.slot with
    | some held => w.shutDown net held.conn
    | none => w
  ({ m with slot := none, phase := .disconnected }, w)

/-- Lets go of a manager. Its connection does not outlive it. -/
def drop (m : Manager π) (w : World σ) : World σ := (m.close net w).2

/-- Starts a monitor where one is wanted, and answers whether it did. -/
def startMonitor (m : Manager π) (conn : Nat) (w : World σ) : Except IoError Bool × World σ :=
  if m.detection then
    match w.watch net conn m.listener with
    | (.ok (), w) => (.ok true, w)
    | (.error error, w) => (.error error, w)
  else (.ok false, w)

/-- Makes a connection and holds it. One whose monitor cannot be started is shut down again. -/
def connect (m : Manager π) (w : World σ) : Except NetworkError Nat × Manager π × World σ :=
  let m := { m with phase := .connecting }
  match w.connect net m.endpoint with
  | (.error error, w) => (.error error, { m with phase := .disconnected }, w)
  | (.ok conn, w) =>
    let m := { m with policy := Policy.connected (w.now net) m.policy, opened := m.opened + 1 }
    match m.startMonitor net conn w with
    | (.error error, w) =>
      (.error (.connectionFailed s!"cannot start error monitor: {error.text}"),
        { m with phase := .disconnected }, w.shutDown net conn)
    | (.ok monitored, w) => (.ok conn, { m with slot := some ⟨conn, monitored⟩, phase := .established }, w)

/-- A connection to use: the one that is held, if it is open and not due to be replaced, or a new one. -/
def acquire (m : Manager π) (w : World σ) : Except NetworkError Nat × Manager π × World σ :=
  let (due, policy) := Policy.isDue (w.now net) m.policy
  let m := { m with policy }
  let (m, w) := if due && m.slot.isSome then m.close net w else (m, w)
  match m.slot with
  | none => m.connect net w
  | some held =>
    match w.isOpen net held.conn with
    | (true, w) => (.ok held.conn, m, w)
    | (false, w) =>
      let (m, w) := m.close net w
      m.connect net w

/-- A manager for the same server that holds nothing and follows the same rule from now on. -/
def copy (m : Manager π) (w : World σ) : Manager π :=
  { m with policy := Policy.fresh (w.now net) m.policy, slot := none, phase := .disconnected, opened := 0 }

/-- A connection that is held but closed counts as none. -/
def state (m : Manager π) (w : World σ) : ConnectionState × World σ :=
  match m.phase, m.slot with
  | .established, some held =>
    match w.isOpen net held.conn with
    | (true, w) => (.established, w)
    | (false, w) => (.disconnected, w)
  | .established, none => (.disconnected, w)
  | phase, _ => (phase, w)

omit [Policy π] in
@[simp] theorem slot_close (m : Manager π) (w : World σ) : (m.close net w).1.slot = none := rfl

omit [Policy π] in
@[simp] theorem connections_close (m : Manager π) (w : World σ) :
    (m.close net w).2.connections = w.connections := by
  unfold close
  cases m.slot <;> rfl

end Manager
end PushGateway
