import PushGateway.Duration

namespace PushGateway

/-- When a connection that still works is to be replaced. -/
inductive ReconnectRule
  | never
  | always
  /-- After this many uses, of which there is at least one. -/
  | afterSends (uses : UInt32)
  | afterDuration (age : Duration)
  deriving Repr, DecidableEq, Inhabited

/-- A rule together with what it remembers of the present connection. -/
inductive Reconnect
  | never
  | always
  | afterSends (most used : UInt32)
  /-- The moment of the last connect is in nanoseconds. -/
  | afterDuration (age : Duration) (connected : Nat)
  deriving Repr, DecidableEq, Inhabited

namespace ReconnectRule

def everyHalfHour : ReconnectRule := afterDuration (.seconds 1800)

/-- Begins to follow the rule at the moment `now`. -/
def start (now : Nat) : ReconnectRule → Reconnect
  | never => .never
  | always => .always
  | afterSends uses => .afterSends (if uses = 0 then 1 else uses) 0
  | afterDuration age => .afterDuration age now

end ReconnectRule

namespace Reconnect

/-- Whether the connection is to be replaced now. If not, the question counts as one use of it. -/
def isDue (now : Nat) : Reconnect → Bool × Reconnect
  | never => (false, never)
  | always => (true, always)
  | afterSends most used =>
    if most ≤ used then (true, afterSends most used) else (false, afterSends most (used + 1))
  | afterDuration age connected => (age.toNanos ≤ now - connected, afterDuration age connected)

/-- A connection has just been made, and is about to be used. -/
def connected (now : Nat) : Reconnect → Reconnect
  | afterSends most _ => afterSends most 1
  | afterDuration age _ => afterDuration age now
  | other => other

/-- The same rule without a memory of any connection. -/
def fresh (now : Nat) : Reconnect → Reconnect
  | never => never
  | always => always
  | afterSends most _ => afterSends most 0
  | afterDuration age _ => afterDuration age now

end Reconnect

/-- What decides when a connection that still works is to be replaced, together with what it remembers
of that connection. Moments are in nanoseconds. -/
class Policy (π : Type) where
  /-- Asked before every use of a manager's connection. -/
  isDue : Nat → π → Bool × π
  /-- Told of every new connection. -/
  connected : Nat → π → π
  /-- The same, without a memory of any connection. -/
  fresh : Nat → π → π

instance : Policy Reconnect where
  isDue := Reconnect.isDue
  connected := Reconnect.connected
  fresh := Reconnect.fresh

end PushGateway
