import PushGateway.Rejection
import PushGateway.Inbound

namespace PushGateway

/-- Whether a reader goes on after a read: it brought bytes, or nothing came in time. -/
def goesOn : Except IoError Bytes → Bool
  | .ok bytes => !bytes.isEmpty
  | .error error => error.isTransient

/-- A connection as its monitor sees it. A read that would have to wait answers `none`, and one after
which the monitor goes on leaves less to be read than before. -/
structure Watch (σ : Type) where
  read : Nat → σ → Option (Except IoError Bytes × σ)
  isOpen : σ → Bool
  shutDown : σ → σ
  /-- How much can still be read. -/
  volume : σ → Nat
  volume_read : ∀ {limit s answer s'}, read limit s = some (answer, s') → volume s' ≤ volume s
  volume_read_lt : ∀ {limit s answer s'}, read limit s = some (answer, s') →
    goesOn answer → volume s' < volume s

/-- Where the monitor of one connection stands. `reported` counts the error frames it has passed on. -/
inductive Monitor
  /-- Waiting for the rest of a frame. -/
  | reading (filled : Bytes) (reported : Nat)
  /-- A frame is complete and its error has not been passed on yet. -/
  | reporting (rejection : Rejection) (reported : Nat)
  /-- The last read brought no bytes: the end of the stream, or a failure. -/
  | ended (failed : Bool) (filled : Bytes) (reported : Nat)
  /-- About to tell what the end means, if anything. -/
  | concluding (last : Option Rejection)
  /-- About to shut the connection down. -/
  | leaving
  | gone
  deriving Repr, DecidableEq, Inhabited

namespace Monitor

def start : Monitor := reading [] 0

/-- Takes in what one read brought. -/
def afterRead (filled : Bytes) (reported : Nat) : Except IoError Bytes → Monitor
  | .ok [] => ended false filled reported
  | .ok bytes =>
    let filled := filled ++ bytes
    if filled.length < Rejection.frameLength then reading filled reported
    else
      match Rejection.ofFrame? filled with
      | .ok rejection => reporting rejection reported
      | .error _ => concluding (some .unexplained)
  | .error error => if error.isTransient then reading filled reported else ended true filled reported

/-- What the end of the stream tells about the notifications sent before it. -/
def verdict (failed : Bool) (filled : Bytes) (reported : Nat) : Option Rejection :=
  if failed then some .unexplained
  else
    match filled with
    | [] => if reported = 0 then some .unexplained else none
    | filled => some (.ofPartialFrame filled)

/-- Later phases of one reading have lower ranks. -/
def rank : Monitor → Nat
  | reporting .. => 5
  | reading .. => 4
  | ended .. => 3
  | concluding _ => 2
  | leaving => 1
  | gone => 0

/-- The next thing that the monitor does, with the error that it passes on. There is none while
it has to wait and after it is gone. An observer that panics ends the monitor where it stands. -/
def step {σ : Type} (watch : Watch σ) (panics : Bool) (m : Monitor) (s : σ) :
    Option (Option Rejection × Monitor × σ) :=
  match m with
  | reading filled reported =>
    match watch.read (Rejection.frameLength - filled.length) s with
    | none => none
    | some (answer, s) => some (none, afterRead filled reported answer, s)
  | reporting rejection reported =>
    some (some rejection, if panics then gone else reading [] (reported + 1), s)
  | ended failed filled reported =>
    some (none, if watch.isOpen s then concluding (verdict failed filled reported) else leaving, s)
  | concluding none => some (none, leaving, s)
  | concluding (some rejection) => some (some rejection, if panics then gone else leaving, s)
  | leaving => some (none, gone, watch.shutDown s)
  | gone => none

theorem rank_afterRead {filled : Bytes} {reported : Nat} {answer : Except IoError Bytes}
    (stops : goesOn answer = false) : (afterRead filled reported answer).rank < 4 := by
  match answer with
  | .ok [] => simp [afterRead, rank]
  | .ok (_ :: _) => simp [goesOn] at stops
  | .error error =>
    simp only [goesOn] at stops
    simp [afterRead, stops, rank]

/-- Every step leaves less to be read, or as much and an earlier phase behind. -/
theorem step_decreases {σ : Type} {watch : Watch σ} {panics : Bool} {m m' : Monitor} {s s' : σ}
    {event : Option Rejection} (next : step watch panics m s = some (event, m', s')) (going : m' ≠ gone) :
    Prod.Lex (· < ·) (· < ·) (watch.volume s', m'.rank) (watch.volume s, m.rank) := by
  unfold step at next
  split at next
  · split at next
    · cases next
    · rename_i answer after taken
      cases next
      cases more : goesOn answer with
      | true => exact .left _ _ (watch.volume_read_lt taken more)
      | false =>
        rcases Nat.lt_or_eq_of_le (watch.volume_read taken) with less | same
        · exact .left _ _ less
        · rw [same]
          exact .right _ (rank_afterRead more)
  · cases next
    split at going
    · exact absurd rfl going
    · rename_i proceeds
      rw [if_neg proceeds]
      exact .right _ (by simp [rank])
  · cases next
    refine .right _ ?_
    split <;> simp [rank]
  · cases next
    exact .right _ (by simp [rank])
  · cases next
    split at going
    · exact absurd rfl going
    · rename_i proceeds
      rw [if_neg proceeds]
      exact .right _ (by simp [rank])
  · cases next
    exact absurd rfl going
  · cases next

/-- Lets the monitor work until it has to wait or is gone. -/
def run {σ : Type} (watch : Watch σ) (panics : Bool) (m : Monitor) (s : σ) :
    List Rejection × Monitor × σ :=
  match _next : step watch panics m s with
  | none => ([], m, s)
  | some (event, m', s') =>
    if _going : m' = gone then (event.toList, gone, s')
    else
      let (events, last) := run watch panics m' s'
      (event.toList ++ events, last)
termination_by (watch.volume s, m.rank)
decreasing_by exact step_decreases _next _going

end Monitor

/-- A connection whose reads follow a script. -/
structure ScriptedConnection where
  inbound : Inbound
  isOpen : Bool := true
  deriving Repr

namespace ScriptedConnection

def read (limit : Nat) (c : ScriptedConnection) : Option (Except IoError Bytes × ScriptedConnection) :=
  let (answer, rest) := c.inbound.read limit
  some (answer, ⟨rest, c.isOpen && !c.inbound.closing⟩)

def watch : Watch ScriptedConnection where
  read := read
  isOpen := isOpen
  shutDown c := { c with isOpen := false }
  volume c := c.inbound.volume
  volume_read := by
    intro limit c answer c' taken
    cases taken
    exact Inbound.volume_read limit c.inbound
  volume_read_lt := by
    intro limit c answer c' taken more
    cases taken
    apply Inbound.volume_read_lt
    intro nothing
    simp [nothing, goesOn] at more

end ScriptedConnection
end PushGateway
