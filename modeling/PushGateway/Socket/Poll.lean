import PushGateway.Duration
import PushGateway.IoError
import PushGateway.Bytes

namespace PushGateway.Socket

/-- Nothing came within the time set for a socket. -/
def nothingYet : IoError := ⟨.wouldBlock, "Resource temporarily unavailable (os error 11)"⟩

/-- A try to read brought no bytes, and neither the end of the stream nor a failure of it. -/
def isNothing : Except IoError Bytes → Bool
  | .ok _ => false
  | .error error => error.isPoll

/-- One try to read from a socket that gives up after a short time, and what is found after it. -/
structure Poll where
  answer : Except IoError Bytes
  /-- The connection has not been shut down on this side. -/
  isOpen : Bool
  /-- The moment, in nanoseconds. -/
  now : Nat
  /-- How many writers wait for the lock. -/
  waiting : UInt64 := 0

/-- A read that has taken so many nanoseconds has a timeout, and it has passed. -/
def isOver (limit : Option Duration) (elapsed : Nat) : Bool :=
  match limit with
  | none => false
  | some most => most.toNanos ≤ elapsed

/-- What a read that began at `started` comes to with this try. It goes on if nothing came, the connection is
open and the timeout, if there is one, has not passed. -/
def Poll.verdict (limit : Option Duration) (started : Nat) (poll : Poll) : Option (Except IoError Bytes) :=
  if !isNothing poll.answer then some poll.answer
  else if !poll.isOpen then some (.error .closedHere)
  else if isOver limit (poll.now - started) then some (.error .readTimedOut)
  else none

/-- A read made of such tries. Those that were not needed are left; where there are too few of them there is
no answer yet. -/
def readPolling (limit : Option Duration) (started : Nat) : List Poll → Option (Except IoError Bytes × List Poll)
  | [] => none
  | poll :: later =>
    match poll.verdict limit started with
    | some answer => some (answer, later)
    | none => readPolling limit started later

theorem isOver_iff {limit : Option Duration} {elapsed : Nat} :
    isOver limit elapsed = true ↔ ∃ most, limit = some most ∧ most.toNanos ≤ elapsed := by
  cases limit with
  | none => exact ⟨nofun, nofun⟩
  | some most =>
    rw [isOver, decide_eq_true_eq]
    refine ⟨fun overdue => ⟨most, rfl, overdue⟩, ?_⟩
    rintro ⟨_, same, overdue⟩
    cases same
    exact overdue

theorem isOver_eq_false_iff {limit : Option Duration} {elapsed : Nat} :
    isOver limit elapsed = false ↔ ∀ most, limit = some most → elapsed < most.toNanos := by
  rw [← Bool.not_eq_true, isOver_iff, not_exists]
  simp only [not_and, Nat.not_le]

end PushGateway.Socket
