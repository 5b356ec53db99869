import PushGateway.Socket.Poll

namespace PushGateway.Socket

/-- What a thread does with a connection, together with what it finds. -/
inductive Act
  /-- Asked to read at this moment. -/
  | beginRead (now : Nat)
  /-- Tries to read from the socket. -/
  | receive (answer : Except IoError Bytes)
  | time (now : Nat)
  /-- Asks how many writers wait for the lock. -/
  | count (waiting : UInt64)
  | wake
  | endRead (answer : Except IoError Bytes)
  | beginWrite (bytes : Bytes)
  /-- Says that it waits for the lock. -/
  | announce
  /-- Says that it no longer waits for the lock. -/
  | withdraw
  /-- Writes all to the socket, and flushes it. -/
  | send (bytes : Bytes) (answer : Except IoError Unit)
  | endWrite (answer : Except IoError Unit)
  /-- Asks whether the connection is open. -/
  | look (isOpen : Bool)
  | lock
  | unlock

/-- Where a read stands. -/
inductive Reading
  /-- It waits for the lock. -/
  | waits
  /-- It has the lock, and is about to try. -/
  | tries
  /-- It has an answer, and still the lock. -/
  | received (answer : Except IoError Bytes)
  /-- It has given the lock back, and nothing came. -/
  | looks
  | times
  | counts
  /-- It lets the writers go first. -/
  | naps
  | answers (answer : Except IoError Bytes)

/-- The next thing that a read does which began at `started`. A nap takes a millisecond; like all else that a
thread does, it may also take longer. -/
inductive Reading.Next (limit : Option Duration) (started : Nat) : Reading → Act → Reading → Prop
  | locks : Next limit started .waits .lock .tries
  | receives (answer : Except IoError Bytes) : Next limit started .tries (.receive answer) (.received answer)
  | brings {answer : Except IoError Bytes} : isNothing answer = false →
      Next limit started (.received answer) .unlock (.answers answer)
  | bringsNothing {answer : Except IoError Bytes} : isNothing answer = true →
      Next limit started (.received answer) .unlock .looks
  | findsClosed : Next limit started .looks (.look false) (.answers (.error .closedHere))
  | findsOpen : limit = none → Next limit started .looks (.look true) .counts
  | findsOpenTimed : limit ≠ none → Next limit started .looks (.look true) .times
  | isLate {now : Nat} : isOver limit (now - started) = true →
      Next limit started .times (.time now) (.answers (.error .readTimedOut))
  | isInTime {now : Nat} : isOver limit (now - started) = false → Next limit started .times (.time now) .counts
  | findsNobody : Next limit started .counts (.count 0) .waits
  | findsWriters {waiting : UInt64} : waiting ≠ 0 → Next limit started .counts (.count waiting) .naps
  | wakes : Next limit started .naps .wake .waits

/-- Where a write stands. -/
inductive Writing
  | looks
  | announces
  /-- It waits for the lock. -/
  | waits
  /-- It has the lock, and has not yet said so. -/
  | enters
  | sends
  /-- It has written, and still has the lock. -/
  | sent (answer : Except IoError Unit)
  | answers (answer : Except IoError Unit)

/-- The next thing that a write of these bytes does. -/
inductive Writing.Next (bytes : Bytes) : Writing → Act → Writing → Prop
  | findsClosed : Next bytes .looks (.look false) (.answers (.error .closedHere))
  | findsOpen : Next bytes .looks (.look true) .announces
  | announces : Next bytes .announces .announce .waits
  | locks : Next bytes .waits .lock .enters
  | withdraws : Next bytes .enters .withdraw .sends
  | sends (answer : Except IoError Unit) : Next bytes .sends (.send bytes answer) (.sent answer)
  | unlocks {answer : Except IoError Unit} : Next bytes (.sent answer) .unlock (.answers answer)

/-- Where a thread stands. -/
inductive Task
  | idle
  | reading (started : Nat) (stage : Reading)
  | writing (bytes : Bytes) (stage : Writing)

/-- The next thing that a thread does with a connection of this read timeout. -/
inductive Task.Next (limit : Option Duration) : Task → Act → Task → Prop
  | beginsRead (now : Nat) : Next limit .idle (.beginRead now) (.reading now .waits)
  | reads {started : Nat} {stage stage' : Reading} {act : Act} : stage.Next limit started act stage' →
      Next limit (.reading started stage) act (.reading started stage')
  | endsRead {started : Nat} {answer : Except IoError Bytes} :
      Next limit (.reading started (.answers answer)) (.endRead answer) .idle
  | beginsWrite (bytes : Bytes) : Next limit .idle (.beginWrite bytes) (.writing bytes .looks)
  | writes {bytes : Bytes} {stage stage' : Writing} {act : Act} : stage.Next bytes act stage' →
      Next limit (.writing bytes stage) act (.writing bytes stage')
  | endsWrite {bytes : Bytes} {answer : Except IoError Unit} :
      Next limit (.writing bytes (.answers answer)) (.endWrite answer) .idle

/-- What all threads see of a connection, and the clock. -/
structure Shared where
  now : Nat
  isOpen : Bool := true
  /-- How many writers have said that they wait for the lock. -/
  waiting : UInt64 := 0
  /-- The thread that has the lock. -/
  holder : Option Nat := none

/-- A thread that acts so only finds out what there is. What the socket answers may be anything. -/
def Shared.Shows (s : Shared) : Act → Prop
  | .look isOpen => isOpen = s.isOpen
  | .beginRead now | .time now => now = s.now
  | .count waiting => waiting = s.waiting
  | .receive _ | .wake | .endRead _ | .beginWrite _ | .send _ _ | .endWrite _ => True
  | .lock | .unlock | .announce | .withdraw => False

/-- What becomes of it when a thread acts. -/
inductive Shared.Next (thread : Nat) (s : Shared) : Act → Shared → Prop
  | lock : s.holder = none → Next thread s .lock { s with holder := some thread }
  | unlock : Next thread s .unlock { s with holder := none }
  | announce : Next thread s .announce { s with waiting := s.waiting + 1 }
  | withdraw : Next thread s .withdraw { s with waiting := s.waiting - 1 }
  | shows {act : Act} : s.Shows act → Next thread s act s

/-- A connection over a socket, and the threads that use it. -/
structure Traffic where
  shared : Shared
  tasks : List Task
  /-- A word can count the threads. -/
  few : tasks.length < UInt64.size

/-- What happens to a connection. -/
inductive Event
  | acts (thread : Nat) (act : Act)
  | shutDown
  /-- It gets later. -/
  | passes (now : Nat)

namespace Traffic

/-- A new connection with so many threads. -/
def start (now : Nat) (threads : UInt64) : Traffic :=
  ⟨{ now }, List.replicate threads.toNat .idle, by rw [List.length_replicate]; exact threads.toNat_lt⟩

/-- One thread has moved on. -/
def put (thread : Nat) (task : Task) (shared : Shared) (t : Traffic) : Traffic :=
  ⟨shared, t.tasks.set thread task, by rw [List.length_set]; exact t.few⟩

/-- The next thing that happens to a connection of this read timeout. -/
inductive Next (limit : Option Duration) (t : Traffic) : Event → Traffic → Prop
  | acts {thread : Nat} {act : Act} {task task' : Task} {shared : Shared} : t.tasks[thread]? = some task →
      task.Next limit act task' → t.shared.Next thread act shared →
      Next limit t (.acts thread act) (t.put thread task' shared)
  | shutDown : Next limit t .shutDown { t with shared := { t.shared with isOpen := false } }
  | passes {now : Nat} : t.shared.now ≤ now → Next limit t (.passes now) { t with shared := { t.shared with now } }

end Traffic
end PushGateway.Socket
