import PushGateway.Notification
import PushGateway.Rejection
import PushGateway.Inbound
import PushGateway.Settings.Basic

namespace PushGateway

/-- What an application is told about its notifications. -/
inductive Event
  | sent (n : Notification)
  /-- Every attempt failed, the last one with this error. -/
  | sendFailed (n : Notification) (error : NetworkError)
  | closed (rejection : Rejection)
  deriving Repr, DecidableEq

/-- Who hears of events. -/
inductive Listener
  | nobody
  | application
  deriving Repr, DecidableEq, Inhabited

/-- What reaches a listener when it is told of an event. -/
def Listener.hears (event : Event) : Listener → List Event
  | nobody => []
  | application => [event]

/-- What surrounds a client: it makes connections, carries bytes and tells the time. Connections are
known by number. Nothing is asked of the answers, and with every question the state may change
in any way, so this is any network whatever. -/
structure Network (σ : Type) where
  /-- The time in nanoseconds. -/
  now : σ → Nat
  sleep : Duration → σ → σ
  /-- Tries to make the connection that is to have the given number. -/
  connect : Endpoint → Nat → σ → Except NetworkError Unit × σ
  isOpen : Nat → σ → Bool × σ
  write : Nat → Bytes → σ → Except IoError Unit × σ
  /-- All that a connection delivers to one who reads it to its end. -/
  inbound : Nat → σ → Inbound × σ
  shutDown : Nat → σ → σ
  /-- Starts a monitor for a connection. -/
  watch : Nat → Listener → σ → Except IoError Unit × σ

/-- The two locks under which clients work: that of an application's client, and that of the client
which a connection check makes for itself. -/
inductive Lock
  | client
  | check
  deriving Repr, DecidableEq, Inhabited

/-- One thing that a client did. -/
inductive Entry
  | connected (endpoint : Endpoint) (conn : Nat)
  | refused (endpoint : Endpoint) (error : NetworkError)
  | wrote (conn : Nat) (bytes : Bytes)
  | writeFailed (conn : Nat) (bytes : Bytes) (error : IoError)
  | shutDown (conn : Nat)
  | slept (d : Duration)
  | told (event : Event)
  | locked (lock : Lock)
  | unlocked (lock : Lock)
  deriving Repr, DecidableEq

/-- A network and what clients have done in it so far. -/
structure World (σ : Type) where
  outside : σ
  /-- How many connections were made. The next one has this number. -/
  connections : Nat := 0
  /-- The oldest entry comes first. -/
  journal : List Entry := []
  /-- The identifier that the next notification gets which asks for one. -/
  identifier : UInt32 := 1

namespace World

variable {σ : Type} (net : Network σ)

def note (entry : Entry) (w : World σ) : World σ := { w with journal := w.journal ++ [entry] }

def now (w : World σ) : Nat := net.now w.outside

def sleep (d : Duration) (w : World σ) : World σ :=
  { w with outside := net.sleep d w.outside }.note (.slept d)

/-- Makes a connection and gives it the next number. -/
def connect (endpoint : Endpoint) (w : World σ) : Except NetworkError Nat × World σ :=
  match net.connect endpoint w.connections w.outside with
  | (.ok (), outside) =>
    (.ok w.connections,
      { w with outside, connections := w.connections + 1 }.note (.connected endpoint w.connections))
  | (.error error, outside) => (.error error, { w with outside }.note (.refused endpoint error))

def isOpen (conn : Nat) (w : World σ) : Bool × World σ :=
  let (answer, outside) := net.isOpen conn w.outside
  (answer, { w with outside })

def write (conn : Nat) (bytes : Bytes) (w : World σ) : Except IoError Unit × World σ :=
  match net.write conn bytes w.outside with
  | (.ok (), outside) => (.ok (), { w with outside }.note (.wrote conn bytes))
  | (.error error, outside) => (.error error, { w with outside }.note (.writeFailed conn bytes error))

def inbound (conn : Nat) (w : World σ) : Inbound × World σ :=
  let (inbound, outside) := net.inbound conn w.outside
  (inbound, { w with outside })

def shutDown (conn : Nat) (w : World σ) : World σ :=
  { w with outside := net.shutDown conn w.outside }.note (.shutDown conn)

def watch (conn : Nat) (listener : Listener) (w : World σ) : Except IoError Unit × World σ :=
  let (answer, outside) := net.watch conn listener w.outside
  (answer, { w with outside })

def tell (listener : Listener) (event : Event) (w : World σ) : World σ :=
  match listener with
  | .nobody => w
  | .application => w.note (.told event)

/-- Gives out an identifier that was not given out before, up to 2^32 of them. -/
def drawIdentifier (w : World σ) : UInt32 × World σ :=
  (w.identifier, { w with identifier := w.identifier + 1 })

@[simp] theorem journal_note (entry : Entry) (w : World σ) : (w.note entry).journal = w.journal ++ [entry] := rfl

@[simp] theorem connections_note (entry : Entry) (w : World σ) : (w.note entry).connections = w.connections := rfl

@[simp] theorem journal_sleep (d : Duration) (w : World σ) :
    (w.sleep net d).journal = w.journal ++ [.slept d] := rfl

@[simp] theorem connections_sleep (d : Duration) (w : World σ) :
    (w.sleep net d).connections = w.connections := rfl

@[simp] theorem journal_isOpen (conn : Nat) (w : World σ) : (w.isOpen net conn).2.journal = w.journal := rfl

@[simp] theorem connections_isOpen (conn : Nat) (w : World σ) :
    (w.isOpen net conn).2.connections = w.connections := rfl

@[simp] theorem journal_shutDown (conn : Nat) (w : World σ) :
    (w.shutDown net conn).journal = w.journal ++ [.shutDown conn] := rfl

@[simp] theorem connections_shutDown (conn : Nat) (w : World σ) :
    (w.shutDown net conn).connections = w.connections := rfl

@[simp] theorem journal_watch (conn : Nat) (listener : Listener) (w : World σ) :
    (w.watch net conn listener).2.journal = w.journal := rfl

@[simp] theorem connections_watch (conn : Nat) (listener : Listener) (w : World σ) :
    (w.watch net conn listener).2.connections = w.connections := rfl

@[simp] theorem journal_tell (listener : Listener) (event : Event) (w : World σ) :
    (w.tell listener event).journal = w.journal ++ (listener.hears event).map .told := by
  cases listener
  · exact (List.append_nil _).symm
  · rfl

@[simp] theorem connections_tell (listener : Listener) (event : Event) (w : World σ) :
    (w.tell listener event).connections = w.connections := by
  cases listener <;> rfl

/-- A connect either makes the connection with the next number or leaves no more than its failure behind. -/
theorem connect_cases (endpoint : Endpoint) (w : World σ) :
    (∃ outside, w.connect net endpoint = (.ok w.connections,
      { w with outside, connections := w.connections + 1 }.note (.connected endpoint w.connections))) ∨
    ∃ error outside, w.connect net endpoint = (.error error, { w with outside }.note (.refused endpoint error)) := by
  unfold connect
  split
  · exact .inl ⟨_, rfl⟩
  · exact .inr ⟨_, _, rfl⟩

theorem write_cases (conn : Nat) (bytes : Bytes) (w : World σ) :
    (∃ outside, w.write net conn bytes = (.ok (), { w with outside }.note (.wrote conn bytes))) ∨
    ∃ error outside,
      w.write net conn bytes = (.error error, { w with outside }.note (.writeFailed conn bytes error)) := by
  unfold write
  split
  · exact .inl ⟨_, rfl⟩
  · exact .inr ⟨_, _, rfl⟩

end World
end PushGateway
