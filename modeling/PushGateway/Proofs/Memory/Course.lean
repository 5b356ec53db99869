import PushGateway.Proofs.Delivery.Check

namespace PushGateway.Memory

/-- One thing that is done to connections in memory, or to the network that makes them, and what comes of it. -/
inductive Happening
  | pushed (conn : Nat) (bytes : Bytes)
  | farClosed (conn : Nat)
  | read (conn limit : Nat) (answer : Except IoError Bytes)
  /-- A write, to a connection that was open or not. -/
  | wrote (conn : Nat) (bytes : Bytes) (wasOpen : Bool) (answer : Except IoError Unit)
  | shutDown (conn : Nat)
  /-- A connect that succeeds, with the connections that there are more than before. -/
  | connected (endpoint : Endpoint) (made : List Pipe)
  | refused (endpoint : Endpoint) (error : NetworkError)
  | failsConnects (count : Nat)
  | failsWrites (count : Nat)
  | scripted (s : Script)

namespace Happening

/-- The connection that something is done to. -/
def conn? : Happening → Option Nat
  | pushed conn _ | farClosed conn | read conn _ _ | wrote conn _ _ _ | shutDown conn => some conn
  | connected _ _ | refused _ _ | failsConnects _ | failsWrites _ | scripted _ => none

def isConnect : Happening → Bool
  | connected _ _ | refused _ _ => true
  | _ => false

def isOpenWrite : Happening → Bool
  | wrote _ _ wasOpen _ => wasOpen
  | _ => false

/-- After this the connection is no longer open. -/
def shuts (conn : Nat) : Happening → Bool
  | shutDown c => c == conn
  | wrote c _ wasOpen answer => c == conn && wasOpen && !answer.isOk
  | _ => false

end Happening

/-- What may happen next. A read that would have to wait for ever does not happen. -/
inductive Step (m : Memory) : Happening → Memory → Prop
  | pushed (conn : Nat) (bytes : Bytes) : Step m (.pushed conn bytes) (m.onPipe conn (Pipe.push bytes))
  | farClosed (conn : Nat) : Step m (.farClosed conn) (m.onPipe conn Pipe.closeFar)
  | read {conn limit : Nat} {pipe pipe' : Pipe} {answer : Except IoError Bytes} : m.pipes[conn]? = some pipe →
      pipe.readWaiting limit = some (answer, pipe') → Step m (.read conn limit answer) (m.onPipe conn fun _ => pipe')
  | wrote {conn : Nat} {bytes : Bytes} {wasOpen : Bool} {answer : Except IoError Unit} {m' : Memory} :
      m.isOpen conn = wasOpen → m.write conn bytes = (answer, m') → Step m (.wrote conn bytes wasOpen answer) m'
  | shutDown (conn : Nat) : Step m (.shutDown conn) (m.onPipe conn Pipe.shutDown)
  | connected {endpoint : Endpoint} {made : List Pipe} {m' : Memory} : m.connect endpoint = (.ok (), m') →
      m'.pipes.drop m.pipes.length = made → Step m (.connected endpoint made) m'
  | refused {endpoint : Endpoint} {error : NetworkError} {m' : Memory} : m.connect endpoint = (.error error, m') →
      Step m (.refused endpoint error) m'
  | failsConnects (count : Nat) : Step m (.failsConnects count) (m.failConnects count)
  | failsWrites (count : Nat) : Step m (.failsWrites count) (m.failWrites count)
  | scripted (s : Script) : Step m (.scripted s) (m.script s)

/-- Things that happen one after the other. -/
inductive Course : Memory → List Happening → Memory → Prop
  | done (m : Memory) : Course m [] m
  | next {m m' m'' : Memory} {happening : Happening} {later : List Happening} : Step m happening m' →
      Course m' later m'' → Course m (happening :: later) m''

/-- What may become of one connection. -/
inductive Touch (conn : Nat) (pipe : Pipe) : Happening → Pipe → Prop
  | pushed (bytes : Bytes) : Touch conn pipe (.pushed conn bytes) (pipe.push bytes)
  | farClosed : Touch conn pipe (.farClosed conn) pipe.closeFar
  | readClosed (limit : Nat) : pipe.isOpen = false → Touch conn pipe (.read conn limit (.error .closedHere)) pipe
  | readBytes (limit : Nat) : pipe.isOpen = true → pipe.inbound ≠ [] →
      Touch conn pipe (.read conn limit (.ok (pipe.inbound.take limit)))
        { pipe with inbound := pipe.inbound.drop limit }
  | readEnd (limit : Nat) : pipe.isOpen = true → pipe.inbound = [] → pipe.farClosed = true →
      Touch conn pipe (.read conn limit (.ok [])) pipe
  | readLate (limit : Nat) : pipe.isOpen = true → pipe.inbound = [] → pipe.farClosed = false →
      pipe.readTimeout ≠ none → Touch conn pipe (.read conn limit (.error .readTimedOut)) pipe
  | writeClosed (bytes : Bytes) : pipe.isOpen = false →
      Touch conn pipe (.wrote conn bytes false (.error .closedHere)) pipe
  | writeFailed (bytes : Bytes) : pipe.isOpen = true →
      Touch conn pipe (.wrote conn bytes true (.error brokenPipe)) pipe.shutDown
  | writeTaken (bytes : Bytes) : pipe.isOpen = true →
      Touch conn pipe (.wrote conn bytes true (.ok ())) { pipe with written := pipe.written ++ bytes }
  | shutDown : Touch conn pipe (.shutDown conn) pipe.shutDown
  | elsewhere {happening : Happening} : happening.conn? ≠ some conn → Touch conn pipe happening pipe

variable {m m' : Memory} {conn : Nat} {pipe pipe' : Pipe} {happening : Happening} {before after : List Happening}

theorem Touch.of_read {limit : Nat} {answer : Except IoError Bytes}
    (taken : pipe.readWaiting limit = some (answer, pipe')) : Touch conn pipe (.read conn limit answer) pipe' := by
  unfold Pipe.readWaiting Pipe.read at taken
  cases isOpen : pipe.isOpen with
  | false =>
    simp only [isOpen, Bool.not_false, ↓reduceIte, Option.some.injEq, Prod.mk.injEq] at taken
    obtain ⟨rfl, rfl⟩ := taken
    exact .readClosed limit isOpen
  | true =>
    by_cases waiting : pipe.inbound = []
    · cases farClosed : pipe.farClosed with
      | true =>
        simp only [isOpen, waiting, farClosed, List.isEmpty_nil, Bool.not_true, Bool.false_eq_true, ↓reduceIte,
          Option.some.injEq, Prod.mk.injEq] at taken
        obtain ⟨rfl, rfl⟩ := taken
        exact .readEnd limit isOpen waiting farClosed
      | false =>
        simp only [isOpen, waiting, farClosed, List.isEmpty_nil, Bool.not_true, Bool.false_eq_true, ↓reduceIte,
          Option.map_eq_some_iff, Prod.mk.injEq] at taken
        obtain ⟨timeout, timed, rfl, rfl⟩ := taken
        exact .readLate limit isOpen waiting farClosed fun never => nomatch never.symm.trans timed
    · rw [if_neg (by simp [isOpen]), if_pos (by simpa using waiting)] at taken
      cases taken
      exact .readBytes limit isOpen waiting

theorem getElem?_onPipe (known : m.pipes[conn]? = some pipe) (change : Pipe → Pipe) :
    (m.onPipe conn change).pipes[conn]? = some (change pipe) := by
  simp [onPipe, known]

/-- A write to an open connection succeeds, unless a failure is laid down for it. -/
theorem write_cases (conn : Nat) (bytes : Bytes) (m : Memory) :
    (m.isOpen conn = false ∧ m.write conn bytes = (.error .closedHere, m)) ∨
    (m.isOpen conn = true ∧ 0 < m.writeFailures ∧ m.write conn bytes =
      (.error brokenPipe, { m with writeFailures := m.writeFailures - 1 }.onPipe conn Pipe.shutDown)) ∨
    (m.isOpen conn = true ∧ m.writeFailures = 0 ∧ m.write conn bytes =
      (.ok (), m.onPipe conn fun p => { p with written := p.written ++ bytes })) := by
  unfold write isOpen
  cases m.pipes[conn]? with
  | none => exact .inl ⟨rfl, rfl⟩
  | some pipe =>
    cases isOpen : pipe.isOpen with
    | false => exact .inl (by simp [isOpen])
    | true =>
      cases m.writeFailures with
      | zero => exact .inr (.inr (by simp [isOpen]))
      | succ failures => exact .inr (.inl (by simp [isOpen]))

/-- A connect makes a connection, unless a failure is laid down for it. -/
theorem connect_cases (endpoint : Endpoint) (m : Memory) :
    (∃ error, 0 < m.connectFailures ∧ m.connect endpoint = (.error error,
      { m with endpoints := m.endpoints ++ [endpoint], connectFailures := m.connectFailures - 1 })) ∨
    (m.connectFailures = 0 ∧ m.connect endpoint = (.ok (),
      { m with endpoints := m.endpoints ++ [endpoint], pipes := m.pipes ++ [(nextPipe endpoint m.scripts).1],
               scripts := (nextPipe endpoint m.scripts).2 })) := by
  unfold connect
  cases m.connectFailures with
  | zero => exact .inr ⟨rfl, rfl⟩
  | succ failures => exact .inl ⟨_, Nat.succ_pos _, rfl⟩

/-- What becomes of the connection that is written to. -/
theorem Touch.of_write {bytes : Bytes} {answer : Except IoError Unit} (known : m.pipes[conn]? = some pipe)
    (wrote : m.write conn bytes = (answer, m')) :
    ∃ pipe', m'.pipes[conn]? = some pipe' ∧ Touch conn pipe (.wrote conn bytes (m.isOpen conn) answer) pipe' := by
  have same : m.isOpen conn = pipe.isOpen := by simp [isOpen, known]
  rcases write_cases conn bytes m with ⟨closed, written⟩ | ⟨isOpen, _, written⟩ | ⟨isOpen, _, written⟩
  · cases wrote.symm.trans written
    rw [closed]
    exact ⟨pipe, known, .writeClosed bytes (same.symm.trans closed)⟩
  · cases wrote.symm.trans written
    rw [isOpen]
    exact ⟨_, getElem?_onPipe known _, .writeFailed bytes (same.symm.trans isOpen)⟩
  · cases wrote.symm.trans written
    rw [isOpen]
    exact ⟨_, getElem?_onPipe known _, .writeTaken bytes (same.symm.trans isOpen)⟩

/-- What is done to one connection changes this one, and leaves all others. -/
theorem Touch.of_onPipe {c : Nat} (known : m.pipes[conn]? = some pipe) (change : Pipe → Pipe)
    (concerns : happening.conn? = some c) (own : c = conn → Touch conn pipe happening (change pipe)) :
    ∃ pipe', (m.onPipe c change).pipes[conn]? = some pipe' ∧ Touch conn pipe happening pipe' := by
  by_cases same : c = conn
  · subst same
    exact ⟨_, getElem?_onPipe known change, own rfl⟩
  · have elsewhere : happening.conn? ≠ some conn := fun this => same (Option.some.inj (concerns.symm.trans this))
    exact ⟨pipe, (pipes_onPipe same change m).trans known, .elsewhere elsewhere⟩

/-- Whatever happens, a connection that there is stays, and it changes as a connection does. -/
theorem Step.touches (step : Step m happening m') (known : m.pipes[conn]? = some pipe) :
    ∃ pipe', m'.pipes[conn]? = some pipe' ∧ Touch conn pipe happening pipe' := by
  have connects : ∀ endpoint, (m.connect endpoint).2.pipes[conn]? = some pipe := fun endpoint =>
    (pipes_connect endpoint (List.getElem?_eq_some_iff.mp known).1).trans known
  cases step with
  | pushed c bytes => exact Touch.of_onPipe known _ rfl fun same => same ▸ .pushed bytes
  | farClosed c => exact Touch.of_onPipe known _ rfl fun same => same ▸ .farClosed
  | read there taken =>
    refine Touch.of_onPipe known _ rfl fun same => ?_
    subst same
    cases there.symm.trans known
    exact .of_read taken
  | @wrote c bytes _ _ _ was wrote =>
    subst was
    by_cases same : c = conn
    · subst same
      exact Touch.of_write known wrote
    · have stays := pipes_write same bytes m
      rw [wrote] at stays
      exact ⟨pipe, stays.trans known, .elsewhere fun this => same (Option.some.inj this)⟩
  | shutDown c => exact Touch.of_onPipe known _ rfl fun same => same ▸ .shutDown
  | @connected endpoint _ _ connected =>
    have stays := connects endpoint
    rw [connected] at stays
    exact ⟨pipe, stays, .elsewhere nofun⟩
  | @refused endpoint _ _ refused =>
    have stays := connects endpoint
    rw [refused] at stays
    exact ⟨pipe, stays, .elsewhere nofun⟩
  | failsConnects _ | failsWrites _ | scripted _ => exact ⟨pipe, known, .elsewhere nofun⟩

/-- A course can be cut at every place. -/
theorem Course.cut (course : Course m (before ++ after) m') :
    ∃ middle, Course m before middle ∧ Course middle after m' := by
  induction before generalizing m with
  | nil => exact ⟨m, .done m, course⟩
  | cons happening later ih =>
    cases course with
    | next step rest =>
      obtain ⟨middle, first, second⟩ := ih rest
      exact ⟨middle, .next step first, second⟩

end PushGateway.Memory
