import PushGateway.Memory.Network
import PushGateway.Proofs.Delivery.Acquired

namespace PushGateway

/-- A network as it is seen from those who monitor its connections, which are known by their numbers. Reads fail on
those that were shut down. -/
structure Switchboard {σ : Type} (net : Network σ) (κ : Type) where
  watch : Watch κ
  /-- The connections that were made, oldest first. -/
  lines : σ → List κ
  /-- Puts another line in the place of one. -/
  put : Nat → κ → σ → σ
  /-- Whether a line was shut down. -/
  Shut : κ → Prop
  lines_put : ∀ conn line s, lines (put conn line s) = (lines s).set conn line
  connect_cases : ∀ endpoint s,
    (∃ line s', net.connect endpoint (lines s).length s = (.ok (), s') ∧ lines s' = lines s ++ [line]) ∨
      ∃ error s', net.connect endpoint (lines s).length s = (.error error, s') ∧ lines s' = lines s
  isOpen_eq : ∀ {conn : Nat} {line s}, (lines s)[conn]? = some line → (net.isOpen conn s).1 = watch.isOpen line
  lines_isOpen : ∀ conn s, lines (net.isOpen conn s).2 = lines s
  lines_shutDown : ∀ conn s, lines (net.shutDown conn s) = (lines s).modify conn watch.shutDown
  watch_ok : ∀ conn listener s, (net.watch conn listener s).1 = .ok ()
  lines_watch : ∀ conn listener s, lines (net.watch conn listener s).2 = lines s
  length_read : ∀ {limit line bytes line'}, watch.read limit line = some (.ok bytes, line') → bytes.length ≤ limit
  shut_shutDown : ∀ line, Shut (watch.shutDown line)
  isOpen_of_shut : ∀ {line}, Shut line → watch.isOpen line = false
  read_of_shut : ∀ {limit line answer line'}, Shut line → watch.read limit line = some (answer, line') →
    Shut line' ∧ ∃ error, answer = .error error

namespace Switchboard

variable {σ κ : Type} {net : Network σ} (board : Switchboard net κ)

/-- The line of this number was shut down. -/
def ShutAt (conn : Nat) (s : σ) : Prop := ∃ line, (board.lines s)[conn]? = some line ∧ board.Shut line

/-- No line is taken away, and none that was shut down is revived. -/
def Keeps (s s' : σ) : Prop :=
  ∀ (conn : Nat) line, (board.lines s)[conn]? = some line →
    ∃ line', (board.lines s')[conn]? = some line' ∧ (board.Shut line → board.Shut line')

/-- The journal and the lines tell of the same connections. -/
structure Sound (w : World σ) : Prop where
  length : (board.lines w.outside).length = w.connections
  shut : ∀ conn ∈ Journal.shut w.journal, board.ShutAt conn w.outside

/-- All is well on the way from one world to a later one. -/
structure Passes (w w' : World σ) : Prop where
  sound : board.Sound w'
  keeps : board.Keeps w.outside w'.outside

variable {board} {w w' w'' : World σ}

theorem Keeps.of_eq {s s' : σ} (same : board.lines s' = board.lines s) : board.Keeps s s' :=
  fun _ _ at' => ⟨_, same ▸ at', id⟩

theorem Keeps.trans {s s' s'' : σ} (first : board.Keeps s s') (second : board.Keeps s' s'') : board.Keeps s s'' := by
  intro conn line at'
  obtain ⟨line', at'', kept⟩ := first conn line at'
  obtain ⟨line'', at''', kept'⟩ := second conn line' at''
  exact ⟨line'', at''', kept' ∘ kept⟩

theorem ShutAt.kept {conn : Nat} {s s' : σ} (shut : board.ShutAt conn s) (keeps : board.Keeps s s') :
    board.ShutAt conn s' := by
  obtain ⟨line, at', closed⟩ := shut
  obtain ⟨line', at'', kept⟩ := keeps conn line at'
  exact ⟨line', at'', kept closed⟩

theorem Passes.trans (first : board.Passes w w') (second : board.Passes w' w'') : board.Passes w w'' :=
  ⟨second.sound, first.keeps.trans second.keeps⟩

/-- Nothing happens to the lines. -/
theorem Sound.passes (sound : board.Sound w) (lines : board.lines w'.outside = board.lines w.outside)
    (connections : w'.connections = w.connections) (journal : Journal.shut w'.journal = Journal.shut w.journal) :
    board.Passes w w' := by
  have keeps : board.Keeps w.outside w'.outside := .of_eq lines
  refine ⟨⟨by rw [lines, sound.length, connections], fun conn member => ?_⟩, keeps⟩
  exact (sound.shut conn (journal ▸ member)).kept keeps

theorem keeps_shutDown (conn : Nat) (s : σ) : board.Keeps s (net.shutDown conn s) := by
  intro other line at'
  rw [board.lines_shutDown, List.getElem?_modify, at', Option.map_eq_map, Option.map_some]
  split
  · exact ⟨_, rfl, fun _ => board.shut_shutDown line⟩
  · exact ⟨_, rfl, id⟩

/-- A line that was made is shut down. -/
theorem Sound.shutDown (sound : board.Sound w) {conn : Nat} (made : conn < w.connections) :
    board.Passes w (w.shutDown net conn) := by
  have keeps : board.Keeps w.outside (w.shutDown net conn).outside := keeps_shutDown conn w.outside
  refine ⟨⟨?_, fun other member => ?_⟩, keeps⟩
  · rw [World.connections_shutDown, ← sound.length]
    simp only [World.shutDown, World.note, board.lines_shutDown, List.length_modify]
  · rw [World.journal_shutDown, Journal.shut_append, List.mem_append] at member
    rcases member with old | new
    · exact (sound.shut other old).kept keeps
    · obtain rfl := List.mem_singleton.mp new
      rw [← sound.length] at made
      refine ⟨_, ?_, board.shut_shutDown (board.lines w.outside)[other]⟩
      simp only [World.shutDown, World.note, board.lines_shutDown, List.getElem?_modify, List.getElem?_eq_getElem made,
        if_true, Option.map_eq_map, Option.map_some]

theorem Sound.isOpen (sound : board.Sound w) (conn : Nat) : board.Passes w (w.isOpen net conn).2 :=
  sound.passes (board.lines_isOpen conn w.outside) rfl rfl

theorem Sound.connect (sound : board.Sound w) (endpoint : Endpoint) :
    (∃ w', w.connect net endpoint = (.ok w.connections, w') ∧ w'.connections = w.connections + 1 ∧
      board.Passes w w') ∨
    ∃ error w', w.connect net endpoint = (.error error, w') ∧ w'.connections = w.connections ∧ board.Passes w w' := by
  have outcome := board.connect_cases endpoint w.outside
  rw [sound.length] at outcome
  rcases outcome with ⟨line, s', made, lines⟩ | ⟨error, s', refused, lines⟩
  · refine .inl ⟨_, by rw [World.connect, made], rfl, ?_⟩
    have keeps : board.Keeps w.outside s' := by
      intro conn line at'
      have inside := (List.getElem?_eq_some_iff.mp at').1
      exact ⟨line, by rw [lines, List.getElem?_append_left inside, at'], id⟩
    refine ⟨⟨?_, fun conn member => ?_⟩, keeps⟩
    · simp [World.note, lines, sound.length]
    · simp only [World.journal_note, Journal.shut_append] at member
      exact (sound.shut conn (by simpa using member)).kept keeps
  · exact .inr ⟨error, { w with outside := s' }.note (.refused endpoint error), by rw [World.connect, refused], rfl,
      sound.passes lines rfl (by simp)⟩

end Switchboard

namespace Memory

/-- In memory, the lines are pipes. -/
def switchboard : Switchboard network Pipe where
  watch := Pipe.watch
  lines := pipes
  put conn pipe m := { m with pipes := m.pipes.set conn pipe }
  Shut pipe := pipe.isOpen = false
  lines_put _ _ _ := rfl
  connect_cases endpoint m := by
    simp only [network, connect]
    split
    · exact .inr ⟨_, _, rfl, rfl⟩
    · exact .inl ⟨_, _, rfl, rfl⟩
  isOpen_eq at' := by simp [network, isOpen, at', Pipe.watch]
  lines_isOpen _ _ := rfl
  lines_shutDown _ _ := rfl
  watch_ok _ _ _ := rfl
  lines_watch _ _ _ := rfl
  length_read := by
    intro limit pipe bytes pipe' read
    simp only [Pipe.watch, Pipe.read] at read
    split at read
    · cases read
    split at read
    · cases read
      exact List.length_take_le ..
    split at read <;> cases read
    exact Nat.zero_le _
  shut_shutDown _ := rfl
  isOpen_of_shut shut := shut
  read_of_shut := by
    intro limit pipe answer pipe' shut read
    simp only [Pipe.watch, Pipe.read, shut, Bool.not_false, if_true] at read
    cases read
    exact ⟨shut, _, rfl⟩

/-- What a far end does, such as sending bytes or ending its side, opens no pipe again. -/
theorem keeps_onPipe {change : Pipe → Pipe} (dead : ∀ pipe, pipe.isOpen = false → (change pipe).isOpen = false)
    (conn : Nat) (m : Memory) : switchboard.Keeps m (m.onPipe conn change) := by
  intro other pipe at'
  have place : (m.onPipe conn change).pipes[other]? = (m.pipes[other]?).map fun p =>
      if conn = other then change p else p := by
    rw [onPipe, List.getElem?_modify]
    rfl
  refine ⟨_, by rw [show switchboard.lines = pipes from rfl, place, show m.pipes[other]? = some pipe from at']; rfl, ?_⟩
  split
  · exact dead pipe
  · exact id

end Memory

namespace Manager

variable {σ κ π : Type} {net : Network σ} {board : Switchboard net κ} {m : Manager π} {w : World σ}

theorem close_passes (sound : board.Sound w) (holds : ∀ conn, m.held = some conn → conn < w.connections) :
    board.Passes w (m.close net w).2 := by
  rw [close]
  cases slot : m.slot with
  | none => exact sound.passes rfl rfl rfl
  | some held => exact sound.shutDown (holds _ (held_eq_some slot))

variable [Policy π]

theorem connect_manned (sound : board.Sound w) (detects : m.detection = true) :
    (∃ policy w', m.connect net w =
        (.ok w.connections,
          { m with policy, slot := some ⟨w.connections, true⟩, phase := .established, opened := m.opened + 1 }, w') ∧
      w'.connections = w.connections + 1 ∧ board.Passes w w') ∨
    ∃ error w', m.connect net w = (.error error, { m with phase := .disconnected }, w') ∧
      w'.connections = w.connections ∧ board.Passes w w' := by
  rcases sound.connect m.endpoint with ⟨w₁, made, one, passes⟩ | ⟨error, w₁, refused, same, passes⟩
  · have watched := board.watch_ok w.connections m.listener w₁.outside
    have lines := board.lines_watch w.connections m.listener w₁.outside
    rcases started : net.watch w.connections m.listener w₁.outside with ⟨answer, outside⟩
    rw [started] at watched lines
    cases watched
    have watching : board.Passes w₁ { w₁ with outside } := passes.sound.passes lines rfl rfl
    refine .inl ⟨Policy.connected (w₁.now net) m.policy, { w₁ with outside }, ?_, one, passes.trans watching⟩
    simp only [connect, made, startMonitor, detects, if_true, World.watch, started]
  · exact .inr ⟨error, w₁, by simp only [connect, refused], same, passes⟩

theorem review_manned (sound : board.Sound w) (holds : ∀ conn, m.held = some conn → conn < w.connections) :
    board.Passes w (m.review net w).2 ∧ (m.review net w).2.connections = w.connections ∧
      ∃ policy phase slot, (m.review net w).1 = { m with policy, phase, slot } ∧
        (slot = none ∨ slot = m.slot ∧ ∀ conn, m.held = some conn → (w.isOpen net conn).1 = true) := by
  obtain ⟨endpoint, policy, listener, detection, slot, phase, opened⟩ := m
  rw [review]
  cases slot with
  | none => exact ⟨sound.passes rfl rfl rfl, rfl, _, phase, none, rfl, .inl rfl⟩
  | some held =>
    have asked := sound.isOpen held.conn
    have gone (policy : π) (w₁ : World σ) (passes : board.Passes w w₁) (same : w₁.connections = w.connections) :
        let closed := close net ⟨endpoint, policy, listener, detection, some held, phase, opened⟩ w₁
        board.Passes w closed.2 ∧ closed.2.connections = w.connections :=
      ⟨passes.trans (close_passes passes.sound fun conn holding => same ▸ holds conn holding), by simp [same]⟩
    simp only
    split
    · obtain ⟨passes, same⟩ := gone (Policy.isDue (w.now net) policy).2 w (sound.passes rfl rfl rfl) rfl
      exact ⟨passes, same, _, .disconnected, none, rfl, .inl rfl⟩
    split
    · rename_i isOpen
      refine ⟨asked, rfl, _, phase, some held, rfl, .inr ⟨rfl, ?_⟩⟩
      rintro conn ⟨⟩
      exact isOpen
    · obtain ⟨passes, same⟩ := gone (Policy.isDue (w.now net) policy).2 _ asked rfl
      exact ⟨passes, same, _, .disconnected, none, rfl, .inl rfl⟩

/-- What an acquire comes to where every connection gets a monitor. -/
inductive Manned (net : Network σ) (m : Manager π) (w : World σ) :
    Except NetworkError Nat → Manager π → World σ → Prop
  | kept {held m' w'} : m.slot = some held → (w.isOpen net held.conn).1 = true → m'.slot = m.slot →
      m'.opened = m.opened → m'.detection = m.detection → w'.connections = w.connections →
      Manned net m w (.ok held.conn) m' w'
  | made {m' w'} : m'.slot = some ⟨w.connections, true⟩ → m'.opened = m.opened + 1 → m'.detection = m.detection →
      w'.connections = w.connections + 1 → Manned net m w (.ok w.connections) m' w'
  | refused {error m' w'} : m'.slot = none → m'.opened = m.opened → m'.detection = m.detection →
      w'.connections = w.connections → Manned net m w (.error error) m' w'

theorem acquire_manned (sound : board.Sound w) (detects : m.detection = true)
    (holds : ∀ conn, m.held = some conn → conn < w.connections) :
    board.Passes w (m.acquire net w).2.2 ∧
      Manned net m w (m.acquire net w).1 (m.acquire net w).2.1 (m.acquire net w).2.2 := by
  obtain ⟨passes, same, policy, phase, slot, reviewed, left⟩ := review_manned sound holds
  rw [acquire_eq, reviewed]
  cases slot with
  | none =>
    simp only
    rcases connect_manned (m := { m with policy, phase, slot := none }) passes.sound detects with
      ⟨policy', w', run, one, further⟩ | ⟨error, w', run, none', further⟩
    · rw [run, same]
      exact ⟨passes.trans further, .made rfl rfl rfl (by rw [one, same])⟩
    · rw [run]
      exact ⟨passes.trans further, .refused rfl rfl rfl (none'.trans same)⟩
  | some held =>
    obtain ⟨slot, isOpen⟩ := left.resolve_left nofun
    simp only
    exact ⟨passes, .kept slot.symm (isOpen _ (held_eq_some slot.symm)) (by simp [reviewed, slot])
      (by simp [reviewed]) (by simp [reviewed]) same⟩

end Manager
end PushGateway
