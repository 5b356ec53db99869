import Mathlib.Logic.Relation
import PushGateway.Proofs.Monitor.Due
import PushGateway.Proofs.Monitor.Switchboard

namespace PushGateway

/-- The monitor of one connection, with all that it has done. -/
structure Post where
  monitor : Monitor := .start
  /-- What its reads came to, and whether the manager had shut the connection down before. -/
  reads : List (Bool × Except IoError Bytes) := []
  told : List Rejection := []

namespace Post

variable {σ κ : Type} {net : Network σ} {board : Switchboard net κ}

def start : Post := {}

/-- What the next step of the monitor reads, if it reads. -/
def answers (watch : Watch κ) (post : Post) (line : κ) : List (Except IoError Bytes) :=
  match post.monitor with
  | .reading filled _ => ((watch.read (Rejection.frameLength - filled.length) line).map Prod.fst).toList
  | _ => []

/-- One step of the monitor, on a connection that the manager has or has not discarded. -/
def step (watch : Watch κ) (discarded : Bool) (post : Post) (line : κ) : Option (Post × κ) :=
  (post.monitor.step watch false line).map fun (event, monitor, line') =>
    (⟨monitor, post.reads ++ (post.answers watch line).map (discarded, ·), post.told ++ event.toList⟩, line')

/-- The monitor does not pass on anything any more. -/
def Mute (post : Post) : Prop :=
  match post.monitor with
  | .reporting .. | .concluding _ => False
  | _ => True

structure Sound (board : Switchboard net κ) (post : Post) (line : κ) : Prop where
  tracks : post.monitor.Tracks (post.reads.map Prod.snd) post.told
  silent : ∀ answer, (true, answer) ∈ post.reads →
    board.Shut line ∧ post.Mute ∧ ∀ r ∈ post.told, r.identifier ≠ none
  gone : post.monitor = .gone → board.Shut line

namespace Sound

variable {post post' : Post} {line line' : κ}

theorem start (line : κ) : Post.start.Sound board line := ⟨.start, nofun, nofun⟩

/-- Only a connection that was shut down has to stay so. -/
theorem kept (sound : post.Sound board line) (still : board.Shut line → board.Shut line') : post.Sound board line' :=
  ⟨sound.tracks, fun answer member => (sound.silent answer member).imp_left still, still ∘ sound.gone⟩

theorem read {filled : Bytes} {count : Nat} {reads : List (Bool × Except IoError Bytes)} {told : List Rejection}
    (sound : Sound board ⟨.reading filled count, reads, told⟩ line) {discarded : Bool}
    (marked : discarded = true → board.Shut line) {answer : Except IoError Bytes}
    (read : board.watch.read (Rejection.frameLength - filled.length) line = some (answer, line')) :
    Sound board ⟨Monitor.afterRead filled count answer, reads ++ [(discarded, answer)], told⟩ line' := by
  obtain ⟨tracks, silent, _⟩ := sound
  have plain : ∀ r ∈ told, r.identifier ≠ none := by
    cases tracks with
    | past _ _ _ ends => rcases ends with ends | ends <;> cases ends
    | reading =>
      intro r member
      obtain ⟨error, _, rfl⟩ := List.mem_map.mp member
      nofun
  refine ⟨?_, fun other member => ?_, fun gone => ?_⟩
  · rw [List.map_append]
    refine tracks.afterRead ?_
    rintro bytes rfl
    exact board.length_read read
  · have shut : board.Shut line := by
      rcases List.mem_append.mp member with old | new
      · exact (silent other old).1
      · cases List.mem_singleton.mp new
        exact marked rfl
    obtain ⟨still, error, rfl⟩ := board.read_of_shut shut read
    refine ⟨still, ?_, plain⟩
    by_cases transient : error.isTransient = true
    · simp [Mute, Monitor.afterRead, transient]
    · simp [Mute, Monitor.afterRead, transient]
  · unfold Monitor.afterRead at gone
    split at gone
    · cases gone
    · simp only at gone
      split at gone
      · cases gone
      · split at gone <;> cases gone
    · split at gone <;> cases gone

theorem step (sound : post.Sound board line) {discarded : Bool} (marked : discarded = true → board.Shut line)
    (next : post.step board.watch discarded line = some (post', line')) :
    post'.Sound board line' ∧ (board.Shut line → board.Shut line') := by
  obtain ⟨monitor, reads, told⟩ := post
  cases monitor with
  | reading filled count =>
    simp only [Post.step, Monitor.step, answers] at next
    rcases read : board.watch.read (Rejection.frameLength - filled.length) line with _ | ⟨answer, after⟩
    · simp [read] at next
    · simp only [read, Option.map_some, Option.toList_some, List.map_cons, List.map_nil, Option.toList_none,
        List.append_nil] at next
      cases next
      exact ⟨sound.read marked read, fun shut => (board.read_of_shut shut read).1⟩
  | reporting rejection count =>
    cases next
    refine ⟨⟨?_, fun answer member => ?_, by simp⟩, id⟩
    · simpa [answers] using sound.tracks.reported
    · exact absurd (sound.silent answer (by simpa [answers] using member)).2.1 id
  | ended failed filled count =>
    cases next
    have checked := sound.tracks.checked (board.watch.isOpen line)
    refine ⟨⟨by simpa [answers] using checked, fun answer member => ?_, fun gone => ?_⟩, id⟩
    · obtain ⟨shut, _, plain⟩ := sound.silent answer (by simpa [answers] using member)
      exact ⟨shut, by simp [Mute, board.isOpen_of_shut shut], by simpa using plain⟩
    · simp only at gone
      split at gone <;> cases gone
  | concluding last =>
    have concluded : Sound board ⟨.leaving, reads, told ++ last.toList⟩ line :=
      ⟨sound.tracks.concluded, fun answer member => (sound.silent answer member).2.1.elim, by simp⟩
    cases last with
    | none =>
      cases next
      exact ⟨by simpa [answers] using concluded, id⟩
    | some rejection =>
      cases next
      exact ⟨by simpa [answers] using concluded, id⟩
  | leaving =>
    cases next
    have shut := board.shut_shutDown line
    refine ⟨⟨by simpa [answers] using sound.tracks.left, fun answer member => ?_, fun _ => shut⟩, fun _ => shut⟩
    obtain ⟨_, _, plain⟩ := sound.silent answer (by simpa [answers] using member)
    exact ⟨shut, trivial, by simpa using plain⟩
  | gone => cases next

end Sound
end Post

/-- A manager in its network, and the monitors of the connections that it has made. -/
structure Station (σ π : Type) where
  manager : Manager π
  world : World σ
  posts : List Post := []

namespace Station

variable {σ κ π : Type} [Policy π] {net : Network σ} {board : Switchboard net κ}

/-- Where a manager has made a connection and started a monitor for it, there is another post. -/
def manned (before after : Manager π) (posts : List Post) : List Post :=
  if before.opened < after.opened ∧ after.slot.any (·.monitored) then posts ++ [.start] else posts

def acquire (net : Network σ) (g : Station σ π) : Except NetworkError Nat × Station σ π :=
  let (answer, manager, world) := g.manager.acquire net g.world
  (answer, ⟨manager, world, manned g.manager manager g.posts⟩)

def close (net : Network σ) (g : Station σ π) : Station σ π :=
  let (manager, world) := g.manager.close net g.world
  ⟨manager, world, g.posts⟩

/-- The monitor of one connection takes a step. -/
inductive Works (board : Switchboard net κ) (conn : Nat) : Station σ π → Station σ π → Prop
  | step {g : Station σ π} {post post' line line'} : g.posts[conn]? = some post →
      (board.lines g.world.outside)[conn]? = some line →
      post.step board.watch (decide (conn ∈ Journal.shut g.world.journal)) line = some (post', line') →
      Works board conn g
        ⟨g.manager, { g.world with outside := board.put conn line' g.world.outside }, g.posts.set conn post'⟩

/-- The next thing that happens: the manager is asked for a connection or told to close, something happens outside,
such as a far end that sends bytes or ends its side, or a monitor takes a step. -/
inductive Next (board : Switchboard net κ) : Station σ π → Station σ π → Prop
  | acquire (g) : Next board g (g.acquire net).2
  | close (g) : Next board g (g.close net)
  | elsewhere {g : Station σ π} {outside} : (board.lines outside).length = (board.lines g.world.outside).length →
      board.Keeps g.world.outside outside → Next board g { g with world := { g.world with outside } }
  | works {g g'} (conn) : Works board conn g g' → Next board g g'

/-- What happens one after the other, in any order. -/
abbrev Leads (board : Switchboard net κ) : Station σ π → Station σ π → Prop := Relation.ReflTransGen (Next board)

structure Kept (board : Switchboard net κ) (g : Station σ π) : Prop where
  detects : g.manager.detection = true
  sound : board.Sound g.world
  holds : ∀ conn, g.manager.held = some conn → conn < g.world.connections
  manned : g.posts.length = g.world.connections
  posts : ∀ (conn : Nat) post line, g.posts[conn]? = some post →
    (board.lines g.world.outside)[conn]? = some line → post.Sound board line

namespace Kept

variable {g g' : Station σ π}

omit [Policy π] in
theorem line (kept : g.Kept board) {conn : Nat} {post : Post} (at' : g.posts[conn]? = some post) :
    ∃ line, (board.lines g.world.outside)[conn]? = some line ∧ post.Sound board line := by
  have inside := (List.getElem?_eq_some_iff.mp at').1
  rw [kept.manned, ← kept.sound.length] at inside
  exact ⟨_, List.getElem?_eq_getElem inside, kept.posts conn post _ at' (List.getElem?_eq_getElem inside)⟩

omit [Policy π] in
/-- The posts know their lines as long as no line is revived. -/
theorem posts_of_keeps (kept : g.Kept board) {s : σ} (keeps : board.Keeps g.world.outside s) (conn : Nat)
    (post : Post) (line' : κ) (at' : g.posts[conn]? = some post) (there : (board.lines s)[conn]? = some line') :
    post.Sound board line' := by
  obtain ⟨line, here, sound⟩ := kept.line at'
  obtain ⟨line'', there', still⟩ := keeps conn line here
  obtain rfl := Option.some.inj (there.symm.trans there')
  exact sound.kept still

omit [Policy π] in
theorem start {m : Manager π} {outside : σ} (detects : m.detection = true) (idle : m.slot = none)
    (none : board.lines outside = []) : Kept board ⟨m, { outside }, []⟩ where
  detects := detects
  sound := ⟨by rw [none]; rfl, nofun⟩
  holds := by simp [Manager.held_eq_none idle]
  manned := rfl
  posts := by simp

theorem acquire (kept : g.Kept board) :
    (g.acquire net).2.Kept board ∧ board.Keeps g.world.outside (g.acquire net).2.world.outside := by
  obtain ⟨passes, outcome⟩ := Manager.acquire_manned kept.sound kept.detects kept.holds
  have known := kept.posts_of_keeps passes.keeps
  rcases run : g.manager.acquire net g.world with ⟨answer, m', w'⟩
  simp only [run] at passes outcome known
  simp only [Station.acquire, run]
  refine ⟨?_, passes.keeps⟩
  have same (opened : m'.opened = g.manager.opened) : Station.manned g.manager m' g.posts = g.posts :=
    if_neg fun ⟨more, _⟩ => by omega
  cases outcome with
  | kept slot _ slot' opened detection connections =>
    have holds : m'.held = g.manager.held := by rw [Manager.held, slot', Manager.held]
    rw [same opened]
    exact ⟨detection.trans kept.detects, passes.sound,
      fun conn holding => connections ▸ kept.holds conn (holds ▸ holding), kept.manned.trans connections.symm, known⟩
  | refused slot opened detection connections =>
    rw [same opened]
    exact ⟨detection.trans kept.detects, passes.sound, by simp [Manager.held_eq_none slot],
      kept.manned.trans connections.symm, known⟩
  | made slot opened detection connections =>
    have more : Station.manned g.manager m' g.posts = g.posts ++ [.start] := if_pos ⟨by omega, by simp [slot]⟩
    rw [more]
    refine ⟨detection.trans kept.detects, passes.sound, fun conn holding => ?_, ?_, fun conn post line at' there => ?_⟩
    · rw [Manager.held_eq_some slot] at holding
      obtain rfl := Option.some.inj holding
      simp only [connections]
      omega
    · simp [kept.manned, connections]
    · rw [List.getElem?_append] at at'
      split at at'
      · exact known conn post line at' there
      · obtain rfl := List.mem_singleton.mp (List.mem_of_getElem? at')
        exact .start line

omit [Policy π] in
theorem close (kept : g.Kept board) :
    (g.close net).Kept board ∧ board.Keeps g.world.outside (g.close net).world.outside := by
  have passes := Manager.close_passes kept.sound kept.holds
  refine ⟨⟨kept.detects, passes.sound, nofun, ?_, kept.posts_of_keeps passes.keeps⟩, passes.keeps⟩
  exact kept.manned.trans (Manager.connections_close net g.manager g.world).symm

omit [Policy π] in
theorem elsewhere (kept : g.Kept board) {outside : σ}
    (length : (board.lines outside).length = (board.lines g.world.outside).length)
    (keeps : board.Keeps g.world.outside outside) : Kept board { g with world := { g.world with outside } } where
  detects := kept.detects
  sound := ⟨length.trans kept.sound.length, fun conn member => (kept.sound.shut conn member).kept keeps⟩
  holds := kept.holds
  manned := kept.manned
  posts := kept.posts_of_keeps keeps

omit [Policy π] in
theorem works (kept : g.Kept board) {conn : Nat} (works : Works board conn g g') :
    g'.Kept board ∧ board.Keeps g.world.outside g'.world.outside := by
  cases works with
  | @step post post' line line' at' here next =>
    have marked : decide (conn ∈ Journal.shut g.world.journal) = true → board.Shut line := by
      intro member
      obtain ⟨other, there, shut⟩ := kept.sound.shut conn (of_decide_eq_true member)
      rwa [Option.some.inj (here.symm.trans there)]
    obtain ⟨sound, still⟩ := (kept.posts conn post line at' here).step marked next
    have keeps : board.Keeps g.world.outside (board.put conn line' g.world.outside) := by
      intro other line₁ there
      rw [board.lines_put, List.getElem?_set]
      split
      · rename_i same
        subst same
        rw [if_pos (List.getElem?_eq_some_iff.mp here).1, ← Option.some.inj (here.symm.trans there)]
        exact ⟨line', rfl, still⟩
      · exact ⟨line₁, there, id⟩
    refine ⟨⟨kept.detects, ⟨?_, fun i member => (kept.sound.shut i member).kept keeps⟩, kept.holds, ?_, ?_⟩, keeps⟩
    · rw [board.lines_put, List.length_set, kept.sound.length]
    · rw [List.length_set, kept.manned]
    · intro other post₁ line₁ at₁ there
      rw [List.getElem?_set] at at₁
      split at at₁
      · rename_i same
        subst same
        rw [if_pos (List.getElem?_eq_some_iff.mp at').1] at at₁
        rw [board.lines_put, List.getElem?_set_self (List.getElem?_eq_some_iff.mp here).1] at there
        cases at₁
        cases there
        exact sound
      · exact kept.posts_of_keeps keeps other post₁ line₁ at₁ there

theorem next (kept : g.Kept board) (next : Next board g g') :
    g'.Kept board ∧ board.Keeps g.world.outside g'.world.outside := by
  cases next with
  | acquire => exact kept.acquire
  | close => exact kept.close
  | elsewhere length keeps => exact ⟨kept.elsewhere length keeps, keeps⟩
  | works conn works => exact kept.works works

theorem leads (kept : g.Kept board) (leads : Leads board g g') :
    g'.Kept board ∧ board.Keeps g.world.outside g'.world.outside := by
  induction leads with
  | refl => exact ⟨kept, .of_eq rfl⟩
  | tail _ next ih =>
    obtain ⟨kept', keeps'⟩ := ih.1.next next
    exact ⟨kept', ih.2.trans keeps'⟩

/-- A line that was shut down is not handed out. -/
theorem not_acquired (kept : g.Kept board) {conn : Nat} (shut : board.ShutAt conn g.world.outside) :
    (g.acquire net).1 ≠ .ok conn := by
  obtain ⟨line, here, closed⟩ := shut
  have inside := (List.getElem?_eq_some_iff.mp here).1
  rw [kept.sound.length] at inside
  have outcome := (Manager.acquire_manned kept.sound kept.detects kept.holds).2
  rcases run : g.manager.acquire net g.world with ⟨answer, m', w'⟩
  simp only [run] at outcome
  simp only [Station.acquire, run]
  rintro rfl
  generalize same : (Except.ok conn : Except NetworkError Nat) = answer at outcome
  cases outcome with
  | kept slot isOpen =>
    cases same
    have answers : (net.isOpen _ g.world.outside).1 = true := isOpen
    rw [board.isOpen_eq here, board.isOpen_of_shut closed] at answers
    cases answers
  | made =>
    cases same
    omega
  | refused => cases same

end Kept

/-- Monitors and the manager do not disturb each other, whatever happens in whichever order. What a monitor has told
can be seen from its own reads, and at most one thing is missing. First come errors that it has decoded from frames,
and behind them at most one that it has not. There is none of that kind if the manager had shut the connection down
before one of its reads. When a monitor is gone, its connection is closed and will not be handed out again. In its
steps it changes nothing but its own connection. -/
theorem monitors_apart {m : Manager π} {outside : σ} {g : Station σ π} (detects : m.detection = true)
    (idle : m.slot = none) (none : board.lines outside = []) (leads : Leads board ⟨m, { outside }, []⟩ g) :
    g.posts.length = g.world.connections ∧
    (∀ (conn : Nat) post, g.posts[conn]? = some post →
      (post.told <+: Monitor.due (post.reads.map Prod.snd) ∧
        (Monitor.due (post.reads.map Prod.snd)).length ≤ post.told.length + 1) ∧
      (∃ (errors : List (UInt8 × UInt32)) (last : List Rejection), post.told = errors.map Monitor.rejection ++ last ∧
        last.length ≤ 1 ∧ ∀ r ∈ last, r.identifier = .none) ∧
      (∀ answer, (true, answer) ∈ post.reads → ∀ r ∈ post.told, r.identifier ≠ .none) ∧
      (post.monitor = .gone → ∃ line, (board.lines g.world.outside)[conn]? = some line ∧
        board.watch.isOpen line = false ∧ ∀ g', Leads board g g' → (g'.acquire net).1 ≠ .ok conn)) ∧
    ∀ conn g', Works board conn g g' → g'.manager = g.manager ∧ g'.world.journal = g.world.journal ∧
      ∀ other ≠ conn, (board.lines g'.world.outside)[other]? = (board.lines g.world.outside)[other]? ∧
        g'.posts[other]? = g.posts[other]? := by
  have kept := ((Kept.start detects idle none).leads leads).1
  refine ⟨kept.manned, fun conn post at' => ?_, fun conn g' works => ?_⟩
  · obtain ⟨line, here, sound⟩ := kept.line at'
    obtain ⟨told, few, parts⟩ := sound.tracks.sound
    refine ⟨⟨told, few⟩, parts, fun answer member => (sound.silent answer member).2.2, fun gone => ?_⟩
    refine ⟨line, here, board.isOpen_of_shut (sound.gone gone), fun g' later => ?_⟩
    obtain ⟨kept', keeps⟩ := kept.leads later
    have shut : board.ShutAt conn g.world.outside := ⟨line, here, sound.gone gone⟩
    exact kept'.not_acquired (shut.kept keeps)
  · cases works with
    | step at' here next =>
      refine ⟨rfl, rfl, fun other elsewhere => ⟨?_, List.getElem?_set_ne elsewhere.symm⟩⟩
      rw [board.lines_put, List.getElem?_set_ne elsewhere.symm]

/-- The far end rejects a notification, then the manager closes, and the monitor goes without another word. -/
theorem monitors_apart_in_memory :
    let start : Station Memory Reconnect :=
      { manager := { endpoint := default, policy := .never, listener := .application }, world := { outside := {} } }
    ∃ g, Leads Memory.switchboard start g ∧
      g.posts = [⟨.gone, [(false, .ok [8, 8, 0, 0, 0, 42]), (true, .error .closedHere)], [⟨.invalidToken, some 42⟩]⟩] ∧
      ∀ g', Leads Memory.switchboard g g' → (g'.acquire Memory.network).1 ≠ .ok 0 := by
  intro start
  have sends (m : Memory) : Memory.switchboard.Keeps m (m.onPipe 0 (Pipe.push [8, 8, 0, 0, 0, 42])) :=
    Memory.keeps_onPipe (by exact fun _ closed => closed) 0 m
  have opened : Leads Memory.switchboard start (start.acquire Memory.network).2 := .tail .refl (.acquire start)
  have sent := opened.tail (.elsewhere (by rfl) (sends _))
  have told := (sent.tail (.works 0 (.step rfl rfl rfl))).tail (.works 0 (.step rfl rfl rfl))
  have closed := told.tail (.close _)
  have stopped := (closed.tail (.works 0 (.step rfl rfl rfl))).tail (.works 0 (.step rfl rfl rfl))
  have gone := stopped.tail (.works 0 (.step rfl rfl rfl))
  obtain ⟨_, _, _, later⟩ := ((monitors_apart rfl rfl rfl gone).2.1 0 _ rfl).2.2.2 rfl
  exact ⟨_, gone, rfl, later⟩

end Station
end PushGateway
