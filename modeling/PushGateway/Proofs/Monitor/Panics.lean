import PushGateway.Proofs.Monitor.Reports
import PushGateway.Proofs.Monitor.Stations

namespace PushGateway
namespace Monitor

variable {σ : Type} {watch : Watch σ} {m m' : Monitor} {s s' : σ}

/-- An observer that panics changes nothing but where its monitor goes from there. -/
theorem step_eq_map (panics : Bool) (m : Monitor) (s : σ) :
    step watch panics m s = (step watch false m s).map fun (event, m', s') =>
      (event, if panics && event.isSome then gone else m', s') := by
  cases m with
  | reading filled reported =>
    simp only [step]
    split
    · rfl
    · simp
  | concluding last => cases last <;> cases panics <;> rfl
  | reporting | ended | leaving | gone => cases panics <;> rfl

/-- To tell of an error does nothing to the connection. -/
theorem state_of_told {panics : Bool} {rejection : Rejection}
    (next : step watch panics m s = some (some rejection, m', s')) : s' = s := by
  cases m with
  | reading filled reported =>
    rw [step] at next
    split at next <;> cases next
  | concluding last => cases last <;> cases next; rfl
  | reporting => cases next; rfl
  | ended | leaving | gone => cases next

theorem gone_of_panic {rejection : Rejection} (next : step watch true m s = some (some rejection, m', s')) :
    m' = gone := by
  rw [step_eq_map, Option.map_eq_some_iff] at next
  obtain ⟨⟨_, _, _⟩, _, same⟩ := next
  cases same
  rfl

/-- Lets a monitor work until it has to wait or is gone. Whether its observer panics may depend on how many errors it
has been told of. -/
def attend (watch : Watch σ) (panics : Nat → Bool) (heard : Nat) (m : Monitor) (s : σ) :
    List Rejection × Monitor × σ :=
  match _next : step watch (panics heard) m s with
  | none => ([], m, s)
  | some (event, m', s') =>
    if _going : m' = gone then (event.toList, gone, s')
    else
      let (events, last) := attend watch panics (heard + event.toList.length) m' s'
      (event.toList ++ events, last)
termination_by (watch.volume s, m.rank)
decreasing_by exact step_decreases _next _going

section
variable {panics : Nat → Bool} {heard : Nat} {event : Option Rejection}

theorem run_waits {panics : Bool} (waits : step watch panics m s = none) : run watch panics m s = ([], m, s) := by
  rw [run]
  split
  · rfl
  · rename_i taken
    rw [taken] at waits
    cases waits

theorem attend_waits (waits : step watch (panics heard) m s = none) :
    attend watch panics heard m s = ([], m, s) := by
  rw [attend]
  split
  · rfl
  · rename_i taken
    rw [taken] at waits
    cases waits

theorem attend_gone (s : σ) : attend watch panics heard gone s = ([], gone, s) := attend_waits rfl

theorem attend_next (next : step watch (panics heard) m s = some (event, m', s')) :
    attend watch panics heard m s =
      (event.toList ++ (attend watch panics (heard + event.toList.length) m' s').1,
        (attend watch panics (heard + event.toList.length) m' s').2) := by
  rw [attend]
  split
  · rename_i waits
    rw [waits] at next
    cases next
  · rename_i taken
    rw [taken] at next
    cases next
    split
    · rename_i ends
      subst ends
      rw [attend_gone, List.append_nil]
    · rfl

end

/-- Under an observer that always panics or never does, this is what a monitor comes to by itself. -/
theorem attend_const (panics : Bool) (heard : Nat) (m : Monitor) (s : σ) :
    attend watch (fun _ => panics) heard m s = run watch panics m s := by
  induction heard, m, s using attend.induct watch fun _ => panics with
  | case1 heard m s waits => rw [attend_waits waits, run_waits waits]
  | case2 heard m s event s' next => rw [attend_next next, run_next watch next, attend_gone, run_gone]
  | case3 heard m s event m' s' next going _ _ _ ih => rw [attend_next next, run_next watch next, ih]

/-- An error frame, and an observer that panics when it is told. -/
theorem open_after_panic :
    start.run ScriptedConnection.watch true { inbound := [.bytes [8, 8, 0, 0, 0, 42], .ending] } =
      ([⟨.invalidToken, some 42⟩], gone, { inbound := [.ending], isOpen := true }) := by
  cbv

end Monitor

namespace Station

variable {σ π : Type}

theorem manned_cases (before after : Manager π) :
    (∀ posts, manned before after posts = posts) ∨ ∀ posts, manned before after posts = posts ++ [.start] := by
  unfold manned
  split
  · exact .inr fun _ => rfl
  · exact .inl fun _ => rfl

variable [Policy π] {net : Network σ} {g : Station σ π}

theorem posts_acquire : (g.acquire net).2.posts = manned g.manager (g.acquire net).2.manager g.posts := rfl

/-- An acquire leaves the posts as they were, or adds a new one to them. -/
theorem post_acquire {conn : Nat} {post : Post} (at' : (g.acquire net).2.posts[conn]? = some post) :
    g.posts[conn]? = some post ∨ conn = g.posts.length ∧ post = .start := by
  rw [posts_acquire] at at'
  rcases manned_cases g.manager (g.acquire net).2.manager with same | more
  · exact .inl (by rwa [same] at at')
  · rw [more, List.getElem?_append] at at'
    split at at'
    · exact .inl at'
    · have within := (List.getElem?_eq_some_iff.mp at').1
      rw [List.length_singleton] at within
      exact .inr ⟨by omega, List.mem_singleton.mp (List.mem_of_getElem? at')⟩

theorem post_kept {conn : Nat} {post : Post} (at' : g.posts[conn]? = some post) :
    (g.acquire net).2.posts[conn]? = some post := by
  rw [posts_acquire]
  rcases manned_cases g.manager (g.acquire net).2.manager with same | more
  · rw [same, at']
  · rw [more, List.getElem?_append_left (List.getElem?_eq_some_iff.mp at').1, at']

/-- A connection that stays open and need not be replaced is handed out again as it is. -/
theorem reused {conn : Nat} (holds : g.manager.held = some conn)
    (fresh : (Policy.isDue (g.world.now net) g.manager.policy).1 = false)
    (isOpen : (net.isOpen conn g.world.outside).1 = true) :
    (g.acquire net).1 = .ok conn ∧ (g.acquire net).2.posts = g.posts := by
  have outcome := Manager.acquire_acquired net g.manager g.world
  rcases run : g.manager.acquire net g.world with ⟨answer, m', w'⟩
  simp only [run] at outcome
  simp only [acquire, run]
  have stays : ¬g.manager.Retires net g.world := by
    intro retires
    rcases retires conn holds with due | closed
    · rw [fresh] at due
      cases due
    · rw [World.isOpen, isOpen] at closed
      cases closed
  cases outcome with
  | kept slot =>
    obtain rfl := Option.some.inj ((Manager.held_eq_some slot).symm.trans holds)
    exact ⟨rfl, if_neg fun more => Nat.lt_irrefl _ more.1⟩
  | made _ _ retires | unwatched _ _ retires | refused _ _ retires => exact absurd retires stays

end Station

/-- A station whose observer may panic, and the connections whose monitors have ended by that. -/
structure Crew (σ π : Type) where
  station : Station σ π
  fallen : List Nat := []

namespace Crew

variable {σ κ π : Type} {net : Network σ} {board : Switchboard net κ}

/-- The observer panics when the monitor of one connection tells it of an error. -/
inductive Panics (board : Switchboard net κ) (conn : Nat) : Crew σ π → Crew σ π → Prop
  | tells {c : Crew σ π} {post line rejection monitor line'} : c.station.posts[conn]? = some post →
      (board.lines c.station.world.outside)[conn]? = some line →
      post.monitor.step board.watch true line = some (some rejection, monitor, line') →
      Panics board conn c
        ⟨⟨c.station.manager, { c.station.world with outside := board.put conn line' c.station.world.outside },
          c.station.posts.set conn { post with monitor, told := post.told ++ [rejection] }⟩, conn :: c.fallen⟩

theorem Panics.lines {conn : Nat} {c c' : Crew σ π} (panics : Panics board conn c c') :
    board.lines c'.station.world.outside = board.lines c.station.world.outside := by
  cases panics with
  | tells _ here next =>
    cases Monitor.state_of_told next
    obtain ⟨_, same⟩ := List.getElem?_eq_some_iff.mp here
    rw [board.lines_put, ← same, List.set_getElem_self]

/-- The same station with a new monitor in the place of each that a panic has ended. -/
def relieved (c : Crew σ π) : Station σ π :=
  { c.station with posts := c.station.posts.mapIdx fun conn post => if conn ∈ c.fallen then .start else post }

theorem relieved_post (c : Crew σ π) (conn : Nat) :
    c.relieved.posts[conn]? = c.station.posts[conn]?.map fun post => if conn ∈ c.fallen then .start else post :=
  List.getElem?_mapIdx

structure Kept (board : Switchboard net κ) (c : Crew σ π) : Prop where
  relieved : c.relieved.Kept board
  fallen : ∀ conn ∈ c.fallen, ∃ post, c.station.posts[conn]? = some post ∧ post.monitor = .gone

variable [Policy π]

/-- The next thing that happens, with or without a panic. -/
inductive Next (board : Switchboard net κ) : Crew σ π → Crew σ π → Prop
  | calm {c : Crew σ π} {station} : Station.Next board c.station station → Next board c { c with station }
  | panics {c c'} (conn) : Panics board conn c c' → Next board c c'

abbrev Leads (board : Switchboard net κ) : Crew σ π → Crew σ π → Prop := Relation.ReflTransGen (Next board)

namespace Kept

variable {c c' : Crew σ π}

omit [Policy π] in
theorem manned (kept : c.Kept board) : c.station.posts.length = c.station.world.connections := by
  have length := kept.relieved.manned
  rwa [Crew.relieved, List.length_mapIdx] at length

omit [Policy π] in
theorem start {m : Manager π} {outside : σ} (detects : m.detection = true) (idle : m.slot = none)
    (none : board.lines outside = []) : Kept board ⟨⟨m, { outside }, []⟩, []⟩ :=
  ⟨.start detects idle none, nofun⟩

theorem acquire (kept : c.Kept board) :
    Kept board { c with station := (c.station.acquire net).2 } ∧
      board.Keeps c.station.world.outside (c.station.acquire net).2.world.outside := by
  have same : Crew.relieved { c with station := (c.station.acquire net).2 } = (c.relieved.acquire net).2 := by
    refine congrArg (Station.mk _ _) ?_
    change List.mapIdx _ (Station.manned ..) = Station.manned _ _ (List.mapIdx ..)
    rcases Station.manned_cases c.station.manager (c.station.manager.acquire net c.station.world).2.1 with same | more
    · exact (congrArg _ (same _)).trans (same _).symm
    · refine (congrArg _ (more _)).trans (.trans ?_ (more _).symm)
      simp
  obtain ⟨relieved, keeps⟩ := kept.relieved.acquire
  refine ⟨⟨same ▸ relieved, fun conn member => ?_⟩, keeps⟩
  obtain ⟨post, at', gone⟩ := kept.fallen conn member
  exact ⟨post, Station.post_kept at', gone⟩

omit [Policy π] in
theorem works (kept : c.Kept board) {conn : Nat} {g : Station σ π} (works : Station.Works board conn c.station g) :
    Kept board { c with station := g } ∧ board.Keeps c.station.world.outside g.world.outside := by
  cases works with
  | @step post post' line line' at' here next =>
    have stands : conn ∉ c.fallen := by
      intro fell
      obtain ⟨_, same, gone⟩ := kept.fallen conn fell
      cases same.symm.trans at'
      rw [Post.step, gone] at next
      cases next
    have there : c.relieved.posts[conn]? = some post := by rw [relieved_post, at', Option.map_some, if_neg stands]
    obtain ⟨relieved, keeps⟩ := kept.relieved.works (.step there here next)
    refine ⟨⟨?_, fun other fell => ?_⟩, keeps⟩
    · simp only [Crew.relieved, List.mapIdx_set, if_neg stands] at relieved ⊢
      exact relieved
    · have elsewhere : conn ≠ other := fun same => stands (same ▸ fell)
      obtain ⟨post, at', gone⟩ := kept.fallen other fell
      exact ⟨post, (List.getElem?_set_ne elsewhere).trans at', gone⟩

omit [Policy π] in
theorem panics (kept : c.Kept board) {conn : Nat} (panics : Panics board conn c c') :
    c'.Kept board ∧ board.Keeps c.station.world.outside c'.station.world.outside := by
  have lines := panics.lines
  have keeps : board.Keeps c.station.world.outside c'.station.world.outside := .of_eq lines
  cases panics with
  | tells at' here next =>
    cases Monitor.gone_of_panic next
    have within := (List.getElem?_eq_some_iff.mp at').1
    have before := kept.relieved.elsewhere (congrArg List.length lines) keeps
    refine ⟨⟨⟨before.detects, before.sound, before.holds, ?_, fun other post₁ line₁ at₁ there => ?_⟩,
      fun other fell => ?_⟩, keeps⟩
    · simp [Crew.relieved, kept.manned]
    · rw [relieved_post] at at₁
      by_cases fell : other ∈ conn :: c.fallen
      · obtain ⟨_, _, new⟩ := Option.map_eq_some_iff.mp at₁
        rw [if_pos fell] at new
        exact new ▸ .start line₁
      · have elsewhere : conn ≠ other := fun same => fell (same ▸ List.mem_cons_self)
        have stands : other ∉ c.fallen := fun older => fell (List.mem_cons_of_mem conn older)
        have at' : c.relieved.posts[other]? = some post₁ := by
          rw [relieved_post, ← at₁, List.getElem?_set_ne elsewhere]
          simp only [if_neg fell, if_neg stands]
        exact before.posts other post₁ line₁ at' there
    · rcases List.mem_cons.mp fell with rfl | older
      · exact ⟨_, List.getElem?_set_self within, rfl⟩
      · obtain ⟨post, at₁, gone⟩ := kept.fallen other older
        rw [List.getElem?_set]
        split
        · exact ⟨_, rfl, rfl⟩
        · exact ⟨post, at₁, gone⟩

theorem next (kept : c.Kept board) (next : Next board c c') :
    c'.Kept board ∧ board.Keeps c.station.world.outside c'.station.world.outside := by
  cases next with
  | panics conn panics => exact kept.panics panics
  | calm next =>
    cases next with
    | acquire => exact kept.acquire
    | close =>
      obtain ⟨relieved, keeps⟩ := kept.relieved.close
      exact ⟨⟨relieved, kept.fallen⟩, keeps⟩
    | elsewhere length keeps => exact ⟨⟨kept.relieved.elsewhere length keeps, kept.fallen⟩, keeps⟩
    | works conn works => exact kept.works works

theorem leads (kept : c.Kept board) (leads : Leads board c c') :
    c'.Kept board ∧ board.Keeps c.station.world.outside c'.station.world.outside := by
  induction leads with
  | refl => exact ⟨kept, .of_eq rfl⟩
  | tail _ next ih =>
    obtain ⟨kept', keeps'⟩ := ih.1.next next
    exact ⟨kept', ih.2.trans keeps'⟩

omit [Policy π] in
/-- A monitor that has ended without a panic has shut its connection down. -/
theorem shut (kept : c.Kept board) {conn : Nat} {post : Post} (at' : c.station.posts[conn]? = some post)
    (gone : post.monitor = .gone) (stands : conn ∉ c.fallen) : board.ShutAt conn c.station.world.outside := by
  have there : c.relieved.posts[conn]? = some post := by rw [relieved_post, at', Option.map_some, if_neg stands]
  obtain ⟨line, here, sound⟩ := kept.relieved.line there
  exact ⟨line, here, sound.gone gone⟩

theorem outcome (kept : c.Kept board) :
    Manager.Manned net c.station.manager c.station.world (c.station.acquire net).1 (c.station.acquire net).2.manager
      (c.station.acquire net).2.world :=
  (Manager.acquire_manned kept.relieved.sound kept.relieved.detects kept.relieved.holds).2

/-- A connection that is handed out has a monitor at work, if no panic has ended it. -/
theorem acquired (kept : c.Kept board) {conn : Nat} (answer : (c.station.acquire net).1 = .ok conn) :
    ∃ post, (c.station.acquire net).2.posts[conn]? = some post ∧ (post.monitor = .gone ↔ conn ∈ c.fallen) := by
  have within : conn < (c.station.acquire net).2.posts.length := by
    rw [kept.acquire.1.manned]
    have outcome := kept.outcome
    rw [answer] at outcome
    cases outcome with
    | kept slot _ _ _ _ connections =>
      rw [connections]
      exact kept.relieved.holds _ (Manager.held_eq_some slot)
    | made _ _ _ connections =>
      rw [connections]
      exact Nat.lt_succ_self _
  refine ⟨_, List.getElem?_eq_getElem within, fun gone => ?_, fun fell => ?_⟩
  · by_contra stands
    have before : c.station.posts[conn]? = some (c.station.acquire net).2.posts[conn] := by
      rcases Station.post_acquire (List.getElem?_eq_getElem within) with old | ⟨_, new⟩
      · exact old
      · rw [new] at gone
        cases gone
    exact kept.relieved.not_acquired (kept.shut before gone stands) answer
  · obtain ⟨post, at', gone⟩ := kept.fallen conn fell
    have still : (c.station.acquire net).2.posts[conn]? = some post := Station.post_kept at'
    rw [List.getElem?_eq_getElem within] at still
    rwa [Option.some.inj still]

/-- Where a monitor has ended without a panic, its connection is replaced by a new one with a new monitor. -/
theorem replaced (kept : c.Kept board) {conn : Nat} (holds : c.station.manager.held = some conn)
    (shut : board.ShutAt conn c.station.world.outside) {other : Nat} (answer : (c.station.acquire net).1 = .ok other) :
    other = c.station.world.connections ∧ (c.station.acquire net).2.posts[other]? = some .start := by
  have outcome := kept.outcome
  rw [answer] at outcome
  cases outcome with
  | kept slot =>
    obtain rfl := Option.some.inj ((Manager.held_eq_some slot).symm.trans holds)
    exact absurd answer (kept.relieved.not_acquired shut)
  | made slot opened =>
    have more : Station.manned c.station.manager (c.station.acquire net).2.manager c.station.posts =
        c.station.posts ++ [.start] := by
      rw [Station.manned, if_pos ⟨by rw [opened]; exact Nat.lt_succ_self _, by rw [slot]; rfl⟩]
    refine ⟨rfl, ?_⟩
    rw [Station.posts_acquire, more, ← kept.manned, List.getElem?_concat_length]

end Kept

/-- A monitor that has ended leaves its connection open only if the observer has panicked. If it has not, the connection
is closed and not handed out again, and where the manager still holds it, the next one that is handed out is new and has
a new monitor. A panic ends the monitor but does nothing to the connection. As long as this stays open and need not be
replaced, it is handed out again, without a monitor. No other connection that is handed out is without one. -/
theorem open_only_after_panic {m : Manager π} {outside : σ} {c : Crew σ π} (detects : m.detection = true)
    (idle : m.slot = none) (none : board.lines outside = []) (leads : Leads board ⟨⟨m, { outside }, []⟩, []⟩ c) :
    (∀ (conn : Nat) post, c.station.posts[conn]? = some post → post.monitor = .gone → conn ∉ c.fallen →
      (∃ line, (board.lines c.station.world.outside)[conn]? = some line ∧ board.watch.isOpen line = false) ∧
      (∀ c', Leads board c c' → (c'.station.acquire net).1 ≠ .ok conn) ∧
      (c.station.manager.held = some conn → ∀ other, (c.station.acquire net).1 = .ok other →
        other = c.station.world.connections ∧ (c.station.acquire net).2.posts[other]? = some .start)) ∧
    (∀ conn c', Panics board conn c c' → conn ∈ c'.fallen ∧ c'.station.manager = c.station.manager ∧
      board.lines c'.station.world.outside = board.lines c.station.world.outside) ∧
    (∀ conn ∈ c.fallen, (∃ post, c.station.posts[conn]? = some post ∧ post.monitor = .gone) ∧
      ∀ line, (board.lines c.station.world.outside)[conn]? = some line → board.watch.isOpen line = true →
        c.station.manager.held = some conn →
        (Policy.isDue (c.station.world.now net) c.station.manager.policy).1 = false →
        (c.station.acquire net).1 = .ok conn ∧ (c.station.acquire net).2.posts = c.station.posts) ∧
    ∀ conn, (c.station.acquire net).1 = .ok conn →
      ∃ post, (c.station.acquire net).2.posts[conn]? = some post ∧ (post.monitor = .gone ↔ conn ∈ c.fallen) := by
  have kept := ((Kept.start detects idle none).leads leads).1
  refine ⟨fun conn post at' gone stands => ?_, fun conn c' panics => ?_, fun conn fell => ⟨kept.fallen conn fell, ?_⟩,
    fun conn => kept.acquired⟩
  · have shut := kept.shut at' gone stands
    obtain ⟨line, here, closed⟩ := shut
    refine ⟨⟨line, here, board.isOpen_of_shut closed⟩, fun c' later => ?_, fun holds other answer => ?_⟩
    · obtain ⟨kept', keeps⟩ := kept.leads later
      exact kept'.relieved.not_acquired (Switchboard.ShutAt.kept ⟨line, here, closed⟩ keeps)
    · exact kept.replaced holds ⟨line, here, closed⟩ answer
  · refine ⟨?_, ?_, panics.lines⟩ <;> cases panics
    · exact List.mem_cons_self
    · rfl
  · intro line here isOpen holds fresh
    exact Station.reused holds fresh ((board.isOpen_eq here).trans isOpen)

/-- The observer panics at the first error, and the connection is handed out again with nobody to read it. -/
theorem open_after_panic_in_memory :
    let start : Crew Memory Reconnect :=
      { station :=
        { manager := { endpoint := default, policy := .never, listener := .application }, world := { outside := {} } } }
    ∃ c, Leads Memory.switchboard start c ∧ c.fallen = [0] ∧
      c.station.posts = [⟨.gone, [(false, .ok [8, 8, 0, 0, 0, 42])], [⟨.invalidToken, some 42⟩]⟩] ∧
      (c.station.acquire Memory.network).1 = .ok 0 ∧ (c.station.acquire Memory.network).2.posts = c.station.posts := by
  intro start
  have sends (m : Memory) : Memory.switchboard.Keeps m (m.onPipe 0 (Pipe.push [8, 8, 0, 0, 0, 42])) :=
    Memory.keeps_onPipe (by exact fun _ closed => closed) 0 m
  have opened : Leads Memory.switchboard start _ := .tail .refl (.calm (.acquire start.station))
  have sent := opened.tail (.calm (.elsewhere (by rfl) (sends _)))
  have read := sent.tail (.calm (.works 0 (.step rfl rfl rfl)))
  have ended := read.tail (.panics 0 (.tells rfl rfl rfl))
  obtain ⟨_, again⟩ := (open_only_after_panic rfl rfl rfl ended).2.2.1 0 List.mem_cons_self
  exact ⟨_, ended, rfl, rfl, again _ rfl rfl rfl rfl⟩

end Crew
end PushGateway
