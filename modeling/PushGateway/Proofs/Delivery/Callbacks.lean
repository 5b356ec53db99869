import Mathlib.Logic.Relation
import PushGateway.Memory.Network
import PushGateway.Proofs.Delivery.Streams

namespace PushGateway

open Journal

namespace Journal

/-- Follows the locks through a journal, from the one that is held at the beginning to the one that is held at the end.
There is no way if a lock is asked for while one is held, if one is given back that is not held, if somebody is told
something while a lock is held, or if connections are dealt with while none is. -/
def follow (held : Option Lock) : List Entry → Option (Option Lock)
  | [] => some held
  | .locked lock :: later => if held = none then follow (some lock) later else none
  | .unlocked lock :: later => if held = some lock then follow none later else none
  | .told _ :: later => if held = none then follow none later else none
  | _ :: later => if held.isSome then follow held later else none

theorem follow_append (held : Option Lock) (a b : List Entry) :
    follow held (a ++ b) = (follow held a).bind (follow · b) := by
  induction a generalizing held with
  | nil => rfl
  | cons entry a ih =>
    rw [List.cons_append]
    cases entry <;> simp only [follow, ih] <;> split <;> rfl

theorem follow_trans {a b : List Entry} (first : follow none a = some none) (second : follow none b = some none) :
    follow none (a ++ b) = some none := by
  rw [follow_append, first, Option.bind_some, second]

/-- Whoever asks for a lock holds none. -/
theorem follow_before {run before later : List Entry} {lock : Lock} (follows : follow none run = some none)
    (asks : run = before ++ .locked lock :: later) : follow none before = some none := by
  rw [asks, follow_append] at follows
  obtain ⟨held, first, rest⟩ := Option.bind_eq_some_iff.mp follows
  rw [follow] at rest
  by_cases free : held = none
  · rw [first, free]
  · rw [if_neg free] at rest
    cases rest

/-- What a manager does may be done under a lock. -/
theorem follow_moves {endpoint : Endpoint} {held held' : Option Nat} {next next' : Nat} {entries : List Entry}
    (moves : Moves endpoint held next entries held' next') (lock : Lock) :
    follow (some lock) entries = some (some lock) := by
  induction moves with
  | nothing => rfl
  | more _ move ih =>
    rw [follow_append, ih, Option.bind_some]
    cases move <;> rfl

theorem follow_locked {endpoint : Endpoint} {held held' : Option Nat} {next next' : Nat} {entries : List Entry}
    (moves : Moves endpoint held next entries held' next') (lock : Lock) :
    follow none (locked lock entries) = some none := by
  rw [locked, List.cons_append, follow, if_pos rfl, follow_append, follow_moves moves, Option.bind_some, follow,
    if_pos rfl]
  rfl

theorem follow_map_told (events : List Event) : follow none (events.map .told) = some none := by
  induction events with
  | nil => rfl
  | cons event events ih => exact ih

theorem made_map_told (events : List Event) : made (events.map .told) = [] := by
  induction events with
  | nil => rfl
  | cons event events ih => simpa using ih

end Journal

/-- A call that only asks how things are. -/
def Call.isQuery : Call → Bool
  | .state | .opened => true
  | _ => false

mutual

/-- Whether a call was answered, and all that was to be asked from inside of it. -/
def Call.Answered (heard : Notification → Bool) : Call → Answer → Prop
  | .send n inside, .sent _ answers => if heard n then Call.AnsweredAll heard inside answers else answers = []
  | .testConnection, .tested _ => True
  | .close, .closed => True
  | .state, .state _ => True
  | .opened, .opened _ => True
  | _, _ => False

def Call.AnsweredAll (heard : Notification → Bool) : List Call → List Answer → Prop
  | [], [] => True
  | call :: calls, answer :: answers => call.Answered heard answer ∧ Call.AnsweredAll heard calls answers
  | _, _ => False

end

mutual

/-- The calls that one call comes to, none of them made from inside of another. What is asked from inside of a send
comes behind it, if anyone hears of the outcome. -/
def Call.inTurn (heard : Notification → Bool) : Call → List Call
  | .send n inside => .send n [] :: if heard n then Call.allInTurn heard inside else []
  | .testConnection => [.testConnection]
  | .close => [.close]
  | .state => [.state]
  | .opened => [.opened]

def Call.allInTurn (heard : Notification → Bool) : List Call → List Call
  | [] => []
  | call :: calls => call.inTurn heard ++ Call.allInTurn heard calls

end

namespace Client

variable {σ π : Type} [Policy π] (net : Network σ)
variable {c c' c'' : Client π} {w w' w'' : World σ} {entries later : List Entry}

/-- What was done between two moments at which no lock was held. -/
structure Released (c : Client π) (w : World σ) (c' : Client π) (w' : World σ) (run : List Entry) : Prop where
  journal : w'.journal = w.journal ++ run
  follow : follow none run = some none
  listener : c'.manager.listener = c.manager.listener

omit [Policy π] in
theorem Released.trans (first : Released c w c' w' entries) (second : Released c' w' c'' w'' later) :
    Released c w c'' w'' (entries ++ later) where
  journal := by rw [second.journal, first.journal, List.append_assoc]
  follow := follow_trans first.follow second.follow
  listener := second.listener.trans first.listener

omit [Policy π] in
theorem Released.heard (released : Released c w c' w' entries) : c'.isHeard = c.isHeard := by
  funext n
  simp only [isHeard, released.listener]

theorem send_released (n : Notification) (c : Client π) (w : World σ) :
    ∃ entries, Released c w (c.send net .client n w).2.1 (c.send net .client n w).2.2 entries := by
  cases encoded : n.encode with
  | error problem => exact ⟨[], by simp [send, encoded], rfl, by simp [send, encoded]⟩
  | ok bytes =>
    obtain ⟨tries, event, outcome⟩ := send_outcome net .client c w encoded
    rcases run : c.send net .client n w with ⟨result, c', w'⟩
    rw [run] at outcome
    obtain ⟨entries, w₁, leads, rfl, _⟩ := outcome.leads net encoded
    refine ⟨locked .client entries ++ (c.manager.listener.hears event).map .told, ?_, ?_, leads.listener⟩
    · simp [leads.journal, locked]
    · exact follow_trans (follow_locked leads.moves .client) (follow_map_told _)

omit [Policy π] in
/-- The client was only looked at. -/
theorem Released.of_quiet (journal : w'.journal = w.journal ++ locked .client []) :
    ∃ entries, Released c w c w' entries :=
  ⟨_, journal, rfl, rfl⟩

mutual

/-- A call with all that is asked from inside of it takes and gives back its locks one after the other. -/
theorem perform_released (c : Client π) (w : World σ) : (call : Call) →
    ∃ entries, Released c w (c.perform net w call).2.1 (c.perform net w call).2.2 entries
  | .send n inside => by
    obtain ⟨entries, first⟩ := send_released net n c w
    rw [perform]
    simp only
    split
    · obtain ⟨more, second⟩ := performAll_released _ _ inside
      exact ⟨_, first.trans second⟩
    · exact ⟨entries, first⟩
  | .testConnection => by
    rcases tested : c.testConnection net w with ⟨result, w'⟩
    obtain ⟨_, _, _, entries, later, _, moves, moves', left⟩ := testConnection_leaves net tested
    rw [perform]
    simp only [tested]
    exact ⟨_, left, follow_trans rfl (follow_trans (follow_locked moves .check) (follow_locked moves' .check)), rfl⟩
  | .close => by
    obtain ⟨journal, moves, _⟩ := close_leaves net .client c w
    rw [perform]
    exact ⟨_, journal, follow_locked moves .client, rfl⟩
  | .state => by
    have journal := (Manager.state_quiet net c.manager (w.note (.locked .client))).1
    rw [perform]
    exact Released.of_quiet (by simp [state, journal, locked])
  | .opened => by
    rw [perform]
    exact Released.of_quiet (by simp [opened, locked])

theorem performAll_released (c : Client π) (w : World σ) : (calls : List Call) →
    ∃ entries, Released c w (c.performAll net w calls).2.1 (c.performAll net w calls).2.2 entries
  | [] => ⟨[], by simp [performAll], rfl, rfl⟩
  | call :: calls => by
    obtain ⟨entries, first⟩ := perform_released c w call
    obtain ⟨more, second⟩ := performAll_released (c.perform net w call).2.1 (c.perform net w call).2.2 calls
    exact ⟨_, first.trans second⟩

end

theorem performAll_cons (c : Client π) (w : World σ) (call : Call) (calls : List Call) :
    c.performAll net w (call :: calls) =
      ((c.perform net w call).1 :: ((c.perform net w call).2.1.performAll net (c.perform net w call).2.2 calls).1,
        ((c.perform net w call).2.1.performAll net (c.perform net w call).2.2 calls).2) := by
  rw [performAll]

theorem performAll_append (c : Client π) (w : World σ) (calls more : List Call) :
    (c.performAll net w (calls ++ more)).2 =
      ((c.performAll net w calls).2.1.performAll net (c.performAll net w calls).2.2 more).2 := by
  induction calls generalizing c w with
  | nil => rfl
  | cons call calls ih => rw [List.cons_append, performAll_cons, performAll_cons, ih]

theorem perform_send_after (n : Notification) (inside : List Call) (c : Client π) (w : World σ) :
    (c.perform net w (.send n inside)).2 =
      if c.isHeard n then
        ((c.send net .client n w).2.1.performAll net (c.send net .client n w).2.2 inside).2
      else (c.send net .client n w).2 := by
  rw [perform]
  simp only
  split <;> rfl

/-- The outcome of a send is heard just if the listener is told of it. -/
theorem isHeard_of_send (n : Notification) (c : Client π) (w : World σ) :
    c.isHeard n = !(told ((c.send net .client n w).2.2.journal.drop w.journal.length)).isEmpty := by
  cases encoded : n.encode with
  | error problem => simp [send, isHeard, encoded]
  | ok bytes =>
    rcases run : c.send net .client n w with ⟨result, c', w'⟩
    obtain ⟨entries, event, journal, moves, _⟩ := send_leaves net encoded run
    rw [journal, List.drop_left, told_append, told_map_told, isHeard, encoded]
    have nobody : told (locked .client entries) = [] := by simp [locked, moves.told_eq_nil]
    rw [nobody]
    cases c.manager.listener <;> rfl

/-- A send from inside of which nothing is asked. -/
theorem perform_send_plain (n : Notification) (c : Client π) (w : World σ) :
    (c.perform net w (.send n [])).2 = (c.send net .client n w).2 := by
  rw [perform_send_after]
  split <;> rfl

mutual

theorem perform_answered (c : Client π) (w : World σ) : (call : Call) →
    call.Answered c.isHeard (c.perform net w call).1
  | .send n inside => by
    obtain ⟨_, released⟩ := send_released net n c w
    rw [perform]
    simp only [Call.Answered]
    split
    · rw [← released.heard]
      exact performAll_answered _ _ inside
    · rfl
  | .testConnection | .close | .state | .opened => by
    rw [perform]
    trivial

theorem performAll_answered (c : Client π) (w : World σ) : (calls : List Call) →
    Call.AnsweredAll c.isHeard calls (c.performAll net w calls).1
  | [] => trivial
  | call :: calls => by
    obtain ⟨_, released⟩ := perform_released net c w call
    rw [performAll_cons]
    refine ⟨perform_answered c w call, ?_⟩
    rw [← released.heard]
    exact performAll_answered _ _ calls

end

mutual

/-- What is asked from inside of a send might as well be asked when the send has come back. -/
theorem perform_inTurn (c : Client π) (w : World σ) : (call : Call) →
    (c.performAll net w (call.inTurn c.isHeard)).2 = (c.perform net w call).2
  | .send n inside => by
    obtain ⟨_, released⟩ := send_released net n c w
    rw [Call.inTurn, performAll_cons, perform_send_plain, perform_send_after]
    simp only
    split
    · rw [← released.heard]
      exact performAll_inTurn _ _ inside
    · rfl
  | .testConnection | .close | .state | .opened => by
    rw [Call.inTurn, performAll_cons]
    rfl

theorem performAll_inTurn (c : Client π) (w : World σ) : (calls : List Call) →
    (c.performAll net w (Call.allInTurn c.isHeard calls)).2 = (c.performAll net w calls).2
  | [] => rfl
  | call :: calls => by
    obtain ⟨_, released⟩ := perform_released net c w call
    rw [Call.allInTurn, performAll_append, perform_inTurn c w call, performAll_cons, ← released.heard]
    exact performAll_inTurn _ _ calls

end

theorem Outcome.opened {lock : Lock} {n : Notification} {bytes : Bytes} {tries : List (Except NetworkError Unit)}
    {event : Event} {result : Except NetworkError Unit} (encoded : n.encode = .ok bytes)
    (outcome : Outcome net lock n bytes c w tries event (result, c', w')) :
    ∃ entries, w'.journal = w.journal ++ entries ∧
      c'.manager.opened = c.manager.opened + (made entries).length := by
  obtain ⟨entries, w₁, leads, rfl, _⟩ := outcome.leads net encoded
  refine ⟨locked lock entries ++ (c.manager.listener.hears event).map .told, by simp [leads.journal, locked], ?_⟩
  rw [made_append, made_map_told, List.append_nil, leads.opened]
  simp [locked]

/-- What becomes of a network of which no more is asked than whether connections are open. -/
abbrev Asked (net : Network σ) : σ → σ → Prop := Relation.ReflTransGen fun s s' => ∃ conn, s' = (net.isOpen conn s).2

omit [Policy π] in
theorem state_asked (m : Manager π) (w : World σ) : Asked net w.outside (m.state net w).2.outside := by
  unfold Manager.state
  split
  · split <;> rename_i asked <;> exact .single ⟨_, congrArg (·.2.outside) asked.symm⟩
  · exact .refl
  · exact .refl

/-- What can be seen of a client by asking, while the network changes only by being asked. -/
inductive Sees (net : Network σ) (c : Client π) (s : σ) : Answer → Prop
  | state {w : World σ} : Asked net s w.outside → Sees net c s (.state (c.manager.state net w).1)
  | opened : Sees net c s (.opened c.manager.opened)

theorem performAll_queries {calls : List Call} (only : ∀ call ∈ calls, call.isQuery) (c : Client π) (w : World σ) :
    (c.performAll net w calls).2.1 = c ∧ ∀ answer ∈ (c.performAll net w calls).1, Sees net c w.outside answer := by
  induction calls generalizing w with
  | nil => exact ⟨rfl, nofun⟩
  | cons call calls ih =>
    obtain ⟨query, others⟩ := List.forall_mem_cons.mp only
    rw [performAll_cons]
    have asks : ∃ answer w₁, c.perform net w call = (answer, c, w₁) ∧ Sees net c w.outside answer ∧
        Asked net w.outside w₁.outside := by
      cases call with
      | send | testConnection | close => cases query
      | state =>
        have begins : Asked net w.outside (w.note (.locked .client)).outside := .refl
        have asked := state_asked net c.manager (w.note (.locked .client))
        exact ⟨.state (c.state net .client w).1, (c.state net .client w).2, by rw [perform], .state begins, asked⟩
      | opened => exact ⟨.opened c.manager.opened, (c.opened .client w).2, by rw [perform]; rfl, .opened, .refl⟩
    obtain ⟨answer, w₁, asked, sees, later⟩ := asks
    obtain ⟨same, rest⟩ := ih others w₁
    rw [asked]
    refine ⟨same, fun other member => ?_⟩
    rcases List.mem_cons.mp member with rfl | behind
    · exact sees
    · cases rest other behind with
      | state further => exact .state (later.trans further)
      | opened => exact .opened

end Client

/-- What somebody does with a client, where everything may depend on what was seen before. While the listener hears of the
outcome of a send, it talks to the same client and hands on what it remembers. If nobody hears, `unheard` is handed on. -/
inductive Talk (μ : Type)
  | done (memory : μ)
  | send (n : Notification) (unheard : μ) (hears : Event → Talk μ) (next : Except NetworkError Unit → μ → Talk μ)
  | testConnection (next : Except NetworkError Unit → Talk μ)
  | close (next : Talk μ)
  | state (next : ConnectionState → Talk μ)
  | opened (next : Nat → Talk μ)

namespace Talk

variable {σ π μ : Type} [Policy π] (net : Network σ)

def run : Talk μ → Client π → World σ → μ × Client π × World σ
  | done memory, c, w => (memory, c, w)
  | send n unheard hears next, c, w =>
    let (result, after, w₁) := c.send net .client n w
    match told (w₁.journal.drop w.journal.length) with
    | [] => (next result unheard).run after w₁
    | event :: _ =>
      let (memory, after, w₂) := (hears event).run after w₁
      (next result memory).run after w₂
  | testConnection next, c, w =>
    let (result, w) := c.testConnection net w
    (next result).run c w
  | close next, c, w =>
    let (c, w) := c.close net .client w
    next.run c w
  | state next, c, w =>
    let (answer, w) := c.state net .client w
    (next answer).run c w
  | opened next, c, w =>
    let (count, w) := c.opened .client w
    (next count).run c w

/-- Whatever its decisions depend on, one course of a talk is a list of calls. -/
theorem run_eq_performAll (talk : Talk μ) (c : Client π) (w : World σ) :
    ∃ calls, (talk.run net c w).2 = (c.performAll net w calls).2 := by
  induction talk generalizing c w with
  | done memory => exact ⟨[], rfl⟩
  | send n unheard hears next ihHears ihNext =>
    have heard := Client.isHeard_of_send net n c w
    rcases sent : c.send net .client n w with ⟨result, c₁, w₁⟩
    rw [sent] at heard
    rw [run]
    simp only [sent]
    cases hearing : told (w₁.journal.drop w.journal.length) with
    | nil =>
      obtain ⟨later, same⟩ := ihNext result unheard c₁ w₁
      refine ⟨.send n [] :: later, ?_⟩
      rw [Client.performAll_cons, Client.perform_send_plain, sent]
      exact same
    | cons event _ =>
      -- what is asked while the listener hears goes inside
      obtain ⟨inside, within⟩ := ihHears event c₁ w₁
      rcases ran : (hears event).run net c₁ w₁ with ⟨memory, c₂, w₂⟩
      obtain ⟨later, same⟩ := ihNext result memory c₂ w₂
      refine ⟨.send n inside :: later, ?_⟩
      have yes : c.isHeard n = true := by simp [heard, hearing]
      rw [Client.performAll_cons, Client.perform_send_after, if_pos yes, sent]
      simp only [← within, ran]
      exact same
  | testConnection next ih =>
    obtain ⟨later, same⟩ := ih _ c (c.testConnection net w).2
    exact ⟨.testConnection :: later, same⟩
  | close next ih =>
    obtain ⟨later, same⟩ := ih (c.close net .client w).1 (c.close net .client w).2
    exact ⟨.close :: later, same⟩
  | state next ih =>
    obtain ⟨later, same⟩ := ih _ c (c.state net .client w).2
    exact ⟨.state :: later, same⟩
  | opened next ih =>
    obtain ⟨later, same⟩ := ih _ c (c.opened .client w).2
    exact ⟨.opened :: later, same⟩

end Talk

/-- Observers may call back. Whatever is asked of a client, also from inside of its sends and of those made there, no
lock is asked for while one is held, and nobody is told anything while one is held. Every call comes back with an
answer. The client and all around it are in the end as if what was asked from inside had been asked behind. This covers
observers whose decisions depend on what they have seen. One that only asks how things are sees what the attempts have
left, which is no connection if they failed. -/
theorem Client.observers_call_back {σ π : Type} [Policy π] (net : Network σ) (c : Client π) (w : World σ) :
    (∀ calls, ∃ run, (c.performAll net w calls).2.2.journal = w.journal ++ run ∧ follow none run = some none ∧
      (∀ before lock later, run = before ++ .locked lock :: later → follow none before = some none) ∧
      Call.AnsweredAll c.isHeard calls (c.performAll net w calls).1 ∧
      (c.performAll net w calls).2 = (c.performAll net w (Call.allInTurn c.isHeard calls)).2) ∧
    (∀ (μ : Type) (talk : Talk μ), ∃ calls, (talk.run net c w).2 = (c.performAll net w calls).2) ∧
    ∀ n bytes inside, n.encode = .ok bytes → c.manager.listener = .application →
      (∀ call ∈ inside, call.isQuery) → ∃ result after w₁ answers w₂ entries,
        c.send net .client n w = (result, after, w₁) ∧
        c.perform net w (.send n inside) = (.sent result answers, after, w₂) ∧
        w₁.journal = w.journal ++ entries ∧ after.manager.opened = c.manager.opened + (made entries).length ∧
        (∀ answer ∈ answers, Sees net after w₁.outside answer) ∧
        ∀ error, result = .error error → ∀ state, .state state ∈ answers → state = .disconnected := by
  refine ⟨fun calls => ?_, fun _ talk => talk.run_eq_performAll net c w, fun n bytes inside encoded listener only => ?_⟩
  · obtain ⟨run, released⟩ := performAll_released net c w calls
    exact ⟨run, released.journal, released.follow, fun _ _ _ => follow_before released.follow,
      performAll_answered net c w calls, (performAll_inTurn net c w calls).symm⟩
  · have heard : c.isHeard n = true := by simp [isHeard, encoded, listener]
    obtain ⟨tries, event, outcome⟩ := send_outcome net .client c w encoded
    rcases sent : c.send net .client n w with ⟨result, after, w₁⟩
    rw [sent] at outcome
    obtain ⟨entries, journal, opened⟩ := outcome.opened net encoded
    rcases asked : after.performAll net w₁ inside with ⟨answers, after', w₂⟩
    obtain ⟨same, sees⟩ := performAll_queries net only after w₁
    rw [asked] at same sees
    refine ⟨result, after, w₁, answers, w₂, entries, rfl, ?_, journal, opened, sees, ?_⟩
    · rw [perform]
      simp only [sent, heard, if_true, asked]
      rw [← same]
    · rintro error rfl state member
      generalize seen : Answer.state state = answer at member
      cases sees answer member with
      | state =>
        obtain ⟨empty, phase⟩ := outcome.closed net
        cases seen
        simp [Manager.state, empty, phase]
      | opened => cases seen

/-- After three attempts that fail, an observer asks how things are. -/
example : ∃ error after w',
    ({ manager := { endpoint := default, policy := Reconnect.never, listener := .application } } : Client _).perform
      Memory.network { outside := Memory.failWrites 3 {} } (.send (.legacy [1] [2]) [.state, .opened]) =
        (.sent (.error error) [.state .disconnected, .opened 3], after, w') :=
  ⟨_, _, _, rfl⟩

end PushGateway
