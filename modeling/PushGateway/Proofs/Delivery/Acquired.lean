import PushGateway.Proofs.Delivery.Holding
import PushGateway.Proofs.Delivery.Tries

namespace PushGateway.Manager

open Journal

variable {σ π : Type} [Policy π] (net : Network σ)

omit [Policy π] in
theorem held_eq_some {m : Manager π} {held : Held} (slot : m.slot = some held) : m.held = some held.conn := by
  rw [Manager.held, slot]
  rfl

/-- Whether the connection that is held, if there is one, is not used again. -/
def Retires (m : Manager π) (w : World σ) : Prop :=
  ∀ conn, m.held = some conn → (Policy.isDue (w.now net) m.policy).1 = true ∨ (w.isOpen net conn).1 = false

/-- The part of an acquire that comes before a connect. -/
def review (m : Manager π) (w : World σ) : Manager π × World σ :=
  let asked := Policy.isDue (w.now net) m.policy
  let m := { m with policy := asked.2 }
  match m.slot with
  | none => (m, w)
  | some held =>
    if asked.1 then m.close net w
    else if (w.isOpen net held.conn).1 then (m, (w.isOpen net held.conn).2)
    else m.close net (w.isOpen net held.conn).2

/-- The moment at which the connect of an acquire comes back. -/
def completion (m : Manager π) (w : World σ) : Nat :=
  let (m, w) := m.review net w
  (w.connect net m.endpoint).2.now net

/-- The connections that an acquire shuts down. -/
def discarded (m : Manager π) (w : World σ) : List Nat :=
  shut ((m.acquire net w).2.2.journal.drop w.journal.length)

theorem acquire_eq (m : Manager π) (w : World σ) :
    m.acquire net w =
      match (m.review net w).1.slot with
      | none => (m.review net w).1.connect net (m.review net w).2
      | some held => (.ok held.conn, m.review net w) := by
  obtain ⟨endpoint, policy, listener, detection, slot, phase, opened⟩ := m
  rcases asked : Policy.isDue (w.now net) policy with ⟨due, policy'⟩
  cases slot with
  | none => simp [acquire, review, asked]
  | some held =>
    cases due with
    | true => simp [acquire, review, asked, close]
    | false =>
      rcases answer : w.isOpen net held.conn with ⟨_ | _, w₁⟩ <;> simp [acquire, review, asked, answer, close]

omit [Policy π] in
theorem close_outcome (m : Manager π) (w : World σ) :
    ∃ outside, m.close net w = ({ m with slot := none, phase := .disconnected },
      { w with outside, journal := w.journal ++ m.held.toList.map .shutDown }) := by
  obtain ⟨endpoint, policy, listener, detection, slot, phase, opened⟩ := m
  cases slot with
  | none => exact ⟨w.outside, by simp [close, held]⟩
  | some held => exact ⟨net.shutDown held.conn w.outside, rfl⟩

/-- The connection that is held stays only if it is neither due to be replaced nor closed. -/
theorem review_cases (m : Manager π) (w : World σ) :
    (∃ held, m.slot = some held ∧ (Policy.isDue (w.now net) m.policy).1 = false ∧
      (w.isOpen net held.conn).1 = true ∧
      m.review net w =
        ({ m with policy := (Policy.isDue (w.now net) m.policy).2 }, (w.isOpen net held.conn).2)) ∨
    (m.Retires net w ∧ ∃ phase outside, m.review net w =
      ({ m with policy := (Policy.isDue (w.now net) m.policy).2, slot := none, phase },
        { w with outside, journal := w.journal ++ m.held.toList.map .shutDown })) := by
  rw [review]
  cases slot : m.slot with
  | none => exact .inr ⟨by simp [Retires, held, slot], m.phase, w.outside, by simp [slot, held]⟩
  | some held =>
    cases due : (Policy.isDue (w.now net) m.policy).1 with
    | true =>
      obtain ⟨outside, closed⟩ := close_outcome net { m with policy := (Policy.isDue (w.now net) m.policy).2 } w
      exact .inr ⟨fun _ _ => .inl due, .disconnected, outside, by simpa [Manager.held, slot] using closed⟩
    | false =>
      cases answer : (w.isOpen net held.conn).1 with
      | true => exact .inl ⟨held, rfl, rfl, answer, by simp [answer]⟩
      | false =>
        obtain ⟨outside, closed⟩ := close_outcome net { m with policy := (Policy.isDue (w.now net) m.policy).2 }
          (w.isOpen net held.conn).2
        have identifier : (w.isOpen net held.conn).2.identifier = w.identifier := rfl
        refine .inr ⟨?_, .disconnected, outside, by simpa [Manager.held, slot, answer, identifier] using closed⟩
        intro conn holds
        obtain rfl := Option.some.inj ((held_eq_some slot).symm.trans holds)
        exact .inr answer

omit [Policy π] in
theorem startMonitor_outside {m : Manager π} {conn : Nat} {w w' : World σ} {answer : Except IoError Bool}
    (run : m.startMonitor net conn w = (answer, w')) : ∃ outside, w' = { w with outside } := by
  have same : w' = (m.startMonitor net conn w).2 := by rw [run]
  rw [same]
  unfold startMonitor World.watch
  split
  · rcases net.watch conn m.listener w.outside with ⟨_ | _, outside⟩ <;> exact ⟨outside, rfl⟩
  · exact ⟨w.outside, rfl⟩

theorem connect_outcome (m : Manager π) (w : World σ) :
    (∃ monitored outside, m.connect net w =
      (.ok w.connections,
        { m with
          policy := Policy.connected ((w.connect net m.endpoint).2.now net) m.policy
          slot := some ⟨w.connections, monitored⟩, phase := .established, opened := m.opened + 1 },
        { w with
          outside, connections := w.connections + 1
          journal := w.journal ++ [.connected m.endpoint w.connections] })) ∨
    (∃ (error : IoError) (outside : σ), m.connect net w =
      (.error (.connectionFailed s!"cannot start error monitor: {error.text}"),
        { m with
          policy := Policy.connected ((w.connect net m.endpoint).2.now net) m.policy
          phase := .disconnected, opened := m.opened + 1 },
        { w with
          outside, connections := w.connections + 1
          journal := w.journal ++ [.connected m.endpoint w.connections, .shutDown w.connections] })) ∨
    ∃ error outside, m.connect net w =
      (.error error, { m with phase := .disconnected },
        { w with outside, journal := w.journal ++ [.refused m.endpoint error] }) := by
  unfold connect
  rcases w.connect_cases net m.endpoint with ⟨outside, run⟩ | ⟨error, outside, run⟩
  · simp only [run]
    split
    · rename_i error _ started
      obtain ⟨later, rfl⟩ := startMonitor_outside net started
      refine .inr (.inl ⟨error, net.shutDown w.connections later, ?_⟩)
      simp [World.shutDown, World.note]
    · rename_i started
      obtain ⟨later, rfl⟩ := startMonitor_outside net started
      exact .inl ⟨_, later, rfl⟩
  · exact .inr (.inr ⟨error, outside, by simp only [run]; rfl⟩)

/-- What an acquire comes to. -/
inductive Acquired (m : Manager π) (w : World σ) : Except NetworkError Nat → Manager π → World σ → Prop
  | kept {held : Held} : m.slot = some held → (Policy.isDue (w.now net) m.policy).1 = false →
      (w.isOpen net held.conn).1 = true →
      Acquired m w (.ok held.conn) { m with policy := (Policy.isDue (w.now net) m.policy).2 }
        (w.isOpen net held.conn).2
  | made (monitored : Bool) (outside : σ) : m.Retires net w →
      Acquired m w (.ok w.connections)
        { m with
          policy := Policy.connected (m.completion net w) (Policy.isDue (w.now net) m.policy).2
          slot := some ⟨w.connections, monitored⟩, phase := .established, opened := m.opened + 1 }
        { w with
          outside, connections := w.connections + 1
          journal := w.journal ++ (m.held.toList.map .shutDown ++ [.connected m.endpoint w.connections]) }
  /-- No monitor could be started for the connection that was made. -/
  | unwatched (error : IoError) (outside : σ) : m.Retires net w →
      Acquired m w (.error (.connectionFailed s!"cannot start error monitor: {error.text}"))
        { m with
          policy := Policy.connected (m.completion net w) (Policy.isDue (w.now net) m.policy).2
          slot := none, phase := .disconnected, opened := m.opened + 1 }
        { w with
          outside, connections := w.connections + 1
          journal := w.journal ++
            (m.held.toList.map .shutDown ++ [.connected m.endpoint w.connections, .shutDown w.connections]) }
  | refused (error : NetworkError) (outside : σ) : m.Retires net w →
      Acquired m w (.error error)
        { m with policy := (Policy.isDue (w.now net) m.policy).2, slot := none, phase := .disconnected }
        { w with
          outside, journal := w.journal ++ (m.held.toList.map .shutDown ++ [.refused m.endpoint error]) }

theorem acquire_acquired (m : Manager π) (w : World σ) :
    Acquired net m w (m.acquire net w).1 (m.acquire net w).2.1 (m.acquire net w).2.2 := by
  rw [acquire_eq]
  rcases review_cases net m w with ⟨held, slot, fresh, isOpen, same⟩ | ⟨retires, phase, outside, gone⟩
  · simp only [same, slot]
    have kept := Acquired.kept slot fresh isOpen
    rwa [slot] at kept
  · have moment : m.completion net w =
        ((m.review net w).2.connect net (m.review net w).1.endpoint).2.now net := rfl
    have outcome := connect_outcome net (m.review net w).1 (m.review net w).2
    rw [← moment] at outcome
    simp only [gone] at outcome ⊢
    rcases outcome with ⟨monitored, later, run⟩ | ⟨error, later, run⟩ | ⟨error, later, run⟩
    · simpa only [run, List.append_assoc] using Acquired.made monitored later retires
    · simpa only [run, List.append_assoc] using Acquired.unwatched error later retires
    · simpa only [run, List.append_assoc] using Acquired.refused error later retires

section leaves
variable {m m' : Manager π} {w w' : World σ}

/-- What an acquire leaves behind. The manager holds the connection that is handed out, or none. -/
theorem acquire_leaves {answer : Except NetworkError Nat} (run : m.acquire net w = (answer, m', w')) :
    m'.held = answer.toOption ∧ ∃ entries, Leads m w entries m' w' ∧
      Acquires m.endpoint m.held w.connections entries answer w'.connections := by
  have acquired := acquire_acquired net m w
  rw [run] at acquired
  cases acquired with
  | @kept held slot =>
    have holds := held_eq_some slot
    exact ⟨holds, [], ⟨(List.append_nil _).symm, .nothing, rfl, rfl, rfl, id⟩, holds ▸ .kept held.conn w.connections⟩
  | made =>
    have acquires : Acquires m.endpoint m.held w.connections _ (.ok w.connections) _ := .made ..
    exact ⟨rfl, _, ⟨rfl, acquires.moves, by simp, rfl, rfl, fun _ => rfl⟩, acquires⟩
  | unwatched error =>
    have acquires : Acquires m.endpoint m.held w.connections _ (.error _) _ := .unwatched _ _ error
    exact ⟨rfl, _, ⟨rfl, acquires.moves, by simp, rfl, rfl, fun _ => rfl⟩, acquires⟩
  | refused error =>
    have acquires : Acquires m.endpoint m.held w.connections _ (.error error) _ := .refused ..
    exact ⟨rfl, _, ⟨rfl, acquires.moves, by simp, rfl, rfl, fun _ => rfl⟩, acquires⟩

theorem acquire_error {error : NetworkError} (run : m.acquire net w = (.error error, m', w')) :
    m'.slot = none ∧ ∃ entries, Leads m w entries m' w' := by
  obtain ⟨empty, entries, leads, _⟩ := acquire_leaves net run
  exact ⟨Option.map_eq_none_iff.mp empty, entries, leads⟩

/-- An acquire hands out the connection that is held, if that was asked about and found neither due to be replaced nor
closed, or one that it has just made. -/
theorem acquire_ok {conn : Nat} (run : m.acquire net w = (.ok conn, m', w')) :
    m'.held = some conn ∧ ∃ entries, Leads m w entries m' w' ∧
      ((m.held = some conn ∧ entries = [] ∧ (Policy.isDue (w.now net) m.policy).1 = false ∧
          (w.isOpen net conn).1 = true) ∨
        (conn = w.connections ∧ made entries = [conn])) := by
  obtain ⟨holds, entries, leads, _⟩ := acquire_leaves net run
  have acquired := acquire_acquired net m w
  rw [run] at acquired
  have journal := leads.journal
  refine ⟨holds, entries, leads, ?_⟩
  cases acquired with
  | kept slot fresh isOpen => exact .inl ⟨held_eq_some slot, List.self_eq_append_right.mp journal, fresh, isOpen⟩
  | made =>
    rw [← List.append_cancel_left journal]
    exact .inr ⟨rfl, by simp⟩

end leaves

theorem shut_behind (journal more : List Entry) (conns : List Nat) :
    shut ((journal ++ (conns.map Entry.shutDown ++ more)).drop journal.length) = conns ++ shut more := by
  rw [List.drop_left, shut_append, shut_map_shutDown]

/-- The connection that is held is either handed out again or shut down. -/
theorem acquire_of_held {m : Manager π} {conn : Nat} (holds : m.held = some conn) (w : World σ) :
    ((m.acquire net w).1 = .ok conn ∧ m.discarded net w = [] ∧ (Policy.isDue (w.now net) m.policy).1 = false ∧
      (w.isOpen net conn).1 = true) ∨
    (m.Retires net w ∧ conn ∈ m.discarded net w ∧
      ∀ other, (m.acquire net w).1 = .ok other → other = w.connections) := by
  have outcome := acquire_acquired net m w
  rcases run : m.acquire net w with ⟨answer, m', w'⟩
  simp only [discarded, run] at outcome ⊢
  have inside (more : List Entry) :
      conn ∈ shut ((w.journal ++ (m.held.toList.map Entry.shutDown ++ more)).drop w.journal.length) := by
    rw [shut_behind, List.mem_append, Option.mem_toList]
    exact .inl holds
  cases outcome with
  | kept slot fresh isOpen =>
    obtain rfl := Option.some.inj ((held_eq_some slot).symm.trans holds)
    exact .inl ⟨rfl, by simp, fresh, isOpen⟩
  | made _ _ retires => exact .inr ⟨retires, inside _, fun other same => (Except.ok.inj same).symm⟩
  | refused _ _ retires => exact .inr ⟨retires, inside _, nofun⟩
  | unwatched _ _ retires => exact .inr ⟨retires, inside _, nofun⟩

variable {net} {m : Manager π} {w : World σ} {conn : Nat}

/-- An acquire shuts down nothing but the connection that is held, and a new one for which no monitor could be
started. -/
theorem discarded_cases (member : conn ∈ m.discarded net w) :
    m.held = some conn ∨ (conn = w.connections ∧ ∃ error : IoError,
      (m.acquire net w).1 = .error (.connectionFailed s!"cannot start error monitor: {error.text}")) := by
  have outcome := acquire_acquired net m w
  rcases run : m.acquire net w with ⟨answer, m', w'⟩
  simp only [discarded, run] at outcome member ⊢
  cases outcome with
  | kept => simp at member
  | made | refused =>
    rw [shut_behind, List.mem_append, Option.mem_toList] at member
    exact .inl (member.resolve_right nofun)
  | unwatched error =>
    rw [shut_behind, List.mem_append, Option.mem_toList] at member
    exact member.imp_right fun new => ⟨List.mem_singleton.mp new, error, rfl⟩

end PushGateway.Manager
