import PushGateway.Memory.Network
import PushGateway.Proofs.Reconnect.Pace

namespace PushGateway

/-- An acquire would shut down the connection that is held although it is open. -/
def Manager.Discards {σ π : Type} [Policy π] (net : Network σ) (m : Manager π) (w : World σ) (conn : Nat) : Prop :=
  m.held = some conn ∧ (w.isOpen net conn).1 = true ∧ conn ∈ m.discarded net w

namespace Fleet

open ReconnectRule

variable {σ : Type} (net : Network σ)

/-- What each rule promises of a fleet. -/
def Promises (f : Fleet σ) : ReconnectRule → Prop
  | .never => ∀ m ∈ f.managers, ∀ conn, ¬ m.Discards net f.world conn
  | .always => ∀ conn, f.uses conn ≤ 1
  | .afterSends n =>
      (∀ conn, f.uses conn ≤ max n.toNat 1) ∧
      (∀ m ∈ f.managers, ∀ conn, m.Discards net f.world conn → f.uses conn = max n.toNat 1) ∧
      -- the counter tells the uses of the connection that is held, and can hold them
      ∀ m ∈ f.managers, ∃ most used, m.policy = .afterSends most used ∧ most.toNat = max n.toNat 1 ∧ used ≤ most ∧
        (used < most → (used + 1).toNat = used.toNat + 1) ∧ ∀ conn, m.held = some conn → f.uses conn = used.toNat
  | .afterDuration d =>
      ∀ m ∈ f.managers, ∀ conn,
        (conn ∈ f.handed → (m.acquire net f.world).1 = .ok conn → f.age net conn < d.toNanos) ∧
        (m.Discards net f.world conn → d.toNanos ≤ f.age net conn)

section promises
variable {net} {rule : ReconnectRule} {f : Fleet σ} {m : Manager Reconnect} {conn : Nat}

/-- Of what is open, that is discarded which its rule gives up, and all else is handed out again. -/
theorem Kept.decides (kept : f.Kept rule) (member : m ∈ f.managers) (holds : m.held = some conn)
    (isOpen : (f.world.isOpen net conn).1 = true) :
    (conn ∈ m.discarded net f.world ↔ rule.Spent (f.uses conn) (f.age net conn)) ∧
      ((m.acquire net f.world).1 = .ok conn ↔ ¬ rule.Spent (f.uses conn) (f.age net conn)) := by
  obtain ⟨i, found⟩ := List.mem_iff_getElem?.mp member
  have knows := kept.knows found
  rcases Manager.acquire_of_held net holds f.world with ⟨again, none, fresh, _⟩ | ⟨retires, gone, new⟩
  · have more : ¬ rule.Spent (f.uses conn) (f.age net conn) := knows.not_spent net holds fresh
    exact ⟨iff_of_false (by simp [none]) more, iff_of_true again more⟩
  · have spent := knows.spent net holds isOpen retires
    refine ⟨iff_of_true gone spent, iff_of_false (fun again => ?_) (not_not_intro spent)⟩
    exact absurd (knows.below holds) (new conn again ▸ Nat.lt_irrefl _)

/-- What is handed out once more was held and is not given up. -/
theorem Kept.not_spent (kept : f.Kept rule) (member : m ∈ f.managers) (old : conn ∈ f.handed)
    (again : (m.acquire net f.world).1 = .ok conn) : ¬ rule.Spent (f.uses conn) (f.age net conn) := by
  rcases run : m.acquire net f.world with ⟨answer, m', w'⟩
  have isOk := again
  rw [run] at isOk
  cases isOk
  obtain ⟨_, _, _, ⟨holds, _, _, isOpen⟩ | ⟨rfl, _⟩⟩ := Manager.acquire_ok net run
  · exact (kept.decides member holds isOpen).2.mp again
  · exact absurd (kept.handed _ old) (Nat.lt_irrefl _)

theorem Kept.promises (kept : f.Kept rule) : f.Promises net rule := by
  cases rule with
  | never => exact fun m member conn ⟨holds, isOpen, gone⟩ => (kept.decides member holds isOpen).1.mp gone
  | always => exact kept.permits
  | afterSends n =>
    refine ⟨kept.permits, fun m member conn ⟨holds, isOpen, gone⟩ => ?_, fun m member => ?_⟩
    · exact Nat.le_antisymm (kept.permits conn) ((kept.decides member holds isOpen).1.mp gone)
    · obtain ⟨i, found⟩ := List.mem_iff_getElem?.mp member
      obtain ⟨_, uses, made, recalls, known⟩ := kept.knows found
      obtain ⟨most, used, policy, most', used', bound⟩ := recalls.counter
      exact ⟨most, used, policy, most', bound, toNat_add_one_of_lt,
        fun conn holds => (known conn holds).1.trans used'.symm⟩
  | afterDuration d =>
    intro m member conn
    exact ⟨fun old again => Nat.lt_of_not_le (kept.not_spent member old again),
      fun ⟨holds, isOpen, gone⟩ => (kept.decides member holds isOpen).1.mp gone⟩

end promises

/-- The managers of a fleet keep to their rule, whatever is asked of them, whichever connects fail and whenever
connections are closed from outside. A connection that is open is discarded by an acquire just when the rule gives
it up, and is handed out again otherwise. All else that an acquire shuts down has closed before, or has just been
made and could not be watched. A copy begins anew, and what is done with others leaves a manager as it is. Under
`afterSends` connections are made just as often as acquires use them up. -/
theorem run_keeps_promises (rule : ReconnectRule) (endpoint : Endpoint) (listener : Listener) (detection : Bool)
    (w : World σ) (acts : List (Act σ)) :
    let f := (start net rule endpoint listener detection w).run net acts
    f.Promises net rule ∧
    (∀ m ∈ f.managers, ∀ conn, m.held = some conn → (f.world.isOpen net conn).1 = true →
      (conn ∈ m.discarded net f.world ↔ rule.Spent (f.uses conn) (f.age net conn)) ∧
      ((m.acquire net f.world).1 = .ok conn ↔ ¬ rule.Spent (f.uses conn) (f.age net conn))) ∧
    (∀ m ∈ f.managers, ∀ conn ∈ m.discarded net f.world, m.held = some conn ∨
      (conn = f.world.connections ∧ ∃ error : IoError, (m.acquire net f.world).1 =
        .error (.connectionFailed s!"cannot start error monitor: {error.text}"))) ∧
    (∀ (i : Nat) m, f.managers[i]? = some m →
      (f.step net (.copy i)).managers = f.managers ++
        [{ m with policy := rule.start (f.world.now net), slot := none, phase := .disconnected, opened := 0 }] ∧
      ∀ others, (∀ act ∈ others, ¬ act.Concerns i) →
        (f.run net others).managers[i]? = some m ∧
          ∀ conn, m.held = some conn → (f.run net others).uses conn = f.uses conn) ∧
    ∀ n, rule = .afterSends n → ∀ (i : Nat) m, f.managers[i]? = some m →
      (start net rule endpoint listener detection w).CalmAll net i acts →
        m.opened = (acts.countP (Act.acquires i) + max n.toNat 1 - 1) / max n.toNat 1 := by
  have begins := Kept.start net rule endpoint listener detection w
  have kept := begins.run net acts
  refine ⟨kept.promises, fun m member conn => kept.decides member, fun m _ conn gone => ?_,
    fun i m found => ⟨?_, fun others spared => ?_⟩, ?_⟩
  · exact Manager.discarded_cases gone
  · obtain ⟨_, _, _, recalls, _⟩ := kept.knows found
    simp only [step, found, Option.elim_some, Manager.copy]
    rw [← recalls.fresh]
    rfl
  · exact kept.run_apart net found spared
  · rintro n rfl i m found calm
    have paced : Paced (mostUses n) (start net (.afterSends n) endpoint listener detection w) i 0 := by
      cases i with
      | zero => exact .idle rfl rfl rfl
      | succ i => exact .absent rfl
    have count := (paced.run begins calm).opened kept found
    rwa [Nat.zero_add] at count

/-- Three acquires, of which two may use the same connection, make two connections. -/
theorem run_keeps_promises_in_memory :
    let f := start Memory.network (.afterSends 2) default .nobody true { outside := {} }
    ∃ m, (f.run Memory.network (List.replicate 3 (.acquire 0))).managers[0]? = some m ∧ m.opened = 2 := by
  intro f
  have calm : f.CalmAll Memory.network 0 (List.replicate 3 (.acquire 0)) := by
    refine ⟨fun _ => ⟨_, _, rfl, rfl, nofun⟩, fun _ => ⟨_, _, rfl, rfl, ?_⟩,
      fun _ => ⟨_, _, rfl, rfl, ?_⟩, trivial⟩ <;>
    · rintro conn ⟨⟩
      rfl
  exact ⟨_, rfl, (run_keeps_promises Memory.network (.afterSends 2) default .nobody true { outside := {} } _).2.2.2.2
    2 rfl 0 _ rfl calm⟩

end Fleet
end PushGateway
