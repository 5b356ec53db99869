import PushGateway.Proofs.Delivery.Upkeep
import PushGateway.Proofs.Delivery.Acquired
import PushGateway.Proofs.Reconnect.Recall

namespace PushGateway

open Journal

/-- Managers in one world, of which all but the first were copied from others. -/
structure Fleet (σ : Type) where
  managers : List (Manager Reconnect)
  world : World σ
  /-- What acquires handed out, the oldest first. -/
  handed : List Nat := []
  /-- The moment at which the connect of a connection came back. -/
  completed : Nat → Nat := fun _ => 0

namespace Fleet

/-- What can happen to a fleet and around it. Managers are known by their places. -/
inductive Act (σ : Type)
  | acquire (i : Nat)
  | close (i : Nat)
  | copy (i : Nat)
  /-- All around changes in any way, and others make connections. -/
  | elsewhere (outside : σ) (others : Nat)

/-- Whether this is done by the manager at this place. -/
def Act.Concerns {σ : Type} (i : Nat) : Act σ → Prop
  | acquire j | close j => j = i
  | copy _ | elsewhere _ _ => False

variable {σ : Type} (net : Network σ)

/-- A manager that holds nothing. -/
def start (rule : ReconnectRule) (endpoint : Endpoint) (listener : Listener) (detection : Bool) (w : World σ) :
    Fleet σ where
  managers := [{ endpoint, policy := rule.start (w.now net), listener, detection }]
  world := w

def acquire (f : Fleet σ) (i : Nat) (m : Manager Reconnect) : Fleet σ :=
  let (answer, m', w) := m.acquire net f.world
  { managers := f.managers.set i m'
    world := w
    handed :=
      match answer with
      | .ok conn => f.handed ++ [conn]
      | .error _ => f.handed
    completed := fun conn =>
      if conn ∈ made (w.journal.drop f.world.journal.length) then m.completion net f.world else f.completed conn }

def close (f : Fleet σ) (i : Nat) (m : Manager Reconnect) : Fleet σ :=
  let (m', w) := m.close net f.world
  { f with managers := f.managers.set i m', world := w }

def step (f : Fleet σ) : Act σ → Fleet σ
  | .acquire i => (f.managers[i]?).elim f (f.acquire net i)
  | .close i => (f.managers[i]?).elim f (f.close net i)
  | .copy i => (f.managers[i]?).elim f fun m => { f with managers := f.managers ++ [m.copy net f.world] }
  | .elsewhere outside others =>
    { f with world := { f.world with outside, connections := f.world.connections + others } }

def run (f : Fleet σ) (acts : List (Act σ)) : Fleet σ := acts.foldl (step net) f

/-- How often a connection was handed out. -/
def uses (f : Fleet σ) (conn : Nat) : Nat := f.handed.count conn

/-- How long ago the connect of a connection came back. It is nought where the clock has gone back behind that. -/
def age (f : Fleet σ) (conn : Nat) : Nat := f.world.now net - f.completed conn

/-- What is known of a manager. Its rule remembers how often the connection that it holds was used, and when that
connection was made. -/
structure Knows (rule : ReconnectRule) (f : Fleet σ) (m : Manager Reconnect) : Prop where
  below : ∀ {conn}, m.held = some conn → conn < f.world.connections
  recalls : ∃ uses made, Recalls uses made rule m.policy ∧
    ∀ conn, m.held = some conn → f.uses conn = uses ∧ f.completed conn = made

structure Kept (rule : ReconnectRule) (f : Fleet σ) : Prop where
  knows : ∀ {i : Nat} {m}, f.managers[i]? = some m → f.Knows rule m
  /-- No two managers hold the same connection. -/
  apart : ∀ {i j : Nat} {m m' conn}, f.managers[i]? = some m → f.managers[j]? = some m' → m.held = some conn →
    m'.held = some conn → i = j
  handed : ∀ conn ∈ f.handed, conn < f.world.connections
  permits : ∀ conn, rule.Permits (f.uses conn)

/-- A connection that is open is not used again only if the rule gives it up. -/
theorem Knows.spent {rule : ReconnectRule} {f : Fleet σ} {m : Manager Reconnect} {conn : Nat}
    (knows : f.Knows rule m) (holds : m.held = some conn) (isOpen : (f.world.isOpen net conn).1 = true)
    (retires : m.Retires net f.world) : rule.Spent (f.uses conn) (f.age net conn) := by
  obtain ⟨_, uses, made, recalls, known⟩ := knows
  obtain ⟨rfl, rfl⟩ := known conn holds
  rcases retires conn holds with due | closed
  · exact (recalls.isDue_iff (f.world.now net)).mp due
  · rw [isOpen] at closed
    cases closed

theorem Knows.not_spent {rule : ReconnectRule} {f : Fleet σ} {m : Manager Reconnect} {conn : Nat}
    (knows : f.Knows rule m) (holds : m.held = some conn)
    (fresh : (Policy.isDue (f.world.now net) m.policy).1 = false) :
    ¬ rule.Spent (f.uses conn) (f.age net conn) := by
  obtain ⟨_, uses, made, recalls, known⟩ := knows
  obtain ⟨rfl, rfl⟩ := known conn holds
  exact recalls.not_spent fresh

theorem completed_acquire (f : Fleet σ) (i : Nat) (m : Manager Reconnect) {conn : Nat}
    (old : conn < f.world.connections) : (f.acquire net i m).completed conn = f.completed conn := by
  obtain ⟨entries, leads⟩ := Manager.perform_leads net m f.world .acquire
  rcases run : m.acquire net f.world with ⟨answer, m', w'⟩
  have journal : w'.journal = f.world.journal ++ entries := by
    have := leads.journal
    rwa [Manager.perform, run] at this
  have : conn ∉ made entries := fun new => Nat.not_lt_of_le (leads.moves.made_bounds.2 conn new).1 old
  simp only [acquire, run, journal, List.drop_left, if_neg this]

namespace Kept

variable {rule : ReconnectRule} {f f' : Fleet σ} {i : Nat} {m m' : Manager Reconnect}

theorem unused (kept : f.Kept rule) : f.uses f.world.connections = 0 :=
  List.count_eq_zero.mpr fun old => Nat.lt_irrefl _ (kept.handed _ old)

/-- One manager has come from `m` to `m'`, and has handed out nothing but what it then holds. -/
theorem set (kept : f.Kept rule) (found : f.managers[i]? = some m) (managers : f'.managers = f.managers.set i m')
    (grows : f.world.connections ≤ f'.world.connections)
    (own : ∀ conn, m'.held = some conn → m.held = some conn ∨ f.world.connections ≤ conn)
    (handed : f'.handed = f.handed ∨
      ∃ conn, m'.held = some conn ∧ f'.handed = f.handed ++ [conn] ∧ rule.Permits (f'.uses conn))
    (completed : ∀ conn < f.world.connections, f'.completed conn = f.completed conn)
    (knows : f'.Knows rule m') : f'.Kept rule := by
  have inside : i < f.managers.length := (List.getElem?_eq_some_iff.mp found).1
  have same : ∀ conn, m'.held ≠ some conn → f'.uses conn = f.uses conn := by
    intro conn free
    rcases handed with nothing | ⟨other, holds, more, _⟩
    · rw [uses, uses, nothing]
    · have different : other ≠ conn := fun same => free (same ▸ holds)
      simp [uses, more, different]
  have places : ∀ {j : Nat} {m₁}, f'.managers[j]? = some m₁ →
      (i = j ∧ m₁ = m') ∨ (i ≠ j ∧ f.managers[j]? = some m₁) := by
    intro j m₁ at'
    rw [managers, List.getElem?_set] at at'
    split at at'
    · rename_i here
      exact .inl ⟨here, (Option.some.inj at').symm⟩
    · exact .inr ⟨‹_›, at'⟩
  -- what another manager holds is neither what this one held nor new
  have others : ∀ {j : Nat} {m₁ conn}, i ≠ j → f.managers[j]? = some m₁ → m₁.held = some conn →
      m'.held ≠ some conn := by
    intro j m₁ conn elsewhere at' holds both
    have := (kept.knows at').below holds
    rcases own conn both with old | new
    · exact elsewhere (kept.apart found at' old holds)
    · omega
  refine ⟨?_, ?_, ?_, ?_⟩
  · intro j m₁ at'
    rcases places at' with ⟨_, rfl⟩ | ⟨elsewhere, before⟩
    · exact knows
    · obtain ⟨below, uses, made, recalls, held⟩ := kept.knows before
      refine ⟨fun holds => Nat.lt_of_lt_of_le (below holds) grows, uses, made, recalls, fun conn holds => ?_⟩
      rw [same conn (others elsewhere before holds), completed conn (below holds)]
      exact held conn holds
  · intro j k m₁ m₂ conn at₁ at₂ holds₁ holds₂
    rcases places at₁ with ⟨rfl, rfl⟩ | ⟨elsewhere₁, before₁⟩ <;>
      rcases places at₂ with ⟨rfl, rfl⟩ | ⟨elsewhere₂, before₂⟩
    · rfl
    · exact absurd holds₁ (others elsewhere₂ before₂ holds₂)
    · exact absurd holds₂ (others elsewhere₁ before₁ holds₁)
    · exact kept.apart before₁ before₂ holds₁ holds₂
  · intro conn member
    rcases handed with nothing | ⟨other, holds, more, _⟩
    · exact Nat.lt_of_lt_of_le (kept.handed conn (nothing ▸ member)) grows
    · rw [more, List.mem_append, List.mem_singleton] at member
      rcases member with old | rfl
      · exact Nat.lt_of_lt_of_le (kept.handed conn old) grows
      · exact knows.below holds
  · intro conn
    by_cases holds : m'.held = some conn
    · rcases handed with nothing | ⟨other, holds', _, permits⟩
      · rw [uses, nothing]
        exact kept.permits conn
      · rw [holds] at holds'
        exact Option.some.inj holds' ▸ permits
    · rw [same conn holds]
      exact kept.permits conn

theorem acquire (kept : f.Kept rule) (found : f.managers[i]? = some m) : (f.acquire net i m).Kept rule := by
  obtain ⟨below, uses, made, recalls, held⟩ := kept.knows found
  obtain ⟨_, asked⟩ := recalls.asked (f.world.now net)
  have outcome := Manager.acquire_acquired net m f.world
  have old : ∀ conn < f.world.connections, (f.acquire net i m).completed conn = f.completed conn :=
    fun _ => completed_acquire net f i m
  rcases run : m.acquire net f.world with ⟨answer, m', w'⟩
  rw [run] at outcome
  simp only [Fleet.acquire, run] at old ⊢
  cases outcome with
  | @kept h slot fresh isOpen =>
    have holds := Manager.held_eq_some slot
    obtain ⟨used, moment⟩ := held h.conn holds
    have counted : (f.handed ++ [h.conn]).count h.conn = uses + 1 := by simp [← used, Fleet.uses]
    have permits : rule.Permits ((f.handed ++ [h.conn]).count h.conn) :=
      counted ▸ ReconnectRule.permits_succ (recalls.not_spent fresh)
    refine kept.set found rfl (Nat.le_refl _) (fun conn holds' => .inl holds') (.inr ⟨h.conn, holds, rfl, permits⟩)
      old ⟨below, uses + 1, made, recalls.isDue_false fresh, ?_⟩
    intro conn holds'
    rw [← Option.some.inj (holds.symm.trans holds')]
    exact ⟨counted, (old _ (below holds)).trans moment⟩
  | made monitored outside retires =>
    have counted : (f.handed ++ [f.world.connections]).count f.world.connections = 1 := by
      rw [List.count_append, ← Fleet.uses, kept.unused, List.count_singleton_self]
    refine kept.set found rfl (Nat.le_succ _) ?_ (.inr ⟨_, rfl, rfl, counted ▸ rule.permits_one⟩) old
      ⟨?_, 1, m.completion net f.world, asked.connected _, ?_⟩
    · rintro conn ⟨⟩
      exact .inr (Nat.le_refl _)
    · rintro conn ⟨⟩
      exact Nat.lt_succ_self _
    · rintro conn ⟨⟩
      exact ⟨counted, by simp⟩
  | unwatched error outside retires =>
    exact kept.set found rfl (Nat.le_succ _) nofun (.inl rfl) old ⟨nofun, 1, _, asked.connected _, nofun⟩
  | refused error outside retires =>
    exact kept.set found rfl (Nat.le_refl _) nofun (.inl rfl) old ⟨nofun, _, _, asked, nofun⟩

theorem close (kept : f.Kept rule) (found : f.managers[i]? = some m) : (f.close net i m).Kept rule := by
  obtain ⟨outside, closed⟩ := Manager.close_outcome net m f.world
  obtain ⟨_, uses, made, recalls, _⟩ := kept.knows found
  rw [Fleet.close, closed]
  exact kept.set found rfl (Nat.le_refl _) nofun (.inl rfl) (fun _ _ => rfl)
    ⟨nofun, uses, made, recalls, nofun⟩

/-- All around has changed, or others have made connections. -/
theorem elsewhere (kept : f.Kept rule) (outside : σ) (others : Nat) :
    (f.step net (.elsewhere outside others)).Kept rule where
  knows at' := by
    obtain ⟨below, recalls⟩ := kept.knows at'
    exact ⟨fun holds => Nat.lt_of_lt_of_le (below holds) (Nat.le_add_right ..), recalls⟩
  apart := kept.apart
  handed conn member := Nat.lt_of_lt_of_le (kept.handed conn member) (Nat.le_add_right ..)
  permits := kept.permits

/-- There is another manager, which holds nothing yet. -/
theorem add (kept : f.Kept rule) (empty : m.held = none) {now : Nat} (policy : m.policy = rule.start now) :
    { f with managers := f.managers ++ [m] : Fleet σ }.Kept rule := by
  have places : ∀ {j : Nat} {m₁}, (f.managers ++ [m])[j]? = some m₁ → f.managers[j]? = some m₁ ∨ m₁ = m := by
    intro j m₁ at'
    rw [List.getElem?_append] at at'
    split at at'
    · exact .inl at'
    · exact .inr (List.mem_singleton.mp (List.mem_of_getElem? at'))
  refine ⟨?_, ?_, kept.handed, kept.permits⟩
  · intro j m₁ at'
    rcases places at' with old | rfl
    · obtain ⟨below, recalls⟩ := kept.knows old
      exact ⟨below, recalls⟩
    · exact ⟨by simp [empty], 0, now, policy ▸ .start rule now, by simp [empty]⟩
  · intro j k m₁ m₂ conn at₁ at₂ holds₁ holds₂
    rcases places at₁ with old₁ | rfl <;> rcases places at₂ with old₂ | rfl
    · exact kept.apart old₁ old₂ holds₁ holds₂
    · cases empty.symm.trans holds₂
    · cases empty.symm.trans holds₁
    · cases empty.symm.trans holds₁

theorem copy (kept : f.Kept rule) (found : f.managers[i]? = some m) :
    { f with managers := f.managers ++ [m.copy net f.world] : Fleet σ }.Kept rule := by
  obtain ⟨_, _, _, recalls, _⟩ := kept.knows found
  exact kept.add rfl (recalls.fresh (f.world.now net))

theorem start (rule : ReconnectRule) (endpoint : Endpoint) (listener : Listener) (detection : Bool) (w : World σ) :
    (start net rule endpoint listener detection w).Kept rule := by
  have nobody : { managers := [], world := w : Fleet σ }.Kept rule :=
    ⟨by simp, by simp, by simp, fun _ => rule.permits_zero⟩
  exact nobody.add rfl rfl

theorem step (kept : f.Kept rule) (act : Act σ) : (f.step net act).Kept rule := by
  cases act with
  | acquire i =>
    cases found : f.managers[i]? with
    | none => simpa [Fleet.step, found] using kept
    | some m => simpa [Fleet.step, found] using kept.acquire net found
  | close i =>
    cases found : f.managers[i]? with
    | none => simpa [Fleet.step, found] using kept
    | some m => simpa [Fleet.step, found] using kept.close net found
  | copy i =>
    cases found : f.managers[i]? with
    | none => simpa [Fleet.step, found] using kept
    | some m => simpa [Fleet.step, found] using kept.copy net found
  | elsewhere outside others => exact kept.elsewhere net outside others

theorem run (kept : f.Kept rule) (acts : List (Act σ)) : (f.run net acts).Kept rule := by
  induction acts generalizing f with
  | nil => exact kept
  | cons act acts ih => exact ih (kept.step net act)

section apart
variable {j : Nat} {conn : Nat}

/-- A manager hands out no connection that another one holds. -/
theorem uses_acquire (kept : f.Kept rule) (found : f.managers[i]? = some m) (elsewhere : j ≠ i)
    (at' : f.managers[j]? = some m') (holds : m.held = some conn) : (f.acquire net j m').uses conn = f.uses conn := by
  rcases run : m'.acquire net f.world with ⟨_ | other, m₁, w₁⟩
  · simp only [uses, Fleet.acquire, run]
  · obtain ⟨_, _, _, ⟨both, _⟩ | ⟨new, _⟩⟩ := Manager.acquire_ok net run
    · have different : other ≠ conn := by
        rintro rfl
        exact elsewhere (kept.apart at' found both holds)
      simp [uses, Fleet.acquire, run, different]
    · have := (kept.knows found).below holds
      have different : other ≠ conn := by omega
      simp [uses, Fleet.acquire, run, different]

/-- What others do changes neither a manager nor how often its connection was handed out. -/
theorem step_apart (kept : f.Kept rule) (found : f.managers[i]? = some m) {act : Act σ} (other : ¬ act.Concerns i) :
    (f.step net act).managers[i]? = some m ∧
      ∀ conn, m.held = some conn → (f.step net act).uses conn = f.uses conn := by
  cases act with
  | acquire j =>
    cases at' : f.managers[j]? with
    | none => simpa [Fleet.step, at'] using found
    | some m' =>
      have place : (f.managers.set j (m'.acquire net f.world).2.1)[i]? = some m := by
        rwa [List.getElem?_set_ne other]
      simpa [Fleet.step, at'] using ⟨place, fun conn holds => kept.uses_acquire net found other at' holds⟩
  | close j =>
    cases at' : f.managers[j]? with
    | none => simpa [Fleet.step, at'] using found
    | some m' =>
      have place : (f.managers.set j (m'.close net f.world).1)[i]? = some m := by
        rwa [List.getElem?_set_ne other]
      simpa [Fleet.step, at'] using ⟨place, fun _ _ => rfl⟩
  | copy j =>
    cases at' : f.managers[j]? with
    | none => simpa [Fleet.step, at'] using found
    | some m' =>
      have inside : i < f.managers.length := (List.getElem?_eq_some_iff.mp found).1
      simp [Fleet.step, at', List.getElem?_append_left inside, found, uses]
  | elsewhere => exact ⟨found, fun _ _ => rfl⟩

theorem run_apart (kept : f.Kept rule) (found : f.managers[i]? = some m) {acts : List (Act σ)}
    (others : ∀ act ∈ acts, ¬ act.Concerns i) :
    (f.run net acts).managers[i]? = some m ∧
      ∀ conn, m.held = some conn → (f.run net acts).uses conn = f.uses conn := by
  induction acts generalizing f with
  | nil => exact ⟨found, fun _ _ => rfl⟩
  | cons act acts ih =>
    obtain ⟨place, same⟩ := kept.step_apart net found (others act (List.mem_cons_self ..))
    obtain ⟨place', same'⟩ :=
      ih (kept.step net act) place fun act member => others act (List.mem_cons_of_mem _ member)
    exact ⟨place', fun conn holds => (same' conn holds).trans (same conn holds)⟩

end apart
end Kept
end Fleet
end PushGateway
