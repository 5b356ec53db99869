import PushGateway.Proofs.Reconnect.Fleet

namespace PushGateway.Fleet

open ReconnectRule

/-- Whether this is an acquire of the manager at this place. -/
def Act.acquires {σ : Type} (i : Nat) : Act σ → Bool
  | acquire j => j == i
  | _ => false

variable {σ : Type} (net : Network σ)

/-- The connection of the manager at this place is not closed by anyone but by its acquires, and these succeed. -/
def Calm (i : Nat) (f : Fleet σ) : Act σ → Prop
  | .acquire j => j = i → ∃ m conn, f.managers[i]? = some m ∧ (m.acquire net f.world).1 = .ok conn ∧
      ∀ held, m.held = some held → (f.world.isOpen net held).1 = true
  | .close j => j ≠ i
  | .copy _ | .elsewhere _ _ => True

def CalmAll (i : Nat) (f : Fleet σ) : List (Act σ) → Prop
  | [] => True
  | act :: acts => f.Calm net i act ∧ CalmAll i (f.step net act) acts

/-- How many connections the manager at this place has made after `k` acquires, if each is used so often. -/
inductive Paced (most : Nat) (f : Fleet σ) (i : Nat) : (k : Nat) → Prop
  | absent : f.managers[i]? = none → Paced most f i 0
  | idle {m} : f.managers[i]? = some m → m.held = none → m.opened = 0 → Paced most f i 0
  | busy {m conn k} : f.managers[i]? = some m → m.held = some conn → 0 < f.uses conn →
      k + most = m.opened * most + f.uses conn → Paced most f i k

theorem step_managers (f : Fleet σ) (act : Act σ) :
    (f.step net act).managers.length = f.managers.length ∨
      ∃ m : Manager Reconnect, (f.step net act).managers = f.managers ++ [m.copy net f.world] := by
  cases act with
  | acquire i => cases found : f.managers[i]? <;> simp [step, found, acquire]
  | close i => cases found : f.managers[i]? <;> simp [step, found, close]
  | copy i =>
    cases found : f.managers[i]? with
    | none => exact .inl (by simp [step, found])
    | some m => exact .inr ⟨m, by simp [step, found]⟩
  | elsewhere => exact .inl rfl

namespace Paced

variable {net} {n : UInt32} {f : Fleet σ} {i k : Nat} {m : Manager Reconnect}

/-- What is known of a manager that is there. -/
theorem cases_of_found {most : Nat} (paced : Paced most f i k) (found : f.managers[i]? = some m) :
    (m.held = none ∧ m.opened = 0 ∧ k = 0) ∨
      ∃ conn, m.held = some conn ∧ 0 < f.uses conn ∧ k + most = m.opened * most + f.uses conn := by
  cases paced with
  | absent missing => cases missing.symm.trans found
  | idle found' empty unused =>
    obtain rfl := Option.some.inj (found'.symm.trans found)
    exact .inl ⟨empty, unused, rfl⟩
  | busy found' holds used count =>
    obtain rfl := Option.some.inj (found'.symm.trans found)
    exact .inr ⟨_, holds, used, count⟩

theorem acquire (paced : Paced (mostUses n) f i k) (kept : f.Kept (.afterSends n))
    (calm : f.Calm net i (.acquire i)) : Paced (mostUses n) (f.step net (.acquire i)) i (k + 1) := by
  obtain ⟨m, conn, found, succeeds, isOpen⟩ := calm rfl
  have inside : i < f.managers.length := (List.getElem?_eq_some_iff.mp found).1
  have stepped : f.step net (.acquire i) = f.acquire net i m := by
    rw [step, found]
    rfl
  rw [stepped]
  have outcome := Manager.acquire_acquired net m f.world
  rcases run : m.acquire net f.world with ⟨answer, m', w'⟩
  rw [run] at outcome succeeds
  have place : (f.acquire net i m).managers[i]? = some m' := by simp [Fleet.acquire, run, inside]
  cases succeeds
  have counted : (f.acquire net i m).uses conn = f.uses conn + 1 := by simp [uses, Fleet.acquire, run]
  cases outcome with
  | @kept h slot fresh _ =>
    have holds := Manager.held_eq_some slot
    rcases paced.cases_of_found found with ⟨empty, _⟩ | ⟨conn, holds', used, count⟩
    · cases empty.symm.trans holds
    · obtain rfl := Option.some.inj (holds.symm.trans holds')
      refine .busy place holds (counted ▸ Nat.succ_pos _) ?_
      rw [counted]
      exact (Nat.succ_add ..).trans (congrArg Nat.succ count)
  | made monitored outside retires =>
    rw [kept.unused] at counted
    refine .busy place rfl (counted ▸ Nat.one_pos) ?_
    rw [counted]
    simp only [Nat.succ_mul]
    rcases paced.cases_of_found found with ⟨_, opened, rfl⟩ | ⟨conn, holds, used, count⟩
    · rw [opened]
      omega
    · -- the connection that is replaced was open, so that it has been used as often as it may be
      have spent : mostUses n ≤ f.uses conn := (kept.knows found).spent net holds (isOpen conn holds) retires
      have bound : f.uses conn ≤ mostUses n := kept.permits conn
      omega

/-- Others may make the manager, but do not change it. -/
theorem apart {rule : ReconnectRule} {most : Nat} (paced : Paced most f i k) (kept : f.Kept rule) (act : Act σ)
    (other : ¬ act.Concerns i) : Paced most (f.step net act) i k := by
  cases paced with
  | idle found empty unused => exact .idle (kept.step_apart net found other).1 empty unused
  | busy found holds used count =>
    obtain ⟨place, same⟩ := kept.step_apart net found other
    exact .busy place holds (same _ holds ▸ used) (same _ holds ▸ count)
  | absent missing =>
    cases at' : (f.step net act).managers[i]? with
    | none => exact .absent at'
    | some m =>
      rcases step_managers net f act with length | ⟨m₁, more⟩
      · rw [List.getElem?_eq_none_iff, ← length, ← List.getElem?_eq_none_iff] at missing
        cases missing.symm.trans at'
      · have isNew : m = m₁.copy net f.world := by
          have behind := List.getElem?_eq_none_iff.mp missing
          rw [more, List.getElem?_append_right behind] at at'
          exact List.mem_singleton.mp (List.mem_of_getElem? at')
        rw [isNew] at at'
        exact .idle at' rfl rfl

theorem step {act : Act σ} (paced : Paced (mostUses n) f i k) (kept : f.Kept (.afterSends n))
    (calm : f.Calm net i act) :
    Paced (mostUses n) (f.step net act) i (k + if act.acquires i then 1 else 0) := by
  cases act with
  | acquire j =>
    by_cases same : j = i
    · subst same
      simpa [Act.acquires] using paced.acquire kept calm
    · simpa [Act.acquires, same] using paced.apart kept (.acquire j) same
  | close j => exact paced.apart kept (.close j) calm
  | copy j => exact paced.apart kept (.copy j) id
  | elsewhere outside others => exact paced.apart kept (.elsewhere outside others) id

theorem run {acts : List (Act σ)} (paced : Paced (mostUses n) f i k) (kept : f.Kept (.afterSends n))
    (calm : f.CalmAll net i acts) : Paced (mostUses n) (f.run net acts) i (k + acts.countP (Act.acquires i)) := by
  induction acts generalizing f k with
  | nil => exact paced
  | cons act acts ih =>
    have := ih (paced.step kept calm.1) (kept.step net act) calm.2
    rwa [List.countP_cons, Nat.add_comm (acts.countP _), ← Nat.add_assoc]

theorem opened (paced : Paced (mostUses n) f i k) (kept : f.Kept (.afterSends n)) (found : f.managers[i]? = some m) :
    m.opened = (k + mostUses n - 1) / mostUses n := by
  have positive : 0 < mostUses n := Nat.lt_of_lt_of_le Nat.one_pos (Nat.le_max_right ..)
  rcases paced.cases_of_found found with ⟨_, opened, rfl⟩ | ⟨conn, _, used, count⟩
  · rw [opened, Nat.zero_add, Nat.div_eq_of_lt (by omega)]
  · have bound : f.uses conn ≤ mostUses n := kept.permits conn
    refine (Nat.div_eq_of_lt_le ?_ ?_).symm
    · omega
    · rw [Nat.succ_mul]
      omega

end Paced
end PushGateway.Fleet
