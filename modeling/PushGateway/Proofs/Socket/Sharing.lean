import Mathlib.Data.List.Basic
import PushGateway.Proofs.Socket.Locking

namespace PushGateway.Socket

namespace Task

/-- A writer that has announced itself, and does not have the lock yet. -/
def isWaiting : Task → Bool
  | writing _ .waits => true
  | _ => false

/-- A writer that has just got the lock: its announcement still stands. -/
def isEntering : Task → Bool
  | writing _ .enters => true
  | _ => false

/-- A writer that has announced itself, and has not taken that back. -/
def isAnnounced (task : Task) : Bool := task.isWaiting || task.isEntering

theorem hasLock_of_isEntering {task : Task} (enters : task.isEntering = true) : task.hasLock = true := by
  cases task with
  | idle | reading => cases enters
  | writing _ stage => cases stage <;> first | rfl | cases enters

end Task

/-- What a thread finds when it looks at the clock. -/
def Act.clock? : Act → Option Nat
  | beginRead now | time now => some now
  | _ => none

/-- What a thread then finds when it looks at the clock. -/
def Event.clock? (thread : Nat) (event : Event) : Option Nat := (event.act? thread).bind Act.clock?

/-- What a thread has found whenever it looked at the clock. -/
def clocksOf (thread : Nat) (history : List Event) : List Nat := history.filterMap (Event.clock? thread)

namespace Traffic

/-- The thread that has the lock is a writer, and has not taken its announcement back. -/
def entering (t : Traffic) : Bool := t.shared.holder.any fun thread => t.tasks[thread]?.any Task.isEntering

end Traffic

variable {limit : Option Duration} {now thread : Nat} {threads : UInt64} {s s' : Shared} {t t' : Traffic}
  {task task' : Task} {act : Act} {history : List Event}

theorem clocksOf_append (thread : Nat) (history : List Event) (event : Event) :
    clocksOf thread (history ++ [event]) = clocksOf thread history ++ (event.clock? thread).toList := by
  rw [clocksOf, List.filterMap_append, clocksOf]
  cases clock : event.clock? thread <;> simp [clock]

theorem Shared.Next.keeps (next : s.Next thread act s') : s'.now = s.now ∧ s'.isOpen = s.isOpen := by
  cases next <;> exact ⟨rfl, rfl⟩

theorem Shared.Next.clock (next : s.Next thread act s') {seen : Nat} (reads : act.clock? = some seen) :
    seen = s.now := by
  cases act with
  | beginRead | time =>
    cases next with
    | shows same =>
      rw [← same]
      exact (Option.some.inj reads).symm
  | _ => cases reads

/-- The counter goes with the announcements. -/
theorem Task.Next.announced (next : task.Next limit act task') (shared : s.Next thread act s') :
    (task.isAnnounced = false ∧ task'.isAnnounced = true ∧ s'.waiting = s.waiting + 1) ∨
    (task.isAnnounced = true ∧ task'.isAnnounced = false ∧ s'.waiting = s.waiting - 1) ∨
    (task'.isAnnounced = task.isAnnounced ∧ s'.waiting = s.waiting) := by
  cases next with
  | reads step =>
    have same : s'.waiting = s.waiting := by cases step <;> cases shared <;> rfl
    exact .inr (.inr ⟨rfl, same⟩)
  | beginsRead | endsRead | beginsWrite | endsWrite =>
    cases shared
    exact .inr (.inr ⟨rfl, rfl⟩)
  | writes step =>
    cases step with
    | announces =>
      cases shared with
      | announce => exact .inl ⟨rfl, rfl, rfl⟩
      | shows never => exact never.elim
    | withdraws =>
      cases shared with
      | withdraw => exact .inr (.inl ⟨rfl, rfl, rfl⟩)
      | shows never => exact never.elim
    | locks | unlocks | findsClosed | findsOpen | sends =>
      have same : s'.waiting = s.waiting := by cases shared <;> rfl
      exact .inr (.inr ⟨rfl, same⟩)

namespace Traffic

theorem countP_put (there : t.tasks[thread]? = some task) (task' : Task) (shared : Shared) (p : Task → Bool) :
    (t.put thread task' shared).tasks.countP p + (if p task then 1 else 0) =
      t.tasks.countP p + if p task' then 1 else 0 := by
  obtain ⟨inside, own⟩ := List.getElem?_eq_some_iff.mp there
  have counted := List.boole_getElem_le_countP (p := p) inside
  rw [own] at counted
  rw [put, List.countP_set inside, own]
  omega

/-- The counter is the number of writers whose announcement stands. -/
theorem waiting_eq_announced (course : Leads (Next limit) (.start now threads) history t) :
    t.shared.waiting.toNat = t.tasks.countP Task.isAnnounced := by
  induction course with
  | start =>
    rw [start, List.countP_replicate]
    rfl
  | @next before _ _ _ _ step ih =>
    cases step with
    | shutDown => exact ih
    | passes => exact ih
    | @acts thread act old new shared standing next seen =>
      have counts := countP_put standing new shared Task.isAnnounced
      have few : (before.put thread new shared).tasks.countP Task.isAnnounced < 18446744073709551616 :=
        Nat.lt_of_le_of_lt List.countP_le_length (before.put thread new shared).few
      change shared.waiting.toNat = _
      rcases next.announced seen with ⟨not, yes, more⟩ | ⟨yes, not, less⟩ | ⟨still, same⟩
      · simp only [not, yes, Bool.false_eq_true, if_false, if_true] at counts
        rw [more, UInt64.toNat_add, ih]
        change (_ + 1) % 18446744073709551616 = _
        omega
      · simp only [not, yes, Bool.false_eq_true, if_false, if_true] at counts
        have one : (1 : UInt64) ≤ before.shared.waiting := by
          rw [UInt64.le_iff_toNat_le, ih]
          change 1 ≤ _
          omega
        rw [less, UInt64.toNat_sub_of_le _ _ one, ih]
        change _ - 1 = _
        omega
      · rw [still] at counts
        rw [same, ih]
        omega

/-- There is at most one writer that has the lock and whose announcement still stands. -/
theorem countP_isEntering (course : Leads (Next limit) (.start now threads) history t) :
    t.tasks.countP Task.isEntering = if t.entering then 1 else 0 := by
  have holder {thread : Nat} {task : Task} (there : t.tasks[thread]? = some task) (enters : task.isEntering = true) :
      t.shared.holder = some thread :=
    (holder_eq_some_iff course).mpr ⟨task, there, Task.hasLock_of_isEntering enters⟩
  by_cases entering : t.entering = true
  · obtain ⟨thread, holds, enters⟩ := (Option.any_eq_true _ _).mp entering
    obtain ⟨task, there, own⟩ := (Option.any_eq_true _ _).mp enters
    have without : (t.put thread .idle t.shared).tasks.countP Task.isEntering = 0 := by
      rw [List.countP_eq_zero]
      intro task' member enters'
      obtain ⟨other, there'⟩ := List.mem_iff_getElem?.mp member
      rw [getElem?_put there] at there'
      by_cases same : thread = other
      · rw [if_pos same] at there'
        cases there'
        cases enters'
      · rw [if_neg same] at there'
        have holds' := holder there' enters'
        rw [holds] at holds'
        exact same (Option.some.inj holds')
    have counts := countP_put there .idle t.shared Task.isEntering
    rw [without, own, if_pos rfl] at counts
    rw [if_pos entering]
    exact counts.symm
  · rw [if_neg entering, List.countP_eq_zero]
    intro task member enters
    obtain ⟨thread, there⟩ := List.mem_iff_getElem?.mp member
    have itself := (Option.any_eq_true _ _).mpr ⟨task, there, enters⟩
    exact entering ((Option.any_eq_true _ _).mpr ⟨thread, holder there enters, itself⟩)

theorem countP_isAnnounced (tasks : List Task) :
    tasks.countP Task.isAnnounced = tasks.countP Task.isWaiting + tasks.countP Task.isEntering := by
  have apart (task : Task) : (if task.isAnnounced then 1 else 0) =
      (if task.isWaiting then 1 else 0) + if task.isEntering then 1 else 0 := by
    cases task with
    | idle | reading => rfl
    | writing _ stage => cases stage <;> rfl
  induction tasks with
  | nil => rfl
  | cons task tasks ih =>
    have own := apart task
    rw [List.countP_cons, List.countP_cons, List.countP_cons, ih]
    omega

/-- The writers whose announcement stands are those that wait, and at most one that has just got the lock. -/
theorem announced_eq (course : Leads (Next limit) (.start now threads) history t) :
    t.tasks.countP Task.isAnnounced = t.tasks.countP Task.isWaiting + if t.entering then 1 else 0 := by
  rw [countP_isAnnounced, countP_isEntering course]

/-- The counter is never taken below zero. -/
theorem waiting_ne_zero (course : Leads (Next limit) (.start now threads) history t)
    (step : Next limit t (.acts thread .withdraw) t') : t.shared.waiting ≠ 0 := by
  cases step with
  | acts there next _ =>
    cases next with
    | reads step => cases step
    | writes step =>
      cases step with
      | withdraws =>
        have counted : 0 < t.tasks.countP Task.isAnnounced :=
          List.countP_pos_iff.mpr ⟨_, List.mem_of_getElem? there, rfl⟩
        rw [← waiting_eq_announced course] at counted
        intro zero
        rw [zero] at counted
        cases counted

/-- A connection is open as long as it has not been shut down. -/
theorem isOpen_iff (course : Leads (Next limit) (.start now threads) history t) :
    t.shared.isOpen = true ↔ .shutDown ∉ history := by
  induction course with
  | start => simp [start]
  | next _ step ih =>
    rw [List.mem_append, List.mem_singleton, not_or, ← ih]
    cases step with
    | shutDown => simp
    | passes => simp
    | acts _ _ seen =>
      have same := seen.keeps.2
      simp [put, same]

/-- For no thread does the clock go back. -/
theorem clocks (course : Leads (Next limit) (.start now threads) history t) (thread : Nat) :
    (clocksOf thread history).Pairwise (· ≤ ·) ∧ ∀ seen ∈ clocksOf thread history, seen ≤ t.shared.now := by
  induction course with
  | start => exact ⟨.nil, nofun⟩
  | @next before after earlier event _ step ih =>
    obtain ⟨ordered, past⟩ := ih
    have looks {seen : Nat} (own : event.clock? thread = some seen) : seen = before.shared.now := by
      cases step with
      | shutDown | passes => cases own
      | acts _ _ shared =>
        obtain ⟨act, its, reads⟩ := Option.bind_eq_some_iff.mp own
        rw [Event.act?] at its
        split at its
        · cases its
          exact shared.clock reads
        · cases its
    have goesOn {seen : Nat} (reached : seen ≤ before.shared.now) : seen ≤ after.shared.now := by
      cases step with
      | shutDown => exact reached
      | passes later => exact Nat.le_trans reached later
      | acts _ _ shared => exact Nat.le_trans reached (Nat.le_of_eq shared.keeps.1.symm)
    rw [clocksOf_append]
    cases own : event.clock? thread with
    | none =>
      rw [Option.toList_none, List.append_nil]
      exact ⟨ordered, fun seen member => goesOn (past seen member)⟩
    | some seen =>
      rw [Option.toList_some]
      have last := looks own
      refine ⟨List.pairwise_append.mpr ⟨ordered, List.pairwise_singleton _ _, ?_⟩, ?_⟩
      · intro old member new itself
        rw [List.mem_singleton.mp itself, last]
        exact past old member
      · intro seen' member
        rcases List.mem_append.mp member with old | new
        · exact goesOn (past seen' old)
        · rw [List.mem_singleton.mp new]
          exact goesOn (Nat.le_of_eq last)

end Traffic
end PushGateway.Socket
