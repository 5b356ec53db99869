import Mathlib.Data.List.Basic
import PushGateway.Proofs.Socket.Threads

namespace PushGateway.Socket

namespace Task

def hasLock : Task → Bool
  | reading _ (.received _) | reading _ .tries => true
  | writing _ .enters | writing _ .sends | writing _ (.sent _) => true
  | _ => false

/-- It can only go on with the lock. -/
def needsLock : Task → Bool
  | reading _ .waits | writing _ .waits => true
  | _ => false

theorem needsLock_of_hasLock {task : Task} (has : task.hasLock = true) : task.needsLock = false := by
  cases task with
  | idle => cases has
  | reading _ stage | writing _ stage => cases stage <;> first | rfl | cases has

end Task

variable {limit : Option Duration} {now thread : Nat} {threads : UInt64} {s s' : Shared} {t : Traffic}
  {task task' : Task} {act : Act} {history : List Event}

/-- The lock goes to a thread only when no other has it. -/
theorem Task.Next.locking (next : task.Next limit act task') (shared : s.Next thread act s') :
    (s.holder = none ∧ s'.holder = some thread ∧ task'.hasLock = true) ∨
    (task.hasLock = true ∧ task'.hasLock = false ∧ s'.holder = none) ∨
    (task'.hasLock = task.hasLock ∧ s'.holder = s.holder) := by
  cases next with
  | beginsRead | endsRead | beginsWrite | endsWrite =>
    cases shared
    exact .inr (.inr ⟨rfl, rfl⟩)
  | reads step =>
    cases step with
    | locks =>
      cases shared with
      | lock free => exact .inl ⟨free, rfl, rfl⟩
      | shows never => exact never.elim
    | brings | bringsNothing =>
      cases shared with
      | unlock => exact .inr (.inl ⟨rfl, rfl, rfl⟩)
      | shows never => exact never.elim
    | receives | findsClosed | findsOpen | findsOpenTimed | isLate | isInTime | findsNobody | findsWriters | wakes =>
      cases shared
      exact .inr (.inr ⟨rfl, rfl⟩)
  | writes step =>
    cases step with
    | locks =>
      cases shared with
      | lock free => exact .inl ⟨free, rfl, rfl⟩
      | shows never => exact never.elim
    | unlocks =>
      cases shared with
      | unlock => exact .inr (.inl ⟨rfl, rfl, rfl⟩)
      | shows never => exact never.elim
    | announces | withdraws | findsClosed | findsOpen | sends =>
      have same : s'.holder = s.holder := by cases shared <;> rfl
      exact .inr (.inr ⟨rfl, same⟩)

/-- A thread can go on, unless it waits for a lock that is held. -/
theorem Task.goes_on (limit : Option Duration) (task : Task) (thread : Nat) (s : Shared)
    (free : task.needsLock = true → s.holder = none) :
    ∃ act task' s', task.Next limit act task' ∧ s.Next thread act s' := by
  cases task with
  | idle => exact ⟨_, _, _, .beginsRead s.now, .shows rfl⟩
  | reading started stage =>
    have read {act : Act} {stage' : Reading} {s' : Shared} (step : stage.Next limit started act stage')
        (seen : s.Next thread act s') :
        ∃ act task' s', (reading started stage).Next limit act task' ∧ s.Next thread act s' :=
      ⟨act, _, s', .reads step, seen⟩
    cases stage with
    | waits => exact read .locks (.lock (free rfl))
    | tries => exact read (.receives (.error nothingYet)) (.shows trivial)
    | received answer =>
      cases nothing : isNothing answer with
      | true => exact read (.bringsNothing nothing) .unlock
      | false => exact read (.brings nothing) .unlock
    | looks =>
      cases isOpen : s.isOpen with
      | false => exact read .findsClosed (.shows isOpen.symm)
      | true =>
        by_cases untimed : limit = none
        · exact read (.findsOpen untimed) (.shows isOpen.symm)
        · exact read (.findsOpenTimed untimed) (.shows isOpen.symm)
    | times =>
      cases late : isOver limit (s.now - started) with
      | true => exact read (.isLate late) (.shows rfl)
      | false => exact read (.isInTime late) (.shows rfl)
    | counts =>
      by_cases nobody : s.waiting = 0
      · exact read .findsNobody (.shows nobody.symm)
      · exact read (.findsWriters nobody) (.shows rfl)
    | naps => exact read .wakes (.shows trivial)
    | answers answer => exact ⟨_, _, _, .endsRead, .shows trivial⟩
  | writing bytes stage =>
    have write {act : Act} {stage' : Writing} {s' : Shared} (step : stage.Next bytes act stage')
        (seen : s.Next thread act s') :
        ∃ act task' s', (writing bytes stage).Next limit act task' ∧ s.Next thread act s' :=
      ⟨act, _, s', .writes step, seen⟩
    cases stage with
    | looks =>
      cases isOpen : s.isOpen with
      | false => exact write .findsClosed (.shows isOpen.symm)
      | true => exact write .findsOpen (.shows isOpen.symm)
    | announces => exact write .announces .announce
    | waits => exact write .locks (.lock (free rfl))
    | enters => exact write .withdraws .withdraw
    | sends => exact write (.sends (.ok ())) (.shows trivial)
    | sent answer => exact write .unlocks .unlock
    | answers answer => exact ⟨_, _, _, .endsWrite, .shows trivial⟩

namespace Traffic

/-- The lock is held by the thread that has got it, and by no other. -/
theorem holder_eq_some_iff (course : Leads (Next limit) (.start now threads) history t) :
    t.shared.holder = some thread ↔ ∃ task, t.tasks[thread]? = some task ∧ task.hasLock = true := by
  induction course generalizing thread with
  | start =>
    refine iff_of_false nofun ?_
    rintro ⟨task, there, has⟩
    have idle : task = .idle := (List.mem_replicate.mp (List.mem_of_getElem? there)).2
    rw [idle] at has
    cases has
  | @next before _ _ _ _ step ih =>
    cases step with
    | shutDown => exact ih
    | passes => exact ih
    | @acts other act old new shared standing next seen =>
      rw [getElem?_put standing]
      change shared.holder = some thread ↔ _
      by_cases same : other = thread
      · subst same
        have own (task : Task) : (∃ task', some task = some task' ∧ task'.hasLock = true) ↔ task.hasLock = true := by
          simp
        have had : before.shared.holder = some other ↔ old.hasLock = true := by
          rw [ih, standing, own]
        rw [if_pos rfl, own]
        rcases next.locking seen with ⟨-, gets, has⟩ | ⟨-, lost, free⟩ | ⟨still, kept⟩
        · exact iff_of_true gets has
        · exact iff_of_false (by rw [free]; nofun) (by rw [lost]; nofun)
        · rw [kept, still, had]
      · rw [if_neg same, ← ih]
        rcases next.locking seen with ⟨free, gets, -⟩ | ⟨had, -, free⟩ | ⟨-, kept⟩
        · rw [free, gets]
          exact iff_of_false (fun others => same (Option.some.inj others)) nofun
        · -- two threads cannot both have had it
          have others := ih.mpr ⟨old, standing, had⟩
          rw [free, others]
          exact iff_of_false nofun fun both => same (Option.some.inj both)
        · rw [kept]

/-- Nothing comes to a standstill: a thread can go on, or else the one that has the lock can. -/
theorem goes_on (course : Leads (Next limit) (.start now threads) history t) (there : t.tasks[thread]? = some task) :
    ∃ other act t', Next limit t (.acts other act) t' ∧ (other ≠ thread → t.shared.holder = some other) := by
  have acts {thread : Nat} {task : Task} (there : t.tasks[thread]? = some task)
      (free : task.needsLock = true → t.shared.holder = none) : ∃ act t', Next limit t (.acts thread act) t' := by
    obtain ⟨act, task', s', next, seen⟩ := task.goes_on limit thread t.shared free
    exact ⟨act, _, .acts there next seen⟩
  cases held : t.shared.holder with
  | none =>
    obtain ⟨act, t', step⟩ := acts there fun _ => held
    exact ⟨thread, act, t', step, fun other => absurd rfl other⟩
  | some other =>
    obtain ⟨task', there', has⟩ := (holder_eq_some_iff course).mp held
    have inside := Task.needsLock_of_hasLock has
    obtain ⟨act, t', step⟩ := acts there' fun outside => by rw [inside] at outside; cases outside
    exact ⟨other, act, t', step, fun _ => rfl⟩

end Traffic
end PushGateway.Socket
